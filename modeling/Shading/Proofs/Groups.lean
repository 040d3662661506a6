import Shading.Proofs.EntryPoints
import Shading.Proofs.SectionGrowth

/-!
# What a group gains

A group consists of the nodes that its terminal depends on.  Its flags are those of these nodes, and
nothing else that is done for it touches them: the engine is told about layers, parameters and
connections, and the nodes are done one by one.
-/

namespace Shading

open GroupContext GroupM Moves Network OrderedSet

namespace GroupContext

variable {ctx : GroupContext} {n d : NodeId}

/-- The nodes that feed a node in the group. -/
abbrev sources (ctx : GroupContext) : NodeId → List NodeId := ctx.graph.net.sources ctx.skips

def flagsOf (ctx : GroupContext) (n : NodeId) : ShaderFlags :=
  (ctx.graph.net.kind? n).elim ⊥ (ctx.nodeFlags n)

end GroupContext

variable {ctx : GroupContext} {s s' s'' : GroupState} {id n root : NodeId} {α β : Type} {o : Nat}
  {net : Network}

/-! ## The engine -/

/-- Nothing has changed but what the engine was told. -/
def Told (s s' : GroupState) : Prop := s' = { s with host := s'.host }

instance : IsPreorder GroupState Told where
  refl _ := rfl
  trans s t u h h' := by
    rw [Told, h']
    rw [h]

lemma GroupM.ofGraph_eq_ok {x : Except GraphError α} {a : α} :
    ofGraph x s = .ok a s' ↔ x = .ok a ∧ s' = s := by
  cases x with
  | ok b =>
    change EStateM.Result.ok b s = .ok a s' ↔ _
    simp [eq_comm]
  | error e =>
    change EStateM.Result.error (GroupFault.error (.graph e)) s = .ok a s' ↔ _
    simp

lemma moves_tell (call : Recorder → Except Rejection Recorder) : Moves Told (tell call) := by
  intro s u s' h
  obtain ⟨t, _, hget, hcall⟩ := bind_eq_ok.1 h
  cases hget
  cases hc : call s.host.recorder with
  | ok recorder =>
    rw [hc] at hcall
    cases hcall
    rfl
  | error e =>
    rw [hc] at hcall
    cases hcall

/-! ### Steps of a group -/

/-- The step keeps `I`, and if it fails its fault satisfies `E`. -/
abbrev GroupM.Retains (I : GroupState → Prop) (E : GroupFault → GroupState → Prop)
    (m : GroupM α) : Prop := Triple I m (fun _ => I) E

/-- The sources of the scripts of a network. -/
def Network.Scripts (net : Network) (source : ScriptSource) : Prop :=
  ∃ n, net.kind? n = some (.script source)

/-- `I` is kept when the engine is told about a layer and when an image is registered.  All faults
satisfy `E`, and a crash has to do so only if a link starts at the missing output. -/
structure GroupContext.Telling (ctx : GroupContext) (I : GroupState → Prop)
    (E : GroupFault → GroupState → Prop) : Prop where
  parameter : ∀ name value, (GroupM.bind name value).Retains I E
  shader : ∀ shader layer, (tell (·.shader ctx.entry.usage shader layer)).Retains I E
  connect : ∀ source output layer input, (tell (·.connect source output layer input)).Retains I E
  image : ∀ slot, (registerImage slot).Retains I E
  error : ∀ {e s}, (∀ n o, e = .crash n o → ∃ id i node,
    ctx.graph.net.inputLink? id i = some (n, o) ∧ ctx.graph.net.node? n = some node ∧
      node.outputs[o]? = none) → I s → E e s

namespace GroupContext.Telling

variable {I : GroupState → Prop} {E : GroupFault → GroupState → Prop} (h : ctx.Telling I E)
  {node : Node}
include h

lemma ofGraph_bind {x : Except GraphError α} {f : α → GroupM β}
    (hf : ∀ a, x = .ok a → (f a).Retains I E) : (ofGraph x >>= f).Retains I E := by
  cases x with
  | ok a => exact hf a rfl
  | error e => exact fun s hs => h.error (fun n o he => by cases he) hs

lemma bindKind (background : Bool) (kind : NodeKind) : (bindKind background kind).Retains I E := by
  cases kind
  case textureCoordinate fromDupli transform =>
    refine (h.parameter _ _).bind fun _ => (h.parameter _ _).bind fun _ =>
      (h.parameter _ _).bind fun _ => ?_
    cases transform with
    | none => exact .pure fun _ hs => hs
    | some t => exact h.parameter _ _
  case imageTexture slot filename colorspace =>
    exact (h.image _).bind fun _ => (h.parameter _ _).bind fun _ => h.parameter _ _
  all_goals first
    | exact .pure fun _ hs => hs
    | exact h.parameter _ _
    | exact (h.parameter _ _).bind fun _ => h.parameter _ _

lemma bindInput (input : Nat) (socket : Input) :
    (ctx.bindInput id node input socket).Retains I E := by
  refine .ite (fun _ => .pure fun _ hs => hs) fun _ => ?_
  dsimp only
  split
  · exact h.parameter _ _
  · exact .throw fun _ => h.error fun n o he => by cases he

lemma connectInput (input : Nat) (socket : Input) :
    (ctx.connectInput id node input socket).Retains I E := by
  refine .ite (fun _ => .pure fun _ hs => hs) fun _ => ?_
  cases hl : ctx.net.inputLink? id input with
  | none => exact .pure fun _ hs => hs
  | some link =>
    refine .of_get fun s => .ite (fun _ => .pure fun _ hs => hs) fun _ =>
      h.ofGraph_bind fun source hsource => ?_
    split
    · rename_i hnone
      refine .throw fun _ => h.error ?_
      rintro _ _ ⟨⟩
      exact ⟨id, input, source, hl, Graph.require_eq_ok_iff.1 hsource, hnone⟩
    · exact h.connect _ _ _ _

lemma addLayer (shader : String) : (ctx.addLayer id node shader).Retains I E :=
  (Triple.forM fun _ _ => h.bindInput _ _).bind fun _ => (h.shader _ _).bind fun _ =>
    .forM fun _ _ => h.connectInput _ _

lemma addScript (hframe : ∀ {s s' : GroupState}, s'.host = s.host → s'.done = s.done → I s → I s')
    {source : ScriptSource} (hload : (loadScript source).Retains I E) :
    (ctx.addScript id node source).Retains I E := by
  refine hload.bind fun key => ?_
  cases key with
  | none => exact .modify fun _ => hframe rfl rfl
  | some key =>
    refine (h.addLayer _).bind fun _ => .ite (fun _ => .of_get fun s => ?_) fun _ =>
      .pure fun _ hs => hs
    split
    · exact .modify fun _ => hframe rfl rfl
    · exact .pure fun _ hs => hs

lemma addNode (hscript : ∀ {node source}, ctx.net.node? id = some node →
    node.kind = .script source → (ctx.addScript id node source).Retains I E) :
    (ctx.addNode id).Retains I E := by
  refine h.ofGraph_bind fun node hnode => ?_
  split
  · exact hscript (Graph.require_eq_ok_iff.1 hnode) ‹_›
  · exact (h.bindKind _ _).bind fun _ => h.addLayer _

/-- What loading a script keeps and does not depend on anything but the engine is kept by all that is
done for a group. -/
lemma addAll (hframe : ∀ {s s' : GroupState}, s'.host = s.host → I s → I s')
    (hload : ∀ {source}, ctx.net.Scripts source → (loadScript source).Retains I E) :
    ctx.addAll.Retains I E := by
  have hadd : ∀ n, (ctx.addNode n).Retains I E := fun n => h.addNode fun hn hk =>
    h.addScript (fun hh _ => hframe hh) (hload ⟨n, (kind?_of_node? hn).trans (congrArg some hk)⟩)
  refine h.ofGraph_bind fun _ _ => .of_get fun s => (Emission.keeps_run (fun _ _ => h.error
    fun n o he => by cases he) (fun n _ => ?_) 0).bind fun _ => hadd _
  refine (hadd n).bind fun _ => .of_get fun t => .ite (fun _ => h.ofGraph_bind fun node _ => ?_)
    fun _ => .modify fun _ => hframe rfl
  exact .bind (Q := fun _ => I) (.modify fun _ => hframe rfl) fun _ =>
    .bind (Q := fun _ => I) (.modify fun _ => hframe rfl) fun _ => .modify fun _ => hframe rfl

end GroupContext.Telling

/-- Telling the engine something keeps what does not depend on it. -/
lemma telling_of_told {I : GroupState → Prop} (hI : ∀ {s s'}, Told s s' → I s → I s') :
    ctx.Telling I fun _ _ => True where
  parameter _ _ := (moves_tell _).keeps hI
  shader _ _ := (moves_tell _).keeps hI
  connect _ _ _ _ := (moves_tell _).keeps hI
  image _ _ hs := hI rfl hs
  error _ _ := trivial

lemma moves_addNode (hs : ∀ source, ctx.net.kind? id ≠ some (.script source)) :
    Moves Told (ctx.addNode id) := by
  intro s u s' h
  have htell : ctx.Telling (Told s) fun _ _ => True := telling_of_told fun h h' => trans_of Told h' h
  exact (htell.addNode fun hn hk => absurd ((kind?_of_node? hn).trans (congrArg some hk))
    (hs _)).of_ok (refl_of Told s) h

/-! ## Nodes -/

variable {S : NodeId → Prop}

/-- Nodes have been added, with their flags as long as no script is left out. -/
structure Adds (ctx : GroupContext) (nodes : List NodeId) (s s' : GroupState) : Prop where
  done : ∀ n, n ∈ s'.done ↔ n ∈ s.done ∨ n ∈ nodes
  flags : s.absent = .empty → s'.absent = .empty ∧
    ∀ f, s'.flags ≤ f ↔ s.flags ≤ f ∧ ∀ n ∈ nodes, ctx.flagsOf n ≤ f

def Added (ctx : GroupContext) (S : NodeId → Prop) (s s' : GroupState) : Prop :=
  ∃ nodes, (∀ n ∈ nodes, S n) ∧ Adds ctx nodes s s'

lemma Told.added (h : Told s s') : Added ctx S s s' := by
  rw [h]
  exact ⟨[], by simp, by simp, fun ha => ⟨ha, by simp⟩⟩

instance : IsPreorder GroupState (Added ctx S) where
  refl s := (refl_of Told s).added
  trans s t u := by
    rintro ⟨nodes, hS, h⟩ ⟨nodes', hS', h'⟩
    refine ⟨nodes ++ nodes', List.forall_mem_append.2 ⟨hS, hS'⟩, fun n => ?_, fun ha => ?_⟩
    · rw [h'.done, h.done, List.mem_append, or_assoc]
    · obtain ⟨ht, hf⟩ := h.flags ha
      obtain ⟨hu, hf'⟩ := h'.flags ht
      refine ⟨hu, fun f => ?_⟩
      rw [hf', hf, List.forall_mem_append, and_assoc]

namespace GroupContext

def finish (ctx : GroupContext) (n : NodeId) (node : Node) (s : GroupState) : GroupState :=
  { s with
    flags := s.flags.union (ctx.nodeFlags n node.kind)
    requests := ctx.graph.addAttributes ctx.background s.requests n
    done := s.done.insert n }

end GroupContext

/-- What is left to do for a node that was added: it gets its flags and attributes, unless it was
left out. -/
lemma emitNode_eq_ok_iff : ctx.emitNode n s = .ok ⟨⟩ s' ↔
    ∃ node t, ctx.net.node? n = some node ∧ ctx.addNode n s = .ok ⟨⟩ t ∧
      s' = if t.absent.contains n then { t with done := t.done.insert n }
        else ctx.finish n node t := by
  have hrun : ∀ {node t}, ctx.net.node? n = some node → ctx.addNode n s = .ok ⟨⟩ t →
      ctx.emitNode n s = .ok ⟨⟩ (if t.absent.contains n then { t with done := t.done.insert n }
        else ctx.finish n node t) := by
    intro node t hn hadd
    refine bind_eq_ok.2 ⟨_, t, hadd, bind_eq_ok.2 ⟨t, t, rfl, ?_⟩⟩
    by_cases hc : t.absent.contains n = true
    · rw [if_neg (by simp [hc]), if_pos hc]
      rfl
    · rw [if_pos (by simp [hc]), if_neg hc]
      exact bind_eq_ok.2 ⟨node, t, GroupM.ofGraph_eq_ok.2 ⟨Graph.require_eq_ok_iff.2 hn, rfl⟩, rfl⟩
  constructor
  · intro h
    obtain ⟨_, t, hadd, _⟩ := bind_eq_ok.1 h
    obtain ⟨node, _, hask, _⟩ := bind_eq_ok.1 hadd
    have hn := Graph.require_eq_ok_iff.1 (GroupM.ofGraph_eq_ok.1 hask).1
    cases (hrun hn hadd).symm.trans h
    exact ⟨node, t, hn, hadd, rfl⟩
  · rintro ⟨node, t, hn, hadd, rfl⟩
    exact hrun hn hadd

lemma moves_emitLayer (hs : ∀ source, ctx.net.kind? id ≠ some (.script source)) :
    Moves (Adds ctx [id]) (ctx.emitNode id) := by
  intro s u s' h
  obtain ⟨node, t, hn, hadd, rfl⟩ := emitNode_eq_ok_iff.1 h
  have htold : t = { s with host := t.host } := moves_addNode hs hadd
  have habsent : t.absent = s.absent := by rw [htold]
  have hdone : ∀ n, n ∈ t.done.insert id ↔ n ∈ s.done ∨ n ∈ [id] := by
    intro n
    rw [mem_insert, List.mem_singleton, htold]
  split
  · rename_i hc
    refine ⟨hdone, fun ha => ?_⟩
    rw [habsent, ha] at hc
    cases hc
  · refine ⟨hdone, fun ha => ⟨habsent.trans ha, fun f => ?_⟩⟩
    have hflags : ctx.flagsOf id = ctx.nodeFlags id node.kind := by
      rw [flagsOf, kind?_of_node? hn]
      rfl
    rw [finish, ShaderFlags.union_le_iff, List.forall_mem_singleton, hflags, htold]

/-! ## Groups -/

/-- What was tried and did not fail, if every failure is passed on. -/
lemma eq_ok_of_tryCatch {ε σ : Type} {m : EStateM ε σ α} {f : ε → EStateM ε σ β} {t t' : σ}
    {a : α} (h : tryCatchThe ε m (fun e => f e >>= fun _ => throw e) t = .ok a t') :
    m t = .ok a t' := by
  have hcatch : tryCatchThe ε m (fun e => f e >>= fun _ => throw e) t =
      EStateM.tryCatch m (fun e => f e >>= fun _ => throw e) t := rfl
  rw [hcatch, EStateM.tryCatch] at h
  cases hm : m t with
  | ok b u =>
    rw [hm] at h
    exact h
  | error e u =>
    rw [hm] at h
    obtain ⟨_, _, _, hthrow⟩ := bind_eq_ok.1 h
    cases hthrow

lemma moves_beginGroup (name : String) : Moves Told (beginGroup name) := by
  intro s a s' h
  obtain ⟨t, _, hget, hbegin⟩ := bind_eq_ok.1 h
  cases hget
  cases hb : s.host.recorder.begin name with
  | ok r =>
    rw [hb] at hbegin
    cases hbegin
    rfl
  | error e =>
    rw [hb] at hbegin
    cases hbegin

/-- A node with outputs is of no kind that has none. -/
lemma Network.kind?_ne_of_outputs
    (h : ∃ k, net.kind? n = some k ∧ k.outputs ≠ []) {k : NodeKind} (hk : k.outputs = []) :
    net.kind? n ≠ some k := by
  obtain ⟨l, hl, hout⟩ := h
  rw [hl]
  rintro ⟨⟩
  exact hout hk

lemma Way.exists_outputs {skip : NodeId → Nat → Bool} {P : NodeId → Prop}
    (hv : net.Valid) {a n : NodeId} (w : Way (net.sources skip) P a n)
    (ha : ∃ k, net.kind? a = some k ∧ k.outputs ≠ []) :
    ∃ k, net.kind? n = some k ∧ k.outputs ≠ [] := by
  induction w with
  | here _ => exact ha
  | step _ hab _ ih => exact ih (hv.exists_outputs_of_source hab)

section

variable {out : NodeId} {node : Node} {i : Nat} (hv : ctx.net.Valid)
  (hn : ctx.net.node? out = some node) (hk : node.kind = .output)
  (hi : node.inputIndex? ctx.entry.terminal = some i)
include hv hn hk hi

lemma skips_terminal : ctx.skips out i = false := by
  have hst := hv.standard hn
  have hshape := hst.shape_getElem? i
  rw [hst.inputIndex?, hk] at hi
  have hsocket : ∃ socket, node.inputs[i]? = some socket ∧ socket.internal = false ∧
      socket.name = ctx.entry.terminal := by
    rw [hk] at hshape
    cases he : ctx.entry <;> rw [he] at hi <;> obtain rfl := Option.some.inj hi <;>
      obtain ⟨socket, hs, hsh⟩ := Option.map_eq_some_iff.1 hshape <;>
      exact ⟨socket, hs, congrArg (fun x => x.2.2) hsh, congrArg Prod.fst hsh⟩
  obtain ⟨socket, hs, hint, hname⟩ := hsocket
  have hspecial : node.kind.special = .output := by rw [hk]; rfl
  simp [skips, hn, hs, hint, hspecial, hname]

/-- What the terminal of a group depends on is what feeds it, directly or not. -/
lemma mem_dependencies_terminal (hl : ctx.net.inputLink? out i = some (root, o)) :
    n ∈ ctx.net.dependencies ctx.skips (OrderedSet.contains .empty) .empty out i none ↔
      Way ctx.sources (fun _ => True) root n := by
  rw [hv.mem_dependencies_iff, hl]
  constructor
  · rintro ⟨d, o', _, hd, w⟩
    cases hd
    exact w.mono fun _ _ => trivial
  · exact fun w => ⟨root, o, skips_terminal hv hn hk hi, rfl, w.mono fun _ _ => ⟨rfl, by simp⟩⟩

end

/-- What the terminal of a group depends on is added, and nothing else. -/
lemma addAll_eq_ok (hs : ctx.graph.Supplies ctx.entry root o)
    (hdone : s.done = .empty) {u : Unit} (h : ctx.addAll s = .ok u s') :
    Added ctx (Way ctx.sources (fun _ => True) root) s s' ∧
      ∀ n, Way ctx.sources (fun _ => True) root n → n ∈ s'.done := by
  obtain ⟨hv, hout, hl⟩ := hs
  obtain ⟨⟨i, socket⟩, s₀, hask, h₁⟩ := bind_eq_ok.1 h
  obtain ⟨hi, hs₀⟩ := GroupM.ofGraph_eq_ok.1 hask
  rw [hs₀] at h₁
  obtain ⟨_, _, hget, h₂⟩ := bind_eq_ok.1 h₁
  cases hget
  obtain ⟨passes, t, hrun, hend⟩ := bind_eq_ok.1 h₂
  obtain ⟨node, hn, hidx, hx⟩ := Graph.requireInput_eq_ok hi
  have hlink : ctx.net.inputLink? ctx.graph.output i = some (root, o) := by
    simpa [inputLinkByName?, hn, hidx] using hl
  have hroot := hv.exists_outputs hlink
  have hmem : ∀ n, n ∈ ctx.net.dependencies ctx.skips s.done.contains .empty
      ctx.graph.output i none ↔ Way ctx.sources (fun _ => True) root n := by
    rw [hdone]
    exact fun n => mem_dependencies_terminal hv hn
      (Option.some.inj ((kind?_of_node? hn).symm.trans hout)) hidx hlink
  have hemit : ∀ n ∈ (ctx.net.dependencies ctx.skips s.done.contains .empty
      ctx.graph.output i none).toList, Moves (Adds ctx [n]) (ctx.emission.emit n) := by
    intro n hn
    refine moves_emitLayer fun source => kind?_ne_of_outputs ?_ rfl
    exact ((hmem n).1 hn).exists_outputs hv hroot
  have hadded : Added ctx (Way ctx.sources (fun _ => True) root) s t := by
    refine Emission.moves_run (fun n hn => (hemit n hn).mono fun h => ⟨[n], ?_, h⟩) _ hrun
    rw [List.forall_mem_singleton]
    exact (hmem n).1 hn
  have htold : Told t s' := moves_addNode (by simp [hout]) hend
  refine ⟨trans_of (Added ctx _) hadded htold.added, fun n hn => ?_⟩
  have hlast : ctx.emission.isDone t n = true := by
    obtain ⟨_, hl⟩ := Emission.exists_leaves_of_run hrun
    refine ((hl.keeps (I := fun _ => True) (fun n hn s s' _ _ _ h => ?_) trivial).2.2 n
      ((hmem n).2 hn)).resolve_left List.not_mem_nil
    have hdone := (hemit n hn h).done
    exact ⟨trivial, contains_iff.2 ((hdone n).2 (.inr List.mem_cons_self)),
      fun m hm => contains_iff.2 ((hdone m).2 (.inl (contains_iff.1 hm)))⟩
  rw [htold]
  exact contains_iff.1 hlast

/-- A finished group has the flags of the nodes that its terminal depends on. -/
theorem flags_of_build_eq_ok (hs : ctx.graph.Supplies ctx.entry root o)
    {name : String} {host : EngineHost} {group : GroupId}
    (h : ctx.build name { host } = .ok group s') {f : ShaderFlags} :
    s'.flags ≤ f ↔ ∀ n, Way ctx.sources (fun _ => True) root n → ctx.flagsOf n ≤ f := by
  obtain ⟨_, s₁, hbegin, h₁⟩ := bind_eq_ok.1 h
  obtain ⟨_, s₂, htry, h₂⟩ := bind_eq_ok.1 h₁
  obtain ⟨_, s₃, hclose, hend⟩ := bind_eq_ok.1 h₂
  cases hend
  have hopened : s₁ = { ({ host } : GroupState) with host := s₁.host } :=
    moves_beginGroup name hbegin
  have hclosed : s' = { s₂ with host := s'.host } := moves_tell _ hclose
  obtain ⟨⟨nodes, hS, hadds⟩, hall⟩ := addAll_eq_ok hs (by rw [hopened]) (eq_ok_of_tryCatch htry)
  obtain ⟨_, hf⟩ := hadds.flags (by rw [hopened])
  have hstart : s₁.flags ≤ f := by
    rw [hopened]
    exact bot_le
  rw [hclosed, hf, and_iff_right hstart]
  refine ⟨fun h n hn => h n ?_, fun h n hn => h n (hS n hn)⟩
  refine ((hadds.done n).1 (hall n hn)).resolve_left ?_
  rw [hopened]
  exact not_mem_empty n

end Shading
