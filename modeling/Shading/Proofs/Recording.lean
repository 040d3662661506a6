import Shading.Proofs.GroupCalls

/-!
# Recorded groups

A shader is compiled to groups in an engine that keeps a record of what it is told.  Between the
beginning of a group and its end stand the layers of the nodes that the terminal depends on, each
after the layers that it is connected to, and then the layer of the output node.  Nothing that the
engine is told is refused, so that no entry point fails and no group stays open.

What the engine hears about the nodes of a group is a stack of layers, each of which mirrors its
node and is connected to layers below it (`Stacked`).  Such a stack is taken (`Stacked.takesAll`).
-/

namespace Shading

open GroupContext List Moves Network Recorder

variable {ctx : GroupContext} {n root d : NodeId} {node : Node} {o : Nat} {r : Recorder}
  {s : GroupState} {l : LayerRecord} {stack : List LayerRecord}

/-! ## Stacks of layers -/

/-- Layers that mirror their nodes, each of them above those of its sources. -/
structure GroupContext.Stacked (ctx : GroupContext) (stack : List LayerRecord) : Prop where
  mirrors : ∀ l ∈ stack, ∃ node, ctx.Mirrors l node
  nodup : (stack.map LayerRecord.node).Nodup
  sourcesFirst : SourcesFirst ctx.sources (stack.map LayerRecord.node)

namespace GroupContext.Stacked

variable {below above : List LayerRecord}

lemma nodup_names (h : ctx.Stacked stack) : (stack.map LayerRecord.name).Nodup := by
  refine pairwise_map.2 ((pairwise_map.1 h.nodup).imp_of_mem fun hl hl' hne hname => ?_)
  obtain ⟨node, hm⟩ := h.mirrors _ hl
  obtain ⟨node', hm'⟩ := h.mirrors _ hl'
  rw [hm.name, hm'.name] at hname
  exact hne (Node.eq_of_layerName_eq hname)

/-- A layer is connected to layers below it. -/
lemma exists_below (h : ctx.Stacked stack) (hv : ctx.net.Valid)
    (hsplit : stack = below ++ l :: above) {call : EngineCall} (hc : call ∈ l.connections) :
    ∃ source ∈ below, ∃ output input, call = .connect source.name output l.name input := by
  obtain ⟨node, hm⟩ := h.mirrors l (by simp [hsplit])
  obtain ⟨⟨i, d, o⟩, hlink, input, source, result, _, hsource, _, rfl⟩ := hm.exists_link hc
  have hd : d ∈ ctx.sources l.node := by
    obtain ⟨hskip, hl⟩ := (hm.links i d o).1 hlink
    exact hv.mem_sources.2 ⟨i, o, hskip, hl⟩
  obtain ⟨l', hl', rfl⟩ := mem_map.1 <|
    h.sourcesFirst (below.map LayerRecord.node) l.node (above.map LayerRecord.node)
      (by simp [hsplit]) d hd
  obtain ⟨node', hm'⟩ := h.mirrors l' (by simp [hsplit, hl'])
  cases hm'.found.symm.trans hsource
  refine ⟨l', hl', source.engineOutput result.name, node.engineInput input.name, ?_⟩
  rw [hm'.name, hm.name]

lemma takesAll (h : ctx.Stacked (below ++ stack)) (hv : ctx.net.Valid)
    (hr : ∀ x, x ∈ r.layers ↔ x ∈ below.map LayerRecord.name) :
    r.TakesAll (stack.flatMap LayerRecord.calls) := by
  induction stack generalizing below r with
  | nil => trivial
  | cons l stack ih =>
    obtain ⟨node, hm⟩ := h.mirrors l (by simp)
    have hlayers : ∀ x, x ∈ (r.told (l.parameters.map parameterCall)).layers ↔
        x ∈ below.map LayerRecord.name := by
      intro x
      rw [← hr]
      simp [mem_layers_told, filterMap_map, Function.comp_def, EngineCall.layer?]
    have hnew : l.name ∉ below.map LayerRecord.name := by
      intro hmem
      have hnodup := h.nodup_names
      rw [map_append] at hnodup
      exact (nodup_append.1 hnodup).2.2 _ hmem _ mem_cons_self rfl
    rw [flatMap_cons, takesAll_append, LayerRecord.calls, takesAll_append]
    refine ⟨⟨takesAll_parameters hm.consistent, ?_, takesAll_connections ?_⟩, ?_⟩
    · exact fun hmem => hnew ((hlayers _).1 hmem)
    · intro call hc
      obtain ⟨source, hsource, output, input, rfl⟩ := h.exists_below hv rfl hc
      refine ⟨_, _, _, _, rfl, ?_, ?_⟩ <;> rw [mem_layers_told, hlayers]
      · exact .inl (mem_map.2 ⟨source, hsource, rfl⟩)
      · exact .inr mem_cons_self
    · rw [append_cons] at h
      refine ih h fun x => ?_
      have hcalls := hm.filterMap_calls
      rw [LayerRecord.calls] at hcalls
      rw [mem_layers_told, hcalls, hr, map_append, mem_append, map_singleton]

end GroupContext.Stacked

/-- In a valid network what the engine hears about nodes that no scripts feed are their layers. -/
lemma exists_heard_eq (hv : ctx.net.Valid) {nodes : List NodeId}
    (hnodes : ∀ n ∈ nodes, ∃ node, ctx.net.node? n = some node)
    (hfree : ∀ n ∈ nodes, ∀ d ∈ n :: ctx.sources n, ctx.net.isScript d = false)
    (image : Nat) :
    ∃ stack : List LayerRecord, stack.map LayerRecord.node = nodes ∧
      stack.flatMap LayerRecord.calls = ctx.heard image nodes ∧
        ∀ l ∈ stack, ∃ node, ctx.Mirrors l node := by
  induction nodes generalizing image with
  | nil => exact ⟨[], rfl, rfl, by simp⟩
  | cons n nodes ih =>
    obtain ⟨⟨node, hn⟩, hrest⟩ := forall_mem_cons.1 hnodes
    obtain ⟨hown, hfree⟩ := forall_mem_cons.1 hfree
    obtain ⟨hscript, hsources⟩ := forall_mem_cons.1 hown
    obtain ⟨stack, hmap, hcalls, hmirrors⟩ :=
      ih hrest hfree (if ctx.net.isImage n then image + 1 else image)
    set settings := node.kind.settings ctx.background (Textures.imageName image)
    have hm : ctx.Mirrors (ctx.layer n node settings) node := mirrors_layer hv hn
      (node.kind.sublist_settings ..) (node.kind.isConsistent_settings _ _)
    have hlayer : ctx.heardOf image n = (ctx.layer n node settings).calls := by
      rw [heardOf_eq hn ((isScript_eq hn).symm.trans hscript),
        (@layerWithout_congr ctx n node image _ (fun _ => false) hn hsources).1, layerWithout]
      simp only [keptConnection?_false]
      rfl
    refine ⟨ctx.layer n node settings :: stack, ?_, ?_, forall_mem_cons.2 ⟨⟨node, hm⟩, hmirrors⟩⟩
    · rw [map_cons, hmap]
      rfl
    · rw [flatMap_cons, hcalls, heard, hlayer]

/-! ## Groups -/

/-- Only what its terminal is linked to feeds the output node. -/
lemma eq_of_mem_sources_output (hv : ctx.net.Valid)
    (hn : ctx.net.node? n = some node) (hk : node.kind = .output) {i : Nat}
    (hi : node.inputIndex? ctx.entry.terminal = some i)
    (hl : ctx.net.inputLink? n i = some (root, o)) (hd : d ∈ ctx.sources n) :
    d = root := by
  obtain ⟨j, o', hskip, hlink⟩ := hv.mem_sources.1 hd
  obtain ⟨input', hj, _, hname⟩ := exists_input_of_skips hn hskip
  obtain ⟨hlt, hterminal, _⟩ := findIdx?_eq_some_iff_getElem.1 hi
  have hij : i = j := by
    refine (hv.standard hn).index_eq (getElem?_eq_getElem hlt) hj ?_
    rw [beq_iff_eq.1 hterminal, hname hk]
  rw [← hij, hl] at hlink
  cases hlink
  rfl

section

variable (hs : ctx.graph.Supplies ctx.entry root o)
include hs

lemma exists_terminal_link : ∃ node i, ctx.net.node? ctx.graph.output = some node ∧
    node.kind = .output ∧ node.inputIndex? ctx.entry.terminal = some i ∧ ctx.terminal? = some i ∧
      ctx.net.inputLink? ctx.graph.output i = some (root, o) := by
  obtain ⟨node, hn, hk⟩ := kind?_eq_some_iff.1 hs.output
  obtain ⟨i, hidx, hlink⟩ : ∃ i, node.inputIndex? ctx.entry.terminal = some i ∧
      ctx.net.inputLink? ctx.graph.output i = some (root, o) := by
    simpa [inputLinkByName?, hn, Option.bind_eq_some_iff] using hs.link
  exact ⟨node, i, hn, hk, hidx, by simp [terminal?, hn, hidx], hlink⟩

lemma mem_body : n ∈ ctx.body ↔ Way ctx.sources (fun _ => True) root n := by
  obtain ⟨node, i, hn, hk, hidx, hterminal, hlink⟩ := exists_terminal_link hs
  rw [body_eq hterminal rfl]
  exact mem_dependencies_terminal hs.valid hn hk hidx hlink

/-- Nodes of the body have outputs to be connected. -/
lemma exists_outputs_of_mem_body (hn : n ∈ ctx.body) :
    ∃ k, ctx.net.kind? n = some k ∧ k.outputs ≠ [] := by
  obtain ⟨_, i, _, _, _, _, hlink⟩ := exists_terminal_link hs
  exact ((mem_body hs).1 hn).exists_outputs hs.valid (hs.valid.exists_outputs hlink)

/-- What feeds a member of a group belongs to its body. -/
lemma mem_body_of_mem_sources (hn : n ∈ ctx.members) (hd : d ∈ ctx.sources n) :
    d ∈ ctx.body := by
  rw [mem_body hs]
  obtain hn | hn := mem_append.1 hn
  · exact ((mem_body hs).1 hn).snoc hd trivial
  · obtain ⟨node, i, hnode, hk, hidx, _, hlink⟩ := exists_terminal_link hs
    rw [mem_singleton.1 hn] at hd
    rw [eq_of_mem_sources_output hs.valid hnode hk hidx hlink hd]
    exact .here trivial

lemma exists_of_mem_members (hn : n ∈ ctx.members) :
    ctx.net.isScript n = false ∧ ∃ node, ctx.net.node? n = some node := by
  obtain hn | hn := mem_append.1 hn
  · obtain ⟨k, hkind, hne⟩ := exists_outputs_of_mem_body hs hn
    obtain ⟨node, hnode, rfl⟩ := kind?_eq_some_iff.1 hkind
    refine ⟨?_, node, hnode⟩
    rw [isScript_eq hnode]
    cases hk : node.kind with
    | script source => exact absurd (by rw [hk]; rfl) hne
    | _ => rfl
  · obtain ⟨node, hnode, hk⟩ := kind?_eq_some_iff.1 hs.output
    rw [mem_singleton.1 hn, isScript_eq hnode, hk]
    exact ⟨rfl, node, hnode⟩

lemma sourcesFirst_body : SourcesFirst ctx.sources ctx.body := by
  obtain ⟨_, i, _, _, _, hterminal, hlink⟩ := exists_terminal_link hs
  obtain ⟨rank, hr⟩ := id hs.valid
  rw [body, hterminal, Option.elim_some]
  have hinside : ∀ n, n ∈ ctx.body → ∀ d ∈ ctx.sources n, d ∈ ctx.body ∧ rank d < rank n := by
    intro n hn d hd
    obtain ⟨i, o, _, hs.link'⟩ := hs.valid.mem_sources.1 hd
    exact ⟨mem_body_of_mem_sources hs (mem_append_left _ hn) hd,
      hr.ranked (feeds_of_inputLink? hs.link')⟩
  refine sourcesFirst_dependencies (fun _ => rfl) hinside (fun n hn => ?_) fun first hfirst _ => ?_
  · obtain ⟨_, node, hnode⟩ := exists_of_mem_members hs (mem_append_left _ hn)
    exact lt_size_of_kind? (kind?_of_node? hnode)
  · obtain ⟨_, _, hfirst⟩ := source?_eq_some_iff.1 hfirst
    cases hlink.symm.trans hfirst
    exact (mem_body hs).2 (.here trivial)

/-- The engine hears of a stack of layers. -/
lemma exists_stack (image : Nat) : ∃ (body : List LayerRecord) (output : LayerRecord),
    ctx.Stacked (body ++ [output]) ∧
    body.map LayerRecord.node = ctx.body ∧ output.node = ctx.graph.output ∧
      (body ++ [output]).flatMap LayerRecord.calls = ctx.heard image ctx.members := by
  have hmem : ∀ {n d}, n ∈ ctx.members → d ∈ ctx.sources n → d ∈ ctx.body :=
    fun hn hd => mem_body_of_mem_sources hs hn hd
  have hnew : ctx.graph.output ∉ ctx.body := fun hn =>
    kind?_ne_of_outputs (exists_outputs_of_mem_body hs hn) rfl hs.output
  have hnodup : ctx.members.Nodup := by
    obtain ⟨_, i, _, _, _, hterminal, _⟩ := exists_terminal_link hs
    refine nodup_append.2 ⟨?_, nodup_singleton _, fun a ha b hb hab => ?_⟩
    · rw [body_eq hterminal rfl]
      exact OrderedSet.nodup _
    · rw [hab, mem_singleton.1 hb] at ha
      exact hnew ha
  obtain ⟨stack, hnodes, hcalls, hmirrors⟩ := exists_heard_eq hs.valid
    (fun n hn => (exists_of_mem_members hs hn).2)
    (fun n hn => forall_mem_cons.2 ⟨(exists_of_mem_members hs hn).1, fun d hd =>
      (exists_of_mem_members hs (mem_append_left _ (hmem hn hd))).1⟩) image
  have hstack : ctx.Stacked stack := by
    refine ⟨hmirrors, hnodes ▸ hnodup, hnodes ▸ (sourcesFirst_body hs).snoc fun d hd => ?_⟩
    exact hmem (mem_append_right _ (mem_singleton.2 rfl)) hd
  obtain ⟨body, _, rfl, hbody, hlast⟩ := map_eq_append_iff.1 hnodes
  obtain ⟨output, rfl, hnode⟩ := map_eq_singleton_iff.1 hlast
  exact ⟨body, output, hstack, hbody, hnode, hcalls⟩

end

/-! ## Beginnings and ends -/

namespace Recorder

variable {r : Recorder}

def begun (r : Recorder) (name : String) : Recorder :=
  { r with
    openGroup := some r.nextGroup
    layers := .empty
    nextGroup := r.nextGroup + 1 }.record (.groupBegin name r.nextGroup)

def ended (r : Recorder) : Recorder := { r with openGroup := none }.record .groupEnd

lemma layers_begun (r : Recorder) (name : String) : (r.begun name).layers = .empty := rfl

lemma begin_eq_ok_iff {name : String} {p : GroupId × Recorder} :
    r.begin name = .ok p ↔ r.openGroup = none ∧ p = (r.nextGroup, r.begun name) := by
  rw [begin]
  cases r.openGroup with
  | none => simp [begun, record, eq_comm]
  | some g => simp

lemma endGroup_of_isSome (h : r.openGroup.isSome = true) : r.endGroup = .ok r.ended := by
  rw [endGroup, requireOpen, if_pos h]
  rfl

end Recorder

variable {host : EngineHost} {name : String} {group : GroupId}

/-- The state in which the nodes of a group are added. -/
def GroupState.opened (host : EngineHost) (name : String) : GroupState :=
  { host := { host with recorder := host.recorder.begun name } }

def GroupState.closed (s : GroupState) : GroupState :=
  { s with host := { s.host with recorder := s.host.recorder.ended } }

section

variable {ε σ α : Type} {m : EStateM ε σ α} {t t' : σ}

lemma tryCatch_eq_ok {a : α} (h : m t = .ok a t') (f : ε → EStateM ε σ α) :
    tryCatchThe ε m f t = .ok a t' := by
  change EStateM.tryCatch m f t = _
  rw [EStateM.tryCatch, h]

lemma tryCatch_of_error {e : ε} (h : m t = .error e t') (f : ε → EStateM ε σ α) :
    tryCatchThe ε m f t = f e t' := by
  change EStateM.tryCatch m f t = _
  rw [EStateM.tryCatch, h]
  rfl

end

section

variable (hclosed : host.recorder.openGroup = none)
include hclosed

lemma beginGroup_eq_ok :
    beginGroup name { host } = .ok host.recorder.nextGroup (.opened host name) := by
  refine bind_eq_ok.2 ⟨_, _, rfl, ?_⟩
  simp only [begin_eq_ok_iff.2 ⟨hclosed, rfl⟩]
  rfl

omit hclosed in
lemma tell_endGroup (hs : s.IsOpen) : GroupM.tell endGroup s = .ok ⟨⟩ s.closed := by
  refine bind_eq_ok.2 ⟨s, s, rfl, ?_⟩
  simp only [endGroup_of_isSome hs]
  rfl

lemma build_of_ok (hadd : ctx.addAll (.opened host name) = .ok ⟨⟩ s) (hs : s.IsOpen) :
    ctx.build name { host } = .ok host.recorder.nextGroup s.closed :=
  bind_eq_ok.2 ⟨_, _, beginGroup_eq_ok hclosed, bind_eq_ok.2
    ⟨⟨⟩, s, tryCatch_eq_ok hadd _, bind_eq_ok.2 ⟨⟨⟩, s.closed, tell_endGroup hs, rfl⟩⟩⟩

/-- A group is closed also if something fails in it. -/
lemma build_of_error {e : GroupFault}
    (hadd : ctx.addAll (.opened host name) = .error e s) (hs : s.IsOpen) :
    ctx.build name { host } = .error e s.closed := by
  unfold build
  rw [bind_of_ok (beginGroup_eq_ok hclosed)]
  refine bind_eq_error.2 (.inl ((tryCatch_of_error hadd _).trans ?_))
  exact bind_of_ok (tryCatch_eq_ok (tell_endGroup hs) _)

/-- A group without scripts that can be told to an engine is built in it. -/
lemma exists_build_of_tellable (hfree : ∀ n ∈ ctx.members, ctx.net.isScript n = false)
    (hsources : ∀ d ∈ ctx.sources ctx.graph.output, ctx.net.isScript d = false)
    (h : ctx.Tellable (host.recorder.begun name) host.textures.slots.size) :
    ∃ t, ctx.build name { host } = .ok host.recorder.nextGroup t ∧ t.host.recorder =
      ((host.recorder.begun name).told (ctx.heard host.textures.slots.size ctx.members)).ended := by
  obtain ⟨t, hadd, hrecorder⟩ :=
    exists_addAll_of_tellable (s := .opened host name) rfl rfl rfl hfree hsources h
  refine ⟨t.closed, build_of_ok hclosed hadd ?_, congrArg ended hrecorder⟩
  rw [GroupState.IsOpen, hrecorder]
  rfl

end

/-- What the engine was told about a group. -/
structure GroupRecord where
  entry : EntryPoint
  group : GroupId
  /-- The layers of the nodes that the terminal depends on. -/
  body : List LayerRecord
  output : LayerRecord

namespace GroupRecord

/-- All layers of a group, the lowest first. -/
def layers (g : GroupRecord) : List LayerRecord := g.body ++ [g.output]

/-- The calls for a group. -/
def calls (name : String) (g : GroupRecord) : List EngineCall :=
  .groupBegin name g.group :: (g.layers.flatMap LayerRecord.calls ++ [.groupEnd])

end GroupRecord

/-- The layer from which a call connects. -/
def EngineCall.fromLayer? : EngineCall → Option String
  | .connect fromLayer .. => some fromLayer
  | _ => none

/-- A group is what the graph says about its terminal. -/
structure GroupContext.Reproduces (ctx : GroupContext) (g : GroupRecord) : Prop where
  /-- The nodes of the body are those that the terminal depends on through inputs that the group
  uses. -/
  body : ∃ root o,
    ctx.graph.net.inputLinkByName? ctx.graph.output ctx.entry.terminal = some (root, o) ∧
      ∀ n, n ∈ g.body.map LayerRecord.node ↔ Way ctx.sources (fun _ => True) root n
  output : g.output.node = ctx.graph.output
  /-- Every node has one layer. -/
  nodup : (g.layers.map LayerRecord.node).Nodup
  nodup_names : (g.layers.map LayerRecord.name).Nodup
  mirrors : ∀ l ∈ g.layers, ∃ node, ctx.Mirrors l node
  /-- A layer is connected to layers below it. -/
  below : ∀ below l above, g.layers = below ++ l :: above → ∀ call ∈ l.connections,
    ∃ source ∈ below, call.fromLayer? = some source.name

lemma exists_build (hs : ctx.graph.Supplies ctx.entry root o)
    (hclosed : host.recorder.openGroup = none) (name : String) :
    ∃ g s', ctx.build name { host } = .ok g.group s' ∧ g.entry = ctx.entry ∧ ctx.Reproduces g ∧
      s'.host.recorder.openGroup = none ∧
      s'.host.recorder.calls.toList = host.recorder.calls.toList ++ g.calls name := by
  obtain ⟨body, output, hstack, hbody, hnode, hcalls⟩ := exists_stack hs host.textures.slots.size
  have hfree : ∀ n ∈ ctx.members, ctx.net.isScript n = false :=
    fun n hn => (exists_of_mem_members hs hn).1
  have htell : ctx.Tellable (host.recorder.begun name) host.textures.slots.size := by
    obtain ⟨_, i, _, _, _, hterminal, _⟩ := exists_terminal_link hs
    refine ⟨by simp [hterminal], sourcesFirst_body hs, fun n hn => ?_, ?_⟩
    · obtain ⟨node, hnode⟩ := (exists_of_mem_members hs hn).2
      exact ⟨node, hnode, fun _ => sayable hs.valid hnode _⟩
    · rw [← hcalls]
      have hbelow : ctx.Stacked ([] ++ (body ++ [output])) := hstack
      exact hbelow.takesAll hs.valid fun x => iff_of_false (OrderedSet.not_mem_empty x) not_mem_nil
  obtain ⟨t, hbuild, hrecorder⟩ := exists_build_of_tellable hclosed hfree (fun d hd =>
    hfree d (mem_append_left _ (mem_body_of_mem_sources hs
      (mem_append_right _ (mem_singleton.2 rfl)) hd))) htell
  rw [← hcalls] at hrecorder
  refine ⟨⟨ctx.entry, host.recorder.nextGroup, body, output⟩, t, hbuild, rfl,
    ⟨⟨root, o, hs.link, fun n => by rw [hbody, mem_body hs]⟩, hnode, hstack.nodup,
      hstack.nodup_names, hstack.mirrors, fun below l above hsplit call hc => ?_⟩, ?_, ?_⟩
  · obtain ⟨source, hsource, _, _, rfl⟩ := hstack.exists_below hs.valid hsplit hc
    exact ⟨source, hsource, rfl⟩
  · rw [hrecorder]
    rfl
  · rw [hrecorder]
    simp [told, begun, ended, record, GroupRecord.calls, GroupRecord.layers]

/-! ## Shaders -/

section

variable {sh : Shader} {background : Bool} {host : EngineHost} {res : GroupResults}
  {e : EntryPoint} {entries : List EntryPoint} {groups : List GroupRecord}

/-- What is on record after some entry points: the groups of those that got one. -/
structure GroupResults.Recorded (sh : Shader) (background : Bool) (host : EngineHost)
    (entries : List EntryPoint) (groups : List GroupRecord) (res : GroupResults) : Prop where
  failures : res.failures = []
  closed : res.host.recorder.openGroup = none
  calls : res.host.recorder.calls.toList =
    host.recorder.calls.toList ++ groups.flatMap (GroupRecord.calls sh.name)
  present : groups.map GroupRecord.entry = entries.filter fun e => (res.groups.get? e).isSome
  later : ∀ e, e ∉ entries → res.groups.get? e = none
  table : ∀ g ∈ groups, res.groups.get? g.entry = some g.group
  reproduces : ∀ g ∈ groups, (sh.groupContext background g.entry).Reproduces g

namespace GroupResults.Recorded

lemma addEntry (h : res.Recorded sh background host entries groups) (hg : sh.graph.Sound)
    (hnew : e ∉ entries) : ∃ groups',
      (res.addEntry sh background e).Recorded sh background host (entries ++ [e]) groups' := by
  by_cases hadmits : res.Admits sh e
  · obtain ⟨⟨root, o⟩, hl⟩ := Option.isSome_iff_exists.1 hadmits.1
    obtain ⟨g, t, hbuild, rfl, hrep, hclosed, hcalls⟩ :=
      @exists_build (sh.groupContext background e) root o _ ⟨hg.valid, hg.output, hl⟩ h.closed
        sh.name
    rw [addEntry_of_admits hadmits, hbuild, addOutcome]
    have hget : ∀ e', (res.addGroup g.entry g.group t).groups.get? e' =
        if e' = g.entry then some g.group else res.groups.get? e' := by
      intro e'
      exact EntryTable.get?_set ..
    have hother : ∀ e' ∈ entries, e' ≠ g.entry := fun e' he' heq => hnew (heq ▸ he')
    refine ⟨groups ++ [g], h.failures, hclosed, ?_, ?_, fun e' he' => ?_, ?_, ?_⟩
    · change t.host.recorder.calls.toList = _
      rw [hcalls, h.calls]
      simp
    · have hkept : entries.filter
          (fun e' => ((res.addGroup g.entry g.group t).groups.get? e').isSome) =
            entries.filter fun e' => (res.groups.get? e').isSome :=
        filter_congr fun e' he' => by rw [hget, if_neg (hother e' he')]
      rw [map_append, h.present, filter_append, hkept]
      simp [hget]
    · rw [hget, if_neg (by simp at he'; exact he'.2)]
      exact h.later e' fun hmem => he' (mem_append_left _ hmem)
    · refine forall_mem_append.2 ⟨fun g' hg' => ?_, by simp [hget]⟩
      have hmem : g'.entry ∈ entries.filter fun e' => (res.groups.get? e').isSome :=
        h.present ▸ mem_map.2 ⟨g', hg', rfl⟩
      rw [hget, if_neg (hother _ (mem_filter.1 hmem).1)]
      exact h.table g' hg'
    · exact forall_mem_append.2 ⟨h.reproduces, by simpa using hrep⟩
  · rw [addEntry_of_not_admits hadmits]
    refine ⟨groups, h.failures, h.closed, h.calls, ?_, fun e' he' => ?_, h.table, h.reproduces⟩
    · simp [h.present, h.later e hnew]
    · exact h.later e' fun hmem => he' (mem_append_left _ hmem)

end GroupResults.Recorded

end

namespace Shader

/-- The engine was told about a shader what its graph says: its record has grown by the groups of
the program, each of which reproduces the part of the prepared graph that its terminal depends on.
-/
structure Reproduced (s : Shader) (background : Bool) (host : EngineHost) : Prop where
  failures : (s.compileGroups background host).1.failures = []
  closed : (s.compileGroups background host).2.2.recorder.openGroup = none
  /-- Something is linked to the entry points that have a group, and a normal has one only together
  with a surface. -/
  linked : ∀ e, ((s.compileGroups background host).1.program.groups.get? e).isSome = true ↔
    s.prepare.isTerminalLinked e = true ∧ (e = .bump → s.prepare.isTerminalLinked .surface = true)
  recorded : ∃ groups : List GroupRecord,
    (s.compileGroups background host).2.2.recorder.calls.toList =
      host.recorder.calls.toList ++ groups.flatMap (GroupRecord.calls s.name) ∧
    groups.map GroupRecord.entry = EntryPoint.all.filter (fun e =>
      ((s.compileGroups background host).1.program.groups.get? e).isSome) ∧
    ∀ g ∈ groups,
      (s.compileGroups background host).1.program.groups.get? g.entry = some g.group ∧
        (s.prepare.groupContext background g.entry).Reproduces g

/-- Compiling a shader to groups in an engine without an open group succeeds, and the engine is told
what the graph says. -/
theorem reproduced_compileGroups (s : Shader) (hs : s.graph.Reached) (background : Bool)
    (host : EngineHost) (hclosed : host.recorder.openGroup = none) :
    s.Reproduced background host := by
  have hstart : GroupResults.Recorded s.prepare background host [] []
      { host, flags := { hasBump := s.needsBump, hasBssrdfBump := s.needsBump } } :=
    ⟨rfl, hclosed, by simp, rfl, fun e _ => by cases e <;> rfl, by simp, by simp⟩
  obtain ⟨groups, h⟩ := foldl_induction (R := (· ≠ ·)) (l := EntryPoint.all)
    (I := fun entries res => ∃ groups, GroupResults.Recorded s.prepare background host entries
      groups res) (by decide) ⟨[], hstart⟩ fun entries e res he h => by
        obtain ⟨groups, h⟩ := h
        exact h.addEntry (sound_prepare hs) fun hmem => he e hmem rfl
  refine ⟨?_, h.closed, fun e => ?_, groups, h.calls, h.present, fun g hg => ?_⟩
  · exact List.reverse_eq_nil_iff.2 h.failures
  · exact isSome_groups_iff (List.reverse_eq_nil_iff.2 h.failures)
  · exact ⟨h.table g hg, h.reproduces g hg⟩

/-- A surface and a volume, told to an engine that has been told nothing. -/
theorem reproduced_filled :
    filled.graph.Reached ∧ EngineHost.blank.recorder.openGroup = none ∧
      filled.prepare.isTerminalLinked .surface = true ∧
        filled.prepare.isTerminalLinked .volume = true ∧ filled.Reproduced false .blank := by
  refine ⟨filled_drawn.reached, rfl, by decide +kernel, by decide +kernel, ?_⟩
  exact reproduced_compileGroups filled filled_drawn.reached false .blank rfl

end Shader

end Shading
