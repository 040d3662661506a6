import Shading.Proofs.Absent
import Shading.Proofs.Postorder
import Shading.Proofs.StepCalls

/-!
# What the engine hears about a group

`GroupContext.heard` is what the engine is told about a list of nodes if none of the scripts among
them can be loaded: for every other node the settings of its kind, the constants of the inputs that
nothing feeds, its layer, and the connections from nodes that are no scripts.
-/

namespace Shading

open GroupContext List Moves Network OrderedSet Recorder EngineCall EngineHost Option

variable {ctx : GroupContext} {n : NodeId} {node : Node} {s s' : GroupState} {source : ScriptSource}
  {e : ScriptError} {net : Network} {host : EngineHost} {d : NodeId}

/-! ## Nodes -/

lemma loadScript_of_ok {key : String} (h : loadSourceOf source s.host = .ok key host) :
    GroupM.loadScript source s = .ok (some key) { s with host } := by
  have hrun : (loadSourceOf source).run s.host = .ok key host := h
  change EStateM.Result.ok _ _ = _
  simp only [hrun]

lemma loadScript_of_error (h : loadSourceOf source s.host = .error e host) :
    GroupM.loadScript source s = .ok none { s with host } := by
  have hrun : (loadSourceOf source).run s.host = .error e host := h
  change EStateM.Result.ok _ _ = _
  simp only [hrun]

lemma moves_loadScript (source : ScriptSource) : Moves Told (GroupM.loadScript source) := by
  intro s a s' h
  cases hload : loadSourceOf source s.host with
  | ok key host =>
    rw [loadScript_of_ok hload] at h
    cases h
    rfl
  | error e host =>
    rw [loadScript_of_error hload] at h
    cases h
    rfl

/-- Adding a node marks it as done, and no other. -/
lemma marks_emission : ctx.emission.Marks := by
  intro n s s' h m
  obtain ⟨node, t, _, hadd, hs'⟩ := emitNode_eq_ok_iff.1 h
  have htell : ctx.Telling (fun u => u.done = s.done) fun _ _ => True :=
    telling_of_told fun h hu => by rw [h, hu]
  have hidle : t.done = s.done := (htell.addNode fun _ _ => htell.addScript
    (fun _ hd => hd.trans) ((moves_loadScript _).keeps fun h hu => by rw [h, hu])).of_ok rfl hadd
  have hdone : s'.done = s.done.insert n := by
    rw [hs', ← hidle]
    split <;> rfl
  change s'.done.contains m = true ↔ s.done.contains m = true ∨ m = n
  rw [OrderedSet.contains_iff, OrderedSet.contains_iff, hdone, mem_insert]

/-- A script that cannot be loaded is left out. -/
lemma emitNode_of_refused (hn : ctx.net.node? n = some node) (hk : node.kind = .script source)
    (hload : loadSourceOf source s.host = .error e host) :
    ctx.emitNode n s = .ok ⟨⟩
      { s with host, absent := s.absent.insert n, done := s.done.insert n } := by
  have hadd : ctx.addNode n s = .ok ⟨⟩ { s with host, absent := s.absent.insert n } := by
    unfold GroupContext.addNode
    rw [Graph.require_eq_ok_iff.2 hn, GroupM.ofGraph_ok_bind, hk]
    exact bind_eq_ok.2 ⟨none, _, loadScript_of_error hload, rfl⟩
  refine emitNode_eq_ok_iff.2 ⟨node, _, hn, hadd, ?_⟩
  rw [if_pos (OrderedSet.contains_iff.2 (mem_insert.2 (.inr rfl)))]

/-! ## Lists of nodes -/

/-- Whether a node registers an image. -/
def Network.isImage (net : Network) (n : NodeId) : Bool :=
  (net.kind? n).any fun k => k.imageSlot?.isSome

namespace GroupContext

/-- The calls for the layer of a node, if it is no script. -/
def heardOf (ctx : GroupContext) (image : Nat) (n : NodeId) : List EngineCall :=
  if ctx.graph.net.isScript n then []
  else (ctx.graph.net.node? n).elim [] fun node =>
    (ctx.layerWithout ctx.graph.net.isScript image n node).calls

/-- What the engine hears about a list of nodes if no script is there; images are registered under
ascending numbers. -/
def heard (ctx : GroupContext) : Nat → List NodeId → List EngineCall
  | _, [] => []
  | image, n :: rest =>
    ctx.heardOf image n ++ ctx.heard (if ctx.graph.net.isImage n then image + 1 else image) rest

end GroupContext

section

variable {image : Nat} {nodes rest : List NodeId}

lemma heard_append (image : Nat) (nodes rest : List NodeId) :
    ctx.heard image (nodes ++ rest) = ctx.heard image nodes ++
      ctx.heard (image + nodes.countP ctx.net.isImage) rest := by
  induction nodes generalizing image with
  | nil => rfl
  | cons n nodes ih =>
    rw [cons_append, heard, ih, heard, append_assoc, countP_cons]
    congr 3
    split <;> omega

lemma Network.isScript_eq (hn : net.node? n = some node) : net.isScript n = node.kind.isScript := by
  rw [isScript, kind?_of_node? hn, any_some]

lemma Network.isImage_of_isScript (h : net.isScript n = true) : net.isImage n = false := by
  rw [isScript] at h
  rw [isImage]
  cases hk : net.kind? n with
  | none => rfl
  | some k =>
    rw [hk, any_some] at h
    cases k <;> first | rfl | cases h

lemma heardOf_eq (hn : ctx.net.node? n = some node) (hk : node.kind.isScript = false) :
    ctx.heardOf image n = (ctx.layerWithout ctx.net.isScript image n node).calls := by
  rw [heardOf, isScript_eq hn, if_neg (by simp [hk]), hn, elim_some]

/-- A node is connected to the nodes that feed it. -/
lemma mem_sources_iff (hn : ctx.net.node? n = some node) : d ∈ ctx.sources n ↔
      ∃ x ∈ node.inputs.zipIdx, ∃ link, ctx.link? n x = some link ∧ link.2.1 = d := by
  rw [GroupContext.sources, Network.sources, hn, mem_filterMap]
  constructor
  · rintro ⟨i, hi, hd⟩
    split at hd
    · cases hd
    · obtain ⟨l, hl, rfl⟩ := map_eq_some_iff.1 hd
      obtain ⟨input, hinput⟩ : ∃ input, node.inputs[i]? = some input :=
        ⟨_, getElem?_eq_getElem (mem_range.1 hi)⟩
      refine ⟨(input, i), mem_zipIdx_iff_getElem?.2 hinput, (i, l), ?_, rfl⟩
      exact link?_eq_some_iff.2 ⟨Bool.eq_false_of_not_eq_true ‹_›, rfl, hl⟩
  · rintro ⟨x, hx, link, hlink, rfl⟩
    obtain ⟨hskip, _, hl⟩ := link?_eq_some_iff.1 hlink
    have hlt : x.2 < node.inputs.length :=
      (List.getElem?_eq_some_iff.1 (mem_zipIdx_iff_getElem?.1 hx)).1
    refine ⟨x.2, mem_range.2 hlt, ?_⟩
    rw [if_neg (by simp [hskip]), hl]
    rfl

/-- Only the absence of nodes that feed a node matters to its layer. -/
lemma layerWithout_congr {absent absent' : NodeId → Bool} (hn : ctx.net.node? n = some node)
    (h : ∀ d ∈ ctx.sources n, absent d = absent' d) :
    ctx.layerWithout absent image n node = ctx.layerWithout absent' image n node ∧
      (ctx.Sayable absent n node ↔ ctx.Sayable absent' n node) := by
  have hlink : ∀ x ∈ node.inputs.zipIdx, ∀ link, ctx.link? n x = some link →
      absent link.2.1 = absent' link.2.1 :=
    fun x hx link hl => h _ ((mem_sources_iff hn).2 ⟨x, hx, link, hl, rfl⟩)
  constructor
  · have hkept : node.inputs.zipIdx.filterMap (ctx.keptConnection? absent n node) =
        node.inputs.zipIdx.filterMap (ctx.keptConnection? absent' n node) := by
      refine filterMap_congr fun x hx => ?_
      rw [keptConnection?, keptConnection?]
      cases hl : ctx.link? n x with
      | none => rfl
      | some link => simp only [any_some, hlink x hx link hl]
    rw [layerWithout, layerWithout, hkept]
  · refine forall₂_congr fun x hx => and_congr_right fun _ => forall₂_congr fun link hl => ?_
    rw [hlink x hx link hl]

end

/-! ### Names of layers -/

/-- The name of the layer of a node that is no script. -/
def GroupContext.layerName? (ctx : GroupContext) (n : NodeId) : Option String :=
  if ctx.graph.net.isScript n then none else (ctx.graph.net.node? n).map (·.layerName n)

lemma exists_of_keptConnection? {absent : NodeId → Bool} {x : Input × Nat} {call : EngineCall}
    (h : ctx.keptConnection? absent n node x = some call) :
    ∃ fromLayer fromParam toLayer toParam, call = .connect fromLayer fromParam toLayer toParam := by
  rw [keptConnection?] at h
  split at h
  · cases h
  · simp only [connection?, bind_eq_bind, bind_eq_some_iff] at h
    obtain ⟨_, _, _, _, _, _, hcall⟩ := h
    exact ⟨_, _, _, _, (some.inj hcall).symm⟩

lemma filterMap_layer_layerWithout (absent : NodeId → Bool) (image : Nat) (n : NodeId)
    (node : Node) : (ctx.layerWithout absent image n node).calls.filterMap layer? =
      [node.layerName n] := by
  refine LayerRecord.filterMap_calls fun call hc => ?_
  obtain ⟨x, _, hx⟩ := mem_filterMap.1 hc
  obtain ⟨_, _, _, _, rfl⟩ := exists_of_keptConnection? hx
  rfl

/-- The engine hears of one layer for every node that is no script. -/
lemma filterMap_layer_heard (image : Nat) (nodes : List NodeId) :
    (ctx.heard image nodes).filterMap layer? = nodes.filterMap ctx.layerName? := by
  induction nodes generalizing image with
  | nil => rfl
  | cons n nodes ih =>
    rw [heard, filterMap_append, ih, filterMap_cons, heardOf, layerName?]
    split
    · rfl
    · cases ctx.net.node? n with
      | none => rfl
      | some node =>
        rw [elim_some, filterMap_layer_layerWithout]
        rfl

/-! ## Nodes one after the other -/

/-- The nodes are there, with everything that the layers of those that are no scripts need. -/
def GroupContext.Complete (ctx : GroupContext) (nodes : List NodeId) : Prop :=
  ∀ n ∈ nodes, ∃ node, ctx.graph.net.node? n = some node ∧
    (node.kind.isScript = false → ctx.Sayable ctx.graph.net.isScript n node)

lemma GroupContext.Complete.snoc {nodes : List NodeId} (h : ctx.Complete nodes)
    (hn : ctx.net.node? n = some node)
    (hsay : node.kind.isScript = false → ctx.Sayable ctx.net.isScript n node) :
    ctx.Complete (nodes ++ [n]) := by
  refine forall_mem_append.2 ⟨h, ?_⟩
  rw [forall_mem_singleton]
  exact ⟨node, hn, hsay⟩

/-- Some nodes are done, and the engine has heard of them. -/
structure GroupContext.Hears (ctx : GroupContext) (r : Recorder) (image : Nat)
    (nodes : List NodeId) (s : GroupState) : Prop where
  done : ∀ n, n ∈ s.done ↔ n ∈ nodes
  absent : ∀ n, n ∈ s.absent ↔ n ∈ nodes ∧ ctx.graph.net.isScript n = true
  recorder : s.host.recorder = r.told (ctx.heard image nodes)
  nextImage : s.nextImage = image + nodes.countP ctx.graph.net.isImage
  takes : r.TakesAll (ctx.heard image nodes)
  complete : ctx.Complete nodes

namespace GroupContext.Hears

variable {r : Recorder} {image : Nat} {nodes : List NodeId} {t : GroupState}

variable (h : ctx.Hears r image nodes s)
include h

lemma isOpen (hopen : r.openGroup.isSome = true) : s.IsOpen := by
  rw [GroupState.IsOpen, h.recorder]
  exact hopen

lemma contains_absent (hn : n ∈ nodes) : s.absent.contains n = ctx.net.isScript n := by
  rw [Bool.eq_iff_iff, OrderedSet.contains_iff, h.absent]
  exact and_iff_right hn

lemma heard_snoc (n : NodeId) :
    ctx.heard image (nodes ++ [n]) = ctx.heard image nodes ++ ctx.heardOf s.nextImage n := by
  rw [heard_append, ← h.nextImage, heard, heard, append_nil]

section

variable (hn : ctx.net.node? n = some node) (hk : node.kind.isScript = false)
include hn hk

/-- A node that is no script is added exactly if the engine takes its layer. -/
lemma addNode_iff (hopen : r.openGroup.isSome = true)
    (hsources : ∀ d ∈ ctx.sources n, s.absent.contains d = ctx.net.isScript d) :
    ctx.addNode n s = .ok ⟨⟩ t ↔ ctx.Sayable ctx.net.isScript n node ∧
      r.TakesAll (ctx.heard image (nodes ++ [n])) ∧
        t = (s.imaged node.kind).told (ctx.heardOf s.nextImage n) := by
  obtain ⟨hlayer, hsay⟩ := @layerWithout_congr ctx n node s.nextImage _ _ hn hsources
  rw [addNode_eq_ok_iff hn hk (h.isOpen hopen), hlayer, hsay, ← heardOf_eq hn hk, h.recorder,
    h.heard_snoc, takesAll_append, and_iff_right h.takes]

/-- A node that could be added is connected to no script that was not left out. -/
lemma contains_absent_of_addNode (hopen : r.openGroup.isSome = true) (hempty : r.layers = .empty)
    (hadd : ctx.addNode n s = .ok ⟨⟩ t) (hd : d ∈ ctx.sources n) :
    s.absent.contains d = ctx.net.isScript d := by
  cases hscript : ctx.net.isScript d with
  | false =>
    rw [← Bool.not_eq_true, OrderedSet.contains_iff, h.absent, hscript]
    simp
  | true =>
    by_contra hne
    obtain ⟨x, hx, link, hlink, rfl⟩ := (mem_sources_iff hn).1 hd
    obtain ⟨hsay, htakes, _⟩ := (addNode_eq_ok_iff hn hk (h.isOpen hopen)).1 hadd
    obtain ⟨source, result, hsource, hresult⟩ :=
      (hsay x hx).2 link hlink (Bool.eq_false_of_not_eq_true hne)
    have hcall : ctx.keptConnection? s.absent.contains n node x = some (.connect
        (source.layerName link.2.1) (source.engineOutput result.name) (node.layerName n)
          (node.engineInput x.1.name)) := by
      rw [keptConnection?, hlink, any_some, if_neg hne]
      simp [connection?, hlink, hsource, hresult]
    have hlayer : source.layerName link.2.1 ∈ (s.host.recorder.told
        (ctx.layerWithout s.absent.contains s.nextImage n node).calls).layers := by
      apply htakes.mem_layers
      exact mem_append_right _ (mem_cons_of_mem _ (mem_filterMap.2 ⟨x, hx, hcall⟩))
    -- the layers that are there are those of nodes that are no scripts
    rw [mem_layers_told, filterMap_layer_layerWithout, h.recorder,
      mem_layers_told, hempty, filterMap_layer_heard, mem_singleton,
      mem_filterMap] at hlayer
    rcases hlayer with (hnone | ⟨m, _, hm⟩) | hown
    · exact not_mem_empty _ hnone
    · rw [layerName?] at hm
      split at hm
      · cases hm
      · rename_i hfree
        obtain ⟨node', _, hname⟩ := map_eq_some_iff.1 hm
        rw [Node.eq_of_layerName_eq hname, hscript] at hfree
        exact hfree rfl
    · rw [Node.eq_of_layerName_eq hown, isScript_eq hn, hk] at hscript
      cases hscript

lemma snoc_layer (hsay : ctx.Sayable ctx.net.isScript n node)
    (htakes : r.TakesAll (ctx.heard image (nodes ++ [n]))) :
    ctx.Hears r image (nodes ++ [n])
      (ctx.finish n node ((s.imaged node.kind).told (ctx.heardOf s.nextImage n))) where
  done m := by
    change m ∈ (s.imaged node.kind).done.insert n ↔ _
    rw [s.told_imaged node.kind, mem_insert, h.done, mem_append, mem_singleton]
  absent m := by
    change m ∈ (s.imaged node.kind).absent ↔ _
    rw [s.told_imaged node.kind, h.absent, mem_append, mem_singleton]
    refine and_congr_left fun hscript => (or_iff_left ?_).symm
    rintro rfl
    rw [isScript_eq hn, hk] at hscript
    cases hscript
  recorder := by
    change (s.imaged node.kind).host.recorder.told (ctx.heardOf s.nextImage n) = _
    rw [s.recorder_imaged, h.heard_snoc, told_append, h.recorder]
  nextImage := by
    change (s.imaged node.kind).nextImage = _
    rw [s.nextImage_imaged, h.nextImage, countP_append, countP_singleton,
      isImage, kind?_of_node? hn, any_some, Nat.add_assoc]
  takes := htakes
  complete := h.complete.snoc hn fun _ => hsay

end

lemma snoc_script (hn : ctx.net.node? n = some node)
    (hk : node.kind.isScript = true) {host : EngineHost} (hsilent : s.host.Silent host) :
    ctx.Hears r image (nodes ++ [n])
      { s with host, absent := s.absent.insert n, done := s.done.insert n } := by
  have hscript : ctx.net.isScript n = true := by rw [isScript_eq hn, hk]
  have himage := isImage_of_isScript hscript
  have hheard : ctx.heard image (nodes ++ [n]) = ctx.heard image nodes := by
    rw [h.heard_snoc, heardOf, if_pos hscript, append_nil]
  refine ⟨fun m => ?_, fun m => ?_, ?_, ?_, ?_, h.complete.snoc hn fun hfree => ?_⟩
  · rw [mem_insert, h.done, mem_append, mem_singleton]
  · rw [mem_insert, h.absent, mem_append, mem_singleton, or_and_right]
    refine or_congr_right (iff_self_and.2 ?_)
    rintro rfl
    exact hscript
  · rw [hheard, ← h.recorder]
    exact hsilent.1
  · rw [countP_append, countP_singleton, himage]
    exact (congrArg (fun t : Textures => t.slots.size) hsilent.2).trans h.nextImage
  · rw [hheard]
    exact h.takes
  · rw [hk] at hfree
    cases hfree

end GroupContext.Hears

/-! ### Runs -/

section

variable {r : Recorder} {image : Nat} {nodes before : List NodeId} {host : EngineHost}

namespace GroupContext.Hears

lemma nil (hdone : s.done = .empty) (habsent : s.absent = .empty) :
    ctx.Hears s.host.recorder s.nextImage [] s where
  done n := by
    rw [hdone]
    exact iff_of_false (not_mem_empty n) not_mem_nil
  absent n := by
    rw [habsent]
    exact iff_of_false (not_mem_empty n) fun h => not_mem_nil h.1
  recorder := (told_nil _).symm
  nextImage := rfl
  takes := trivial
  complete n hn := absurd hn not_mem_nil

variable (h : ctx.Hears r image before s) (hopen : r.openGroup.isSome = true)
include h hopen

/-- A node that is ready and no script is emitted exactly if the engine takes its layer. -/
lemma emitNode_layer_iff (hn : ctx.net.node? n = some node) (hk : node.kind.isScript = false)
    (hready : ∀ d ∈ ctx.sources n, d ∈ before) :
    ctx.emitNode n s = .ok ⟨⟩ s' ↔ ctx.Sayable ctx.net.isScript n node ∧
      r.TakesAll (ctx.heard image (before ++ [n])) ∧
        s' = ctx.finish n node ((s.imaged node.kind).told (ctx.heardOf s.nextImage n)) := by
  have hadd := fun t => @addNode_iff ctx n node s r image before t h hn hk hopen fun d hd =>
    h.contains_absent (hready d hd)
  have hpresent : ((s.imaged node.kind).told (ctx.heardOf s.nextImage n)).absent.contains n =
      false := by
    change (s.imaged node.kind).absent.contains n = false
    rw [s.told_imaged node.kind, ← Bool.not_eq_true, OrderedSet.contains_iff, h.absent,
      isScript_eq hn, hk]
    simp
  rw [emitNode_eq_ok_iff]
  constructor
  · rintro ⟨node', t, hn', hrun, rfl⟩
    cases hn.symm.trans hn'
    obtain ⟨hsay, htakes, rfl⟩ := (hadd t).1 hrun
    exact ⟨hsay, htakes, if_neg (by simp [hpresent])⟩
  · rintro ⟨hsay, htakes, rfl⟩
    exact ⟨node, _, hn, (hadd _).2 ⟨hsay, htakes, rfl⟩, (if_neg (by simp [hpresent])).symm⟩

lemma emitNode (hhost : host.Refuses ctx.net.Scripts) (ht : host.Tries ctx.net.Scripts s.host)
    (hready : ∀ d ∈ ctx.sources n, d ∈ before) (hemit : ctx.emitNode n s = .ok ⟨⟩ s') :
    ctx.Hears r image (before ++ [n]) s' ∧ host.Tries ctx.net.Scripts s'.host := by
  obtain ⟨node, _, hn, _, _⟩ := emitNode_eq_ok_iff.1 hemit
  cases hk : node.kind.isScript with
  | false =>
    obtain ⟨hsay, htakes, rfl⟩ := (h.emitNode_layer_iff hopen hn hk hready).1 hemit
    refine ⟨h.snoc_layer hn hk hsay htakes, ?_⟩
    change host.Tries _ { (s.imaged node.kind).host with recorder := _ }
    rw [s.host_imaged]
    exact .tell ht _ _
  | true =>
    obtain ⟨source, hsource⟩ : ∃ source, node.kind = .script source := by
      cases hkind : node.kind <;> rw [hkind] at hk <;> first | exact ⟨_, rfl⟩ | cases hk
    have hscript : ctx.net.Scripts source := ⟨n, (kind?_of_node? hn).trans (congrArg some hsource)⟩
    obtain ⟨e, host', hload⟩ := hhost _ ht source hscript
    cases (emitNode_of_refused hn hsource hload).symm.trans hemit
    exact ⟨h.snoc_script hn hk (silent_of_loadSourceOf_eq_error hload), .load ht hscript hload⟩

lemma runs (hhost : host.Refuses ctx.net.Scripts) (ht : host.Tries ctx.net.Scripts s.host)
    (hruns : ctx.emission.Runs nodes s s') :
    ctx.Hears r image (before ++ nodes) s' ∧ host.Tries ctx.net.Scripts s'.host := by
  induction hruns generalizing before with
  | nil =>
    rw [append_nil]
    exact ⟨h, ht⟩
  | cons _ hready hemit _ ih =>
    obtain ⟨h', ht'⟩ := h.emitNode hopen hhost ht (fun d hd =>
      (h.done d).1 (contains_iff.1 (all_eq_true.1 hready d hd))) hemit
    rw [append_cons]
    exact ih h' ht'

/-- Nodes behind their sources, none of them a script, are emitted if the engine takes what it hears
about them. -/
lemma exists_runs
    (hfirst : SourcesFirst ctx.sources (before ++ nodes)) (hnodup : (before ++ nodes).Nodup)
    (hfree : ∀ n ∈ nodes, ctx.net.isScript n = false) (hcomplete : ctx.Complete nodes)
    (htakes : r.TakesAll (ctx.heard image (before ++ nodes))) :
    ∃ s', ctx.emission.Runs nodes s s' ∧ ctx.Hears r image (before ++ nodes) s' := by
  induction nodes generalizing before s with
  | nil =>
    rw [append_nil]
    exact ⟨s, .nil, h⟩
  | cons n nodes ih =>
    obtain ⟨⟨node, hn, hown⟩, hrest⟩ := forall_mem_cons.1 hcomplete
    obtain ⟨hscript, hfree⟩ := forall_mem_cons.1 hfree
    have hk : node.kind.isScript = false := by rw [← isScript_eq hn, hscript]
    have hready : ∀ d ∈ ctx.sources n, d ∈ before := hfirst before n nodes rfl
    have hnew : n ∉ before := fun hmem =>
      (nodup_append.1 hnodup).2.2 n hmem n mem_cons_self rfl
    rw [append_cons] at hfirst hnodup htakes ⊢
    have htakes' : r.TakesAll (ctx.heard image (before ++ [n])) := by
      rw [heard_append] at htakes
      exact (takesAll_append.1 htakes).1
    obtain ⟨s', hruns, hs'⟩ := ih (h.snoc_layer hn hk (hown hk) htakes') hfirst hnodup hfree
      hrest htakes
    refine ⟨s', .cons ?_ ?_ ?_ hruns, hs'⟩
    · change s.done.contains n = false
      rw [← Bool.not_eq_true, OrderedSet.contains_iff, h.done]
      exact hnew
    · exact all_eq_true.2 fun d hd => contains_iff.2 ((h.done d).2 (hready d hd))
    · exact (h.emitNode_layer_iff hopen hn hk hready).2 ⟨hown hk, htakes', rfl⟩

end GroupContext.Hears

end

/-! ## Groups -/

namespace GroupContext

/-- The input of the output node that the group is for. -/
def terminal? (ctx : GroupContext) : Option Nat :=
  (ctx.graph.net.node? ctx.graph.output).bind (·.inputIndex? ctx.entry.terminal)

/-- The nodes that the terminal depends on, each behind those that it depends on itself. -/
def body (ctx : GroupContext) : List NodeId :=
  ctx.terminal?.elim [] fun i =>
    (ctx.graph.net.dependencies ctx.skips (fun _ => false) .empty ctx.graph.output i none).toList

/-- The nodes of the group, the output node last. -/
def members (ctx : GroupContext) : List NodeId := ctx.body ++ [ctx.graph.output]

/-- The group can be told to an engine: the nodes that the terminal depends on do not wait for each
other in a circle, what they need is there, and the engine takes what it hears about them. -/
structure Tellable (ctx : GroupContext) (r : Recorder) (image : Nat) : Prop where
  terminal : ctx.terminal?.isSome = true
  ordered : SourcesFirst ctx.sources ctx.body
  complete : ctx.Complete ctx.members
  takes : r.TakesAll (ctx.heard image ctx.members)

end GroupContext

section

variable {host : EngineHost}

lemma body_eq {i : Nat} (hi : ctx.terminal? = some i) {done : NodeSet} (hdone : done = .empty) :
    ctx.body = (ctx.net.dependencies ctx.skips done.contains .empty ctx.graph.output i
      none).toList := by
  have hnone : (empty : NodeSet).contains = fun _ => false := by
    funext n
    simp [OrderedSet.contains, not_mem_empty]
  rw [body, hi, elim_some, hdone, hnone]

/-- What was added to a group has been told to the engine, scripts apart. -/
lemma tellable_of_addAll (hopen : s.IsOpen) (hempty : s.host.recorder.layers = .empty)
    (hdone : s.done = .empty) (habsent : s.absent = .empty)
    (hhost : host.Refuses ctx.net.Scripts) (ht : host.Tries ctx.net.Scripts s.host)
    (hout : ctx.net.isScript ctx.graph.output = false) (h : ctx.addAll s = .ok ⟨⟩ s') :
    ctx.Tellable s.host.recorder s.nextImage ∧
      s'.host.recorder = s.host.recorder.told (ctx.heard s.nextImage ctx.members) := by
  obtain ⟨⟨i, ty⟩, s₀, hask, h⟩ := bind_eq_ok.1 h
  obtain ⟨hrequire, hs₀⟩ := GroupM.ofGraph_eq_ok.1 hask
  rw [hs₀] at h
  obtain ⟨_, _, hget, h⟩ := bind_eq_ok.1 h
  cases hget
  obtain ⟨passes, t, hrun, hadd⟩ := bind_eq_ok.1 h
  obtain ⟨node, hn, hidx, _⟩ := Graph.requireInput_eq_ok hrequire
  have hterminal : ctx.terminal? = some i := by
    rw [terminal?, hn]
    exact hidx
  have hnone : ∀ n, s.done.contains n = false := by
    intro n
    simp [hdone, OrderedSet.contains, not_mem_empty]
  obtain ⟨hruns, hordered⟩ := Emission.runs_of_schedule marks_emission rfl hnone hnone hrun
  rw [← body_eq hterminal hdone] at hruns hordered
  obtain ⟨hheard, _⟩ := (Hears.nil hdone habsent).runs hopen hhost ht hruns
  rw [nil_append] at hheard
  have hk : node.kind.isScript = false := by rw [← isScript_eq hn, hout]
  obtain ⟨hsay, htakes, rfl⟩ := (hheard.addNode_iff hn hk hopen fun d hd =>
    hheard.contains_absent_of_addNode hn hk hopen hempty hadd hd).1 hadd
  have hlast := hheard.snoc_layer hn hk hsay htakes
  exact ⟨⟨by simp [hterminal], hordered, hlast.complete, htakes⟩, hlast.recorder⟩

/-- A group without scripts that can be told to the engine is added to it. -/
lemma exists_addAll_of_tellable (hopen : s.IsOpen) (hdone : s.done = .empty)
    (habsent : s.absent = .empty) (hfree : ∀ n ∈ ctx.members, ctx.net.isScript n = false)
    (hsources : ∀ d ∈ ctx.sources ctx.graph.output, ctx.net.isScript d = false)
    (h : ctx.Tellable s.host.recorder s.nextImage) :
    ∃ s', ctx.addAll s = .ok ⟨⟩ s' ∧
      s'.host.recorder = s.host.recorder.told (ctx.heard s.nextImage ctx.members) := by
  obtain ⟨i, hterminal⟩ := isSome_iff_exists.1 h.terminal
  obtain ⟨node, hn, hidx⟩ := bind_eq_some_iff.1 hterminal
  obtain ⟨ty, hrequire⟩ := Graph.exists_requireInput hn hidx
  obtain ⟨hcomplete, hlast⟩ := forall_mem_append.1 h.complete
  obtain ⟨node', hn', hsay⟩ := forall_mem_singleton.1 hlast
  cases hn.symm.trans hn'
  obtain ⟨hbodyFree, houtFree⟩ := forall_mem_append.1 hfree
  have hk : node.kind.isScript = false := by
    rw [← isScript_eq hn]
    exact houtFree _ (mem_singleton.2 rfl)
  have htakes := h.takes
  have hbody : s.host.recorder.TakesAll (ctx.heard s.nextImage ctx.body) := by
    rw [members, heard_append] at htakes
    exact (takesAll_append.1 htakes).1
  have hnodup : ctx.body.Nodup := by
    rw [body_eq hterminal hdone]
    exact nodup _
  have hordered : SourcesFirst ctx.sources ([] ++ ctx.body) := h.ordered
  obtain ⟨t, hruns, hheard⟩ := (Hears.nil hdone habsent).exists_runs hopen hordered hnodup
    hbodyFree hcomplete hbody
  rw [nil_append] at hheard
  have hadd := (hheard.addNode_iff hn hk hopen fun d hd => ?_).2 ⟨hsay hk, htakes, rfl⟩
  · refine ⟨(t.imaged node.kind).told (ctx.heardOf t.nextImage ctx.graph.output), ?_,
      (hheard.snoc_layer hn hk (hsay hk) htakes).recorder⟩
    refine bind_eq_ok.2 ⟨(i, ty), s, GroupM.ofGraph_eq_ok.2 ⟨hrequire, rfl⟩, ?_⟩
    refine bind_eq_ok.2 ⟨s, s, rfl, bind_eq_ok.2 ⟨0 + 1, t, ?_, hadd⟩⟩
    rw [body_eq hterminal hdone] at hruns
    exact hruns.run 0
  · rw [hsources d hd, ← Bool.not_eq_true, OrderedSet.contains_iff, hheard.absent, hsources d hd]
    simp

end

end Shading
