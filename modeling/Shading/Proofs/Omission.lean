import Shading.Proofs.Transcript

/-!
# Scripts that are left out

A script that cannot be loaded has no layer, and nothing is connected to it.  Is a group then the
one of the network without the script?  Of an input that the script feeds the group says nothing,
while without the script the input has its constant, or what an older link feeds it, so there is a
difference unless the input is `Quiet`.  Nodes that only the script depends on keep their layers,
and images are numbered across groups (`GroupContext.heard_withoutScripts_iff`).
-/

namespace Shading

open GroupContext List Network Option Textures

/-! ## Networks without scripts -/

lemma find?_filter_of_forall {α : Type} {p q : α → Bool} {l : List α}
    (h : ∀ x, l.find? q = some x → p x = true) : (l.filter p).find? q = l.find? q := by
  rw [find?_filter]
  cases hx : l.find? q with
  | none => simp_all
  | some x =>
    obtain ⟨hq, before, after, rfl, hbefore⟩ := find?_eq_some_iff_append.1 hx
    refine find?_eq_some_iff_append.2 ⟨by simp [hq, h x hx], before, after, rfl, fun y hy => ?_⟩
    simp [hbefore y hy]

namespace Network

variable {net : Network} {n : NodeId} {i : Nat} {node : Node}

/-- Whether a link begins or ends at a script. -/
def touchesScript (net : Network) (l : Link) : Bool :=
  net.isScript l.source || net.isScript l.target

/-- The network with its scripts removed, and with them the links from and to scripts. -/
def withoutScripts (net : Network) : Network :=
  { net with
    nodes := net.nodes.map (Option.filter fun node => !node.kind.isScript)
    vacant := net.ids.filter net.isScript ++ net.vacant
    links := net.links.filter fun l => !net.touchesScript l.2
    vacantLinks :=
      (net.links.filter fun l => net.touchesScript l.2).map Prod.fst ++ net.vacantLinks }

def scriptFeeds (net : Network) (n : NodeId) (i : Nat) : Bool :=
  (net.inputLink? n i).any fun l => net.isScript l.1

lemma scriptFeeds_iff : net.scriptFeeds n i = true ↔
    ∃ l, net.inputLink? n i = some l ∧ net.isScript l.1 = true :=
  any_eq_true ..

lemma node?_withoutScripts (net : Network) (n : NodeId) :
    net.withoutScripts.node? n = (net.node? n).filter fun node => !node.kind.isScript := by
  rw [node?, node?, withoutScripts, Array.getElem?_map]
  cases net.nodes[n]? <;> rfl

lemma node?_withoutScripts_of_isScript (h : net.isScript n = false) :
    net.withoutScripts.node? n = net.node? n := by
  rw [node?_withoutScripts]
  cases hn : net.node? n with
  | none => rfl
  | some node =>
    rw [isScript_eq hn] at h
    simp [h]

lemma node?_withoutScripts_eq_some_iff :
    net.withoutScripts.node? n = some node ↔ net.node? n = some node ∧ net.isScript n = false := by
  rw [node?_withoutScripts, filter_eq_some_iff]
  refine and_congr_right fun hn => ?_
  rw [isScript_eq hn, Bool.not_eq_true']

@[simp] lemma isScript_withoutScripts (net : Network) (n : NodeId) :
    net.withoutScripts.isScript n = false := by
  rw [isScript, kind?]
  cases hn : net.withoutScripts.node? n with
  | none => rfl
  | some node =>
    obtain ⟨hn, hfree⟩ := node?_withoutScripts_eq_some_iff.1 hn
    rw [isScript_eq hn] at hfree
    exact hfree

lemma isImage_withoutScripts (h : net.isScript n = false) :
    net.withoutScripts.isImage n = net.isImage n := by
  rw [isImage, isImage, kind?, kind?, node?_withoutScripts_of_isScript h]

/-- An input that no script feeds is fed as before. -/
lemma inputLink?_withoutScripts (hn : net.isScript n = false) (h : net.scriptFeeds n i = false) :
    net.withoutScripts.inputLink? n i = net.inputLink? n i := by
  have hfeed : net.withoutScripts.feed? n i = net.feed? n i := by
    refine find?_filter_of_forall fun l hl => ?_
    have hpass := find?_some hl
    have htarget : l.2.target = n := by
      simp only [Bool.and_eq_true, beq_iff_eq] at hpass
      exact hpass.1
    have hsource : net.isScript l.2.source = false := by
      rw [scriptFeeds, inputLink?, feed?, hl] at h
      exact h
    rw [touchesScript, htarget, hn, hsource]
    rfl
  rw [inputLink?, hfeed, inputLink?]

end Network

def Shader.withoutScripts (s : Shader) : Shader :=
  { s with graph := { s.graph with net := s.graph.net.withoutScripts } }

namespace GroupContext

def withoutScripts (ctx : GroupContext) : GroupContext :=
  { ctx with graph := { ctx.graph with net := ctx.graph.net.withoutScripts } }

/-- The group says nothing about an input: it does not use it, or the input takes a closure and
nothing feeds it. -/
def Quiet (ctx : GroupContext) (n : NodeId) (i : Nat) : Prop :=
  ctx.skips n i = true ∨ ctx.graph.net.inputLink? n i = none ∧
    (ctx.graph.net.input? n i).map Input.ty = some .closure

instance (ctx : GroupContext) (n : NodeId) (i : Nat) : Decidable (ctx.Quiet n i) :=
  inferInstanceAs (Decidable (_ ∨ _ ∧ _))

/-- Nothing is said about the inputs of a node that scripts feed, with the scripts or without. -/
def QuietAt (ctx : GroupContext) (n : NodeId) : Prop :=
  ∀ i, ctx.graph.net.scriptFeeds n i = true → ctx.withoutScripts.Quiet n i

lemma quietAt_iff {ctx : GroupContext} {n : NodeId} : ctx.QuietAt n ↔
    ∀ l ∈ ctx.net.links, ctx.net.scriptFeeds n l.2.input.toNat = true →
      ctx.withoutScripts.Quiet n l.2.input.toNat := by
  refine ⟨fun h l _ hf => h _ hf, fun h i hf => ?_⟩
  obtain ⟨_, hl, _⟩ := scriptFeeds_iff.1 hf
  obtain ⟨l, hl, _⟩ := map_eq_some_iff.1 hl
  have hpass := find?_some hl
  simp only [Bool.and_eq_true, beq_iff_eq] at hpass
  obtain ⟨_, rfl⟩ := hpass
  exact h l (mem_of_find?_eq_some hl) hf

instance (ctx : GroupContext) (n : NodeId) : Decidable (ctx.QuietAt n) :=
  decidable_of_iff _ quietAt_iff.symm

end GroupContext

/-! ## Inputs -/

section

variable {ctx : GroupContext} {n : NodeId} {node : Node} {x : Input × Nat}

section

variable (hn : ctx.graph.net.node? n = some node) (hx : x ∈ node.inputs.zipIdx)
include hn hx

lemma input?_of_mem_zipIdx : ctx.net.input? n x.2 = some x.1 := by
  rw [input?, hn]
  exact mem_zipIdx_iff_getElem?.1 hx

/-- What a group can say about an input it does say, unless the input is quiet. -/
lemma quiet_iff (hb : ctx.Bindable n node x) (hc : ctx.Connectable (fun _ => false) n x) :
    ctx.Quiet n x.2 ↔ ctx.constant? n node x = none ∧ ctx.connection? n node x = none := by
  rw [Quiet, input?_of_mem_zipIdx hn hx]
  constructor
  · rintro (hskip | ⟨hlink, hty⟩)
    · exact ⟨by simp [constant?, hskip], by simp [connection?, link?, hskip]⟩
    · have hty : x.1.ty = .closure := some.inj hty
      exact ⟨by simp [constant?, hty], by simp [connection?, link?, hlink]⟩
  · rintro ⟨hconstant, hconnection⟩
    by_cases hskip : ctx.skips n x.2 = true
    · exact .inl hskip
    cases hl : ctx.net.inputLink? n x.2 with
    | some l =>
      have hlink : ctx.link? n x = some (x.2, l) := by simp [link?, hskip, hl]
      obtain ⟨source, result, hsource, hresult⟩ := hc _ hlink rfl
      simp [connection?, hlink, hsource, hresult] at hconnection
    | none =>
      refine .inr ⟨rfl, congrArg some ?_⟩
      by_contra hty
      have hused : ¬ (x.1.ty = .closure || ctx.net.isInputLinked n x.2 ||
          ctx.skips n x.2) = true := by
        simp [hty, isInputLinked, hl, hskip]
      obtain ⟨p, hp⟩ := hb.resolve_left hused
      rw [constant?, if_neg hused, hp] at hconstant
      cases hconstant

lemma GroupContext.Quiet.bindable (h : ctx.Quiet n x.2) : ctx.Bindable n node x := by
  rw [Quiet, input?_of_mem_zipIdx hn hx] at h
  rcases h with hskip | ⟨_, hty⟩
  · exact .inl (by simp [hskip])
  · have hty : x.1.ty = .closure := some.inj hty
    exact .inl (by simp [hty])

end

lemma GroupContext.Quiet.link?_eq_none (h : ctx.Quiet n x.2) : ctx.link? n x = none := by
  rcases h with hskip | ⟨hlink, _⟩
  · simp [link?, hskip]
  · simp [link?, hlink]

/-! ### Without scripts -/

section

variable (hn : ctx.graph.net.isScript n = false)
include hn

lemma skips_withoutScripts {i : Nat} (h : ctx.net.scriptFeeds n i = false) :
    ctx.withoutScripts.skips n i = ctx.skips n i := by
  have hsource : (ctx.net.inputLink? n i).bind
      (fun l => ctx.net.withoutScripts.node? l.1) =
        (ctx.net.inputLink? n i).bind fun l => ctx.net.node? l.1 := by
    cases hl : ctx.net.inputLink? n i with
    | none => rfl
    | some l =>
      rw [scriptFeeds, hl] at h
      exact node?_withoutScripts_of_isScript h
  unfold skips
  dsimp only [GroupContext.withoutScripts]
  rw [node?_withoutScripts_of_isScript hn, inputLink?_withoutScripts hn h, hsource]

section

variable (h : ctx.graph.net.scriptFeeds n x.2 = false)
include h

lemma link?_withoutScripts : ctx.withoutScripts.link? n x = ctx.link? n x := by
  rw [link?, link?, skips_withoutScripts hn h]
  dsimp only [GroupContext.withoutScripts]
  rw [inputLink?_withoutScripts hn h]

lemma isInputLinked_withoutScripts :
    ctx.withoutScripts.net.isInputLinked n x.2 = ctx.net.isInputLinked n x.2 :=
  congrArg isSome (inputLink?_withoutScripts hn h)

lemma constant?_withoutScripts :
    ctx.withoutScripts.constant? n node x = ctx.constant? n node x := by
  rw [constant?, constant?, isInputLinked_withoutScripts hn h, skips_withoutScripts hn h]

lemma bindable_withoutScripts : ctx.withoutScripts.Bindable n node x ↔ ctx.Bindable n node x := by
  rw [Bindable, Bindable, isInputLinked_withoutScripts hn h, skips_withoutScripts hn h]

end

omit hn in
/-- The source of a link that no script feeds. -/
lemma isScript_of_link? (h : ctx.net.scriptFeeds n x.2 = false) {link : Nat × NodeId × Nat}
    (hlink : ctx.link? n x = some link) : ctx.net.isScript link.2.1 = false := by
  rw [scriptFeeds, (link?_eq_some_iff.1 hlink).2.2] at h
  exact h

lemma connection?_withoutScripts (h : ctx.net.scriptFeeds n x.2 = false) :
    ctx.withoutScripts.connection? n node x = ctx.keptConnection? ctx.net.isScript n node x := by
  rw [keptConnection?, connection?, connection?, link?_withoutScripts hn h]
  cases hlink : ctx.link? n x with
  | none => rfl
  | some link =>
    have hsource := isScript_of_link? h hlink
    rw [any_some, if_neg (by simp [hsource])]
    have hnode : ctx.withoutScripts.net.node? link.2.1 = ctx.net.node? link.2.1 :=
      node?_withoutScripts_of_isScript hsource
    simp only [bind_eq_bind, bind_some, hnode]

lemma connectable_withoutScripts (h : ctx.net.scriptFeeds n x.2 = false)
    (hc : ctx.Connectable ctx.net.isScript n x) :
    ctx.withoutScripts.Connectable (fun _ => false) n x := by
  intro link hlink _
  rw [link?_withoutScripts hn h] at hlink
  have hsource := isScript_of_link? h hlink
  obtain ⟨source, result, hsome, hresult⟩ := hc link hlink hsource
  exact ⟨source, result, (node?_withoutScripts_of_isScript hsource).trans hsome, hresult⟩

end

/-! ### Inputs that scripts feed -/

lemma constant?_of_scriptFeeds (h : ctx.net.scriptFeeds n x.2 = true) :
    ctx.constant? n node x = none := by
  obtain ⟨l, hl, _⟩ := scriptFeeds_iff.1 h
  have hlinked : ctx.net.isInputLinked n x.2 = true := by
    rw [isInputLinked, hl, isSome_some]
  rw [constant?, hlinked, Bool.or_true, Bool.true_or, if_pos rfl]

lemma keptConnection?_of_scriptFeeds (h : ctx.net.scriptFeeds n x.2 = true) :
    ctx.keptConnection? ctx.net.isScript n node x = none := by
  rw [keptConnection?]
  cases hlink : ctx.link? n x with
  | none => simp [connection?, hlink]
  | some link =>
    rw [scriptFeeds, (link?_eq_some_iff.1 hlink).2.2] at h
    exact if_pos h

end

/-! ## Layers -/

section

variable {α β : Type} {f g : α → Option β} {l : List α}

lemma length_filterMap_le (h : ∀ x ∈ l, f x = g x ∨ f x = none) :
    (l.filterMap f).length ≤ (l.filterMap g).length := by
  rw [length_filterMap_eq_countP, length_filterMap_eq_countP]
  refine countP_mono_left fun x hx hf => ?_
  rcases h x hx with heq | hnone
  · rwa [← heq]
  · rw [hnone] at hf
    cases hf

lemma eq_of_length_filterMap_eq (h : ∀ x ∈ l, f x = g x ∨ f x = none)
    (hlength : (l.filterMap f).length = (l.filterMap g).length) : ∀ x ∈ l, f x = g x := by
  intro x hx
  by_contra hne
  have hf := (h x hx).resolve_left hne
  obtain ⟨y, hg⟩ := ne_none_iff_exists'.1 fun hg => hne (hf.trans hg.symm)
  obtain ⟨before, after, rfl⟩ := append_of_mem hx
  obtain ⟨hbefore, hafter⟩ := forall_mem_append.1 h
  -- without the element the list would be too short
  have hle := length_filterMap_le hbefore
  have hle' := length_filterMap_le (forall_mem_cons.1 hafter).2
  simp only [filterMap_append, filterMap_cons_none hf, filterMap_cons_some hg, length_append,
    length_cons] at hlength
  omega

end

lemma Textures.imageName_inj {a b : Nat} (h : imageName a = imageName b) : a = b := by
  have hdigits : ∀ m : Nat, (toString m).toList = Nat.toDigits 10 m := fun _ => Nat.toList_repr
  have hlist := congrArg String.toList h
  simp only [imageName, String.toList_append, hdigits, append_cancel_left_eq] at hlist
  rw [← Nat.ofDigitChars_ten_toDigits (n := a), hlist, Nat.ofDigitChars_ten_toDigits]

lemma parameterCall_injective : Function.Injective parameterCall := by
  rintro ⟨a, p⟩ ⟨b, q⟩ h
  cases h
  rfl

lemma NodeKind.length_settings (k : NodeKind) (background : Bool) (image image' : String) :
    (k.settings background image).length = (k.settings background image').length := by
  cases k <;> rfl

/-- The settings of a kind depend on the image exactly if the kind registers one. -/
lemma NodeKind.settings_imageName_eq_iff {k : NodeKind} {background : Bool} {image image' : Nat} :
    k.settings background (imageName image) =
        k.settings background (imageName image') ↔
      image = image' ∨ k.imageSlot?.isSome = false := by
  cases k
  case imageTexture slot filename colorspace =>
    refine ⟨fun h => .inl ?_, fun h => ?_⟩
    · simp only [settings, Param.string, cons.injEq, Prod.mk.injEq, Param.mk.injEq,
        ParamData.strings.injEq, true_and, and_true] at h
      exact imageName_inj h
    · rw [h.resolve_right (by simp [imageSlot?])]
  all_goals exact iff_of_true rfl (.inr rfl)

section

variable {ctx : GroupContext} {n : NodeId} {node : Node} {image image' : Nat}

lemma isScript_withoutScripts_graph : ctx.withoutScripts.net.isScript = fun _ => false :=
  funext ctx.net.isScript_withoutScripts

section

variable (hk : ctx.graph.net.isScript n = false)
include hk

/-- The group says about an input what it would say without scripts, or nothing. -/
lemma constant?_eq_or (x : Input × Nat) :
    ctx.constant? n node x = ctx.withoutScripts.constant? n node x ∨
      ctx.constant? n node x = none := by
  cases hf : ctx.net.scriptFeeds n x.2 with
  | false => exact .inl (constant?_withoutScripts hk hf).symm
  | true => exact .inr (constant?_of_scriptFeeds hf)

lemma keptConnection?_eq_or (x : Input × Nat) :
    ctx.keptConnection? ctx.net.isScript n node x =
        ctx.withoutScripts.connection? n node x ∨
      ctx.keptConnection? ctx.net.isScript n node x = none := by
  cases hf : ctx.net.scriptFeeds n x.2 with
  | false => exact .inl (connection?_withoutScripts hk hf).symm
  | true => exact .inr (keptConnection?_of_scriptFeeds hf)

lemma length_constants_le :
    (ctx.constants n node).length ≤ (ctx.withoutScripts.constants n node).length :=
  length_filterMap_le fun x _ => constant?_eq_or hk x

lemma length_connections_le :
    (node.inputs.zipIdx.filterMap (ctx.keptConnection? ctx.net.isScript n node)).length ≤
      (ctx.withoutScripts.connections n node).length :=
  length_filterMap_le fun x _ => keptConnection?_eq_or hk x

variable (hn : ctx.graph.net.node? n = some node)
include hn

/-- The calls for a layer: settings, constants, the layer and its connections. -/
lemma heardOf_eq_append : ctx.heardOf image n =
      (node.kind.settings ctx.background (imageName image)).map parameterCall ++
        ((ctx.constants n node).map parameterCall ++
          .shader ctx.entry.usage (node.kind.engineShader ctx.entry) (node.layerName n) ::
            node.inputs.zipIdx.filterMap (ctx.keptConnection? ctx.net.isScript n node)) := by
  rw [isScript_eq hn] at hk
  rw [heardOf_eq hn hk, LayerRecord.calls, ← append_assoc, ← map_append]
  rfl

lemma heardOf_withoutScripts_eq_append : ctx.withoutScripts.heardOf image n =
      (node.kind.settings ctx.background (imageName image)).map parameterCall ++
        ((ctx.withoutScripts.constants n node).map parameterCall ++
          .shader ctx.entry.usage (node.kind.engineShader ctx.entry) (node.layerName n) ::
            ctx.withoutScripts.connections n node) := by
  have hn' := (node?_withoutScripts_of_isScript hk).trans hn
  have hkept : ctx.withoutScripts.keptConnection? ctx.withoutScripts.net.isScript n node =
      ctx.withoutScripts.connection? n node := by
    funext x
    rw [isScript_withoutScripts_graph, keptConnection?_false]
  rw [connections, ← hkept]
  exact heardOf_eq_append (ctx.net.isScript_withoutScripts n) hn'

lemma length_heardOf_le :
    (ctx.heardOf image n).length ≤ (ctx.withoutScripts.heardOf image' n).length := by
  rw [heardOf_eq_append hk hn, heardOf_withoutScripts_eq_append hk hn]
  simp only [length_append, length_map, length_cons,
    node.kind.length_settings _ (imageName image) (imageName image')]
  have hconstants := @length_constants_le ctx n node hk
  have hconnections := @length_connections_le ctx n node hk
  omega

lemma sayable_withoutScripts (hquiet : ctx.QuietAt n) (h : ctx.Sayable ctx.net.isScript n node) :
    ctx.withoutScripts.Sayable (fun _ => false) n node := by
  intro x hx
  obtain ⟨hb, hc⟩ := h x hx
  cases hf : ctx.net.scriptFeeds n x.2 with
  | false =>
    exact ⟨(bindable_withoutScripts hk hf).2 hb, connectable_withoutScripts hk hf hc⟩
  | true =>
    have hn' : ctx.withoutScripts.net.node? n = some node :=
      node?_withoutScripts_eq_some_iff.2 ⟨hn, hk⟩
    refine ⟨(hquiet _ hf).bindable hn' hx, fun link hlink => ?_⟩
    rw [(hquiet _ hf).link?_eq_none] at hlink
    cases hlink

/-- The inputs that scripts feed are quiet exactly if the group says the same about every input. -/
lemma quietAt_iff_forall_input (hsay : ctx.withoutScripts.Sayable (fun _ => false) n node) :
    ctx.QuietAt n ↔ ∀ x ∈ node.inputs.zipIdx,
      ctx.constant? n node x = ctx.withoutScripts.constant? n node x ∧
        ctx.keptConnection? ctx.net.isScript n node x =
          ctx.withoutScripts.connection? n node x := by
  have hn' : ctx.withoutScripts.net.node? n = some node :=
    node?_withoutScripts_eq_some_iff.2 ⟨hn, hk⟩
  constructor
  · intro hquiet x hx
    cases hf : ctx.net.scriptFeeds n x.2 with
    | false =>
      exact ⟨(constant?_withoutScripts hk hf).symm, (connection?_withoutScripts hk hf).symm⟩
    | true =>
      obtain ⟨hconstant, hconnection⟩ :=
        (quiet_iff hn' hx (hsay x hx).1 (hsay x hx).2).1 (hquiet _ hf)
      rw [hconstant, hconnection]
      exact ⟨constant?_of_scriptFeeds hf, keptConnection?_of_scriptFeeds hf⟩
  · intro hsame i hf
    cases hinput : node.inputs[i]? with
    | none => exact .inl (by simp [skips, hn', hinput])
    | some input =>
      have hx : (input, i) ∈ node.inputs.zipIdx := mem_zipIdx_iff_getElem?.2 hinput
      obtain ⟨hconstant, hconnection⟩ := hsame _ hx
      apply (quiet_iff hn' hx (hsay _ hx).1 (hsay _ hx).2).2
      rw [← hconstant, ← hconnection]
      exact ⟨constant?_of_scriptFeeds hf, keptConnection?_of_scriptFeeds hf⟩

/-- The calls for a layer are those without scripts exactly if the inputs that scripts feed are
quiet and the image of the node, if it has one, gets the same number. -/
lemma heardOf_eq_heardOf_withoutScripts_iff
    (hsay : ctx.withoutScripts.Sayable (fun _ => false) n node) :
    ctx.heardOf image n = ctx.withoutScripts.heardOf image' n ↔
      ctx.QuietAt n ∧ (image = image' ∨ ctx.net.isImage n = false) := by
  have himage : ctx.net.isImage n = node.kind.imageSlot?.isSome := by
    rw [isImage, kind?_of_node? hn, any_some]
  rw [heardOf_eq_append hk hn, heardOf_withoutScripts_eq_append hk hn, himage,
    quietAt_iff_forall_input hk hn hsay]
  constructor
  · intro h
    obtain ⟨hsettings, hrest⟩ := append_inj h (by
      rw [length_map, length_map]
      exact node.kind.length_settings ..)
    -- the group says no more than without scripts, so in as many calls it says the same
    have hsame := congrArg length hrest
    simp only [length_append, length_map, length_cons] at hsame
    have hle := @length_constants_le ctx n node hk
    have hle' := @length_connections_le ctx n node hk
    have hconstants : (ctx.constants n node).length =
        (ctx.withoutScripts.constants n node).length := by
      omega
    have hconnections : (node.inputs.zipIdx.filterMap
        (ctx.keptConnection? ctx.net.isScript n node)).length =
          (ctx.withoutScripts.connections n node).length := by
      omega
    refine ⟨fun x hx => ⟨?_, ?_⟩, NodeKind.settings_imageName_eq_iff.1
      (parameterCall_injective.list_map hsettings)⟩
    · exact eq_of_length_filterMap_eq (fun x _ => constant?_eq_or hk x) hconstants x hx
    · exact eq_of_length_filterMap_eq (fun x _ => keptConnection?_eq_or hk x) hconnections x hx
  · rintro ⟨hsame, hi⟩
    rw [NodeKind.settings_imageName_eq_iff.2 hi, constants, constants, connections,
      filterMap_congr fun x hx => (hsame x hx).1,
      filterMap_congr fun x hx => (hsame x hx).2]

end

end

/-! ## Lists of nodes -/

section

variable {ctx : GroupContext} {n : NodeId} {node : Node} {image image' : Nat} {l l' : List NodeId}

/-- The engine hears nothing about scripts. -/
lemma heard_filter (ctx : GroupContext) (image : Nat) (l : List NodeId) :
    ctx.heard image (l.filter fun n => !ctx.net.isScript n) = ctx.heard image l := by
  induction l generalizing image with
  | nil => rfl
  | cons n l ih =>
    cases hn : ctx.net.isScript n with
    | false =>
      rw [filter_cons_of_pos (by simp [hn]), heard, heard, ih]
    | true =>
      rw [filter_cons_of_neg (by simp [hn]), heard, ih, heardOf, if_pos hn, isImage_of_isScript hn]
      rfl

/-- What is complete without scripts is a list of nodes that are no scripts. -/
lemma GroupContext.Complete.of_withoutScripts (h : ctx.withoutScripts.Complete l) (hn : n ∈ l) :
    ∃ node, ctx.net.node? n = some node ∧ ctx.net.isScript n = false ∧
      ctx.withoutScripts.Sayable (fun _ => false) n node := by
  obtain ⟨node, hn', hsay⟩ := h n hn
  obtain ⟨hn, hk⟩ := node?_withoutScripts_eq_some_iff.1 hn'
  rw [isScript_withoutScripts_graph] at hsay
  exact ⟨node, hn, hk, hsay ((isScript_eq hn).symm.trans hk)⟩

lemma GroupContext.Complete.withoutScripts (h : ctx.Complete l)
    (hfree : ∀ n ∈ l, ctx.net.isScript n = false) (hquiet : ∀ n ∈ l, ctx.QuietAt n) :
    ctx.withoutScripts.Complete l := by
  intro n hn
  obtain ⟨node, hnode, hsay⟩ := h n hn
  refine ⟨node, (node?_withoutScripts_of_isScript (hfree n hn)).trans hnode, fun hk => ?_⟩
  rw [isScript_withoutScripts_graph]
  exact sayable_withoutScripts (hfree n hn) hnode (hquiet n hn) (hsay hk)

lemma length_heard_le (h : ctx.withoutScripts.Complete l) :
    (ctx.heard image l).length ≤ (ctx.withoutScripts.heard image' l).length := by
  induction l generalizing image image' with
  | nil => exact le_rfl
  | cons n l ih =>
    obtain ⟨node, hn, hk, _⟩ := h.of_withoutScripts mem_cons_self
    rw [heard, heard, length_append, length_append]
    exact Nat.add_le_add (length_heardOf_le hk hn) (ih (forall_mem_cons.1 h).2)

/-- What the engine hears about nodes is what it hears about them without scripts exactly if all
inputs that scripts feed are quiet and images, if there are any, get the same numbers. -/
lemma heard_eq_heard_withoutScripts_iff (h : ctx.withoutScripts.Complete l) :
    ctx.heard image l = ctx.withoutScripts.heard image' l ↔ (∀ n ∈ l, ctx.QuietAt n) ∧
      (image = image' ∨ ∀ n ∈ l, ctx.net.isImage n = false) := by
  induction l generalizing image image' with
  | nil => simp [heard]
  | cons n l ih =>
    obtain ⟨node, hn, hk, hsay⟩ := h.of_withoutScripts mem_cons_self
    have hrest := (forall_mem_cons.1 h).2
    have hsplit : ctx.heard image (n :: l) = ctx.withoutScripts.heard image' (n :: l) ↔
        ctx.heardOf image n = ctx.withoutScripts.heardOf image' n ∧
          ctx.heard (if ctx.net.isImage n then image + 1 else image) l =
            ctx.withoutScripts.heard (if ctx.net.isImage n then image' + 1 else image')
              l := by
      have himage : ctx.withoutScripts.net.isImage n = ctx.graph.net.isImage n :=
        isImage_withoutScripts hk
      have hown := @length_heardOf_le ctx n node image image' hk hn
      rw [heard, heard, himage]
      refine ⟨fun heq => append_inj heq ?_, fun heq => by rw [heq.1, heq.2]⟩
      have hlength := congrArg length heq
      rw [length_append, length_append] at hlength
      have := @length_heard_le ctx (if ctx.graph.net.isImage n then image + 1 else image)
        (if ctx.graph.net.isImage n then image' + 1 else image') l hrest
      omega
    rw [hsplit, ih hrest, heardOf_eq_heardOf_withoutScripts_iff hk hn hsay, forall_mem_cons,
      forall_mem_cons]
    cases ctx.net.isImage n <;> simp <;> tauto

/-- The layers tell the nodes. -/
lemma eq_of_filterMap_layerName? (h : ctx.Complete l)
    (hfree : ∀ n ∈ l, ctx.net.isScript n = false) (h' : ctx.withoutScripts.Complete l')
    (heq : l.filterMap ctx.layerName? = l'.filterMap ctx.withoutScripts.layerName?) : l = l' := by
  have hname : ∀ n ∈ l, ∃ node : Node, ctx.layerName? n = some (node.layerName n) := by
    intro n hn
    obtain ⟨node, hnode, _⟩ := h n hn
    exact ⟨node, by simp [layerName?, hfree n hn, hnode]⟩
  have hname' : ∀ n ∈ l', ∃ node : Node,
      ctx.withoutScripts.layerName? n = some (node.layerName n) := by
    intro n hn
    obtain ⟨node, hnode, _⟩ := h' n hn
    exact ⟨node, by simp [layerName?, isScript_withoutScripts_graph, hnode]⟩
  clear h h' hfree
  induction l generalizing l' with
  | nil =>
    cases l' with
    | nil => rfl
    | cons m l' =>
      obtain ⟨node, hm⟩ := hname' m mem_cons_self
      rw [filterMap_cons_some hm] at heq
      cases heq
  | cons n l ih =>
    obtain ⟨⟨node, hn⟩, hrest⟩ := forall_mem_cons.1 hname
    rw [filterMap_cons_some hn] at heq
    cases l' with
    | nil => cases heq
    | cons m l' =>
      obtain ⟨⟨node', hm⟩, hrest'⟩ := forall_mem_cons.1 hname'
      rw [filterMap_cons_some hm, cons.injEq] at heq
      rw [Node.eq_of_layerName_eq heq.1, ih heq.2 hrest hrest']

/-! ## Groups -/

/-- Without scripts, an input is fed as before unless it was fed by a script. -/
lemma source?_withoutScripts (hk : ctx.net.isScript n = false) (hquiet : ctx.QuietAt n)
    (i : Nat) : ctx.withoutScripts.net.source? ctx.withoutScripts.skips n i =
      (ctx.net.source? ctx.skips n i).filter fun d => !ctx.net.isScript d := by
  rw [source?, source?]
  cases hf : ctx.net.scriptFeeds n i with
  | false =>
    have hlink : ctx.withoutScripts.net.inputLink? n i = ctx.net.inputLink? n i :=
      inputLink?_withoutScripts hk hf
    rw [skips_withoutScripts hk hf, hlink]
    split
    · rfl
    · rw [scriptFeeds] at hf
      cases hl : ctx.net.inputLink? n i with
      | none => rfl
      | some l =>
        rw [hl, any_some] at hf
        rw [map_some, filter_some, if_pos (by simp [hf])]
  | true =>
    obtain ⟨l, hl, hscript⟩ := scriptFeeds_iff.1 hf
    have hnone : (if ctx.withoutScripts.skips n i then none
        else (ctx.withoutScripts.net.inputLink? n i).map Prod.fst) = none := by
      rcases hquiet i hf with hskip | ⟨hfree, _⟩
      · rw [if_pos hskip]
      · rw [hfree]
        split <;> rfl
    rw [hnone, hl]
    split
    · rfl
    · rw [map_some, filter_some, if_neg (by simp [hscript])]

/-- Without scripts, a node depends on what it depended on before, scripts apart. -/
lemma sources_withoutScripts (hk : ctx.net.isScript n = false) (hquiet : ctx.QuietAt n) :
    ctx.withoutScripts.sources n = (ctx.sources n).filter fun d => !ctx.net.isScript d := by
  have hnode : ctx.withoutScripts.net.node? n = ctx.net.node? n :=
    node?_withoutScripts_of_isScript hk
  rw [GroupContext.sources, GroupContext.sources, Network.sources, Network.sources, hnode]
  cases ctx.net.node? n with
  | none => rfl
  | some node =>
    rw [filter_filterMap]
    exact filterMap_congr fun i _ => source?_withoutScripts hk hquiet i

lemma SourcesFirst.filter {sources sources' : NodeId → List NodeId} {p : NodeId → Bool}
    (h : SourcesFirst sources l)
    (hsources : ∀ n ∈ l.filter p, ∀ d ∈ sources' n, d ∈ sources n ∧ p d = true) :
    SourcesFirst sources' (l.filter p) := by
  intro before n after heq d hd
  obtain ⟨hd, hp⟩ := hsources n (by simp [heq]) d hd
  obtain ⟨l₁, l₂, rfl, rfl, hl₂⟩ := filter_eq_append_iff.1 heq
  obtain ⟨l₃, l₄, rfl, hl₃, _, _⟩ := filter_eq_cons_iff.1 hl₂
  have hmem : d ∈ l₁ ++ l₃ := h (l₁ ++ l₃) n l₄ (by simp) d hd
  rcases mem_append.1 hmem with hmem | hmem
  · exact mem_filter.2 ⟨hmem, hp⟩
  · exact absurd hp (hl₃ d hmem)

lemma terminal?_withoutScripts (hout : ctx.net.isScript ctx.graph.output = false) :
    ctx.withoutScripts.terminal? = ctx.terminal? :=
  congrArg (bind · _) (node?_withoutScripts_of_isScript hout)

/-- If no other node feeds a script, then leaving out scripts leaves the other nodes of a group as
they are. -/
lemma GroupContext.body_withoutScripts (hout : ctx.net.isScript ctx.graph.output = false)
    (hquiet : ∀ n, ctx.net.isScript n = false → ctx.QuietAt n)
    (hfeeds : ∀ n, ∀ d ∈ ctx.sources n, ctx.net.isScript d = false → ctx.net.isScript n = false) :
    ctx.withoutScripts.body = ctx.body.filter fun n => !ctx.net.isScript n := by
  rw [body, body, terminal?_withoutScripts hout]
  cases ctx.terminal? with
  | none => rfl
  | some i =>
    have hkept : ∀ n, (!ctx.net.isScript n) = true → ctx.withoutScripts.sources n =
        (ctx.sources n).filter fun d => !ctx.net.isScript d := by
      intro n hn
      rw [Bool.not_eq_true'] at hn
      exact sources_withoutScripts hn (hquiet n hn)
    refine filter_dependencies Array.size_map hkept ?_
      (source?_withoutScripts hout (hquiet _ hout) i)
    simpa using hfeeds

/-- A group in which scripts are left out is the group of the network without scripts exactly if its
other nodes are the same, nothing is said about inputs that scripts feed, and images get the same
numbers. -/
theorem GroupContext.heard_withoutScripts_iff {r r' : Recorder} (h : ctx.Tellable r image)
    (hlayers : r'.layers = r.layers) (hout : ctx.net.isScript ctx.graph.output = false) :
    ctx.withoutScripts.Tellable r' image' ∧
        ctx.withoutScripts.heard image' ctx.withoutScripts.members = ctx.heard image ctx.members ↔
      ctx.withoutScripts.body = ctx.body.filter (fun n => !ctx.net.isScript n) ∧
        (∀ n ∈ ctx.withoutScripts.members, ctx.QuietAt n) ∧
          (image = image' ∨ ∀ n ∈ ctx.withoutScripts.members, ctx.net.isImage n = false) := by
  have hfilter : ctx.members.filter (fun n => !ctx.net.isScript n) =
      ctx.body.filter (fun n => !ctx.net.isScript n) ++ [ctx.graph.output] := by
    rw [members, filter_append, filter_cons_of_pos (by simp [hout]), filter_nil]
  have hmembers : ctx.withoutScripts.members = ctx.withoutScripts.body ++ [ctx.graph.output] := rfl
  set others := ctx.members.filter fun n => !ctx.net.isScript n
  have hfree : ∀ n ∈ others, ctx.net.isScript n = false := by
    intro n hn
    simpa using (mem_filter.1 hn).2
  have hcomplete : ctx.Complete others := fun n hn => h.complete n (mem_filter.1 hn).1
  have hheard : ctx.heard image ctx.members = ctx.heard image others := (heard_filter ..).symm
  rw [hheard]
  constructor
  · rintro ⟨h', heq⟩
    have hnames := congrArg (filterMap EngineCall.layer?) heq
    rw [filterMap_layer_heard, filterMap_layer_heard] at hnames
    have hsame := eq_of_filterMap_layerName? hcomplete hfree h'.complete hnames.symm
    rw [hsame, eq_comm, heard_eq_heard_withoutScripts_iff h'.complete] at heq
    refine ⟨?_, heq⟩
    rw [hsame, hmembers] at hfilter
    exact append_cancel_right hfilter
  · rintro ⟨hbody, hquiet, himage⟩
    have hsame : ctx.withoutScripts.members = others := by rw [hmembers, hbody, hfilter]
    rw [hsame] at hquiet himage ⊢
    have hcomplete' := hcomplete.withoutScripts hfree hquiet
    have heq := (heard_eq_heard_withoutScripts_iff hcomplete').2 ⟨hquiet, himage⟩
    refine ⟨⟨?_, ?_, ?_, ?_⟩, heq.symm⟩
    · rw [terminal?_withoutScripts hout]
      exact h.terminal
    · rw [hbody]
      refine h.ordered.filter fun n hn d hd => ?_
      have hmem : n ∈ others := by
        rw [hfilter]
        exact mem_append_left _ hn
      rw [sources_withoutScripts (hfree n hmem) (hquiet n hmem)] at hd
      exact mem_filter.1 hd
    · rw [hsame]
      exact hcomplete'
    · rw [hsame, ← heq, ← hheard, Recorder.takesAll_congr hlayers]
      exact h.takes

end

/-! ## Compilations -/

namespace GroupResults

variable {sh : Shader} {background : Bool} {res : GroupResults}

/-- Whether a surface has a group is settled before its normal. -/
lemma get?_surface_before_bump :
    (res.before sh background .bump).groups.get? .surface =
      (res.addAll sh background).groups.get? .surface := by
  have hlater : EntryPoint.surface ∉ [EntryPoint.bump, .volume, .displacement] := by decide
  exact (get?_foldl_of_not_mem hlater).symm

lemma admits_before_iff {e : EntryPoint} :
    (res.before sh background e).Admits sh e ↔ sh.isTerminalLinked e = true ∧
      (e = .bump → ((res.addAll sh background).groups.get? .surface).isSome = true) := by
  refine and_congr_right fun _ => forall_congr' fun he => ?_
  rw [he, get?_surface_before_bump]

end GroupResults

namespace Shader

def groupStart (s : Shader) (host : EngineHost) : GroupResults :=
  { host, flags := { hasBump := s.needsBump, hasBssrdfBump := s.needsBump } }

/-- The groups of a shader whose scripts are removed after the shader was prepared. -/
def groupsWithoutScripts (s : Shader) (background : Bool) (host : EngineHost) : GroupResults :=
  (s.groupStart host).addAll s.prepare.withoutScripts background

/-- The calls for the group of an entry point are those for its group without scripts. -/
def OmitsScripts (s : Shader) (background : Bool) (host : EngineHost) (e : EntryPoint) : Prop :=
  ∃ group group', (s.compileGroups background host).1.program.groups.get? e = some group ∧
    (s.groupsWithoutScripts background host).groups.get? e = some group' ∧
    EngineCall.ofGroup group ((s.compileGroups background host).2.2.callsSince host) =
      EngineCall.ofGroup group' ((s.groupsWithoutScripts background host).host.callsSince host)

variable {s : Shader} {background : Bool} {host : EngineHost} {e : EntryPoint}

/-- An output node with a linked terminal is no script. -/
lemma isScript_output_of_withoutScripts (h : s.withoutScripts.isTerminalLinked e = true) :
    s.graph.net.isScript s.graph.output = false := by
  obtain ⟨l, hl⟩ := isSome_iff_exists.1 h
  obtain ⟨node, hnode, _⟩ := bind_eq_some_iff.1 hl
  exact (node?_withoutScripts_eq_some_iff.1 hnode).2

/-- If none of the scripts of a shader can be loaded, the group of an entry point that stays linked
without them consists of the layers of its other nodes, and nothing is said in it about inputs that
scripts feed.  This is the group without scripts exactly if the other nodes are the same, nothing is
said about those inputs there either, images are numbered alike, and, for a normal, the surface has
a group as well.  The other nodes are the same if none of them feeds a script. -/
theorem omitsScripts_iff (hclosed : host.recorder.openGroup = none)
    (hrefuses : host.Refuses s.prepare.graph.net.Scripts)
    (hlinked : s.prepare.withoutScripts.isTerminalLinked e = true)
    (hgroup : ((s.compileGroups background host).1.program.groups.get? e).isSome = true) :
    let ctx := s.prepare.groupContext background e
    let images := fun sh => ((s.groupStart host).before sh background e).host.textures.slots.size
    (∃ group, (s.compileGroups background host).1.program.groups.get? e = some group ∧
      EngineCall.ofGroup group ((s.compileGroups background host).2.2.callsSince host) =
        ctx.heard (images s.prepare) ctx.members) ∧
    (s.OmitsScripts background host e ↔
      (e = .bump → ((s.groupsWithoutScripts background host).groups.get? .surface).isSome = true) ∧
        ctx.withoutScripts.body = ctx.body.filter (fun n => !ctx.graph.net.isScript n) ∧
          (∀ n ∈ ctx.withoutScripts.members, ctx.QuietAt n) ∧
            (images s.prepare = images s.prepare.withoutScripts ∨
              ∀ n ∈ ctx.withoutScripts.members, ctx.graph.net.isImage n = false)) ∧
    ((∀ n, ctx.graph.net.isScript n = false → ctx.QuietAt n) →
      (∀ n, ∀ d ∈ ctx.sources n, ctx.graph.net.isScript d = false →
        ctx.graph.net.isScript n = false) →
      ctx.withoutScripts.body = ctx.body.filter fun n => !ctx.graph.net.isScript n) := by
  intro ctx images
  have hout : s.prepare.graph.net.isScript s.prepare.graph.output = false :=
    isScript_output_of_withoutScripts hlinked
  have hfree := s.prepare.graph.net.isScript_withoutScripts
  have hrefuses' : host.Refuses s.prepare.withoutScripts.graph.net.Scripts := .of_isScript hfree
  have htold := fun group' => @GroupResults.tellable_of_get?_addAll s.prepare.withoutScripts
    background (s.groupStart host) e hclosed rfl hrefuses' (hfree _) group'
  obtain ⟨group, hgroup⟩ := Option.isSome_iff_exists.1 hgroup
  obtain ⟨_, htellable, hheard⟩ := @GroupResults.tellable_of_get?_addAll s.prepare background
    (s.groupStart host) e hclosed rfl hrefuses hout group hgroup
  have hiff := @heard_withoutScripts_iff ctx (images s.prepare) (images s.prepare.withoutScripts) _
    (((s.groupStart host).before s.prepare.withoutScripts background e).host.recorder.begun s.name)
    htellable ((Recorder.layers_begun ..).trans (Recorder.layers_begun ..).symm) hout
  refine ⟨⟨group, hgroup, hheard⟩, ?_, body_withoutScripts hout⟩
  constructor
  · rintro ⟨_, group', hfound, hget, hsame⟩
    cases hgroup.symm.trans hfound
    obtain ⟨hadmits, htellable', hheard'⟩ := htold group' hget
    refine ⟨(GroupResults.admits_before_iff.1 hadmits).2, hiff.1 ⟨htellable', ?_⟩⟩
    exact hheard'.symm.trans (hsame.symm.trans hheard)
  · rintro ⟨hbump, h⟩
    obtain ⟨htellable', hsame⟩ := hiff.2 h
    obtain ⟨group', hget⟩ := @GroupResults.exists_get?_addAll s.prepare.withoutScripts background
      (s.groupStart host) e hclosed rfl hfree (GroupResults.admits_before_iff.2 ⟨hlinked, hbump⟩)
      htellable'
    obtain ⟨_, _, hheard'⟩ := htold group' hget
    exact ⟨group, group', hgroup, hget, hheard.trans (hsame.symm.trans hheard'.symm)⟩

/-- A diffuse surface, a script that was never registered, and a sum of surfaces. -/
def scripted (ty : SocketType) (links : List Link) : Shader :=
  let net := ((Graph.new.net.addNode (.ofKind .diffuseBsdf)).2.addNode
    ⟨.script (.bytecode "missing"), [], [⟨"Out", ty⟩]⟩).2
  withGraph "" { Graph.new with
    net := links.foldl addLink (net.addNode (.ofKind .addClosure)).2 }

/-- The script is added to the surface. -/
def scriptedClosure : Shader := scripted .closure [⟨1, 0, 3, 0⟩, ⟨2, 0, 3, 1⟩, ⟨3, 0, 0, 0⟩]

/-- The script gives the roughness of the surface. -/
def scriptedRoughness : Shader := scripted .float [⟨1, 0, 3, 0⟩, ⟨2, 0, 1, 1⟩, ⟨3, 0, 0, 0⟩]

lemma refuses_of_missing (h : ∀ n < s.prepare.graph.net.nodes.size,
    s.prepare.graph.net.isScript n = true →
      s.prepare.graph.net.kind? n = some (.script (.bytecode "missing"))) :
    EngineHost.blank.Refuses s.prepare.graph.net.Scripts := by
  refine EngineHost.refuses_of_not_isLoaded fun source hsource => ?_
  obtain ⟨n, hn⟩ := hsource
  have hscript : s.prepare.graph.net.isScript n = true := by
    rw [isScript, hn]
    rfl
  cases hn.symm.trans (h n (lt_size_of_kind? hn) hscript)
  exact ⟨"missing", rfl, by decide⟩

/-- A closure that is left out is as if it were not there, a roughness is not. -/
theorem scripted_omitsScripts : scriptedClosure.OmitsScripts false .blank .surface ∧
    ¬ scriptedRoughness.OmitsScripts false .blank .surface := by
  have hclosure := (@omitsScripts_iff scriptedClosure false .blank .surface rfl
    (refuses_of_missing (by decide +kernel)) (by decide +kernel) (by decide +kernel)).2.1
  have hroughness := (@omitsScripts_iff scriptedRoughness false .blank .surface rfl
    (refuses_of_missing (by decide +kernel)) (by decide +kernel) (by decide +kernel)).2.1
  rw [hclosure, hroughness]
  decide +kernel

end Shader

end Shading
