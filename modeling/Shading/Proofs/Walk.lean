import Shading.Proofs.Settled
import Shading.Proofs.StepRelations
import Shading.Proofs.Upstream

/-!
# What every step of the walk keeps

`Walk` is the invariant of the walk over closures.  Besides being settled, the section knows which
jumps are open, which mixes are in progress, that sources of done nodes are done unless they are
idle, that no value that is still to be read by a node of use stands behind a jump, and that every
done leaf has exactly one closure.

`Onward` relates a section to a later one: lines are only appended, they belong to nodes that were
not done, and every node that got done is upstream of where the steps started, through nodes that
were not done.  Emitting a set of nodes and emitting a leaf are such steps.
-/

namespace Shading

open Emit SectionContext List Network OrderedSet Stack

/-! ## Scheduling -/

section Scheduling

variable {ε σ : Type} {rank : NodeId → Nat} {w : Emission ε σ} {I : σ → Prop} {E : ε → Prop}
  {nodes : List NodeId} {s : σ}

/-- A node that is ready is emitted, and nodes that are done stay done. -/
def Emits (w : Emission ε σ) (I : σ → Prop) (E : ε → Prop) (nodes : List NodeId) : Prop :=
  ∀ id ∈ nodes, ∀ s, I s → w.isDone s id = false → w.isReady s id = true →
    Triple (· = s) (w.emit id)
      (fun _ s' => I s' ∧ w.isDone s' id = true ∧ w.Keeps s s') fun e _ => E e

/-- Of nodes whose sources are done or among them, some node is ready. -/
lemma not_forall_isReady_eq_false
    (hrank : ∀ {n d}, d ∈ w.sources n → rank d < rank n) {n : NodeId} (hn : n ∈ nodes)
    (hclosed : ∀ n ∈ nodes, ∀ d ∈ w.sources n, w.isDone s d = true ∨ d ∈ nodes) :
    ¬ ∀ n ∈ nodes, w.isReady s n = false := by
  intro hwaits
  induction hr : rank n using Nat.strong_induction_on generalizing n with
  | _ r ih =>
    obtain ⟨d, hd, hnot⟩ := all_eq_false.1 (hwaits n hn)
    have hlt := hrank hd
    exact ih (rank d) (hr ▸ hlt) ((hclosed n hn d hd).resolve_left hnot) rfl

/-- Scheduling nodes whose sources are done or among them emits all of them. -/
lemma triple_run (hw : Emits w I E nodes)
    (hrank : ∀ {n d}, d ∈ w.sources n → rank d < rank n) (hs : I s)
    (hclosed : ∀ n ∈ nodes, ∀ d ∈ w.sources n, w.isDone s d = true ∨ d ∈ nodes) (passes : Nat) :
    Triple (· = s) (w.run nodes passes)
      (fun _ s' => I s' ∧ (∀ n ∈ nodes, w.isDone s' n = true) ∧ w.Keeps s s') fun e _ => E e := by
  rintro s rfl
  have hemit : ∀ n ∈ nodes, ∀ s t, I s → w.isDone s n = false → w.isReady s n = true →
      w.emit n s = .ok ⟨⟩ t → I t ∧ w.isDone t n = true ∧ w.Keeps s t :=
    fun n hn s t hs hnew hready => (hw n hn s hs hnew hready).of_ok rfl
  obtain ⟨_, t, _, hrun, h⟩ | ⟨rest, t, _, hrun, h, hne, hwaits⟩ |
    ⟨e, _, hrun, _, t, n, hn, hsub, hruns, hnew, hready, herr⟩ := w.run_spec nodes passes s
  · rw [hrun]
    obtain ⟨hI, hkeeps, hall⟩ := h.keeps hemit hs
    exact ⟨hI, fun n hn => (hall n hn).resolve_left not_mem_nil, hkeeps⟩
  · obtain ⟨_, hkeeps, hall⟩ := h.keeps hemit hs
    obtain ⟨n, hn⟩ := exists_mem_of_ne_nil _ hne
    refine absurd (fun n hn => (hwaits n hn).2) (not_forall_isReady_eq_false hrank hn
      fun n hn d hd => ?_)
    exact (hclosed n (h.sublist.subset hn) d hd).elim (fun h => .inl (hkeeps d h))
      fun h => (hall d h).symm
  · have ht : I t := hruns.inv (fun n hn s t hs hnew hready h =>
      (hemit n (hsub hn) s t hs hnew hready h).1) hs
    rw [hrun]
    exact (hw n hn t ht hnew hready).of_error rfl herr

end Scheduling

/-! ## Regions -/

/-- The jump over a side of a mix. -/
def Side.jump : Side → Opcode
  | .first => .jumpIfOne
  | .second => .jumpIfZero

lemma Side.jump_eq (side : Side) : side.jump = .jumpIfOne ∨ side.jump = .jumpIfZero := by
  cases side
  · exact .inl rfl
  · exact .inr rfl

/-- A jump over a side of a mix, and its target.  Every closure path from the root to a closure in
between takes that side. -/
structure Region (ctx : SectionContext) (root : NodeId) (lines : List Line) (r : Nat × Nat) :
    Prop where
  later : r.1 < r.2
  jump : ∃ n side slot, ctx.graph.net.kind? n = some .mixClosure ∧ slot < Stack.size ∧
    lines[r.1]? = some (jumpLine n (Side.jump side)
      (Int32.ofNat (position lines r.2 - position lines r.1 - 1)) slot) ∧
    ∀ p l, r.1 < p → p < r.2 → lines[p]? = some l → l.effect = .closure →
      ∀ π, ctx.graph.net.ClosurePath root π l.node → (n, side) ∈ π

section

variable {lines new : List Line} {p a : Nat} {distance : Int32}

lemma position_append (h : p ≤ lines.length) : position (lines ++ new) p = position lines p := by
  rw [position, position, take_append_of_le_length h]

/-- What a patch does not change can be read off the lines before it. -/
lemma map_patch {α : Type} {f : Line → α} (hf : ∀ l, f (l.patch distance) = f l) :
    (lines.modify a fun l => l.patch distance).map f = lines.map f := by
  refine ext_getElem? fun p => ?_
  rw [getElem?_map, getElem?_map, getElem?_modify]
  cases lines[p]? with
  | none => rfl
  | some l =>
    split
    · exact congrArg some (hf l)
    · rfl

lemma position_patch : position (lines.modify a fun l => l.patch distance) p = position lines p := by
  rw [position, position, map_take, map_take, map_patch fun l => length_words_patch l _]

lemma countP_patch (p : NodeId × Effect → Bool) :
    (lines.modify a fun l => l.patch distance).countP (fun l => p (l.node, l.effect)) =
      lines.countP fun l => p (l.node, l.effect) := by
  have h : (lines.modify a fun l => l.patch distance).map (fun l => (l.node, l.effect)) =
      lines.map fun l => (l.node, l.effect) := map_patch fun l => by rw [effect_patch]; rfl
  simpa only [countP_map, Function.comp_def] using congrArg (countP p) h

lemma Weighed.append {q : Nat} (h : Weighed lines p q) : Weighed (lines ++ new) p q := by
  obtain ⟨hpq, ⟨w, l, hw, hl, hnode, hweight⟩, hplain⟩ := h
  have hlt := (List.getElem?_eq_some_iff.1 hl).1
  refine ⟨hpq, ⟨w, l, ?_, ?_, hnode, hweight⟩, fun k l' hpk hkq hk => hplain k l' hpk hkq ?_⟩
  · rwa [getElem?_append_left (by omega)]
  · rwa [getElem?_append_left hlt]
  · rwa [getElem?_append_left (by omega)] at hk

lemma Weighed.patch {q : Nat} (h : Weighed lines p q) :
    Weighed (lines.modify a fun l => l.patch distance) p q := by
  obtain ⟨hpq, ⟨w, l, hw, hl, hnode, hweight⟩, hplain⟩ := h
  have hget : ∀ {k : Nat} {l : Line}, lines[k]? = some l →
      ∃ l' : Line, (lines.modify a fun l => l.patch distance)[k]? = some l' ∧ l'.node = l.node ∧
        l'.effect = l.effect := by
    intro k l hk
    rw [getElem?_modify, hk]
    by_cases e : a = k
    · exact ⟨l.patch distance, by simp [e], rfl, effect_patch ..⟩
    · exact ⟨l, by simp [e], rfl, rfl⟩
  obtain ⟨w', hw', hwnode, hweffect⟩ := hget hw
  obtain ⟨l', hl', hlnode, _⟩ := hget hl
  refine ⟨hpq, ⟨w', l', hw', hl', by rw [hwnode, hlnode, hnode], hweffect.trans hweight⟩, ?_⟩
  intro k m hpk hkq hm
  obtain ⟨m', hm', _, heffect, _⟩ := getElem?_patch hm
  exact heffect ▸ hplain k m' hpk hkq hm'

/-- Among lines of a node of which one sets a weight and one is a closure, in this order, the weight
is set for the closure. -/
lemma exists_weighed {n : NodeId} (hnode : ∀ l ∈ new, l.node = n)
    (hc : (new.filter (·.effect ≠ .plain)).map Line.effect = [.weight, .closure]) {q : Nat} {l : Line}
    (hl : new[q]? = some l) (he : l.effect = .closure) :
    ∃ p, Weighed (lines ++ new) (lines.length + p) (lines.length + q) := by
  obtain ⟨before, after, rfl, rfl⟩ : ∃ before after, new = before ++ l :: after ∧
      before.length = q := by
    obtain ⟨hlt, hget⟩ := List.getElem?_eq_some_iff.1 hl
    refine ⟨new.take q, new.drop (q + 1), ?_, length_take_of_le hlt.le⟩
    rw [← hget, cons_getElem_drop_succ, take_append_drop]
  rw [filter_append, map_append, filter_cons_of_pos (by simp [he]), map_cons, he] at hc
  obtain ⟨w, hfilter, hw⟩ : ∃ w, before.filter (·.effect ≠ .plain) = [w] ∧ w.effect = .weight := by
    cases hf : before.filter (·.effect ≠ .plain) with
    | nil =>
      rw [hf] at hc
      simp at hc
    | cons w rest =>
      rw [hf] at hc
      cases rest with
      | nil => exact ⟨w, rfl, (cons.inj hc).1⟩
      | cons => simp at hc
  obtain ⟨a, b, rfl, _, _, hb⟩ := filter_eq_cons_iff.1 hfilter
  have hb := filter_eq_nil_iff.1 hb
  refine ⟨a.length, ⟨by simp, ⟨w, l, by simp, by simp, ?_, hw⟩, fun k m hpk hkq hm => ?_⟩⟩
  · rw [hnode w (by simp), hnode l (by simp)]
  · obtain ⟨i, rfl⟩ : ∃ i, k = lines.length + (a.length + (i + 1)) :=
      ⟨k - lines.length - a.length - 1, by omega⟩
    rw [length_append, length_cons] at hkq
    rw [getElem?_append_right (by omega), Nat.add_sub_cancel_left, append_assoc,
      getElem?_append_right (by omega), Nat.add_sub_cancel_left, cons_append, getElem?_cons_succ,
      getElem?_append_left (by omega)] at hm
    simpa using hb m (mem_of_getElem? hm)

variable {ctx : SectionContext} {root : NodeId} {r : Nat × Nat}

lemma Region.grow (h : Region ctx root lines r) (hr : r.2 ≤ lines.length) :
    Region ctx root (lines ++ new) r := by
  obtain ⟨hlt, n, side, slot, hk, hslot, hline, hpath⟩ := h
  refine ⟨hlt, n, side, slot, hk, hslot, ?_, fun p l hp hp' hl => hpath p l hp hp' ?_⟩
  · rw [position_append hr, position_append (by omega), getElem?_append_left (by omega), hline]
  · rwa [getElem?_append_left (by omega)] at hl

/-- Other jumps that get their targets do not matter. -/
lemma Region.patch (h : Region ctx root lines r) (ha : r.1 ≠ a) :
    Region ctx root (lines.modify a fun l => l.patch distance) r := by
  obtain ⟨hlt, n, side, slot, hk, hslot, hline, hpath⟩ := h
  refine ⟨hlt, n, side, slot, hk, hslot, ?_, fun p l hp hp' hl hc π => ?_⟩
  · rw [position_patch, position_patch, getElem?_modify, hline]
    simp [Ne.symm ha]
  · obtain ⟨l', hl', hn, hc', _⟩ := getElem?_patch hl
    rw [← hn]
    exact hpath p l' hp hp' hl' (hc'.trans hc) π

end

/-! ## The invariant -/

/-- Every closure has its weight set before it, and no jump with a target leads to a place in
between. -/
def Outline.Weighs (G : Outline) : Prop :=
  ∀ q l, G.lines[q]? = some l → l.effect = .closure →
    ∃ p, Weighed G.lines p q ∧ ∀ r ∈ G.regions, p < r.2 → q < r.2

lemma Outline.Weighs.grow {G : Outline} {new : List Line} (h : G.Weighs)
    (hb : ∀ r ∈ G.regions, r.2 ≤ G.lines.length)
    (hnew : ∀ q l, new[q]? = some l → l.effect = .closure →
      ∃ p, Weighed (G.lines ++ new) (G.lines.length + p) (G.lines.length + q)) :
    (G.grow new).Weighs := by
  intro q l hl he
  rw [Outline.grow, getElem?_append] at hl
  split at hl
  · obtain ⟨p, hw, hr⟩ := h q l hl he
    exact ⟨p, hw.append, hr⟩
  · obtain ⟨p, hw⟩ := hnew _ l hl he
    refine ⟨_, Nat.add_sub_cancel' (Nat.le_of_not_lt ‹_›) ▸ hw, fun r hr hlt => ?_⟩
    have := hb r hr
    omega

lemma Outline.Weighs.close {G : Outline} {a : Nat} {distance : Int32} {behind : Set NodeId}
    (h : G.Weighs) : (G.close a distance behind).Weighs := by
  intro q l hl he
  obtain ⟨l', hl', _, he', _⟩ := getElem?_patch hl
  obtain ⟨p, hw, hr⟩ := h q l' hl' (he'.trans he)
  refine ⟨p, hw.patch, fun r hmem hlt => ?_⟩
  obtain rfl | hmem := mem_cons.1 hmem
  · exact (List.getElem?_eq_some_iff.1 hl').1
  · exact hr r hmem hlt

/-- What a section is built from: a valid graph and a node that feeds a terminal. -/
structure SectionContext.Rooted (ctx : SectionContext) (root : NodeId) : Prop where
  valid : ctx.graph.net.Valid
  output : ctx.graph.net.kind? ctx.graph.output = some .output
  root : ∃ k, ctx.graph.net.kind? root = some k ∧ k ≠ .output

/-- The invariant of the walk: `opens` are the jumps without a target, `busy` the closures in
progress. -/
structure Walk (ctx : SectionContext) (root : NodeId) (T : List (Written × SlotRange))
    (opens : List Nat) (busy : List NodeId) (G : Outline) (s : SectionState) : Prop where
  settled : Settled ctx (ctx.OfUse root) T G s
  weight : s.mixWeight = invalid
  hidden : ∀ n ∈ G.hidden, n ∈ s.done ∧ n ≠ root
  closed : ∀ n ∈ s.done, ∀ d ∈ ctx.sources n, d ∈ s.done ∨ ctx.Idle d
  /-- What a node of use is still to read does not stand behind a jump. -/
  seen : ∀ {n i d o}, n ∉ s.done → Way ctx.sources (fun x => ¬ ctx.Idle x) root n →
    ctx.link? n i = some (d, o) → ctx.inputSize (n, i) ≠ 0 → d ∈ s.done → d ∉ G.hidden
  upstream : ∀ n ∈ s.done, Way ctx.sources (fun _ => True) root n
  visited : ∀ n ∈ s.done, ctx.IsLeaf n ∨ ctx.Combines n ∧ ¬ ctx.Idle n → n ∈ s.closureDone
  begun : ∀ n ∈ s.closureDone, n ∈ s.done ∨ n ∈ busy
  closures : ∀ n, G.lines.countP (fun l => l.node = n ∧ l.effect = .closure) =
    if n ∈ s.done then (closureEffects ctx n).count .closure else 0
  weighs : G.Weighs
  jumps : ∀ a l, G.lines[a]? = some l → l.effect = .jump → a ∈ opens ∨ ∃ t, (a, t) ∈ G.regions
  opened : ∀ a ∈ opens, a < G.lines.length ∧ ∀ r ∈ G.regions, r.1 ≠ a
  regions : ∀ r ∈ G.regions, Region ctx root G.lines r

/-- A later section: lines were appended for nodes that were not done, and every node that got done
is upstream of a start, through nodes that were not done. -/
structure Onward (ctx : SectionContext) (starts : NodeId → Prop) (G : Outline) (s : SectionState)
    (G' : Outline) (s' : SectionState) : Prop where
  lines : ∃ new, G'.lines = G.lines ++ new ∧ ∀ l ∈ new, l.node ∉ s.done
  done : ∀ n ∈ s.done, n ∈ s'.done
  begun : ∀ n ∈ s.closureDone, n ∈ s'.closureDone
  fresh : ∀ n ∈ s'.done, n ∈ s.done ∨ ∃ x, starts x ∧ Way ctx.sources (· ∉ s.done) x n

/-- The walk has come to a later section. -/
def Later (ctx : SectionContext) (root : NodeId) (T : List (Written × SlotRange))
    (opens : List Nat) (busy : List NodeId) (starts : NodeId → Prop) (G : Outline)
    (s s' : SectionState) : Prop :=
  ∃ G', Walk ctx root T opens busy G' s' ∧ Onward ctx starts G s G' s'

variable {ctx : SectionContext} {root n : NodeId} {T : List (Written × SlotRange)}
  {opens : List Nat} {busy : List NodeId} {G G' G'' : Outline} {s s' s'' : SectionState}
  {starts starts' P useful : NodeId → Prop}

lemma Way.eq_or_mem {next : NodeId → List NodeId} {a c : NodeId}
    (w : Way next P a c) : c = a ∨ ∃ b, c ∈ next b := by
  induction w with
  | here _ => exact .inl rfl
  | step _ hab _ ih => exact .inr (ih.elim (fun e => ⟨_, e ▸ hab⟩) id)

/-- What is upstream of the root is there, and it is not the output node. -/
lemma SectionContext.Rooted.exists_kind? (hr : ctx.Rooted root)
    (w : Way ctx.sources P root n) : ∃ k, ctx.net.kind? n = some k ∧ k ≠ .output := by
  obtain rfl | ⟨y, hy⟩ := w.eq_or_mem
  · exact hr.root
  · exact kind?_source hr.valid hy

lemma SectionContext.Rooted.kind?_ne (hr : ctx.Rooted root)
    (w : Way ctx.sources P root n) : ctx.net.kind? n ≠ some .output := by
  obtain ⟨k, hk, hne⟩ := hr.exists_kind? w
  rw [hk]
  simpa using hne

/-- Only the code, the tables and the nodes that are done matter between two nodes. -/
lemma Settled.congr (h : Settled ctx useful T G s)
    (hcode : s'.code = s.code) (ho : s'.outputSlots = s.outputSlots)
    (hi : s'.inputSlots = s.inputSlots) (hc : s'.stack = s.stack)
    (hd : ∀ n ∈ s.done, n ∈ s'.done) (hw : ctx.wanted s'.done ⊆ ctx.wanted s.done) :
    Settled ctx useful T G s' := by
  refine ⟨hcode ▸ h.text, fun id => ?_, hi ▸ h.unloaded, fun a ha => ho ▸ h.held a (hw ha)⟩
  refine Slots.settle ((h.slots id).congr ho hi fun k => by rw [hc]) rfl rfl (hi ▸ h.unloaded) ?_
  rintro n (hn | ⟨_, hne⟩)
  · exact hd n hn
  · exact absurd rfl hne

namespace Walk

variable (h : Walk ctx root T opens busy G s)
include h

lemma congr (hs : Settled ctx (ctx.OfUse root) T G s')
    (hw : s'.mixWeight = s.mixWeight) (hd : s'.done = s.done)
    (hcd : s'.closureDone = s.closureDone) : Walk ctx root T opens busy G s' := by
  obtain ⟨_, hweight, hhidden, hclosed, hseen, hup, hvis, hbeg, hcl, hw', hj, ho, hreg⟩ := h
  exact ⟨hs, hw.trans hweight, by rwa [hd], by rwa [hd], by rwa [hd], by rwa [hd],
    by rwa [hd, hcd], by rwa [hd, hcd], by rwa [hd], hw', hj, ho, hreg⟩

lemma mark (n : NodeId) :
    Walk ctx root T opens (n :: busy) G { s with closureDone := s.closureDone.insert n } := by
  refine ⟨h.settled.congr rfl rfl rfl rfl (fun _ h => h) subset_rfl, h.weight, h.hidden, h.closed,
    h.seen, h.upstream, fun m hm hc => ?_, fun m hm => ?_, h.closures, h.weighs, h.jumps, h.opened,
    h.regions⟩
  · exact mem_insert.2 (.inl (h.visited m hm hc))
  · obtain hm | rfl := mem_insert.1 hm
    · exact (h.begun m hm).imp_right fun hm => mem_cons_of_mem _ hm
    · exact .inr mem_cons_self

omit h in
lemma unmark (h : Walk ctx root T opens (n :: busy) G s) (hn : n ∈ s.done) :
    Walk ctx root T opens busy G s := by
  refine { h with begun := fun m hm => ?_ }
  obtain hm | hm := h.begun m hm
  · exact .inl hm
  · obtain rfl | hm := mem_cons.1 hm
    · exact .inl hn
    · exact .inr hm

/-- Closures belong to leaves that are done. -/
lemma leaf {l : Line} (hl : l ∈ G.lines)
    (hc : l.effect = .closure) : l.node ∈ s.done ∧ ctx.IsLeaf l.node := by
  have hpos : 0 < G.lines.countP fun x => x.node = l.node ∧ x.effect = .closure :=
    countP_pos_iff.2 ⟨l, hl, by simp [hc]⟩
  rw [h.closures, closureEffects] at hpos
  split at hpos
  · rename_i hd
    split at hpos
    · rename_i hk
      obtain ⟨k, hkind, hcl⟩ := (Option.any_eq_true ..).1 hk
      exact ⟨hd, k, hkind, hcl⟩
    · simp at hpos
  · omega

/-- A node whose values are there can be emitted. -/
lemma ready (hr : ctx.Rooted root) (hn : n ∉ s.done) (hup : Way ctx.sources (fun _ => True) root n)
    (hsrc : ∀ i d o, ctx.link? n i = some (d, o) → ctx.inputSize (n, i) ≠ 0 → d ∈ s.done) :
    (nextJob ctx (ctx.OfUse root) G s n).Ready := by
  refine ⟨hr.valid, hn, fun {i source} hl hsize => ?_, fun huse i source hl hsize => ?_⟩
  · exact ⟨hsrc i source.1 source.2 hl hsize, n, i, hn, hl, hsize⟩
  obtain ⟨d, o⟩ := source
  obtain rfl | w := huse
  · exact absurd hr.output (hr.kind?_ne hup)
  · exact ⟨h.seen hn w hl hsize (hsrc i d o hl hsize),
      .inr (way_not_idle_of_link? hr.valid w hl hsize)⟩

lemma node (hG : Grown (nextJob ctx (ctx.OfUse root) G s n) (closureEffects ctx n) G')
    (hs : Settled ctx (ctx.OfUse root) T G' s') (hw : s'.mixWeight = invalid)
    (hd : s'.done = s.done.insert n) (hcd : s'.closureDone = s.closureDone) (hn : n ∉ s.done)
    (hsrc : ∀ d ∈ ctx.sources n, d ∈ s.done ∨ ctx.Idle d)
    (hup : Way ctx.sources (fun _ => True) root n)
    (hvis : ctx.IsLeaf n ∨ ctx.Combines n ∧ ¬ ctx.Idle n → n ∈ s.closureDone) :
    Walk ctx root T opens busy G' s' := by
  obtain ⟨new, rfl, hnew, hc⟩ := hG
  have hmem : ∀ {m}, m ∈ s'.done ↔ m ∈ s.done ∨ m = n := by
    intro m
    rw [hd, mem_insert]
  refine ⟨hs, hw, fun m hm => ?_, fun m hm d hds => ?_, fun {m i d o} hm w hl hsize hds hdh => ?_,
    fun m hm => ?_, fun m hm hmc => ?_, fun m hm => ?_, fun m => ?_, ?_, fun a l hl hla => ?_,
    fun a ha => ?_, fun r hreg => ?_⟩
  · obtain ⟨hmd, hne⟩ := h.hidden m hm
    exact ⟨hmem.2 (.inl hmd), hne⟩
  · obtain hm | rfl := hmem.1 hm
    · exact (h.closed m hm d hds).imp_left fun h => hmem.2 (.inl h)
    · exact (hsrc d hds).imp_left fun h => hmem.2 (.inl h)
  · -- The node itself is not hidden, since it was not done.
    have hds := (h.hidden d hdh).1
    exact h.seen (fun h => hm (hmem.2 (.inl h))) w hl hsize hds hdh
  · obtain hm | rfl := hmem.1 hm
    · exact h.upstream m hm
    · exact hup
  · rw [hcd]
    obtain hm | rfl := hmem.1 hm
    · exact h.visited m hm hmc
    · exact hvis hmc
  · rw [hcd] at hm
    exact (h.begun m hm).imp_left fun h => hmem.2 (.inl h)
  · have hold := h.closures m
    rw [Outline.grow, countP_append, hold]
    by_cases e : m = n
    · subst e
      rw [if_neg hn, if_pos (hmem.2 (.inr rfl)), Nat.zero_add, ← hc, List.count, countP_map,
        countP_filter]
      refine countP_congr fun l hl => ?_
      cases he : l.effect <;> simp [(hnew l hl).1, he]
    · have hzero : new.countP (fun l => l.node = m ∧ l.effect = .closure) = 0 :=
        countP_eq_zero.2 fun l hl => by simp [(hnew l hl).1, Ne.symm e]
      rw [hzero, Nat.add_zero]
      simp [hmem, e]
  · refine h.weighs.grow h.settled.text.bounded fun q l hl he => ?_
    refine exists_weighed (fun l hl => (hnew l hl).1) (hc.trans (if_pos ?_)) hl he
    by_contra hk
    rw [closureEffects, if_neg hk, map_eq_nil_iff, filter_eq_nil_iff] at hc
    exact hc l (mem_of_getElem? hl) (by simp [he])
  · rw [Outline.grow, getElem?_append] at hl
    split at hl
    · exact h.jumps a l hl hla
    · exact absurd hla (hnew l (mem_of_getElem? hl)).2
  · obtain ⟨hlt, hne⟩ := h.opened a ha
    exact ⟨hlt.trans_le (length_append ▸ Nat.le_add_right _ _), hne⟩
  · exact (h.regions r hreg).grow (h.settled.text.bounded r hreg)

end Walk

namespace Onward

lemma refl : Onward ctx starts G s G s :=
  ⟨⟨[], by simp, by simp⟩, fun _ h => h, fun _ h => h, fun _ h => .inl h⟩

lemma trans (h : Onward ctx starts G s G' s') (h' : Onward ctx starts' G' s' G'' s'')
    (hst : ∀ x, starts' x → x ∉ s'.done → ∃ y, starts y ∧ Way ctx.sources (· ∉ s.done) y x) :
    Onward ctx starts G s G'' s'' := by
  obtain ⟨new, hnew, hnodes⟩ := h.lines
  obtain ⟨new', hnew', hnodes'⟩ := h'.lines
  have hmono : ∀ {x}, x ∉ s'.done → x ∉ s.done := fun hx hs => hx (h.done _ hs)
  refine ⟨⟨new ++ new', by rw [hnew', hnew, append_assoc], fun l hl => ?_⟩,
    fun n hn => h'.done n (h.done n hn), fun n hn => h'.begun n (h.begun n hn), fun n hn => ?_⟩
  · obtain hl | hl := mem_append.1 hl
    · exact hnodes l hl
    · exact hmono (hnodes' l hl)
  · obtain hn | ⟨x, hx, w⟩ := h'.fresh n hn
    · exact h.fresh n hn
    · obtain ⟨y, hy, v⟩ := hst x hx w.left
      exact .inr ⟨y, hy, v.trans (w.mono fun _ => hmono)⟩

lemma congr (h : Onward ctx starts G s G' s') (hl : G''.lines = G'.lines)
    (hd : s''.done = s'.done) (hcd : ∀ n ∈ s'.closureDone, n ∈ s''.closureDone) :
    Onward ctx starts G s G'' s'' :=
  ⟨hl ▸ h.lines, hd ▸ h.done, fun n hn => hcd n (h.begun n hn), hd ▸ h.fresh⟩

lemma node (h : Onward ctx starts G s G' s') {c : List Effect}
    (hG : Grown (nextJob ctx useful G' s' n) c G'')
    (hd : s''.done = s'.done.insert n) (hcd : s''.closureDone = s'.closureDone)
    (hn : n ∉ s'.done) (hw : ∃ x, starts x ∧ Way ctx.sources (· ∉ s.done) x n) :
    Onward ctx starts G s G'' s'' := by
  obtain ⟨new, rfl, hnew, _⟩ := hG
  obtain ⟨old, hold, hnodes⟩ := h.lines
  refine ⟨⟨old ++ new, by rw [Outline.grow, hold, append_assoc], fun l hl => ?_⟩,
    fun m hm => ?_, fun m hm => hcd ▸ h.begun m hm, fun m hm => ?_⟩
  · obtain hl | hl := mem_append.1 hl
    · exact hnodes l hl
    · rw [(hnew l hl).1]
      exact fun hs => hn (h.done n hs)
  · rw [hd]
    exact mem_insert.2 (.inl (h.done m hm))
  · rw [hd] at hm
    obtain hm | rfl := mem_insert.1 hm
    · exact h.fresh m hm
    · exact .inr hw

/-- Steps that start at what feeds a node do not get to the node. -/
lemma not_done (h : Onward ctx (· ∈ ctx.sources n) G s G' s') (hv : ctx.net.Valid)
    (hn : n ∉ s.done) : n ∉ s'.done := by
  intro hn'
  obtain hn' | ⟨x, hx, w⟩ := h.fresh n hn'
  · exact hn hn'
  · obtain ⟨rank, hv⟩ := hv
    have := rank_lt hv hx
    have := rank_le hv w
    omega

/-- Steps that start at what feeds a node start at the node. -/
lemma enter (h : Onward ctx (· ∈ ctx.sources n) G s G' s') (hn : n ∉ s.done) :
    Onward ctx (· = n) G s G' s' := by
  refine ⟨h.lines, h.done, h.begun, fun m hm => (h.fresh m hm).imp_right ?_⟩
  rintro ⟨x, hx, w⟩
  exact ⟨n, rfl, .step hn hx w⟩

end Onward

/-! ## Sets of nodes -/

lemma Later.congr (h : Later ctx root T opens busy starts G s s') (hcode : s''.code = s'.code)
    (ho : s''.outputSlots = s'.outputSlots) (hi : s''.inputSlots = s'.inputSlots)
    (hc : s''.stack = s'.stack) (hw : s''.mixWeight = s'.mixWeight) (hd : s''.done = s'.done)
    (hcd : s''.closureDone = s'.closureDone) : Later ctx root T opens busy starts G s s'' := by
  obtain ⟨G', hwalk, hon⟩ := h
  refine ⟨G', hwalk.congr ?_ hw hd hcd, hon.congr rfl hd fun n hn => hcd ▸ hn⟩
  exact hwalk.settled.congr hcode ho hi hc (fun n hn => hd ▸ hn) (hd ▸ subset_rfl)

/-- A node that is no closure, or an idle one, is emitted when its sources are done. -/
lemma ensures_emission (hr : ctx.Rooted root) (h : Later ctx root T opens busy starts G s s')
    (hn : n ∉ s'.done) (hup : Way ctx.sources (fun _ => True) root n)
    (hw : ∃ x, starts x ∧ Way ctx.sources (· ∉ s.done) x n)
    (hplain : ¬ (ctx.IsLeaf n ∨ ctx.Combines n ∧ ¬ ctx.Idle n))
    (hsrc : ∀ d ∈ ctx.sources n, d ∈ s'.done) :
    Ensures (· = s') (ctx.emission.emit n) fun _ s'' =>
      Later ctx root T opens busy starts G s s'' ∧ s''.done = s'.done.insert n := by
  obtain ⟨G', hwalk, hon⟩ := h
  have hj := hwalk.ready hr hn hup fun i d o hl _ => hsrc d ((mem_sources hr.valid).2 ⟨i, o, hl⟩)
  obtain ⟨k, hk, _⟩ := hr.exists_kind? hup
  obtain ⟨node, hnode, rfl⟩ := kind?_eq_some_iff.1 hk
  have hgen : Ensures (Mid _ invalid T [] [] [] []) (ctx.generateNode n) _ :=
    ensures_generateNode hj subset_rfl hnode fun hc => absurd (.inl ⟨_, hk, hc⟩) hplain
  refine Triple.bind (.pre ?_ hgen) fun _ => .modify ?_
  · rintro _ rfl
    exact hwalk.settled.mid hwalk.weight n
  · rintro t ⟨⟨G'', hG, hs⟩, hweight, hd, hcd⟩
    have hlater : Later ctx root T opens busy starts G s t :=
      ⟨G'', hwalk.node hG hs hweight hd hcd hn (fun d hd => .inl (hsrc d hd)) hup
        fun hc => absurd hc hplain, hon.node hG hd hcd hn hw⟩
    exact ⟨hlater.congr rfl rfl rfl rfl rfl rfl rfl, hd⟩

lemma ensures_emitSet (hr : ctx.Rooted root) (h : Later ctx root T opens busy starts G s s')
    {nodes : NodeSet}
    (hnodes : ∀ n ∈ nodes, n ∉ s'.done → Way ctx.sources (fun _ => True) root n ∧
      (∃ x, starts x ∧ Way ctx.sources (· ∉ s.done) x n) ∧
        ¬ (ctx.IsLeaf n ∨ ctx.Combines n ∧ ¬ ctx.Idle n))
    (hclosed : ∀ n ∈ nodes, ∀ d ∈ ctx.sources n, d ∈ s'.done ∨ d ∈ nodes) :
    Ensures (· = s') (ctx.emitSet nodes) fun _ s'' =>
      Later ctx root T opens busy starts G s s'' ∧ (∀ n ∈ nodes, n ∈ s''.done) ∧
        ∀ n ∈ s'.done, n ∈ s''.done := by
  have hdone : ∀ {t : SectionState} {n}, ctx.emission.isDone t n = true ↔ n ∈ t.done := by
    simp [emission, OrderedSet.contains_iff]
  have hemits : Emits ctx.emission (fun t => Later ctx root T opens busy starts G s t ∧
      ∀ n ∈ s'.done, n ∈ t.done) BytecodeError.IsOverflow nodes.toList := by
    rintro n hn t ⟨ht, hmono⟩ hnd hready
    have hnd' : n ∉ t.done := fun h => by
      rw [hdone.2 h] at hnd
      cases hnd
    have hsrc : ∀ d ∈ ctx.sources n, d ∈ t.done := fun d hd =>
      hdone.1 (all_eq_true.1 hready d hd)
    obtain ⟨hup, hw, hplain⟩ := hnodes n hn fun h => hnd' (hmono n h)
    refine (ensures_emission hr ht hnd' hup hw hplain hsrc).post ?_
    rintro _ t' ⟨hl, hd⟩
    have hmem : ∀ m, m ∈ t'.done ↔ m ∈ t.done ∨ m = n := fun m => by
      rw [hd, mem_insert]
    exact ⟨⟨hl, fun m hm => (hmem m).2 (.inl (hmono m hm))⟩, hdone.2 ((hmem n).2 (.inr rfl)),
      fun m hm => hdone.2 ((hmem m).2 (.inl (hdone.1 hm)))⟩
  refine Triple.bind (Q := fun _ t => Later ctx root T opens busy starts G s t ∧
    ∀ n ∈ s'.done, n ∈ t.done) (.modify ?_) fun _ => .each fun t ht => ?_
  · rintro _ rfl
    exact ⟨h.congr rfl rfl rfl rfl rfl rfl rfl, fun _ h => h⟩
  · obtain ⟨rank, hv⟩ := hr.valid
    refine (triple_run hemits (rank_lt hv) ht (fun n hn d hd => ?_) 0).bind fun _ => .pure ?_
    · exact (hclosed n hn d hd).imp_left fun h => hdone.2 (ht.2 d h)
    rintro t' ⟨⟨hl, hmono⟩, hall, _⟩
    exact ⟨hl, fun n hn => hdone.1 (hall n hn), hmono⟩

lemma ensures_collect (hv : ctx.net.Valid) (i : Nat) (avoid : Option NodeId) (s : SectionState) :
    Ensures (· = s) (ctx.collect n i avoid) fun nodes s' =>
      s' = { s with phase := .collecting } ∧ ∀ c, c ∈ nodes ↔ ∃ d o,
        ctx.link? n i = some (d, o) ∧ Way ctx.sources (fun x => x ∉ s.done ∧ some x ≠ avoid) d c := by
  refine .of_eq ?_
  rintro _ rfl
  refine ⟨_, _, rfl, rfl, fun c => ?_⟩
  rw [mem_dependencies_iff hv]
  simp [OrderedSet.contains]

section

variable (hr : ctx.Rooted root) (h : Later ctx root T opens busy (· ∈ ctx.sources n) G s s')
  (hup : Way ctx.sources (fun _ => True) root n)
include hr h hup

/-- Emitting what an input depends on that takes no closures. -/
lemma ensures_emitDependencies {i : Nat}
    (hval : ∀ d o, ctx.link? n i = some (d, o) → ¬ (ctx.IsLeaf d ∨ ctx.Combines d)) :
    Ensures (· = s') (do ctx.emitSet (← ctx.collect n i none)) fun _ s'' =>
      Later ctx root T opens busy (· ∈ ctx.sources n) G s s'' ∧
        (∀ d o, ctx.link? n i = some (d, o) → d ∈ s''.done) ∧ ∀ m ∈ s'.done, m ∈ s''.done := by
  refine (ensures_collect hr.valid i none s').bind fun nodes => .each ?_
  rintro _ ⟨rfl, hnodes⟩
  obtain ⟨G', hwalk, hon⟩ := h
  have hl : Later ctx root T opens busy (· ∈ ctx.sources n) G s
      { s' with phase := .collecting } :=
    Later.congr ⟨G', hwalk, hon⟩ rfl rfl rfl rfl rfl rfl rfl
  refine (ensures_emitSet hr hl (fun c hc _ => ?_) fun c hc d hd => ?_).post ?_
  · obtain ⟨d, o, hd, w⟩ := (hnodes c).1 hc
    have hsrc := (mem_sources hr.valid).2 ⟨i, o, hd⟩
    obtain ⟨k, hk, hne⟩ := kind?_source hr.valid hsrc
    have hc' := not_closure_of_way hr.valid (hval d o hd) (by rw [hk]; simpa using hne) w
    refine ⟨(hup.snoc hsrc trivial).trans (w.mono fun _ _ => trivial), ⟨d, hsrc, ?_⟩,
      fun h => hc' (h.imp_right And.left)⟩
    exact w.mono fun x hx hs => hx.1 (hon.done x hs)
  · obtain ⟨x, o, hx, w⟩ := (hnodes c).1 hc
    refine or_iff_not_imp_left.2 fun hds => (hnodes d).2 ⟨x, o, hx, w.snoc hd ⟨hds, by simp⟩⟩
  · rintro _ t ⟨hl, hall, hmono⟩
    refine ⟨hl, fun d o hd => ?_, hmono⟩
    by_cases hds : d ∈ s'.done
    · exact hmono d hds
    · exact hall d ((hnodes d).2 ⟨d, o, hd, .here ⟨hds, by simp⟩⟩)

/-! ## Leaves -/

lemma ensures_emitInput (hn : ¬ ctx.Combines n) (i : Nat) :
    Ensures (· = s') (ctx.emitInput n i) fun _ s'' =>
      Later ctx root T opens busy (· ∈ ctx.sources n) G s s'' ∧
        (∀ d o, ctx.link? n i = some (d, o) → d ∈ s''.done) ∧ ∀ m ∈ s'.done, m ∈ s''.done := by
  refine .ite (fun hskip => .pure ?_) fun _ => ?_
  · rintro _ rfl
    refine ⟨h, fun d o hl => ?_, fun _ h => h⟩
    obtain ⟨hs, hl⟩ := link?_eq_some_iff.1 hl
    simp [hs, isInputLinked, hl] at hskip
  · refine ensures_emitDependencies hr h hup fun d o hl hd => hn ?_
    exact combines_of_source hr.valid ((mem_sources hr.valid).2 ⟨i, o, hl⟩) hd (hr.kind?_ne hup)

end

/-- The weight of a closure gets a slot, unless it is the constant one. -/
lemma ensures_assignWeight {j : Job} (hj : j.Ready) {node : Node}
    (hn : j.ctx.net.node? j.id = some node) :
    Ensures (Mid j invalid T [] [] [] []) (j.ctx.assignWeight j.id node) fun _ s =>
      ∃ weight R, HasWeight j node weight R ∧ Mid j weight T [] R [] [] s := by
  have hone : ∀ {i}, j.ctx.WeighsAt j.id node i invalid → ∀ s, Mid j invalid T [] [] [] [] s →
      ∃ weight R, HasWeight j node weight R ∧ Mid j weight T [] R [] [] s := fun hi s hs =>
    ⟨invalid, [], ⟨_, hi, by simp [placed]⟩, hs⟩
  unfold assignWeight
  cases hi : node.weightIndex? (j.ctx.entry == .volume) with
  | none => exact .pure (hone (i := 0) (by rw [WeighsAt, hi]))
  | some i =>
    have hsize : j.ctx.inputSize (j.id, i) = 1 := by
      have hidx : (Node.ofKind node.kind).weightIndex? (j.ctx.entry == .volume) = some i := by
        rw [← hi]
        simp only [Node.weightIndex?, (hj.valid.standard hn).inputIndex?]
      rw [inputSize_eq hj.valid, IsWeight.inputType? ⟨_, kind?_of_node? hn, hidx⟩]
      rfl
    have hat : ∀ {slot}, SlotIf (j.ctx.net.isInputLinked j.id i ||
        ((node.inputs[i]?).bind fun x => x.value.float?).getD 1 != 1) slot →
          j.ctx.WeighsAt j.id node i slot := fun h => by rw [WeighsAt, hi]; exact ⟨rfl, h⟩
    refine .ite (fun hc => ?_) fun hc => .pure (hone (hat ((if_neg hc).mpr rfl)))
    refine (ensures_assignInputAt hj hsize Nat.one_pos).bind fun slot => .of_imp fun hlt => ?_
    refine .modify fun s hs => ⟨slot, _, ⟨i, hat ((if_pos hc).mpr hlt), fun _ h => h⟩, ?_⟩
    obtain ⟨G, hG, ht, hslots, hR⟩ := hs.lines
    refine ⟨⟨G, hG, ht, hslots.congr rfl rfl fun _ => rfl, fun x hx => ?_⟩, rfl, hs.done, hs.closed,
      hs.holds⟩
    exact (hR x (mem_append_left _ hx)).mono (fun _ h => h) (fun _ h _ => h) fun _ h => h

/-- A node that combines no closures, after everything that it depends on. -/
lemma ensures_generateClosure (hr : ctx.Rooted root) (h : Walk ctx root T opens (n :: busy) G s)
    {node : Node} (hnode : ctx.net.node? n = some node) (hc : ¬ ctx.Combines n)
    (hup : Way ctx.sources (fun _ => True) root n) (hn : n ∉ s.done) (hb : n ∈ s.closureDone) :
    Ensures (· = s) (ctx.generateClosure n node) fun _ s' =>
      Later ctx root T opens (n :: busy) (· = n) G s s' ∧ n ∈ s'.done := by
  -- The inputs that are left when the loop has come to some point.
  refine Triple.bind (.pre ?_ (Triple.forM_rest (I := fun rest t =>
    Later ctx root T opens (n :: busy) (· ∈ ctx.sources n) G s t ∧
      ∀ i d o, ctx.link? n i = some (d, o) → i ∈ rest ∨ d ∈ t.done) (fun i rest => .each ?_) _))
    fun _ => .each ?_
  · rintro _ rfl
    refine ⟨⟨G, h, .refl⟩, fun i d o hl => .inl ?_⟩
    exact mem_range.2 (lt_length_of_link? hr.valid hnode hl)
  · rintro t ⟨hl, hrest⟩
    refine (ensures_emitInput hr hl hup hc i).post ?_
    rintro _ t' ⟨hl', hi, hmono⟩
    refine ⟨hl', fun i' d o hlink => ?_⟩
    obtain hmem | hd := hrest i' d o hlink
    · obtain rfl | hmem := mem_cons.1 hmem
      · exact .inr (hi d o hlink)
      · exact .inl hmem
    · exact .inr (hmono d hd)
  · rintro t ⟨⟨G', hwalk, hon⟩, hall⟩
    have hnt := hon.not_done hr.valid hn
    have hsrc : ∀ d ∈ ctx.sources n, d ∈ t.done := fun d hd => by
      obtain ⟨i, o, hl⟩ := (mem_sources hr.valid).1 hd
      exact (hall i d o hl).resolve_left not_mem_nil
    have hj := hwalk.ready hr hnt hup fun i d o hl _ => hsrc d ((mem_sources hr.valid).2 ⟨i, o, hl⟩)
    refine (Triple.pre ?_ (ensures_assignWeight (T := T) hj hnode)).bind fun _ => .exists_imp
      fun weight => .exists_imp fun R => .of_imp fun hw => ?_
    · rintro _ rfl
      exact hwalk.settled.mid hwalk.weight n
    refine (ensures_generateNode hj subset_rfl hnode fun _ => hw).bind fun _ => .of_eq ?_
    rintro u ⟨⟨G'', hG, hs⟩, _, hd, hcd⟩
    have hmem : n ∈ u.done := by
      rw [hd]
      exact mem_insert.2 (.inr rfl)
    refine ⟨_, _, rfl, ⟨G'', ?_, ?_⟩, hmem⟩
    · refine hwalk.node hG (hs.congr rfl rfl rfl rfl (fun _ h => h) subset_rfl) rfl hd hcd hnt
        (fun d hd => .inl (hsrc d hd)) hup fun _ => hon.begun n hb
    · exact (hon.enter hn).node hG hd hcd hnt ⟨n, rfl, .here hn⟩

end Shading
