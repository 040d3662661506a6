import Shading.Proofs.Execution
import Shading.Proofs.Stack
import Shading.Proofs.Steps

/-!
# Slots while a node is emitted

While a section is built, every value that is still needed is in slots that nothing else will take:
the tables of slots own them, and the stack counts at least as many users as there are owners.  An
output that has a slot but was not written yet is pending; its slots have one user, so no other
value is in them.

`Slots` says so of the tables of a section while one node is emitted, and this module has one lemma
for each way in which the tables change.
-/

namespace Shading

open List SectionContext SlotTable Stack Written

/-! ## Tables of slots -/

namespace SlotTable

variable {t : SlotTable} {a : NodeId × Nat} {slot : Nat} {e : (NodeId × Nat) × Nat}

lemma mem_of_get? (h : t.get? a = some slot) : (a, slot) ∈ t := by
  induction t with
  | nil => simp [get?] at h
  | cons x t ih =>
    rw [get?, lookup_cons] at h
    split at h
    · rename_i he
      rw [beq_iff_eq] at he
      cases h
      exact mem_cons.2 (.inl (by rw [he]))
    · exact mem_cons_of_mem _ (ih h)

lemma exists_get? (h : ∃ slot, (a, slot) ∈ t) : ∃ slot, t.get? a = some slot := by
  cases hget : t.get? a with
  | some slot => exact ⟨slot, rfl⟩
  | none =>
    obtain ⟨slot, hmem⟩ := h
    have := lookup_eq_none_iff.1 hget _ hmem
    simp at this

lemma ne_of_get?_eq_none (h : t.get? a = none) (he : e ∈ t) : e.1 ≠ a := by
  rintro rfl
  have := lookup_eq_none_iff.1 h e he
  simp at this

lemma mem_erase : e ∈ t.erase a ↔ e ∈ t ∧ e.1 ≠ a := by
  simp [erase]

lemma mem_insert : e ∈ t.insert a slot ↔ e = (a, slot) ∨ e ∈ t ∧ e.1 ≠ a := by
  rw [insert, mem_cons, mem_erase]

lemma exists_mem_insert {b : NodeId × Nat} (h : ∃ slot, (b, slot) ∈ t) :
    ∃ slot', (b, slot') ∈ t.insert a slot := by
  obtain ⟨slot', hmem⟩ := h
  by_cases hb : b = a
  · exact ⟨slot, mem_insert.2 (.inl (by rw [hb]))⟩
  · exact ⟨slot', mem_insert.2 (.inr ⟨hmem, hb⟩)⟩

/-- A new entry is put in front. -/
lemma insert_of_forall_ne (h : ∀ e ∈ t, e.1 ≠ a) : t.insert a slot = (a, slot) :: t := by
  rw [insert, erase, filter_eq_self.2 fun e he => by simpa using h e he]

lemma erase_sublist : (t.erase a).Sublist t := filter_sublist

lemma foldl_erase_sublist (l : List (NodeId × Nat)) : (l.foldl erase t).Sublist t := by
  induction l generalizing t with
  | nil => exact .refl _
  | cons b l ih => exact ih.trans erase_sublist

end SlotTable

/-! ## Owners -/

namespace SectionContext

variable (ctx : SectionContext)

def outputSize (socket : NodeId × Nat) : Nat :=
  (((ctx.graph.net.node? socket.1).bind fun n => n.outputs[socket.2]?).bind
    fun o => o.ty.stackSize?).getD 0

def inputSize (socket : NodeId × Nat) : Nat :=
  ((ctx.graph.net.input? socket.1 socket.2).bind fun i => i.ty.stackSize?).getD 0

def outputRange (e : (NodeId × Nat) × Nat) : SlotRange := (e.2, ctx.outputSize e.1)

def inputRange (e : (NodeId × Nat) × Nat) : SlotRange := (e.2, ctx.inputSize e.1)

/-- Whether an input in a table has its constant loaded. -/
def isLoaded (e : (NodeId × Nat) × Nat) : Bool := (ctx.link? e.1.1 e.1.2).isNone

/-- All slots that are in use: those of outputs, those of constants, and others. -/
def owners (others : List (Written × SlotRange)) (s : SectionState) : List SlotRange :=
  s.outputSlots.map ctx.outputRange ++ (s.inputSlots.filter ctx.isLoaded).map ctx.inputRange ++
    others.map Prod.snd

end SectionContext

/-- How many of some runs have a slot. -/
def coverage (rs : List SlotRange) (k : Nat) : Nat := rs.countP fun r => covers r.1 r.2 k

lemma coverage_append (rs ts : List SlotRange) (k : Nat) :
    coverage (rs ++ ts) k = coverage rs k + coverage ts k := countP_append

lemma coverage_cons (r : SlotRange) (rs : List SlotRange) (k : Nat) :
    coverage (r :: rs) k = coverage rs k + if covers r.1 r.2 k then 1 else 0 :=
  countP_cons

lemma coverage_pos {rs : List SlotRange} {r : SlotRange} {k : Nat} (hr : r ∈ rs) (hk : r.Has k) :
    0 < coverage rs k := countP_pos_iff.2 ⟨r, hr, hk⟩

lemma coverage_le {rs ts : List SlotRange} (h : rs.Sublist ts) (k : Nat) :
    coverage rs k ≤ coverage ts k := h.countP_le

/-- Two entries at one slot count twice. -/
lemma two_le_coverage {α : Type} [DecidableEq α] {l : List α} {f : α → SlotRange} {a b : α}
    {k : Nat} (ha : a ∈ l) (hb : b ∈ l) (hab : a ≠ b) (hfa : (f a).Has k) (hfb : (f b).Has k) :
    2 ≤ coverage (l.map f) k := by
  have hperm := (perm_cons_erase ha).map f
  have hmem : f b ∈ (l.erase a).map f := mem_map.2 ⟨b, (mem_erase_of_ne hab.symm).2 hb, rfl⟩
  have hcount : coverage (l.map f) k = coverage ((l.erase a).map f) k + 1 := by
    have hc : covers (f a).1 (f a).2 k = true := hfa
    rw [coverage, hperm.countP_eq, ← coverage, map_cons, coverage_cons, if_pos hc]
  have := coverage_pos hmem hfb
  omega

/-! ## Values that are kept -/

namespace Kept

variable {lines : List Line} {line : Line} {w : Written} {r : SlotRange} {p q : Nat}

lemma grow (h : Kept lines w r q p) (hp : p ≤ lines.length) (new : List Line) :
    Kept (lines ++ new) w r q p := by
  obtain ⟨l, hl, hw⟩ := h.written
  have hlt := h.earlier
  refine ⟨⟨l, ?_, hw⟩, hlt, fun k l' hqk hkp hl' => ?_⟩
  · rw [getElem?_append_left (by omega), hl]
  · rw [getElem?_append_left (by omega)] at hl'
    exact h.apart k l' hqk hkp hl'

/-- A value survives a line that writes elsewhere. -/
lemma push (h : Kept lines w r q lines.length) (ha : ∀ x ∈ line.writes, x.2.Apart r) :
    Kept (lines ++ [line]) w r q (lines ++ [line]).length := by
  obtain ⟨l, hl, hw⟩ := h.written
  have hlt := h.earlier
  rw [length_append, length_singleton]
  refine ⟨⟨l, ?_, hw⟩, by omega, fun k l' hqk hkp hl' => ?_⟩
  · rw [getElem?_append_left hlt, hl]
  · obtain hk | rfl := Nat.lt_succ_iff_lt_or_eq.1 hkp
    · rw [getElem?_append_left hk] at hl'
      exact h.apart k l' hqk hk hl'
    · rw [getElem?_concat_length] at hl'
      cases hl'
      exact ha

lemma last (hw : (w, r) ∈ line.writes) :
    Kept (lines ++ [line]) w r lines.length (lines ++ [line]).length := by
  rw [length_append, length_singleton]
  exact ⟨⟨line, getElem?_concat_length, hw⟩, by omega, fun k l' hqk hkp => by omega⟩

end Kept

/-! ## Outlines -/

/-- What is known of a section under construction: its lines, the jumps that have got their targets,
and the nodes that were emitted behind such a jump. -/
structure Outline where
  lines : List Line
  regions : List (Nat × Nat)
  hidden : Set NodeId

namespace Outline

variable {G : Outline} {line : Line} {q : Nat}

def grow (G : Outline) (new : List Line) : Outline := { G with lines := G.lines ++ new }

/-- A line that does not stand between a jump and its target. -/
def Exposed (G : Outline) (q : Nat) : Prop := ∀ r ∈ G.regions, r.1 < q → ¬ q < r.2

@[simp] lemma grow_nil (G : Outline) : G.grow [] = G := by
  rw [grow, append_nil]

@[simp] lemma grow_grow (G : Outline) (new new' : List Line) :
    (G.grow new).grow new' = G.grow (new ++ new') := by
  rw [grow, grow, grow, append_assoc]

/-- A line of a longer outline was there before or is one of the new ones. -/
lemma getElem?_grow {l : Line} (h : (G.grow [line]).lines[q]? = some l) :
    G.lines[q]? = some l ∨ q = G.lines.length ∧ l = line := by
  rw [grow, getElem?_append] at h
  split at h
  · exact .inl h
  · obtain ⟨hlt, rfl⟩ := List.getElem?_eq_some_iff.1 h
    rw [length_singleton] at hlt
    exact .inr ⟨by omega, by simp⟩

/-- The lines are those of the code, and every read is right as far as one can tell without running
anything.  Reads of nodes that are of use do not depend on a jump. -/
structure Text (ctx : SectionContext) (useful : NodeId → Prop) (G : Outline)
    (code : Array Instruction) : Prop where
  words : code.toList = G.lines.flatMap Line.words
  compiles : ∀ l ∈ G.lines, Compiles ctx l
  reads : ∀ {p l}, G.lines[p]? = some l → ∀ x ∈ l.reads, ∃ q w, Kept G.lines w x.2 q p ∧
    ctx.Provides l.node x.1 w ∧ (useful l.node → ∀ r ∈ G.regions, r.1 < q → q < r.2 → p < r.2)
  once : ∀ {p q : Nat} {l m : Line} {t r r'}, G.lines[p]? = some l → G.lines[q]? = some m →
    (output t, r) ∈ l.writes → (output t, r') ∈ m.writes → p = q
  bounded : ∀ r ∈ G.regions, r.2 ≤ G.lines.length

namespace Text

variable {ctx : SectionContext} {useful : NodeId → Prop} {code code' : Array Instruction}

/-- A new line stands behind all jumps that have got their targets. -/
lemma exposed_length (h : G.Text ctx useful code) : G.Exposed G.lines.length := by
  intro r hr _ hlt
  have := h.bounded r hr
  omega

/-- One more line, whose operands are there. -/
lemma push (h : G.Text ctx useful code) (hcode : code'.toList = code.toList ++ line.words)
    (hc : Compiles ctx line)
    (hr : ∀ x ∈ line.reads, ∃ q w, Kept G.lines w x.2 q G.lines.length ∧
      ctx.Provides line.node x.1 w ∧ (useful line.node → G.Exposed q))
    (hw : ∀ t r, (output t, r) ∈ line.writes → ∀ l ∈ G.lines, ∀ r', (output t, r') ∉ l.writes) :
    (G.grow [line]).Text ctx useful code' where
  words := by simp [grow, hcode, h.words]
  compiles l hl := by
    obtain hl | hl := mem_append.1 hl
    · exact h.compiles l hl
    · obtain rfl := mem_singleton.1 hl
      exact hc
  reads {p l} hl x hx := by
    obtain hl | ⟨rfl, rfl⟩ := getElem?_grow hl
    · obtain ⟨q, w, hk, hprov, hu⟩ := h.reads hl x hx
      exact ⟨q, w, hk.grow (List.getElem?_eq_some_iff.1 hl).1.le _, hprov, hu⟩
    · obtain ⟨q, w, hk, hprov, hu⟩ := hr x hx
      exact ⟨q, w, hk.grow le_rfl _, hprov, fun hn r hr hlt hlt' =>
        absurd hlt' (hu hn r hr hlt)⟩
  once {p q l m t r r'} hl hm ht ht' := by
    -- The last line is the only one to write its outputs.
    obtain hl' | ⟨rfl, rfl⟩ := getElem?_grow hl <;> obtain hm' | ⟨rfl, rfl⟩ := getElem?_grow hm
    · exact h.once hl' hm' ht ht'
    · exact absurd ht (hw t r' ht' l (mem_of_getElem? hl') r)
    · exact absurd ht' (hw t r ht m (mem_of_getElem? hm') r')
    · rfl
  bounded r hr := by
    have := h.bounded r hr
    simp [grow]
    omega

end Text

end Outline

/-! ## The slots of a section -/

/-- What stays fixed while a node is emitted: the section, the nodes that are of use, what was there
before, the node, the nodes that are done, and the outputs that have to keep their slots. -/
structure Job where
  ctx : SectionContext
  useful : NodeId → Prop
  base : Outline
  id : NodeId
  done : NodeSet
  closed : NodeSet
  wanted : Set (NodeId × Nat)

/-- An output in a table whose value is in its slots. -/
def Stored (j : Job) (G : Outline) (e : (NodeId × Nat) × Nat) : Prop :=
  ∃ q t, j.ctx.Origin e.1 t ∧ Kept G.lines (.output t) (j.ctx.outputRange e) q G.lines.length ∧
    (e.1.1 ∉ G.hidden → j.useful e.1.1 → G.Exposed q)

/-- A value that is somewhere and does not depend on a jump. -/
def Available (G : Outline) (w : Written) (r : SlotRange) : Prop :=
  ∃ q, Kept G.lines w r q G.lines.length ∧ G.Exposed q

/-- Slots that hold a value: all that are owned, except by pending outputs. -/
def Rests (j : Job) (T : List (Written × SlotRange)) (W : List (Nat × SlotRange))
    (s : SectionState) (r : SlotRange) : Prop :=
  (∃ e ∈ s.outputSlots, (∀ w ∈ W, e.1 ≠ (j.id, w.1)) ∧ j.ctx.outputRange e = r) ∨
    (∃ e ∈ s.inputSlots, j.ctx.isLoaded e = true ∧ j.ctx.inputRange e = r) ∨ ∃ x ∈ T, x.2 = r

/-- The tables are right: outputs are of nodes that are done or of the one that is being emitted,
constants are of the latter, everything that is not pending is in its slots, and the stack counts
all owners.  `T` are values outside the tables, `A` the outputs of the node that were asked for,
`W` those of them that are pending. -/
structure Slots (j : Job) (G : Outline) (T : List (Written × SlotRange)) (A : List Nat)
    (W : List (Nat × SlotRange)) (s : SectionState) : Prop where
  outputs : ∀ e ∈ s.outputSlots, (∀ w ∈ W, e.1 ≠ (j.id, w.1)) → Stored j G e
  sizes : ∀ e ∈ s.outputSlots, 0 < j.ctx.outputSize e.1 ∧
    e.2 + j.ctx.outputSize e.1 ≤ size ∧ (e.1.1 ∈ j.done ∨ e.1.1 = j.id ∧ e.1.2 ∈ A)
  unique : ∀ e ∈ s.outputSlots, ∀ e' ∈ s.outputSlots, e.1 = e'.1 → e = e'
  constants : ∀ e ∈ s.inputSlots, j.ctx.isLoaded e = true → e.1.1 = j.id ∧
    e.2 + j.ctx.inputSize e.1 ≤ size ∧ 0 < j.ctx.inputSize e.1 ∧
      Available G (.constant e.1) (j.ctx.inputRange e)
  others : ∀ x ∈ T, Available G x.1 x.2
  pending : ∀ w ∈ W, ((j.id, w.1), w.2.1) ∈ s.outputSlots ∧ w.2.2 = j.ctx.outputSize (j.id, w.1) ∧
    w.1 ∈ A ∧ ∀ k, w.2.Has k → s.stack.count k = 1
  counts : ∀ k < size, coverage (j.ctx.owners T s) k ≤ s.stack.count k
  written : ∀ l ∈ G.lines, ∀ t r, (output t, r) ∈ l.writes →
    t.1 ∈ j.done ∨ t.1 = j.id ∧ t.2 ∈ A ∧ ∀ w ∈ W, w.1 ≠ t.2

namespace Slots

variable {j : Job} {G : Outline} {T : List (Written × SlotRange)} {A : List Nat}
  {W : List (Nat × SlotRange)} {s s' : SectionState} {line : Line} {r : SlotRange}

lemma congr (h : Slots j G T A W s) (ho : s'.outputSlots = s.outputSlots)
    (hi : s'.inputSlots = s.inputSlots) (hc : ∀ k, s'.stack.count k = s.stack.count k) :
    Slots j G T A W s' where
  outputs := ho ▸ h.outputs
  sizes := ho ▸ h.sizes
  unique := ho ▸ h.unique
  constants := hi ▸ h.constants
  others := h.others
  pending w hw := by
    rw [ho]
    simp only [hc]
    exact h.pending w hw
  counts k hk := by
    rw [hc, owners, ho, hi]
    exact h.counts k hk
  written := h.written

/-- More outputs may have been asked for. -/
lemma widen (h : Slots j G T A W s) {A' : List Nat} (hA : A ⊆ A') : Slots j G T A' W s where
  outputs := h.outputs
  sizes e he := by
    obtain ⟨hpos, hin, hd⟩ := h.sizes e he
    exact ⟨hpos, hin, hd.imp_right fun hd => ⟨hd.1, hA hd.2⟩⟩
  unique := h.unique
  constants := h.constants
  others := h.others
  pending w hw := by
    obtain ⟨hin, hsize, hwA, hone⟩ := h.pending w hw
    exact ⟨hin, hsize, hA hwA, hone⟩
  counts := h.counts
  written l hl t r htr := (h.written l hl t r htr).imp_right fun hd => ⟨hd.1, hA hd.2.1, hd.2.2⟩

lemma mem_owners (hr : Rests j T W s r) : r ∈ j.ctx.owners T s := by
  simp only [owners, mem_append, mem_map, mem_filter]
  obtain ⟨e, he, _, rfl⟩ | ⟨e, he, hl, rfl⟩ | ⟨x, hx, rfl⟩ := hr
  · exact .inl (.inl ⟨e, he, rfl⟩)
  · exact .inl (.inr ⟨e, ⟨he, hl⟩, rfl⟩)
  · exact .inr ⟨x, hx, rfl⟩

/-- Slots in use can be read. -/
lemma exists_read (h : Slots j G T A W s) (hr : r ∈ j.ctx.owners T s) (position : Nat) :
    ∃ stack, s.stack.read r.1 r.2 position = .ok stack := by
  refine Stack.exists_read (fun k hk hcov => ?_) position
  exact (coverage_pos hr hcov).trans_le (h.counts k hk)

lemma lt_size_of_pending (h : Slots j G T A W s) {w : Nat × SlotRange} (hw : w ∈ W) {k : Nat}
    (hk : w.2.Has k) : k < size := by
  obtain ⟨hmem, hsize, _⟩ := h.pending w hw
  obtain ⟨_, _, hhi⟩ := covers_iff.1 hk
  rw [hsize] at hhi
  exact hhi.trans_le (h.sizes _ hmem).2.1

/-- The slots of a pending output hold nothing else: they have one user. -/
lemma pending_apart (h : Slots j G T A W s) {w : Nat × SlotRange} (hw : w ∈ W)
    (hr : Rests j T W s r) : w.2.Apart r := by
  intro k hk hrk
  obtain ⟨hmem, hsize, _, hone⟩ := h.pending w hw
  have hrange : j.ctx.outputRange ((j.id, w.1), w.2.1) = w.2 := by
    rw [outputRange, ← hsize]
  have hcount := h.counts k (h.lt_size_of_pending hw hk)
  rw [hone k hk, owners, coverage_append, coverage_append] at hcount
  have hself : 0 < coverage (s.outputSlots.map j.ctx.outputRange) k :=
    coverage_pos (mem_map.2 ⟨_, hmem, hrange⟩) hk
  obtain ⟨e, he, hne, rfl⟩ | ⟨e, he, hl, rfl⟩ | ⟨x, hx, rfl⟩ := hr
  · have := two_le_coverage hmem he (fun e' => hne w hw (by rw [← e'])) (hrange ▸ hk) hrk
    omega
  · have := coverage_pos (mem_map.2 ⟨e, mem_filter.2 ⟨he, hl⟩, rfl⟩) hrk
    omega
  · have := coverage_pos (mem_map.2 ⟨x, hx, rfl⟩) hrk
    omega

end Slots

section Push

variable {j : Job} {G : Outline} {line : Line} {w : Written} {r : SlotRange}
  {e : (NodeId × Nat) × Nat}

lemma Stored.push (h : Stored j G e)
    (ha : ∀ x ∈ line.writes, x.2.Apart (j.ctx.outputRange e)) : Stored j (G.grow [line]) e := by
  obtain ⟨q, t, ho, hk, hx⟩ := h
  exact ⟨q, t, ho, hk.push ha, hx⟩

lemma Available.push (h : Available G w r) (ha : ∀ x ∈ line.writes, x.2.Apart r) :
    Available (G.grow [line]) w r := by
  obtain ⟨q, hk, hx⟩ := h
  exact ⟨q, hk.push ha, hx⟩

lemma Available.last {ctx : SectionContext} {useful : NodeId → Prop} {code : Array Instruction}
    (ht : G.Text ctx useful code) (hw : (w, r) ∈ line.writes) : Available (G.grow [line]) w r :=
  ⟨G.lines.length, Kept.last hw, ht.exposed_length⟩

end Push

namespace Slots

variable {j : Job} {G : Outline} {T : List (Written × SlotRange)} {A : List Nat}
  {W : List (Nat × SlotRange)} {s s' : SectionState} {line : Line} {r : SlotRange}

/-- A line that writes outside the slots in use.  The outputs that it writes are no longer
pending. -/
lemma pushWith {W' : List (Nat × SlotRange)} (h : Slots j G T A W s)
    (ha : ∀ x ∈ line.writes, ∀ r, Rests j T W s r → x.2.Apart r) (hW : W' ⊆ W)
    (ho : ∀ e ∈ s.outputSlots, (∀ w ∈ W', e.1 ≠ (j.id, w.1)) →
      (∀ w ∈ W, e.1 ≠ (j.id, w.1)) ∨ Stored j (G.grow [line]) e)
    (hw : ∀ t r, (output t, r) ∈ line.writes →
      t.1 = j.id ∧ t.2 ∈ A ∧ ∀ w ∈ W', w.1 ≠ t.2) : Slots j (G.grow [line]) T A W' s where
  outputs e he hp := (ho e he hp).elim (fun hp => (h.outputs e he hp).push fun x hx =>
    ha x hx _ (.inl ⟨e, he, hp, rfl⟩)) id
  sizes := h.sizes
  unique := h.unique
  constants e he hl := by
    obtain ⟨hid, hin, hpos, hav⟩ := h.constants e he hl
    exact ⟨hid, hin, hpos, hav.push fun x hx => ha x hx _ (.inr (.inl ⟨e, he, hl, rfl⟩))⟩
  others x hx := (h.others x hx).push fun y hy => ha y hy _ (.inr (.inr ⟨x, hx, rfl⟩))
  pending w hw := h.pending w (hW hw)
  counts := h.counts
  written l hl t r ht := by
    obtain hl | hl := mem_append.1 hl
    · exact (h.written l hl t r ht).imp_right fun hd =>
        ⟨hd.1, hd.2.1, fun w hw => hd.2.2 w (hW hw)⟩
    · obtain rfl := mem_singleton.1 hl
      exact .inr (hw t r ht)

/-- A line that writes no output. -/
lemma push (h : Slots j G T A W s) (ha : ∀ x ∈ line.writes, ∀ r, Rests j T W s r → x.2.Apart r)
    (hw : ∀ t r, (output t, r) ∉ line.writes) : Slots j (G.grow [line]) T A W s :=
  h.pushWith ha (Subset.refl W) (fun _ _ => .inl) fun t r ht => absurd ht (hw t r)

/-- A line that writes exactly the pending outputs. -/
lemma pushOutputs (h : Slots j G T A W s) (hown : ¬ j.ctx.PassesOn j.id)
    {code : Array Instruction} (ht : G.Text j.ctx j.useful code)
    (hw : line.writes = W.map fun w => (output (j.id, w.1), w.2)) :
    Slots j (G.grow [line]) T A [] s := by
  have hmem : ∀ {x}, x ∈ line.writes → ∃ w ∈ W, (output (j.id, w.1), w.2) = x := by
    intro x hx
    rw [hw] at hx
    exact mem_map.1 hx
  refine h.pushWith (fun x hx r hr => ?_) (nil_subset W) (fun e he _ => or_iff_not_imp_left.2
    fun hp => ?_) fun t r htr => ?_
  · obtain ⟨w, hw, rfl⟩ := hmem hx
    exact h.pending_apart hw hr
  · push Not at hp
    obtain ⟨w, hwW, hkey⟩ := hp
    obtain ⟨hin, hsize, _, _⟩ := h.pending w hwW
    obtain rfl := h.unique e he _ hin hkey
    have hx : (output (j.id, w.1), j.ctx.outputRange ((j.id, w.1), w.2.1)) ∈
        line.writes := by
      rw [hw, outputRange, ← hsize]
      exact mem_map.2 ⟨w, hwW, rfl⟩
    exact ⟨G.lines.length, (j.id, w.1), .own hown, Kept.last hx, fun _ _ => ht.exposed_length⟩
  · obtain ⟨w, hwW, e⟩ := hmem htr
    cases e
    exact ⟨rfl, (h.pending w hwW).2.2.1, by simp⟩

end Slots

/-! ## Taking slots -/

/-- A run of slots that was just taken: it has one user and belongs to nothing yet. -/
structure Fresh (ctx : SectionContext) (T : List (Written × SlotRange)) (s : SectionState)
    (f : SlotRange) : Prop where
  inside : f.1 + f.2 ≤ size
  unowned : ∀ k, f.Has k → coverage (ctx.owners T s) k = 0
  one : ∀ k, f.Has k → s.stack.count k = 1

namespace Fresh

variable {ctx : SectionContext} {T T' : List (Written × SlotRange)} {s s' : SectionState}
  {f r : SlotRange}

lemma lt (h : Fresh ctx T s f) (hpos : 0 < f.2) : f.1 < size := by
  have := h.inside
  omega

lemma apart (h : Fresh ctx T s f) (hr : r ∈ ctx.owners T s) : f.Apart r := by
  intro k hf hk
  have := coverage_pos hr hk
  have := h.unowned k hf
  omega

lemma counts (h : Fresh ctx T s f) (hc : ∀ k < size, coverage (ctx.owners T s) k ≤ s.stack.count k)
    (hs : s'.stack = s.stack)
    (ho : ∀ k, coverage (ctx.owners T' s') k = coverage (f :: ctx.owners T s) k) :
    ∀ k < size, coverage (ctx.owners T' s') k ≤ s'.stack.count k := by
  intro k hk
  rw [ho, hs, coverage_cons]
  split
  · rename_i hf
    rw [h.unowned k hf, h.one k hf]
  · exact hc k hk

end Fresh

namespace Slots

variable {j : Job} {G : Outline} {T : List (Written × SlotRange)} {A : List Nat}
  {W : List (Nat × SlotRange)} {s s' s'' : SectionState} {line : Line} {f r : SlotRange}
  {code : Array Instruction}

variable (h : Slots j G T A W s)
include h

lemma claim (hin : f.1 + f.2 ≤ size) (hfree : ∀ k, f.Has k → s.stack.count k = 0) (hc : ∀ k < size,
      s'.stack.count k = if covers f.1 f.2 k then 1 else s.stack.count k)
    (ho : s'.outputSlots = s.outputSlots) (hi : s'.inputSlots = s.inputSlots) :
    Slots j G T A W s' ∧ Fresh j.ctx T s' f := by
  have hown : j.ctx.owners T s' = j.ctx.owners T s := by
    rw [owners, ho, hi, owners]
  have hlt : ∀ k, f.Has k → k < size := fun k hk =>
    (covers_iff.1 hk).2.2.trans_le hin
  refine ⟨⟨ho ▸ h.outputs, ho ▸ h.sizes, ho ▸ h.unique, hi ▸ h.constants, h.others,
    fun w hw => ?_, fun k hk => ?_, h.written⟩, hin, fun k hk => ?_, fun k hk => ?_⟩
  · obtain ⟨hmem, hsize, hA, hone⟩ := h.pending w hw
    refine ⟨ho ▸ hmem, hsize, hA, fun k hk => ?_⟩
    rw [hc k (h.lt_size_of_pending hw hk)]
    split
    · rfl
    · exact hone k hk
  · have hle := h.counts k hk
    rw [hown, hc k hk]
    split
    · rename_i hf
      rw [hfree k hf] at hle
      exact hle.trans (Nat.zero_le _)
    · exact hle
  · have hle := h.counts k (hlt k hk)
    rw [hfree k hk] at hle
    rw [hown]
    exact Nat.le_zero.1 hle
  · have hk' : covers f.1 f.2 k = true := hk
    rw [hc k (hlt k hk), if_pos hk']

/-- The table with an output that had no slots before. -/
lemma insertOutput {o slot : Nat} (ho : s'.outputSlots = s.outputSlots.insert (j.id, o) slot)
    (hnew : ∀ e ∈ s.outputSlots, e.1 ≠ (j.id, o)) (hpos : 0 < j.ctx.outputSize (j.id, o))
    (hin : slot + j.ctx.outputSize (j.id, o) ≤ size) :
    s'.outputSlots = ((j.id, o), slot) :: s.outputSlots ∧
    (∀ e ∈ s'.outputSlots, 0 < j.ctx.outputSize e.1 ∧ e.2 + j.ctx.outputSize e.1 ≤ size ∧
      (e.1.1 ∈ j.done ∨ e.1.1 = j.id ∧ e.1.2 ∈ o :: A)) ∧
    ∀ e ∈ s'.outputSlots, ∀ e' ∈ s'.outputSlots, e.1 = e'.1 → e = e' := by
  rw [insert_of_forall_ne hnew] at ho
  rw [ho]
  refine ⟨rfl, fun e he => ?_, fun e he e' he' hkey => ?_⟩
  · obtain rfl | he := mem_cons.1 he
    · exact ⟨hpos, hin, .inr ⟨rfl, mem_cons_self⟩⟩
    · obtain ⟨hp, hin, hd⟩ := h.sizes e he
      exact ⟨hp, hin, hd.imp_right fun hd => ⟨hd.1, mem_cons_of_mem _ hd.2⟩⟩
  · obtain rfl | he := mem_cons.1 he <;> obtain rfl | he' := mem_cons.1 he'
    · rfl
    · exact absurd hkey.symm (hnew e' he')
    · exact absurd hkey (hnew e he)
    · exact h.unique e he e' he' hkey

/-- An output that is asked for the first time becomes pending. -/
lemma assign {o slot : Nat} (hA : o ∉ A) (hf : Fresh j.ctx T s (slot, j.ctx.outputSize (j.id, o)))
    (hpos : 0 < j.ctx.outputSize (j.id, o)) (hs : s'.stack = s.stack)
    (ho : s'.outputSlots = s.outputSlots.insert (j.id, o) slot)
    (hi : s'.inputSlots = s.inputSlots) (hnew : ∀ e ∈ s.outputSlots, e.1 ≠ (j.id, o)) :
    Slots j G T (o :: A) (W ++ [(o, (slot, j.ctx.outputSize (j.id, o)))]) s' := by
  obtain ⟨hslots, hsizes, hunique⟩ := h.insertOutput ho hnew hpos hf.inside
  refine ⟨fun e he hp => ?_, hsizes, hunique, hi ▸ h.constants, h.others, fun w hw => ?_,
    hf.counts h.counts hs fun k => ?_, fun l hl t r htr => ?_⟩
  · obtain rfl | he := mem_cons.1 (hslots ▸ he)
    · exact absurd rfl (hp (o, _) (mem_append_right _ mem_cons_self))
    · exact h.outputs e he fun w hw => hp w (mem_append_left _ hw)
  · obtain hw | hw := mem_append.1 hw
    · obtain ⟨hin, hsize, hwA, hone⟩ := h.pending w hw
      exact ⟨hslots ▸ mem_cons_of_mem _ hin, hsize, mem_cons_of_mem _ hwA, hs ▸ hone⟩
    · obtain rfl := mem_singleton.1 hw
      exact ⟨hslots ▸ mem_cons_self, rfl, mem_cons_self, hs ▸ hf.one⟩
  · rw [owners, hslots, hi]
    rfl
  · obtain hd | ⟨hid, htA, hne⟩ := h.written l hl t r htr
    · exact .inl hd
    · refine .inr ⟨hid, mem_cons_of_mem _ htA, fun w hw => ?_⟩
      obtain hw | hw := mem_append.1 hw
      · exact hne w hw
      · obtain rfl := mem_singleton.1 hw
        rintro rfl
        exact hA htA

/-- A line that writes fresh slots with something that is no output. -/
lemma push_fresh (hf : Fresh j.ctx T s f) {w : Written}
    (hno : ∀ t, w ≠ .output t) (hw : line.writes = [(w, f)]) :
    Slots j (G.grow [line]) T A W s := by
  refine h.push (fun x hx r hr => ?_) fun t r htr => ?_
  · rw [hw, mem_singleton] at hx
    subst hx
    exact hf.apart (mem_owners hr)
  · rw [hw, mem_singleton] at htr
    exact hno t (Prod.mk.inj htr).1.symm

/-- The constant of an input is loaded into slots that were taken for it. -/
lemma load {i slot : Nat} (ht : G.Text j.ctx j.useful code)
    (hf : Fresh j.ctx T s (slot, j.ctx.inputSize (j.id, i)))
    (hpos : 0 < j.ctx.inputSize (j.id, i)) (hl : j.ctx.link? j.id i = none)
    (hw : line.writes = [(.constant (j.id, i), (slot, j.ctx.inputSize (j.id, i)))])
    (hs : s'.stack = s.stack) (ho : s'.outputSlots = s.outputSlots)
    (hi : s'.inputSlots = s.inputSlots.insert (j.id, i) slot)
    (hnew : ∀ e ∈ s.inputSlots, e.1 ≠ (j.id, i)) : Slots j (G.grow [line]) T A W s' := by
  have hp := h.push_fresh hf (fun t e => by cases e) hw
  refine ⟨ho ▸ hp.outputs, ho ▸ hp.sizes, ho ▸ hp.unique, fun e he hloaded => ?_, hp.others,
    fun w hw => ?_, hf.counts h.counts hs fun k => ?_, hp.written⟩
  · rw [hi, mem_insert] at he
    obtain rfl | ⟨he, _⟩ := he
    · refine ⟨rfl, hf.inside, hpos, .last ht ?_⟩
      rw [hw]
      exact mem_singleton.2 rfl
    · exact hp.constants e he hloaded
  · obtain ⟨hin, hsize, hwA, hone⟩ := hp.pending w hw
    exact ⟨ho ▸ hin, hsize, hwA, hs ▸ hone⟩
  · have hload : j.ctx.isLoaded ((j.id, i), slot) = true := by
      simp [isLoaded, hl]
    simp only [owners, ho, hi, insert_of_forall_ne hnew, filter_cons_of_pos hload, map_cons,
      coverage_append, coverage_cons, inputRange]
    omega

/-- A value outside the tables is written into slots that were taken for it. -/
lemma hold {w : Written}
    (ht : G.Text j.ctx j.useful code) (hf : Fresh j.ctx T s f) (hno : ∀ t, w ≠ .output t)
    (hw : line.writes = [(w, f)]) : Slots j (G.grow [line]) ((w, f) :: T) A W s := by
  have hp := h.push_fresh hf hno hw
  refine ⟨hp.outputs, hp.sizes, hp.unique, hp.constants, fun x hx => ?_, hp.pending,
    hf.counts h.counts rfl fun k => ?_, hp.written⟩
  · obtain rfl | hx := mem_cons.1 hx
    · exact .last ht (by rw [hw]; exact mem_singleton.2 rfl)
    · exact hp.others x hx
  · simp only [owners, map_cons, coverage_append, coverage_cons]
    omega

end Slots

/-! ## Giving back and sharing slots -/

namespace Slots

variable {j : Job} {G : Outline} {T T' : List (Written × SlotRange)} {A : List Nat}
  {s s' : SectionState} {f : SlotRange} {slot : Nat} {source : NodeId × Nat}

/-- Slots are given back once for at least one owner that goes. -/
lemma release (h : Slots j G T A [] s) (ho : s'.outputSlots.Sublist s.outputSlots)
    (hi : s'.inputSlots.Sublist s.inputSlots) (hT : T'.Sublist T)
    (hcov : ∀ k, f.Has k → coverage (j.ctx.owners T' s') k < coverage (j.ctx.owners T s) k)
    (hc : ∀ k < size,
      s'.stack.count k = if covers f.1 f.2 k then s.stack.count k - 1 else s.stack.count k) :
    Slots j G T' A [] s' where
  outputs e he := h.outputs e (ho.subset he)
  sizes e he := h.sizes e (ho.subset he)
  unique e he e' he' := h.unique e (ho.subset he) e' (ho.subset he')
  constants e he := h.constants e (hi.subset he)
  others x hx := h.others x (hT.subset hx)
  pending := by simp
  counts k hk := by
    have hle := h.counts k hk
    rw [hc k hk]
    split
    · rename_i hf
      have := hcov k hf
      omega
    · refine le_trans (coverage_le ?_ k) hle
      exact ((ho.map _).append ((hi.filter _).map _)).append (hT.map _)
  written := h.written

/-- An entry that is erased no longer counts. -/
lemma coverage_erase_lt {t : SlotTable} {a : NodeId × Nat} {p : (NodeId × Nat) × Nat → Bool}
    {g : (NodeId × Nat) × Nat → SlotRange} {k : Nat} (hmem : (a, slot) ∈ t)
    (hp : p (a, slot) = true) (hk : (g (a, slot)).Has k) :
    coverage (((t.erase a).filter p).map g) k < coverage ((t.filter p).map g) k := by
  have hsplit : coverage ((t.filter p).map g) k = coverage (((t.filter p).filter
      fun e => e.1 != a).map g) k + coverage (((t.filter p).filter fun e => !(e.1 != a)).map g) k := by
    simp only [coverage, countP_map]
    exact countP_eq_countP_filter_add ..
  have hpos : 0 < coverage (((t.filter p).filter fun e => !(e.1 != a)).map g) k :=
    coverage_pos (mem_map.2 ⟨(a, slot), by simp [hmem, hp], rfl⟩) hk
  have hcomm : (t.erase a).filter p = (t.filter p).filter fun e => e.1 != a := by
    rw [erase, filter_filter, filter_filter]
    exact filter_congr fun e _ => Bool.and_comm _ _
  rw [hcomm]
  omega

/-- The slots of an output that nothing will read any more. -/
lemma clearOutput (h : Slots j G T A [] s) (hmem : (source, slot) ∈ s.outputSlots)
    (ho : s'.outputSlots = s.outputSlots.erase source)
    (hi : s'.inputSlots.Sublist s.inputSlots)
    (hc : ∀ k < size, s'.stack.count k =
      if covers slot (j.ctx.outputSize source) k then s.stack.count k - 1
      else s.stack.count k) : Slots j G T A [] s' := by
  have hsub : s'.outputSlots.Sublist s.outputSlots := ho ▸ erase_sublist
  refine h.release (f := (slot, j.ctx.outputSize source)) hsub hi (.refl T) (fun k hk => ?_) hc
  have hlt := coverage_erase_lt (p := fun _ => true) (g := j.ctx.outputRange) hmem rfl hk
  rw [filter_true, filter_true, ← ho] at hlt
  have hle := coverage_le ((hi.filter j.ctx.isLoaded).map j.ctx.inputRange) k
  simp only [owners, coverage_append]
  omega

lemma clearConstant (h : Slots j G T A [] s) {socket : NodeId × Nat}
    (hmem : (socket, slot) ∈ s.inputSlots)
    (hl : j.ctx.link? socket.1 socket.2 = none)
    (ho : s'.outputSlots = s.outputSlots) (hi : s'.inputSlots = s.inputSlots.erase socket)
    (hc : ∀ k < size, s'.stack.count k =
      if covers slot (j.ctx.inputSize socket) k then s.stack.count k - 1
      else s.stack.count k) : Slots j G T A [] s' := by
  have hsub : s'.inputSlots.Sublist s.inputSlots := hi ▸ erase_sublist
  refine h.release (f := (slot, j.ctx.inputSize socket)) (ho ▸ .refl _) hsub (.refl T)
    (fun k hk => ?_) hc
  have hlt := coverage_erase_lt (p := j.ctx.isLoaded) (g := j.ctx.inputRange) hmem
    (by simp [isLoaded, hl]) hk
  rw [← hi] at hlt
  simp only [owners, coverage_append, ho]
  omega

/-- A value outside the tables that is no longer needed. -/
lemma drop {w : Written} (h : Slots j G ((w, f) :: T) A [] s)
    (ho : s'.outputSlots = s.outputSlots) (hi : s'.inputSlots = s.inputSlots)
    (hc : ∀ k < size, s'.stack.count k =
      if covers f.1 f.2 k then s.stack.count k - 1 else s.stack.count k) :
    Slots j G T A [] s' := by
  refine h.release (ho ▸ .refl _) (hi ▸ .refl _) (sublist_cons_self _ _) (fun k hk => ?_) hc
  have hk' : covers f.1 f.2 k = true := hk
  simp only [owners, map_cons, coverage_append, coverage_cons, ho, hi, if_pos hk']
  omega

/-- An output that shares the slots of what feeds its node. -/
lemma share (h : Slots j G T A [] s) {o : Nat}
    (hmem : (source, slot) ∈ s.outputSlots) (hpass : j.ctx.PassesOn j.id)
    (hl : j.ctx.link? j.id 3 = some source)
    (hsize : j.ctx.outputSize (j.id, o) = j.ctx.outputSize source)
    (hsees : j.useful j.id → source.1 ∉ G.hidden ∧ j.useful source.1)
    (ho : s'.outputSlots = s.outputSlots.insert (j.id, o) slot)
    (hi : s'.inputSlots = s.inputSlots) (hnew : ∀ e ∈ s.outputSlots, e.1 ≠ (j.id, o))
    (hc : ∀ k < size, s'.stack.count k =
      if covers slot (j.ctx.outputSize source) k then s.stack.count k + 1
      else s.stack.count k) : Slots j G T (o :: A) [] s' := by
  obtain ⟨hpos, hin, _⟩ := h.sizes _ hmem
  obtain ⟨hslots, hsizes, hunique⟩ := h.insertOutput ho hnew (hsize ▸ hpos) (hsize ▸ hin)
  refine ⟨fun e he _ => ?_, hsizes, hunique, hi ▸ h.constants, h.others, by simp, fun k hk => ?_,
    fun l hl t r htr => ?_⟩
  · obtain rfl | he := mem_cons.1 (hslots ▸ he)
    · obtain ⟨q, t, horigin, hk, hx⟩ := h.outputs _ hmem (by simp)
      refine ⟨q, t, .passed hpass hl horigin, ?_, fun _ hu => hx (hsees hu).1 (hsees hu).2⟩
      rw [outputRange, hsize]
      exact hk
    · exact h.outputs e he (by simp)
  · have hown : coverage (j.ctx.owners T s') k = coverage (j.ctx.owners T s) k +
        if covers slot (j.ctx.outputSize source) k then 1 else 0 := by
      simp only [owners, hslots, hi, map_cons, cons_append, coverage_cons, outputRange, hsize]
    have hle := h.counts k hk
    rw [hown, hc k hk]
    split <;> omega
  · obtain hd | ⟨hid, htA, hne⟩ := h.written l hl t r htr
    · exact .inl hd
    · exact .inr ⟨hid, mem_cons_of_mem _ htA, by simp⟩

end Slots

end Shading
