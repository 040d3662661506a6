import Mathlib.Tactic
import Shading.Bytecode.Stack

/-!
# Counting the users of slots

The operations on the evaluation stack are seen through one function, the number of users of each
slot.  Taking slots gives a run that nobody used, inside the stack, and the scan that looks for it
finds the lowest one (`scan_spec`); the other operations change the counts of one run and leave the
rest alone.  Nothing here depends on what the slots hold.
-/

namespace Shading.Stack

/-- The number of users of a slot; slots outside the stack have none. -/
def count (s : Stack) (k : Nat) : Nat := (s.users[k]?).getD 0

variable {s s' : Stack} {offset size position k : Nat}

lemma covers_iff : covers offset size k = true ↔
    offset ≠ invalid ∧ offset ≤ k ∧ k < offset + size := by
  simp [covers, and_assoc]

lemma count_new (record : Bool) (k : Nat) : (new record).count k = 0 := by
  rw [count, new, Vector.getElem?_replicate]
  split <;> rfl

lemma count_mapUsers (f : Nat → Nat) (hk : k < Stack.size) :
    (s.mapUsers offset size f).count k =
      if covers offset size k then f (s.count k) else s.count k := by
  simp only [count, mapUsers, Vector.getElem?_eq_getElem hk, Vector.getElem_mapIdx,
    Option.getD_some]

lemma count_addUser (hk : k < Stack.size) :
    (s.addUser offset size).count k =
      if covers offset size k then s.count k + 1 else s.count k := count_mapUsers _ hk

lemma count_record (e : SlotEvent) : (s.record e).count k = s.count k := rfl

lemma count_release (hk : k < Stack.size) :
    (s.release offset size position).count k =
      if covers offset size k then s.count k - 1 else s.count k := by
  rw [release]
  split
  · exact count_mapUsers _ hk
  · exact count_mapUsers _ hk

lemma count_read (h : s.read offset size position = .ok s') : s'.count k = s.count k := by
  rw [read] at h
  split at h
  · cases h
  · cases h
    exact count_record _

lemma exists_read (h : ∀ k < Stack.size, covers offset size k = true → 0 < s.count k)
    (position : Nat) : ∃ s', s.read offset size position = .ok s' := by
  rw [read]
  split
  · rename_i i hi
    have hfree : s.users[i] = 0 := by simpa using List.find?_some hi
    have hmem := (List.mem_filter.1 (List.mem_of_find?_eq_some hi)).2
    have hpos := h i i.isLt hmem
    have hcount : s.count i = s.users[i] := by
      rw [count, Vector.getElem?_eq_getElem i.isLt, Option.getD_some]
      rfl
    omega
  · exact ⟨_, rfl⟩

/-! ## The scan for free slots -/

/-- A run of the size at the offset lies inside the stack, and none of its slots has a user. -/
def Fits (s : Stack) (size offset : Nat) : Prop :=
  offset + size ≤ Stack.size ∧ ∀ k, offset ≤ k → k < offset + size → s.count k = 0

/-- What a scan knows when it comes to slot `i`: the free run before the slot is too short, it
cannot be extended downwards, and no run that ends before the slot fits. -/
structure Scanned (s : Stack) (size i run : Nat) : Prop where
  short : run < size
  le : run ≤ i
  free : ∀ k, i - run ≤ k → k < i → s.count k = 0
  start : run < i → s.count (i - run - 1) ≠ 0
  later : ∀ o, s.Fits size o → i < o + size

variable {i run : Nat} {users : List Nat}

/-- A free slot either completes the lowest run that fits or makes the run longer. -/
lemma Scanned.free_step (h : s.Scanned size i run) (hi : i < Stack.size) (hfree : s.count i = 0) :
    if run + 1 = size then IsLeast { o | s.Fits size o } (i + 1 - size)
    else s.Scanned size (i + 1) (run + 1) := by
  obtain ⟨hshort, hle, hrun, hstart, hlater⟩ := h
  have hlonger : ∀ k, i - run ≤ k → k < i + 1 → s.count k = 0 := by
    intro k hlo hhi
    obtain rfl | hlt := (Nat.lt_succ_iff.1 hhi).eq_or_lt
    · exact hfree
    · exact hrun k hlo hlt
  split
  · rename_i hsize
    refine ⟨⟨by omega, fun k hlo hhi => hlonger k (by omega) (by omega)⟩, fun o ho => ?_⟩
    have := hlater o ho
    omega
  · rename_i hsize
    refine ⟨by omega, by omega, fun k hlo hhi => hlonger k (by omega) hhi, fun hlt => ?_,
      fun o ho => ?_⟩
    · rw [show i + 1 - (run + 1) - 1 = i - run - 1 by omega]
      exact hstart (by omega)
    -- A run that ends with this slot would hold the used slot below the free ones.
    · refine lt_of_le_of_ne (hlater o ho) fun hend => ?_
      exact hstart (by omega) (ho.2 (i - run - 1) (by omega) (by omega))

/-- A used slot ends the run. -/
lemma Scanned.used_step (h : s.Scanned size i run) (hused : s.count i ≠ 0) :
    s.Scanned size (i + 1) 0 := by
  refine ⟨by have := h.short; omega, by omega, fun k _ _ => by omega, fun _ => hused, fun o ho => ?_⟩
  refine lt_of_le_of_ne (h.later o ho) fun hend => ?_
  have := h.short
  exact hused (ho.2 i (by omega) (by omega))

/-- The scan finds the lowest run that fits, and fails only if there is none. -/
lemma scan_spec (h : s.Scanned size i run) (husers : s.users.toList.drop i = users) :
    match scan size users i run with
    | some offset => IsLeast { o | s.Fits size o } offset
    | none => ∀ o, ¬ s.Fits size o := by
  induction users generalizing i run with
  | nil =>
    have hend : Stack.size ≤ i := by simpa using List.drop_eq_nil_iff.1 husers
    intro o ho
    have := h.later o ho
    have := ho.1
    omega
  | cons u users ih =>
    have hi : i < Stack.size := by
      by_contra hge
      rw [List.drop_eq_nil_of_le (by simpa using hge)] at husers
      cases husers
    have hu : s.count i = u := by
      have hhead : (s.users.toList.drop i)[0]? = some u := by rw [husers]; rfl
      rw [List.getElem?_drop, Nat.add_zero, Vector.getElem?_toList] at hhead
      rw [count, hhead, Option.getD_some]
    have hrest : s.users.toList.drop (i + 1) = users := by
      rw [← List.drop_drop, husers, List.drop_one, List.tail_cons]
    dsimp only [scan]
    by_cases hfree : u = 0
    · rw [if_pos hfree]
      have hstep := h.free_step hi (hu.trans hfree)
      split at hstep
      · rw [if_pos ‹_›]
        exact hstep
      · rw [if_neg ‹_›]
        exact ih hstep hrest
    · have hstep := h.used_step (hu ▸ hfree)
      rw [if_neg hfree, if_neg hstep.short.ne]
      exact ih hstep hrest

lemma firstFit?_spec (hs : 0 < size) :
    match s.firstFit? size with
    | some offset => IsLeast { o | s.Fits size o } offset
    | none => ∀ o, ¬ s.Fits size o :=
  scan_spec ⟨hs, le_rfl, fun _ _ h => absurd h (Nat.not_lt_zero _), fun h => absurd h (lt_irrefl _),
    fun _ _ => by omega⟩ List.drop_zero

lemma firstFit?_eq_some_iff (hs : 0 < size) :
    s.firstFit? size = some offset ↔ IsLeast { o | s.Fits size o } offset := by
  have hspec := firstFit?_spec (s := s) hs
  cases hfit : s.firstFit? size with
  | none =>
    rw [hfit] at hspec
    exact ⟨nofun, fun h => absurd h.1 (hspec offset)⟩
  | some first =>
    rw [hfit] at hspec
    rw [Option.some.injEq]
    exact ⟨fun h => h ▸ hspec, fun h => hspec.unique h⟩

lemma firstFit?_eq_none_iff (hs : 0 < size) :
    s.firstFit? size = none ↔ ∀ o, ¬ s.Fits size o := by
  have hspec := firstFit?_spec (s := s) hs
  cases hfit : s.firstFit? size with
  | none =>
    rw [hfit] at hspec
    exact ⟨fun _ => hspec, fun _ => rfl⟩
  | some first =>
    rw [hfit] at hspec
    exact ⟨nofun, fun h => absurd hspec.1 (h first)⟩

lemma Fits.count_eq_zero (h : s.Fits size offset) (hk : covers offset size k = true) :
    s.count k = 0 := by
  obtain ⟨_, hlo, hhi⟩ := covers_iff.1 hk
  exact h.2 k hlo hhi

/-- Taking slots gives a free run and makes it used. -/
lemma claim_spec (h : s.claim size position = .ok (offset, s')) (hs : 0 < size) :
    offset + size ≤ Stack.size ∧ (∀ k, covers offset size k = true → s.count k = 0) ∧
      ∀ k < Stack.size, s'.count k = if covers offset size k then 1 else s.count k := by
  rw [claim, if_neg hs.ne'] at h
  split at h
  · rename_i first hfit
    cases h
    have hfits := ((firstFit?_eq_some_iff hs).1 hfit).1
    exact ⟨hfits.1, fun k hk => hfits.count_eq_zero hk, fun k hk => count_mapUsers _ hk⟩
  · cases h

/-- Taking slots fails only if there is no free run. -/
lemma overflow_of_claim {e : StackError} (h : s.claim size position = .error e) :
    e = .overflow size s.live := by
  rw [claim] at h
  split at h
  · cases h
  · split at h
    · cases h
    · cases h
      rfl

end Shading.Stack
