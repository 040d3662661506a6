import Mathlib.Data.Finset.Lattice.Basic
import Shading.Proofs.Machine
import Shading.Proofs.Stack

/-!
# Ledgers of slots

A ledger lists who owns which run of slots.  It is exact if every slot has as many users as there
are owners whose run holds it, if runs that meet are the same run, and if what the stack has
recorded can be replayed on the bare set of live slots: no write meets a live slot and no read a
dead one.

The stack records that a value was given back as soon as one of its slots is free, and a replay
takes all of them to be dead from then on.  That is right because runs that meet are the same: the
slots of one value have the same owners and fall free together.

Ledgers are kept by the four things that happen to a stack.  Who the owners are is left open, and so
is which of them may share a run.
-/

namespace Shading

open List

/-! ## Replaying accesses -/

namespace SlotEvent

def slots (e : SlotEvent) : Finset (Fin Stack.size) := (Stack.range e.offset e.size).toFinset

lemma mem_slots {e : SlotEvent} {k : Fin Stack.size} :
    k ∈ e.slots ↔ Stack.covers e.offset e.size k = true := by
  simp [slots, Stack.range]

/-- What an access makes of the set of live slots.  A write must find its slots dead, a read must
find them alive.  What an access covers outside the table is passed over. -/
def replay (live : Finset (Fin Stack.size)) (e : SlotEvent) : Option (Finset (Fin Stack.size)) :=
  match e.access with
  | .write => if Disjoint live e.slots then some (live ∪ e.slots) else none
  | .read => if e.slots ⊆ live then some live else none
  | .release => some (live \ e.slots)

/-- The slots that are alive after some accesses, the earliest first, if all are in order. -/
def replayAll (trace : List SlotEvent) : Option (Finset (Fin Stack.size)) := trace.foldlM replay ∅

lemma replayAll_append (past trace : List SlotEvent) :
    replayAll (past ++ trace) = (replayAll past).bind fun live => trace.foldlM replay live :=
  foldlM_append

/-- What can be replayed can be replayed up to any point. -/
lemma replayAll_of_isPrefix {past trace : List SlotEvent} {live : Finset (Fin Stack.size)}
    (h : past <+: trace) (ht : replayAll trace = some live) :
    ∃ live, replayAll past = some live := by
  obtain ⟨rest, rfl⟩ := h
  rw [replayAll_append] at ht
  obtain ⟨l, hl, _⟩ := Option.bind_eq_some_iff.1 ht
  exact ⟨l, hl⟩

end SlotEvent

namespace Stack

variable {s s' : Stack} {offset size position : Nat}

/-- The slots that have users. -/
def liveSlots (s : Stack) : Finset (Fin Stack.size) := Finset.univ.filter fun k => 0 < s.count k

lemma mem_liveSlots {k : Fin Stack.size} : k ∈ s.liveSlots ↔ 0 < s.count k := by
  simp [liveSlots]

lemma live_le_size (s : Stack) : s.live ≤ Stack.size :=
  countP_le_length.trans_eq (Vector.length_toList ..)

lemma count_eq_users (k : Fin Stack.size) (hk : k.val < Stack.size) : s.count k = s.users[k] := by
  rw [count, Vector.getElem?_eq_getElem hk, Option.getD_some]
  rfl

/-- What was recorded, if anything, can be replayed and leads to the slots that have users. -/
def Replays (s : Stack) : Prop :=
  ∀ trace, s.trace = some trace → SlotEvent.replayAll trace.reverse = some s.liveSlots

lemma replays_new (record : Bool) : (new record).Replays := by
  intro trace h
  have hlive : (new record).liveSlots = ∅ := by simp [liveSlots, count_new]
  rw [hlive]
  cases record
  · cases h
  · cases h
    rfl

lemma Replays.record (h : s.Replays) {e : SlotEvent} (htrace : s'.trace = s.trace.map (e :: ·))
    (hlive : e.replay s.liveSlots = some s'.liveSlots) : s'.Replays := by
  intro trace ht
  rw [htrace] at ht
  obtain ⟨past, hpast, rfl⟩ := Option.map_eq_some_iff.1 ht
  rw [reverse_cons, SlotEvent.replayAll_append, h past hpast]
  simpa using hlive

lemma Replays.congr (h : s.Replays) (htrace : s'.trace = s.trace)
    (hlive : s'.liveSlots = s.liveSlots) : s'.Replays := by
  intro trace ht
  rw [hlive, h trace (htrace ▸ ht)]

lemma Replays.read (h : s.Replays) (hr : s.read offset size position = .ok s') : s'.Replays := by
  rw [Stack.read] at hr
  split at hr
  · cases hr
  rename_i hfind
  cases hr
  have hall : ∀ k : Fin Stack.size, covers offset size k = true → 0 < s.count k := by
    intro k hk
    have := find?_eq_none.1 hfind k (by simp [range, hk])
    rw [count_eq_users k k.isLt]
    exact Nat.pos_of_ne_zero fun h0 => this (beq_iff_eq.2 h0)
  refine h.record rfl ?_
  have hsub : SlotEvent.slots ⟨position, offset, size, .read⟩ ⊆ s.liveSlots := by
    intro k hk
    exact mem_liveSlots.2 (hall k (SlotEvent.mem_slots.1 hk))
  rw [SlotEvent.replay, if_pos hsub]
  rfl

lemma Replays.claim (h : s.Replays) (hc : s.claim size position = .ok (offset, s')) :
    s'.Replays := by
  by_cases hs : size = 0
  · rw [Stack.claim, if_pos hs] at hc
    cases hc
    exact h
  obtain ⟨_, hfree, hcount⟩ := claim_spec hc (Nat.pos_of_ne_zero hs)
  rw [Stack.claim, if_neg hs] at hc
  split at hc
  · rename_i first hfit
    cases hc
    refine h.record rfl ?_
    have hdead : Disjoint s.liveSlots (SlotEvent.slots ⟨position, offset, size, .write⟩) := by
      refine Finset.disjoint_left.2 fun k hk hk' => ?_
      have := hfree k (SlotEvent.mem_slots.1 hk')
      have := mem_liveSlots.1 hk
      omega
    rw [SlotEvent.replay, if_pos hdead]
    refine congrArg some (Finset.ext fun k => ?_)
    rw [Finset.mem_union, mem_liveSlots, mem_liveSlots, SlotEvent.mem_slots, hcount k k.isLt]
    split
    · rename_i hk
      simp [hk]
    · rename_i hk
      simp [hk]
  · cases hc

/-- Giving back a value whose slots fall free together. -/
lemma Replays.release (h : s.Replays)
    (hall : ∀ k k' : Fin Stack.size, covers offset size k = true → covers offset size k' = true →
      s.count k = s.count k')
    (hpos : ∀ k : Fin Stack.size, covers offset size k = true → 0 < s.count k) :
    (s.release offset size position).Replays := by
  have hcount : ∀ k : Fin Stack.size, (s.release offset size position).count k =
      if covers offset size k then s.count k - 1 else s.count k := fun k => count_release k.isLt
  have hfreed : (range offset size).any (fun i =>
      (s.mapUsers offset size (· - 1)).users[i] == 0) = true ↔
      ∃ k : Fin Stack.size, covers offset size k = true ∧ s.count k = 1 := by
    simp only [any_eq_true, range, mem_filter, mem_finRange, true_and, beq_iff_eq, ← count_eq_users]
    refine exists_congr fun k => and_congr_right fun hk => ?_
    have := hpos k hk
    rw [count_mapUsers _ k.isLt, if_pos hk]
    omega
  by_cases hf : ∃ k : Fin Stack.size, covers offset size k = true ∧ s.count k = 1
  · obtain ⟨k₀, hk₀, hone⟩ := hf
    have hrec : (s.release offset size position).trace =
        s.trace.map (⟨position, offset, size, .release⟩ :: ·) := by
      rw [Stack.release]
      rw [if_pos (hfreed.2 ⟨k₀, hk₀, hone⟩)]
      rfl
    refine h.record hrec ?_
    refine congrArg some (Finset.ext fun k => ?_)
    rw [Finset.mem_sdiff, mem_liveSlots, mem_liveSlots, SlotEvent.mem_slots, hcount]
    by_cases hk : covers offset size k = true
    · have := hall k k₀ hk hk₀
      simp [hk]
      omega
    · simp [hk]
  · have hkeep : (s.release offset size position).trace = s.trace := by
      rw [Stack.release]
      rw [if_neg (fun hany => hf (hfreed.1 hany))]
      rfl
    refine h.congr hkeep ?_
    ext k
    rw [mem_liveSlots, mem_liveSlots, hcount]
    split
    · rename_i hk
      have hne : s.count k ≠ 1 := fun e => hf ⟨k, hk, e⟩
      have := hpos k hk
      omega
    · rfl

lemma Replays.addUser (h : s.Replays)
    (hpos : ∀ k : Fin Stack.size, covers offset size k = true → 0 < s.count k) :
    (s.addUser offset size).Replays := by
  refine h.congr rfl ?_
  ext k
  rw [mem_liveSlots, mem_liveSlots, count_addUser k.isLt]
  split
  · rename_i hk
    have := hpos k hk
    omega
  · rfl

end Stack

/-! ## Ledgers -/

/-- Two owners whose runs meet own the same run, and may share it. -/
def Ledger.Agree {ι : Type} (R : ι → ι → Prop) (x y : ι × SlotRange) : Prop :=
  ∀ k, x.2.Has k → y.2.Has k → x.2 = y.2 ∧ R x.1 y.1

/-- The owners of the slots of a stack are exactly these. -/
structure Ledger {ι : Type} (R : ι → ι → Prop) (owners : List (ι × SlotRange)) (s : Stack) :
    Prop where
  count : ∀ k < Stack.size, s.count k = owners.countP fun x => x.2.Has k
  agree : owners.Pairwise (Ledger.Agree R)
  replays : s.Replays

namespace Ledger

variable {ι : Type} {R : ι → ι → Prop} {owners owners' : List (ι × SlotRange)} {s s' : Stack}
  {i : ι} {x : ι × SlotRange} {offset size position : Nat}

lemma new (record : Bool) : Ledger R [] (.new record) :=
  ⟨fun k _ => Stack.count_new record k, .nil, Stack.replays_new record⟩

instance [Std.Symm R] : Std.Symm (Agree R) where
  symm x y h k hy hx := by
    obtain ⟨he, hr⟩ := h k hx hy
    exact ⟨he.symm, symm_of R hr⟩

section

variable (h : Ledger R owners s)
include h

lemma perm [Std.Symm R] (hp : owners.Perm owners') :
    Ledger R owners' s where
  count k hk := (h.count k hk).trans (hp.countP_eq _)
  agree := (hp.pairwise_iff fun {_ _} hxy => symm_of (Agree R) hxy).1 h.agree
  replays := h.replays

/-- The slots of an owner have users. -/
lemma pos (hx : x ∈ owners) (k : Fin Stack.size) (hk : x.2.Has k) : 0 < s.count k := by
  rw [h.count k k.isLt, countP_pos_iff]
  exact ⟨x, hx, by simpa using hk⟩

lemma read (hr : s.read offset size position = .ok s') : Ledger R owners s' :=
  ⟨fun k hk => (Stack.count_read hr).trans (h.count k hk), h.agree, h.replays.read hr⟩

/-- Slots that are taken have a single owner. -/
lemma claim (hc : s.claim size position = .ok (offset, s')) (i : ι) :
    Ledger R ((i, (offset, size)) :: owners) s' := by
  by_cases hs : size = 0
  · subst hs
    have hnone : ∀ k, ¬ SlotRange.Has (offset, 0) k := by
      intro k hk
      obtain ⟨_, _, _⟩ := Stack.covers_iff.1 hk
      omega
    rw [Stack.claim, if_pos rfl] at hc
    cases hc
    refine ⟨fun k hk => ?_, pairwise_cons.2 ⟨fun y _ k hk => absurd hk (hnone k), h.agree⟩,
      h.replays⟩
    rw [countP_cons_of_neg (by simpa using hnone k), h.count k hk]
  · obtain ⟨hin, hfree, hcount⟩ := Stack.claim_spec hc (Nat.pos_of_ne_zero hs)
    have hlt : ∀ {k}, SlotRange.Has (offset, size) k → k < Stack.size := by
      intro k hk
      obtain ⟨_, _, _⟩ := Stack.covers_iff.1 hk
      omega
    have hapart : ∀ y ∈ owners, ∀ k, SlotRange.Has (offset, size) k → ¬ y.2.Has k := by
      intro y hy k hk hy'
      have := h.pos hy ⟨k, hlt hk⟩ hy'
      have := hfree k hk
      dsimp only at *
      omega
    refine ⟨fun k hk => ?_, pairwise_cons.2
      ⟨fun y hy k hk hy' => absurd hy' (hapart y hy k hk), h.agree⟩, h.replays.claim hc⟩
    rw [hcount k hk, countP_cons]
    split
    · rename_i hcov
      have hzero : owners.countP (fun x => x.2.Has k) = 0 := by
        rw [countP_eq_zero]
        intro y hy
        simpa using hapart y hy k hcov
      have hhas : SlotRange.Has (offset, size) k := hcov
      simp [hzero, hhas]
    · rename_i hcov
      have hhas : ¬ SlotRange.Has (offset, size) k := hcov
      simp [hhas, h.count k hk]

/-- An owner lets another one share its run. -/
lemma share [Std.Symm R] (hx : x ∈ owners) (hi : R i x.1) (htrans : ∀ j, R x.1 j → R i j) :
    Ledger R ((i, x.2) :: owners) (s.addUser x.2.1 x.2.2) := by
  refine ⟨fun k hk => ?_, pairwise_cons.2 ⟨fun y hy k hk hy' => ?_, h.agree⟩,
    h.replays.addUser fun k hk => h.pos hx k hk⟩
  · rw [Stack.count_addUser hk, h.count k hk, countP_cons]
    by_cases hcov : x.2.Has k
    · have hcov' : Stack.covers x.2.1 x.2.2 k = true := hcov
      simp [hcov, hcov']
    · have hcov' : ¬ Stack.covers x.2.1 x.2.2 k = true := hcov
      simp [hcov, hcov']
  · by_cases e : x = y
    · subst e
      exact ⟨rfl, hi⟩
    · obtain ⟨he, hr⟩ := h.agree.forall hx hy e k hk hy'
      exact ⟨he, htrans _ hr⟩

end

lemma release (h : Ledger R (x :: owners) s) (position : Nat) :
    Ledger R owners (s.release x.2.1 x.2.2 position) := by
  obtain ⟨hx, hrest⟩ := pairwise_cons.1 h.agree
  have hhead : ∀ k < Stack.size, x.2.Has k →
      s.count k = owners.countP (fun y => y.2.Has k) + 1 := by
    intro k hk hcov
    rw [h.count k hk, countP_cons_of_pos (by simpa using hcov)]
  -- Whoever owns one slot of the run owns all of it.
  have hsame : ∀ k k' : Fin Stack.size, x.2.Has k → x.2.Has k' →
      owners.countP (fun y => y.2.Has k) = owners.countP (fun y => y.2.Has k') := by
    intro k k' hk hk'
    refine countP_congr fun y hy => ?_
    have hiff : y.2.Has k ↔ y.2.Has k' := by
      constructor
      · exact fun hy' => (hx y hy k hk hy').1 ▸ hk'
      · exact fun hy' => (hx y hy k' hk' hy').1 ▸ hk
    simpa using hiff
  refine ⟨fun k hk => ?_, hrest, h.replays.release (fun k k' hk hk' => ?_) fun k hk => ?_⟩
  · rw [Stack.count_release hk]
    split
    · rename_i hcov
      rw [hhead k hk hcov, Nat.add_sub_cancel]
    · rename_i hcov
      have hhas : ¬ x.2.Has k := hcov
      rw [h.count k hk, countP_cons_of_neg (by simpa using hhas)]
  · rw [hhead k k.isLt hk, hhead k' k'.isLt hk', hsame k k' hk hk']
  · exact h.pos mem_cons_self k hk

/-- An owner that shares with nobody can be known by another name. -/
lemma rename (h : Ledger R ((i, x.2) :: owners) s) (hi : ∀ j, ¬ R i j) :
    Ledger R (x :: owners) s := by
  obtain ⟨hx, hrest⟩ := pairwise_cons.1 h.agree
  refine ⟨fun k hk => h.count k hk, pairwise_cons.2 ⟨fun y hy k hk hy' => ?_, hrest⟩, h.replays⟩
  exact absurd (hx y hy k hk hy').2 (hi _)

end Ledger

end Shading
