import Shading.Bytecode.Section
import Shading.Proofs.Stack

/-!
# Exact first fit

Whatever was asked of a stack before, slots are taken at the lowest offset at which enough of them
are free, and the request is refused only if there is no such offset (`Stack.claim_exact`).  The
peak is the highest end of a run that was ever given out.
-/

namespace Shading.Stack

variable {s : Stack} {offset size position : Nat}

/-- The number of slots that have users. -/
def used (s : Stack) : Nat := (List.range Stack.size).countP fun k => 0 < s.count k

lemma live_eq_used : s.live = s.used := by
  have hlist : s.users.toList = (List.range Stack.size).map s.count := by
    refine List.ext_getElem (by simp) fun k hk _ => ?_
    have hk : k < Stack.size := by simpa using hk
    simp [count, hk]
  rw [live, used, hlist, List.countP_map]
  rfl

/-! ## Requests -/

/-- Something that may be asked of a stack. -/
inductive Request where
  | claim (size position : Nat)
  | addUser (offset size : Nat)
  | release (offset size position : Nat)
  | read (offset size position : Nat)

/-- The stack after a request, and the run of slots that was given out for it.  A request that is
refused leaves the stack as it was. -/
def answer (s : Stack) : Request → Stack × Option (Nat × Nat)
  | .claim size position =>
    match s.claim size position with
    | .ok (offset, s') => (s', if size = 0 then none else some (offset, size))
    | .error _ => (s, none)
  | .addUser offset size => (s.addUser offset size, none)
  | .release offset size position => (s.release offset size position, none)
  | .read offset size position => ((s.read offset size position).toOption.getD s, none)

/-- A new stack after some requests, and the runs that were given out for them. -/
def session (record : Bool) (requests : List Request) : Stack × List (Nat × Nat) :=
  requests.foldl (fun x r => ((x.1.answer r).1, (x.1.answer r).2.toList ++ x.2)) (new record, [])

/-- The highest end of the runs. -/
def highestEnd (runs : List (Nat × Nat)) : Nat := (runs.map fun r => r.1 + r.2).foldr max 0

lemma peak_answer (s : Stack) (r : Request) (runs : List (Nat × Nat))
    (h : s.peak = highestEnd runs) :
    (s.answer r).1.peak = highestEnd ((s.answer r).2.toList ++ runs) := by
  cases r with
  | claim size position =>
    rw [answer, claim]
    by_cases hsize : size = 0
    · simpa [hsize] using h
    · rw [if_neg hsize]
      cases s.firstFit? size with
      | none => exact h
      | some offset =>
        dsimp only
        rw [if_neg hsize]
        exact (max_comm ..).trans (congrArg _ h)
  | addUser offset size => exact h
  | release offset size position =>
    refine Eq.trans ?_ h
    dsimp only [answer, release]
    split <;> rfl
  | read offset size position =>
    refine Eq.trans ?_ h
    dsimp only [answer, read]
    split <;> rfl

/-- Whatever was asked of a stack before, a request for slots is given the lowest run that fits: its
slots, which had no users, have one then, and the others as many as before.  It is refused exactly
if no run fits; the refusal counts the slots that have users, and leaves a section under
construction as it was.  The peak is the highest end of a run that was ever given out. -/
theorem claim_exact (record : Bool) (requests : List Request) (hsize : 0 < size) (position : Nat) :
    let s := (session record requests).1
    (∀ offset, (∃ s', s.claim size position = .ok (offset, s')) ↔
      IsLeast { o | s.Fits size o } offset) ∧
    (∀ offset s', s.claim size position = .ok (offset, s') → ∀ k < Stack.size,
      s'.count k = if offset ≤ k ∧ k < offset + size then 1 else s.count k) ∧
    (∀ e, s.claim size position = .error e ↔
      (∀ o, ¬ s.Fits size o) ∧ e = .overflow size s.used) ∧
    (∀ state : SectionState, state.stack = s → (∀ o, ¬ s.Fits size o) →
      Emit.claim size state = .error (.stack (.overflow size s.used)) state) ∧
    s.peak = highestEnd (session record requests).2 := by
  intro s
  have hrefused : ∀ position e, s.claim size position = .error e ↔
      (∀ o, ¬ s.Fits size o) ∧ e = .overflow size s.used := by
    intro position e
    rw [← firstFit?_eq_none_iff hsize, claim, if_neg hsize.ne', live_eq_used]
    cases s.firstFit? size <;> simp [eq_comm]
  refine ⟨fun offset => ?_, fun offset s' h k hk => ?_, hrefused position, fun state hs hno => ?_, ?_⟩
  · rw [← firstFit?_eq_some_iff hsize, claim, if_neg hsize.ne']
    cases s.firstFit? size <;> simp
  · obtain ⟨hin, _, hcount⟩ := claim_spec h hsize
    have hvalid : offset ≠ invalid := by
      simp only [Stack.size, invalid] at hin ⊢
      omega
    simp [hcount k hk, covers_iff, hvalid]
  · have herror := (hrefused state.code.size _).2 ⟨hno, rfl⟩
    have hget : (get : Emit SectionState) state = .ok state state := rfl
    rw [← hs] at herror ⊢
    simp only [Emit.claim, bind, EStateM.bind, hget, herror]
    rfl
  · exact List.foldlRecOn (motive := fun x : Stack × List (Nat × Nat) => x.1.peak = highestEnd x.2)
      requests _ rfl fun x hx r _ => peak_answer x.1 r x.2 hx

/-- Two values are taken and the first one is given back. -/
def gap : List Request := [.claim 1 0, .claim 1 0, .release 0 1 0]

/-- The gap is too small for a larger value. -/
theorem claim_exact_gap : 0 < 2 ∧
    IsLeast { o | (session false gap).1.Fits 2 o } 2 ∧ (session false gap).1.peak = 2 := by
  obtain ⟨hleast, _, _, _, hpeak⟩ := claim_exact false gap (by decide : 0 < 2) 0
  have htwo : ((session false gap).1.claim 2 0).toOption.map Prod.fst = some 2 := by
    decide +kernel
  refine ⟨by decide, (hleast 2).1 ?_, hpeak.trans (by decide +kernel)⟩
  cases h : (session false gap).1.claim 2 0 with
  | error e =>
    rw [h] at htwo
    cases htwo
  | ok x =>
    rw [h] at htwo
    exact ⟨x.2, by rw [← Option.some.inj htwo]⟩

end Shading.Stack
