import Mathlib.Order.Lattice
import Shading.Proofs.Composition

/-!
# What a step does to the state

A step that succeeds takes a state to another one.  If the relation between the two is a preorder,
it holds of everything that is put together from steps of which it holds (`Moves.composes`), also of
the nodes that are scheduled in passes (`Emission.moves_run`).

Where the states that failures leave behind matter as well, and where the steps have conditions,
`Leads` says from which states a step leads to which.
-/

namespace Shading

open List

/-- Whenever the step succeeds, the state before it and the one after it are related. -/
def Moves {ε σ α : Type} (R : σ → σ → Prop) (m : EStateM ε σ α) : Prop :=
  ∀ ⦃s a s'⦄, m s = .ok a s' → R s s'

namespace Moves

variable {ε σ α β : Type} {R : σ → σ → Prop} {m m' : EStateM ε σ α} {f : α → EStateM ε σ β}

/-- A step of two that succeeds has succeeded twice. -/
lemma bind_eq_ok {s s' : σ} {b : β} :
    (m >>= f) s = .ok b s' ↔ ∃ a t, m s = .ok a t ∧ f a t = .ok b s' := by
  have hbind : (m >>= f) s = EStateM.bind m f s := rfl
  rw [hbind, EStateM.bind]
  cases m s with
  | ok a t => simp
  | error e t => simp

lemma bind_of_ok {s t : σ} {a : α} (h : m s = .ok a t) : (m >>= f) s = f a t := by
  change EStateM.bind m f s = _
  rw [EStateM.bind, h]

/-- A step of two that fails has failed at the first or at the second. -/
lemma bind_eq_error {s s' : σ} {e : ε} : (m >>= f) s = .error e s' ↔
    m s = .error e s' ∨ ∃ a t, m s = .ok a t ∧ f a t = .error e s' := by
  change EStateM.bind m f s = _ ↔ _
  rw [EStateM.bind]
  cases m s with
  | ok a t => simp
  | error e t => simp

lemma throw (e : ε) : Moves R (MonadExcept.throw e : EStateM ε σ α) := fun _ _ _ h => by cases h

lemma modify {f : σ → σ} (h : ∀ s, R s (f s)) : Moves R (modify f : EStateM ε σ PUnit) := by
  intro s a s' hs
  cases hs
  exact h s

lemma get_bind {f : σ → EStateM ε σ β} (h : ∀ t, Moves R (f t)) : Moves R (get >>= f) := by
  intro s a s' hs
  exact h s hs

lemma mono {R' : σ → σ → Prop} (hm : Moves R m) (h : ∀ {s s'}, R s s' → R' s s') : Moves R' m :=
  fun _ _ _ hs => h (hm hs)

lemma ite {c : Prop} [Decidable c] (ht : c → Moves R m) (hf : ¬ c → Moves R m') :
    Moves R (if c then m else m') := by
  split
  · exact ht ‹_›
  · exact hf ‹_›

section Preorder

variable [IsPreorder σ R]

lemma pure (a : α) : Moves R (Pure.pure a : EStateM ε σ α) := by
  intro s b s' hs
  cases hs
  exact refl_of R s

lemma bind (hm : Moves R m) (hf : ∀ a, Moves R (f a)) : Moves R (m >>= f) := by
  intro s b s' h
  obtain ⟨a, t, hm', hf'⟩ := bind_eq_ok.1 h
  exact trans_of R (hm hm') (hf a hf')

/-- A preorder passes on to what is put together from steps. -/
lemma composes {R : SectionState → SectionState → Prop} [IsPreorder SectionState R] :
    Emit.Composes fun _ m => Moves R m :=
  ⟨pure, throw, bind⟩

end Preorder

end Moves

/-! ## Steps that may fail -/

/-- From a state with `P` the step leads to a result and a state with `Q` if it succeeds, and to an
error and a state with `E` if it fails. -/
def Triple {ε σ α : Type} (P : σ → Prop) (m : EStateM ε σ α) (Q : α → σ → Prop)
    (E : ε → σ → Prop) : Prop :=
  ∀ s, P s → match m s with
    | .ok a s' => Q a s'
    | .error e s' => E e s'

/-- A triple in which it does not matter what the error is. -/
abbrev Leads {ε σ α : Type} (P : σ → Prop) (m : EStateM ε σ α) (Q : α → σ → Prop) (E : σ → Prop) :
    Prop := Triple P m Q fun _ => E

namespace Triple

variable {ε σ α β : Type} {P P' : σ → Prop} {E : ε → σ → Prop} {Q Q' : α → σ → Prop}
  {R : β → σ → Prop} {m m' : EStateM ε σ α} {f : α → EStateM ε σ β} {a : α}

lemma of_ok (h : Triple P m Q E) {s s' : σ} (hs : P s) (hm : m s = .ok a s') : Q a s' := by
  have := h s hs
  rwa [hm] at this

lemma of_error (h : Triple P m Q E) {s s' : σ} {e : ε} (hs : P s) (hm : m s = .error e s') :
    E e s' := by
  have := h s hs
  rwa [hm] at this

lemma of_eq (h : ∀ s, P s → ∃ a s', m s = .ok a s' ∧ Q a s') : Triple P m Q E := by
  intro s hs
  obtain ⟨a, s', hm, hq⟩ := h s hs
  rw [hm]
  exact hq

lemma pure (h : ∀ s, P s → Q a s) : Triple P (Pure.pure a) Q E := h

lemma throw {e : ε} (h : ∀ s, P s → E e s) : Triple P (MonadExcept.throw e) Q E := h

lemma modify {f : σ → σ} {Q : PUnit → σ → Prop} (h : ∀ s, P s → Q ⟨⟩ (f s)) :
    Triple P (modify f) Q E := h

lemma bind (hm : Triple P m Q E) (hf : ∀ a, Triple (Q a) (f a) R E) : Triple P (m >>= f) R E := by
  intro s hs
  have hbind : (m >>= f) s = EStateM.bind m f s := rfl
  rw [hbind, EStateM.bind]
  cases hr : m s with
  | ok a t => exact hf a t (hm.of_ok hs hr)
  | error e t => exact hm.of_error hs hr

lemma get_bind {f : σ → EStateM ε σ β} (h : ∀ s, P s → Triple (· = s) (f s) R E) :
    Triple P (get >>= f) R E := fun s hs => h s hs s rfl

lemma of_get {f : σ → EStateM ε σ β} (h : ∀ s, Triple P (f s) R E) : Triple P (get >>= f) R E :=
  fun s hs => h s s hs

lemma pre (h : ∀ s, P s → P' s) (hm : Triple P' m Q E) : Triple P m Q E :=
  fun s hs => hm s (h s hs)

lemma post (hm : Triple P m Q' E) (h : ∀ a s, Q' a s → Q a s) : Triple P m Q E := by
  intro s hs
  cases hr : m s with
  | ok a t => exact h a t (hm.of_ok hs hr)
  | error e t => exact hm.of_error hs hr

lemma tryCatch {f : ε → EStateM ε σ α} {E' : ε → σ → Prop} (hm : Triple P m Q E')
    (hf : ∀ e, Triple (E' e) (f e) Q E) : Triple P (tryCatchThe ε m f) Q E := by
  intro s hs
  have hcatch : tryCatchThe ε m f s = EStateM.tryCatch m f s := rfl
  rw [hcatch, EStateM.tryCatch]
  cases hr : m s with
  | ok a t => exact hm.of_ok hs hr
  | error e t => exact hf e t (hm.of_error hs hr)

lemma ite {c : Prop} [Decidable c] (ht : c → Triple P m Q E) (hf : ¬ c → Triple P m' Q E) :
    Triple P (if c then m else m') Q E := by
  split
  · exact ht ‹_›
  · exact hf ‹_›

/-- Fixing the state from which a step starts. -/
lemma each (h : ∀ s, P s → Triple (· = s) m Q E) : Triple P m Q E := fun s hs => h s hs s rfl

/-- A condition on the state that does not depend on it can be used as a fact. -/
lemma of_and {c : Prop} (h : c → Triple P m Q E) : Triple (fun s => P s ∧ c) m Q E :=
  fun s hs => h hs.2 s hs.1

lemma of_imp {c : Prop} (h : c → Triple P m Q E) : Triple (fun s => c ∧ P s) m Q E :=
  fun s hs => h hs.1 s hs.2

lemma bind_eq {b : α} (hm : Triple P m (fun a s => a = b ∧ P' s) E) (hf : Triple P' (f b) R E) :
    Triple P (m >>= f) R E := hm.bind fun _ => of_imp fun e => e ▸ hf

lemma pure_bind (h : Triple P (f a) R E) : Triple P (Pure.pure a >>= f) R E := h

lemma exists_imp {ι : Type} {P : ι → σ → Prop} (h : ∀ i, Triple (P i) m Q E) :
    Triple (fun s => ∃ i, P i s) m Q E := fun s ⟨i, hi⟩ => h i s hi

lemma forM {f : α → EStateM ε σ PUnit} {l : List α}
    (h : ∀ a ∈ l, Triple P (f a) (fun _ => P) E) : Triple P (l.forM f) (fun _ => P) E := by
  induction l with
  | nil => exact pure fun _ hs => hs
  | cons a l ih =>
    exact (h a mem_cons_self).bind fun _ => ih fun b hb => h b (mem_cons_of_mem _ hb)

lemma forIn {f : α → β → EStateM ε σ (ForInStep β)} {l : List α}
    (h : ∀ a ∈ l, ∀ b, Triple P (f a b) (fun _ => P) E) (b : β) :
    Triple P (ForIn.forIn l b f) (fun _ => P) E := by
  induction l generalizing b with
  | nil => exact pure fun _ hs => hs
  | cons a l ih =>
    rw [forIn_cons]
    refine (h a mem_cons_self b).bind fun r => ?_
    cases r with
    | done b => exact pure fun _ hs => hs
    | yield b => exact ih (fun x hx => h x (mem_cons_of_mem _ hx)) b

/-- A loop over a list, with an invariant that may depend on what is left. -/
lemma forM_rest {I : List α → σ → Prop} {f : α → EStateM ε σ PUnit}
    (h : ∀ a rest, Triple (I (a :: rest)) (f a) (fun _ => I rest) E) (l : List α) :
    Triple (I l) (l.forM f) (fun _ => I []) E := by
  induction l with
  | nil => exact pure fun _ hs => hs
  | cons a rest ih => exact (h a rest).bind fun _ => ih

/-- A loop that is never left early. -/
lemma forIn_rest {I : List α → σ → Prop} {f : α → PUnit → EStateM ε σ (ForInStep PUnit)}
    (h : ∀ a rest, Triple (I (a :: rest)) (f a ⟨⟩) (fun r s => r = .yield ⟨⟩ ∧ I rest s) E)
    (l : List α) : Triple (I l) (ForIn.forIn l PUnit.unit f) (fun _ => I []) E := by
  induction l with
  | nil => exact pure fun _ hs => hs
  | cons a rest ih =>
    rw [forIn_cons]
    exact (h a rest).bind fun r => of_imp fun hr => hr ▸ ih

end Triple

namespace Moves

variable {ε σ α β : Type} {R : σ → σ → Prop} {l : List α}

/-- What holds along a relation is kept by the steps that move along it. -/
lemma keeps {m : EStateM ε σ α} {I : σ → Prop} (h : Moves R m)
    (hI : ∀ {s s'}, R s s' → I s → I s') : Triple I m (fun _ => I) fun _ _ => True := by
  intro s hs
  cases hr : m s with
  | ok a t => exact hI (h hr) hs
  | error e t => trivial

/-! ### Loops -/

variable [IsPreorder σ R]

lemma since {m : EStateM ε σ α} (h : Moves R m) (s : σ) :
    Triple (R s) m (fun _ => R s) fun _ _ => True :=
  h.keeps fun hR hs => trans_of R hs hR

lemma forM {f : α → EStateM ε σ PUnit} (h : ∀ a ∈ l, Moves R (f a)) : Moves R (l.forM f) :=
  fun s _ _ => (Triple.forM fun a ha => (h a ha).since s).of_ok (refl_of R s)

lemma forIn {f : α → β → EStateM ε σ (ForInStep β)} (h : ∀ a ∈ l, ∀ b, Moves R (f a b)) (b : β) :
    Moves R (ForIn.forIn l b f) :=
  fun s _ _ => (Triple.forIn (fun a ha b => (h a ha b).since s) b).of_ok (refl_of R s)

/-- Every step of a loop that succeeds has succeeded. -/
lemma exists_of_forM {f : α → EStateM ε σ PUnit} (hf : ∀ a, Moves R (f a)) {s s' : σ}
    {u : PUnit} (h : l.forM f s = .ok u s') {a : α} (ha : a ∈ l) :
    ∃ t t' v, R s t ∧ f a t = .ok v t' ∧ R t' s' := by
  induction l generalizing s with
  | nil => cases ha
  | cons b l ih =>
    obtain ⟨v, t, hb, hl⟩ := bind_eq_ok.1 h
    obtain rfl | ha := mem_cons.1 ha
    · exact ⟨s, t, v, refl_of R s, hb, forM (fun a _ => hf a) hl⟩
    · obtain ⟨t₁, t₂, v', h₁, hstep, h₂⟩ := ih hl ha
      exact ⟨t₁, t₂, v', trans_of R (hf b hb) h₁, hstep, h₂⟩

end Moves

/-! ## Scheduling -/

namespace Emission

open Moves

variable {ε σ : Type} {w : Emission ε σ} {n : NodeId} {nodes rest order : List NodeId} {s t s' : σ}
  {passes k : Nat} {e : ε}

/-- Emitting a list of nodes one after the other, each of them new and ready at its turn. -/
inductive Runs (w : Emission ε σ) : List NodeId → σ → σ → Prop
  | nil {s : σ} : Runs w [] s s
  | cons {n : NodeId} {rest : List NodeId} {s t s' : σ} (hnew : w.isDone s n = false)
      (hready : w.isReady s n = true) (hemit : w.emit n s = .ok ⟨⟩ t) (hrest : Runs w rest t s') :
      Runs w (n :: rest) s s'

lemma Runs.append (h : w.Runs nodes s t) (h' : w.Runs order t s') :
    w.Runs (nodes ++ order) s s' := by
  induction h with
  | nil => exact h'
  | cons hnew hready hemit _ ih => exact .cons hnew hready hemit (ih h')

/-- Passes over nodes, which emit some of them in the given order and leave others. -/
inductive Leaves (w : Emission ε σ) : (nodes rest order : List NodeId) → σ → σ → Prop
  | nil {s : σ} : Leaves w [] [] [] s s
  | done {n : NodeId} {nodes rest order : List NodeId} {s s' : σ} (hdone : w.isDone s n = true)
      (h : Leaves w nodes rest order s s') : Leaves w (n :: nodes) rest order s s'
  | emit {n : NodeId} {nodes rest order : List NodeId} {s t s' : σ} (hnew : w.isDone s n = false)
      (hready : w.isReady s n = true) (hemit : w.emit n s = .ok ⟨⟩ t)
      (h : Leaves w nodes rest order t s') : Leaves w (n :: nodes) rest (n :: order) s s'
  | keep {n : NodeId} {nodes rest order : List NodeId} {s s' : σ}
      (h : Leaves w nodes rest order s s') : Leaves w (n :: nodes) (n :: rest) order s s'
  | append {nodes mid rest order later : List NodeId} {s t s' : σ}
      (h : Leaves w nodes mid order s t) (h' : Leaves w mid rest later t s') :
      Leaves w nodes rest (order ++ later) s s'

namespace Leaves

lemma runs (h : w.Leaves nodes rest order s s') : w.Runs order s s' := by
  induction h with
  | nil => exact .nil
  | done _ _ ih => exact ih
  | emit hnew hready hemit _ ih => exact .cons hnew hready hemit ih
  | keep _ ih => exact ih
  | append _ _ ih ih' => exact ih.append ih'

lemma sublist (h : w.Leaves nodes rest order s s') : rest <+ nodes := by
  induction h with
  | nil => exact .slnil
  | done _ _ ih => exact ih.cons _
  | emit _ _ _ _ ih => exact ih.cons _
  | keep _ ih => exact ih.cons_cons _
  | append _ _ ih ih' => exact ih'.trans ih

lemma subset (h : w.Leaves nodes rest order s s') : order ⊆ nodes := by
  induction h with
  | nil => exact nil_subset _
  | done _ _ ih => exact subset_cons_of_subset _ ih
  | emit _ _ _ _ ih => exact cons_subset_cons _ ih
  | keep _ ih => exact subset_cons_of_subset _ ih
  | append h _ ih ih' => exact append_subset.2 ⟨ih, fun _ hn => h.sublist.subset (ih' hn)⟩

end Leaves

/-- Some of the nodes were emitted one after the other, and emitting a further one failed. -/
def Fails (w : Emission ε σ) (nodes : List NodeId) (s : σ) (e : ε) (s' : σ) : Prop :=
  ∃ order t, ∃ n ∈ nodes, order ⊆ nodes ∧ w.Runs order s t ∧ w.isDone t n = false ∧
    w.isReady t n = true ∧ w.emit n t = .error e s'

lemma Fails.of_runs (h : w.Fails rest t e s') (hruns : w.Runs order s t) (horder : order ⊆ nodes)
    (hrest : rest ⊆ nodes) : w.Fails nodes s e s' := by
  obtain ⟨later, u, n, hn, hsub, hlater, hemit⟩ := h
  exact ⟨order ++ later, u, n, hrest hn, append_subset.2 ⟨horder, fun _ h => hrest (hsub h)⟩,
    hruns.append hlater, hemit⟩

lemma pass_cons (w : Emission ε σ) (n : NodeId) (rest : List NodeId) (s : σ) :
    w.pass (n :: rest) s = (if w.isDone s n then w.pass rest else
      if w.isReady s n then (do
        w.emit n
        let p ← w.pass rest
        return { p with progressed := true })
      else (do
        let p ← w.pass rest
        return { p with pending := n :: p.pending })) s := rfl

/-- A pass emits none of its nodes only if none is ready. -/
lemma pass_spec (w : Emission ε σ) (nodes : List NodeId) (s : σ) :
    (∃ p t order, w.pass nodes s = .ok p t ∧ w.Leaves nodes p.pending order s t ∧
      p.progressed = !order.isEmpty ∧ p.pending.length + order.length ≤ nodes.length ∧
      (order = [] → ∀ n ∈ p.pending, w.isDone s n = false ∧ w.isReady s n = false)) ∨
    ∃ e t, w.pass nodes s = .error e t ∧ w.Fails nodes s e t := by
  induction nodes generalizing s with
  | nil => exact .inl ⟨_, s, [], rfl, .nil, rfl, le_rfl, by simp⟩
  | cons n rest ih =>
    have hsub := subset_cons_self n rest
    rw [pass_cons]
    split_ifs with hdone hready
    · obtain ⟨p, t, order, hpass, h, hp, hlen, hnone⟩ | ⟨e, t, hpass, hfails⟩ := ih s
      · exact .inl ⟨p, t, order, hpass, h.done hdone, hp, hlen.trans (Nat.le_succ _), hnone⟩
      · exact .inr ⟨e, t, hpass, hfails.of_runs .nil (nil_subset _) hsub⟩
    · rw [Bool.not_eq_true] at hdone
      cases hemit : w.emit n s with
      | error e t =>
        exact .inr ⟨e, t, bind_eq_error.2 (.inl hemit), [], s, n, mem_cons_self, nil_subset _, .nil,
          hdone, hready, hemit⟩
      | ok _ u =>
        obtain ⟨p, t, order, hpass, h, _, hlen, _⟩ | ⟨e, t, hpass, hfails⟩ := ih u
        · exact .inl ⟨_, t, n :: order,
            bind_eq_ok.2 ⟨_, u, hemit, bind_eq_ok.2 ⟨_, t, hpass, rfl⟩⟩,
            h.emit hdone hready hemit, rfl, Nat.succ_le_succ hlen, by simp⟩
        · exact .inr ⟨e, t, bind_eq_error.2 (.inr ⟨_, u, hemit, bind_eq_error.2 (.inl hpass)⟩),
            hfails.of_runs (.cons hdone hready hemit .nil) (by simp) hsub⟩
    · rw [Bool.not_eq_true] at hdone hready
      obtain ⟨p, t, order, hpass, h, hp, hlen, hnone⟩ | ⟨e, t, hpass, hfails⟩ := ih s
      · exact .inl ⟨_, t, order, bind_eq_ok.2 ⟨_, t, hpass, rfl⟩, h.keep, hp,
          (Nat.succ_add _ _).trans_le (Nat.succ_le_succ hlen),
          fun ho => forall_mem_cons.2 ⟨⟨hdone, hready⟩, hnone ho⟩⟩
      · exact .inr ⟨e, t, bind_eq_error.2 (.inl hpass), hfails.of_runs .nil (nil_subset _) hsub⟩

/-- Scheduling goes on until nothing is left, until no node that is left is ready, or until emitting
one fails. -/
theorem run_spec (w : Emission ε σ) (nodes : List NodeId) (passes : Nat) (s : σ) :
    (∃ k t order, w.run nodes passes s = .ok k t ∧ w.Leaves nodes [] order s t) ∨
    (∃ rest t order, w.run nodes passes s = .error (w.stuck rest) t ∧
      w.Leaves nodes rest order s t ∧ rest ≠ [] ∧
      ∀ n ∈ rest, w.isDone t n = false ∧ w.isReady t n = false) ∨
    ∃ e t, w.run nodes passes s = .error e t ∧ w.Fails nodes s e t := by
  induction hlen : nodes.length using Nat.strong_induction_on generalizing nodes passes s with
  | _ len ih =>
    unfold run
    obtain ⟨p, t, order, hpass, h, hp, hlength, hnone⟩ | ⟨e, t, hpass, hfails⟩ := pass_spec w nodes s
    · rw [bind_of_ok hpass]
      split_ifs with hempty hmore
      · exact .inl ⟨_, t, order, rfl, isEmpty_iff.1 hempty ▸ h⟩
      · obtain ⟨k, u, later, hrun, h'⟩ | ⟨r, u, later, hrun, h', hr⟩ | ⟨e, u, hrun, hfails⟩ :=
          ih _ (hlen ▸ hmore.2) p.pending (passes + 1) t rfl
        · exact .inl ⟨k, u, _, hrun, h.append h'⟩
        · exact .inr (.inl ⟨r, u, _, hrun, h.append h', hr⟩)
        · exact .inr (.inr ⟨e, u, hrun, hfails.of_runs h.runs h.subset h.sublist.subset⟩)
      · obtain rfl : order = [] := by
          by_contra ho
          have := length_pos_of_ne_nil ho
          exact hmore ⟨by simpa [hp] using ho, by omega⟩
        have hruns := h.runs
        cases hruns
        exact .inr (.inl ⟨p.pending, s, [], rfl, h, by simpa using hempty, hnone rfl⟩)
    · exact .inr (.inr ⟨e, t, bind_eq_error.2 (.inl hpass), hfails⟩)

/-- A schedule that comes to an end leaves nothing. -/
lemma exists_leaves_of_run (h : w.run nodes passes s = .ok k s') :
    ∃ order, w.Leaves nodes [] order s s' := by
  obtain ⟨_, _, order, hrun, hl⟩ | ⟨_, _, _, hrun, _⟩ | ⟨_, _, hrun, _⟩ := run_spec w nodes passes s
  · cases hrun.symm.trans h
    exact ⟨order, hl⟩
  · cases hrun.symm.trans h
  · cases hrun.symm.trans h

lemma Runs.inv {P : σ → Prop} (h : w.Runs order s s')
    (hw : ∀ n ∈ order, ∀ s t, P s → w.isDone s n = false → w.isReady s n = true →
      w.emit n s = .ok ⟨⟩ t → P t) (hs : P s) : P s' := by
  induction h with
  | nil => exact hs
  | cons hnew hready hemit _ ih =>
    obtain ⟨hn, hrest⟩ := forall_mem_cons.1 hw
    exact ih hrest (hn _ _ hs hnew hready hemit)

/-- What the nodes keep one by one is kept by scheduling them. -/
lemma keeps_run {P : σ → Prop} {E : ε → σ → Prop} (hE : ∀ rest s, P s → E (w.stuck rest) s)
    (hw : ∀ n ∈ nodes, Triple P (w.emit n) (fun _ => P) E) (passes : Nat) :
    Triple P (w.run nodes passes) (fun _ => P) E := by
  intro s hs
  have hruns : ∀ {order t}, w.Runs order s t → order ⊆ nodes → P t := fun h hsub =>
    h.inv (fun n hn _ _ hs _ _ hemit => (hw n (hsub hn)).of_ok hs hemit) hs
  obtain ⟨_, _, _, hrun, h⟩ | ⟨_, _, _, hrun, h, _⟩ |
    ⟨_, _, hrun, _, _, n, hn, hsub, h, _, _, hemit⟩ := run_spec w nodes passes s
  · rw [hrun]
    exact hruns h.runs h.subset
  · rw [hrun]
    exact hE _ _ (hruns h.runs h.subset)
  · rw [hrun]
    exact (hw n hn).of_error (hruns h hsub) hemit

/-- What holds of the nodes one by one holds of scheduling them. -/
lemma moves_run {R : σ → σ → Prop} [IsPreorder σ R] (hw : ∀ n ∈ nodes, Moves R (w.emit n))
    (passes : Nat) : Moves R (w.run nodes passes) :=
  fun s _ _ => (keeps_run (fun _ _ _ => trivial) (fun n hn => (hw n hn).since s) passes).of_ok
    (refl_of R s)

/-- Nodes that are done stay done. -/
def Keeps (w : Emission ε σ) (s s' : σ) : Prop := ∀ m, w.isDone s m = true → w.isDone s' m = true

/-- If emitting marks a node and keeps the others, what is not left is done. -/
lemma Leaves.keeps {I : σ → Prop} (h : w.Leaves nodes rest order s s')
    (hw : ∀ n ∈ nodes, ∀ s t, I s → w.isDone s n = false → w.isReady s n = true →
      w.emit n s = .ok ⟨⟩ t → I t ∧ w.isDone t n = true ∧ w.Keeps s t) (hs : I s) :
    I s' ∧ w.Keeps s s' ∧ ∀ m ∈ nodes, m ∈ rest ∨ w.isDone s' m = true := by
  induction h with
  | nil => exact ⟨hs, fun _ h => h, by simp⟩
  | done hdone _ ih =>
    obtain ⟨hI, hk, hall⟩ := ih (forall_mem_cons.1 hw).2 hs
    exact ⟨hI, hk, forall_mem_cons.2 ⟨.inr (hk _ hdone), hall⟩⟩
  | emit hnew hready hemit _ ih =>
    obtain ⟨hn, hrest⟩ := forall_mem_cons.1 hw
    obtain ⟨ht, hmark, hkt⟩ := hn _ _ hs hnew hready hemit
    obtain ⟨hI, hk, hall⟩ := ih hrest ht
    exact ⟨hI, fun m hm => hk m (hkt m hm), forall_mem_cons.2 ⟨.inr (hk _ hmark), hall⟩⟩
  | keep _ ih =>
    obtain ⟨hI, hk, hall⟩ := ih (forall_mem_cons.1 hw).2 hs
    exact ⟨hI, hk, forall_mem_cons.2 ⟨.inl mem_cons_self,
      fun m hm => (hall m hm).imp_left (mem_cons_of_mem _)⟩⟩
  | append h _ ih ih' =>
    obtain ⟨ht, hk, hall⟩ := ih hw hs
    obtain ⟨hI, hk', hall'⟩ := ih' (fun n hn => hw n (h.sublist.subset hn)) ht
    exact ⟨hI, fun m hm => hk' m (hk m hm),
      fun m hm => (hall m hm).elim (hall' m) fun h => .inr (hk' m h)⟩

end Emission

end Shading
