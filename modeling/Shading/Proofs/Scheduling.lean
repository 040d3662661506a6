import Shading.Proofs.Postorder

/-!
# What scheduling achieves

Scheduling goes through a set of nodes again and again, and gives up when a pass emits nothing.  If
emitting never fails, it emits everything that can be emitted at all: the nodes that are done in the
end are the least set that contains those that were done before, and every node of the given set
whose sources it contains (`Emission.Due`).
-/

namespace Shading.Emission

open List Moves Network OrderedSet

variable {ε σ : Type} {w : Emission ε σ} {n m : NodeId} {nodes order : List NodeId} {s t s' : σ}
  {e : ε}

/-- The least set of nodes that contains the ones that are done, and each of the given ones whose
sources it contains. -/
inductive Due (w : Emission ε σ) (nodes : List NodeId) (s : σ) : NodeId → Prop
  | done {n : NodeId} (h : w.isDone s n = true) : Due w nodes s n
  | ready {n : NodeId} (hn : n ∈ nodes) (h : ∀ d ∈ w.sources n, Due w nodes s d) : Due w nodes s n

lemma Due.trans (h : w.Due nodes t m) (ht : ∀ n, w.isDone t n = true → w.Due nodes s n) :
    w.Due nodes s m := by
  induction h with
  | done h => exact ht _ h
  | ready hn _ ih => exact .ready hn ih

namespace Runs

lemma new (hw : w.Marks) (h : w.Runs order s s') (hn : n ∈ order) : w.isDone s n = false := by
  induction h with
  | nil => cases hn
  | @cons m rest s t s' hnew _ hemit _ ih =>
    obtain rfl | hn := mem_cons.1 hn
    · exact hnew
    · rw [← Bool.not_eq_true]
      intro hdone
      have := (hw m s t hemit n).2 (.inl hdone)
      rw [ih hn] at this
      cases this

lemma nodup (hw : w.Marks) (h : w.Runs order s s') : order.Nodup := by
  induction h with
  | nil => exact nodup_nil
  | @cons n rest s t s' _ _ hemit hrest ih =>
    refine nodup_cons.2 ⟨fun hn => ?_, ih⟩
    have := (hw n s t hemit n).2 (.inr rfl)
    rw [hrest.new hw hn] at this
    cases this

/-- What is done after some of the nodes have been emitted was due. -/
lemma due (hw : w.Marks) (h : w.Runs order s s') (hsub : order ⊆ nodes)
    (hm : w.isDone s' m = true) : w.Due nodes s m := by
  induction h with
  | nil => exact .done hm
  | @cons n rest s t s' _ hready hemit _ ih =>
    obtain ⟨hn, hsub⟩ := cons_subset.1 hsub
    refine (ih hsub hm).trans fun x hx => ?_
    obtain hx | rfl := (hw n s t hemit x).1 hx
    · exact .done hx
    · exact .ready hn fun d hd => .done (all_eq_true.1 hready d hd)

end Runs

/-- Some of the nodes are emitted one after the other, until none is ready that is not done. -/
structure Exhausts (w : Emission ε σ) (nodes order : List NodeId) (s s' : σ) : Prop where
  subset : order ⊆ nodes
  runs : w.Runs order s s'
  blocked : ∀ n ∈ nodes, w.isDone s' n = false → w.isReady s' n = false

lemma Exhausts.isDone_iff (hw : w.Marks) (h : w.Exhausts nodes order s s') :
    w.isDone s' m = true ↔ w.Due nodes s m := by
  refine ⟨h.runs.due hw h.subset, fun hm => ?_⟩
  induction hm with
  | done hm => exact (h.runs.isDone_iff hw).2 (.inl hm)
  | @ready n hn _ ih =>
    by_contra hdone
    have := h.blocked n hn (Bool.eq_false_of_not_eq_true hdone)
    rw [isReady, all_eq_true.2 ih] at this
    cases this

lemma Exhausts.mem_iff (hw : w.Marks) (h : w.Exhausts nodes order s s') :
    n ∈ order ↔ n ∈ nodes ∧ w.isDone s n = false ∧ w.Due nodes s n := by
  constructor
  · intro hn
    exact ⟨h.subset hn, h.runs.new hw hn, (h.isDone_iff hw).1 ((h.runs.isDone_iff hw).2 (.inr hn))⟩
  · rintro ⟨_, hnew, hdue⟩
    simpa [hnew] using (h.runs.isDone_iff hw).1 ((h.isDone_iff hw).2 hdue)

section

variable (hw : w.Marks) (htotal : ∀ n s, ∃ s', w.emit n s = .ok ⟨⟩ s')
include htotal

lemma not_fails : ¬ w.Fails nodes s e s' := by
  rintro ⟨_, t, n, _, _, _, _, _, hemit⟩
  obtain ⟨_, hok⟩ := htotal n t
  cases hok.symm.trans hemit

include hw

/-- Scheduling goes on until no node is ready, and fails if some of them are not done then.  Nodes that
can be emitted in the given order are emitted in one pass. -/
lemma exists_run (nodes : List NodeId) (passes : Nat) (s : σ) :
    ∃ order s', w.Exhausts nodes order s s' ∧
      ((∃ t, w.Runs nodes s t) → order = nodes ∧ w.run nodes passes s = .ok (passes + 1) s') ∧
      ((∀ n ∈ nodes, w.isDone s' n = true) ∧ (∃ k, w.run nodes passes s = .ok k s') ∨
        ∃ rest, rest ≠ [] ∧ rest <+ nodes ∧ (∀ n, n ∈ rest ↔ n ∈ nodes ∧ w.isDone s' n = false) ∧
          w.run nodes passes s = .error (w.stuck rest) s') := by
  by_cases hall : ∃ t, w.Runs nodes s t
  · obtain ⟨t, h⟩ := hall
    have hdone : ∀ n ∈ nodes, w.isDone t n = true := fun n hn => (h.isDone_iff hw).2 (.inr hn)
    exact ⟨nodes, t, ⟨Subset.refl _, h, fun n hn hnot => by simp [hdone n hn] at hnot⟩,
      fun _ => ⟨rfl, h.run passes⟩, .inl ⟨hdone, _, h.run passes⟩⟩
  obtain ⟨k, t, order, hrun, h⟩ | ⟨rest, t, order, hrun, h, hne, hwaits⟩ | ⟨_, _, _, hfails⟩ :=
    w.run_spec nodes passes s
  · have hdone : ∀ n ∈ nodes, w.isDone t n = true := fun n hn =>
      (h.mem_or_isDone hw hn).resolve_left not_mem_nil
    exact ⟨order, t, ⟨h.subset, h.runs, fun n hn hnot => by simp [hdone n hn] at hnot⟩,
      fun h => absurd h hall, .inl ⟨hdone, k, hrun⟩⟩
  · have hmem : ∀ n, n ∈ rest ↔ n ∈ nodes ∧ w.isDone t n = false := fun n =>
      ⟨fun hn => ⟨h.sublist.subset hn, (hwaits n hn).1⟩, fun hn =>
        (h.mem_or_isDone hw hn.1).resolve_right (by simp [hn.2])⟩
    exact ⟨order, t, ⟨h.subset, h.runs, fun n hn hnot => (hwaits n ((hmem n).2 ⟨hn, hnot⟩)).2⟩,
      fun h => absurd h hall, .inr ⟨rest, hne, h.sublist, hmem, hrun⟩⟩
  · exact absurd hfails (not_fails htotal)

end

/-- The dependencies of an input stand behind those of their sources that are not done. -/
lemma behind_dependencies_of_acyclic {net : Network} {skip : NodeId → Nat → Bool}
    {isDone : NodeId → Bool} {id : NodeId} {input : Nat} (hac : net.Acyclic)
    (hnodes : ∀ a b, net.Precedes a b → net.contains a = true) :
    Behind (fun n d => d ∈ net.sources skip n ∧ ¬ isDone d = true)
      (net.dependencies skip isDone .empty id input none).toList := by
  obtain ⟨rank, hrank⟩ := hac.exists_rank
  apply behind_dependencies
  · exact fun n d _ hd he => ⟨he, hrank (precedes_of_mem_sources hd)⟩
  · rintro n d - ⟨hd, hnew⟩
    have hprecedes := precedes_of_mem_sources hd
    have hlt : d < net.nodes.size := by
      by_contra hd
      have := hnodes d n hprecedes
      simp [Network.contains, node?, Array.getElem?_eq_none (not_lt.1 hd)] at this
    exact ⟨hd, ⟨hlt, Bool.eq_false_of_not_eq_true hnew, by simp, not_mem_empty d⟩, hrank hprecedes⟩
  · exact fun n hn => .inr hn
  · exact fun first _ hfirst => hfirst
  · exact .nil

/-- Scheduling a set of nodes, if emitting one marks this one and never fails, emits the nodes of the
set that are due and not done, each of them once and at a moment at which its sources are done.  It
succeeds if all nodes of the set are due, and otherwise names those that are not, in the order of the
set.  The dependencies of an input in a network without circles are emitted in one pass, in the order
in which they were collected. -/
theorem schedule_exact (net : Network) (skip : NodeId → Nat → Bool)
    (hsources : w.sources = net.sources skip) (hw : w.Marks)
    (htotal : ∀ n s, ∃ s', w.emit n s = .ok ⟨⟩ s') (nodes : NodeSet) (s : σ) :
    ∃ order s', w.Runs order s s' ∧ order.Nodup ∧
      (∀ n, n ∈ order ↔ n ∈ nodes ∧ w.isDone s n = false ∧ w.Due nodes.toList s n) ∧
      ((∃ passes, w.schedule nodes s = .ok passes s') ↔ ∀ n ∈ nodes, w.Due nodes.toList s n) ∧
      ((¬ ∀ n ∈ nodes, w.Due nodes.toList s n) → ∃ remaining, remaining <+ nodes.toList ∧
        (∀ n, n ∈ remaining ↔ n ∈ nodes ∧ ¬ w.Due nodes.toList s n) ∧
        w.schedule nodes s = .error (w.stuck remaining) s') ∧
      (net.Acyclic → (∀ a b, net.Precedes a b → net.contains a = true) → ∀ id input,
        nodes = net.dependencies skip (w.isDone s) .empty id input none →
          order = nodes.toList ∧ w.schedule nodes s = .ok 1 s') := by
  obtain ⟨order, s', hex, hone, hrun⟩ := exists_run hw htotal nodes.toList 0 s
  have hdue : (∀ n ∈ nodes, w.Due nodes.toList s n) ↔
      ∀ n ∈ nodes.toList, w.isDone s' n = true := by
    simp only [hex.isDone_iff hw, mem_def]
  refine ⟨order, s', hex.runs, hex.runs.nodup hw, fun n => hex.mem_iff hw, ?_, fun h => ?_,
    fun hac hnodes id input h => hone ?_⟩
  · rw [hdue]
    obtain ⟨hdone, hk⟩ | ⟨rest, hne, _, hmem, herr⟩ := hrun
    · exact ⟨fun _ => hdone, fun _ => hk⟩
    · refine ⟨fun ⟨k, hk⟩ => ?_, fun hdone => ?_⟩
      · cases hk.symm.trans herr
      obtain ⟨n, hn⟩ := exists_mem_of_ne_nil _ hne
      obtain ⟨hn, hnot⟩ := (hmem n).1 hn
      simp [hdone n hn] at hnot
  · obtain ⟨hdone, _⟩ | ⟨rest, _, hsub, hmem, herr⟩ := hrun
    · exact absurd (hdue.2 hdone) h
    · refine ⟨rest, hsub, fun n => ?_, herr⟩
      rw [hmem, ← hex.isDone_iff hw, Bool.not_eq_true]
      rfl
  · have hnew : ∀ n ∈ nodes.toList, ¬ w.isDone s n = true := by
      intro n hn
      rw [h] at hn
      obtain ⟨_, _, way⟩ := (mem_dependencies.1 hn).resolve_left (not_mem_empty n)
      simp [way.right.2.1]
    have hbehind : Behind (fun n d => d ∈ w.sources n ∧ ¬ w.isDone s d = true)
        ([] ++ nodes.toList) := by
      rw [hsources, h]
      exact behind_dependencies_of_acyclic hac hnodes
    obtain ⟨p, t, _, hpass, _⟩ | ⟨_, _, _, hfails⟩ := w.pass_spec nodes.toList s
    · exact ⟨t, runs_of_pass hw hnew (by simp) hbehind nodes.nodup hpass⟩
    · exact absurd hfails (not_fails htotal)

/-- Writes down the nodes of a network as they come. -/
def listing (net : Network) : Emission (List NodeId) (List NodeId) where
  sources := net.sources fun _ _ => false
  isDone s n := decide (n ∈ s)
  emit n := modify (· ++ [n])
  stuck := id

theorem schedule_exact_chain : ∃ s', (listing chain).schedule ⟨[0, 1], by decide⟩ [] = .ok 1 s' ∧
    (listing chain).Runs [0, 1] [] s' := by
  have hw : (listing chain).Marks := by
    intro n s s' h m
    cases h
    simp [listing]
  have hnodes : ∀ a b, chain.Precedes a b → chain.contains a = true := by
    rintro a b ⟨l, hl, rfl, rfl⟩
    revert l
    decide
  have hset : (⟨[0, 1], by decide⟩ : NodeSet) =
      chain.dependencies (fun _ _ => false) ((listing chain).isDone []) .empty 2 0 none := by
    rw [OrderedSet.mk.injEq]
    decide +kernel
  obtain ⟨order, s', hruns, _, _, _, _, h⟩ := schedule_exact chain (fun _ _ => false) rfl hw
    (fun _ _ => ⟨_, rfl⟩) ⟨[0, 1], by decide⟩ []
  obtain ⟨rfl, hok⟩ := h acyclic_chain hnodes 2 0 hset
  exact ⟨s', hok, hruns⟩

end Shading.Emission
