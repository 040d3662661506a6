import Shading.Proofs.Weighing
import Mathlib.Algebra.BigOperators.Finprod

/-!
# Paths through mixes and sums of closures

A closure path starts at a closure that feeds a terminal and goes down through mixes and sums, from
a side of each to what feeds that side.  It is recorded as the list of the sides taken.  A closure
that several sides share has several paths, in general exponentially many.

In a valid network there are finitely many paths between two nodes, none of them longer than there
are nodes.  The weight of a path is the product of what its sides contribute: a mix gives its
factor to the second side and the rest to the first, a sum gives one to both.  `pathSum` adds the
weights up; `pathSum_combine` is its recursion, one equation for each mix or sum.
-/

namespace Shading

/-- One of the two sides of a mix or a sum. -/
inductive Side where
  | first | second
  deriving DecidableEq

def Side.input : Side → String
  | .first => "Closure1"
  | .second => "Closure2"

def Side.choose {α : Type} (first second : α) : Side → α
  | .first => first
  | .second => second

/-- The exact number that a 32-bit pattern stands for; patterns of infinity and of undefined
numbers are read as if their exponent were a common one. -/
def exactValue (x : Float32) : ℚ :=
  let bits := x.toBits.toNat
  let sign : ℚ := if bits / 2 ^ 31 = 0 then 1 else -1
  let exponent := bits / 2 ^ 23 % 2 ^ 8
  let fraction := bits % 2 ^ 23
  if exponent = 0 then sign * (fraction : ℕ) / 2 ^ 149
  else sign * (2 ^ 23 + (fraction : ℕ)) * 2 ^ exponent / 2 ^ 150

@[simp] lemma exactValue_zero : exactValue 0 = 0 := by
  have : (0 : Float32).toBits.toNat = 0 := by decide
  simp [exactValue, this]

@[simp] lemma exactValue_one : exactValue 1 = 1 := by
  have : (1 : Float32).toBits.toNat = 0x3f800000 := by decide
  norm_num [exactValue, this]

namespace Network

variable {net net' : Network} {rank : NodeId → Nat} {id x m : NodeId} {k : NodeKind}
  {p : List (NodeId × Side)} {s : NodeId × Nat} {name : String} {side : Side}

/-! ## Paths -/

/-- Going down from a node through mixes and sums, with the sides taken. -/
inductive ClosurePath (net : Network) : NodeId → List (NodeId × Side) → NodeId → Prop
  | here (id : NodeId) : ClosurePath net id [] id
  | step {id source x : NodeId} {k : NodeKind} {side : Side} {output : Nat}
      {p : List (NodeId × Side)} (hk : net.kind? id = some k) (hc : k.special = .combineClosure)
      (hl : net.inputLinkByName? id side.input = some (source, output))
      (rest : ClosurePath net source p x) : ClosurePath net id ((id, side) :: p) x

namespace ClosurePath

lemma nil_iff : net.ClosurePath id [] x ↔ id = x := by
  constructor
  · intro h
    cases h
    rfl
  · rintro rfl
    exact .here _

lemma cons_iff : net.ClosurePath id ((m, side) :: p) x ↔ m = id ∧
      (∃ k, net.kind? id = some k ∧ k.special = .combineClosure) ∧
      ∃ source output, net.inputLinkByName? id side.input = some (source, output) ∧
        net.ClosurePath source p x := by
  constructor
  · intro h
    cases h with
    | step hk hc hl rest => exact ⟨rfl, ⟨_, hk, hc⟩, _, _, hl, rest⟩
  · rintro ⟨rfl, ⟨k, hk, hc⟩, source, output, hl, rest⟩
    exact .step hk hc hl rest

lemma append {y : NodeId} {q : List (NodeId × Side)} (h : net.ClosurePath id p x)
    (h' : net.ClosurePath x q y) : net.ClosurePath id (p ++ q) y := by
  induction h with
  | here => exact h'
  | step hk hc hl _ ih => exact .step hk hc hl (ih h')

/-- Only mixes and sums have paths to other nodes. -/
lemma eq_nil (hk : net.kind? id = some k) (hc : k.special ≠ .combineClosure)
    (h : net.ClosurePath id p x) : p = [] ∧ id = x := by
  cases h with
  | here => exact ⟨rfl, rfl⟩
  | step hk' hc' _ _ =>
    rw [hk] at hk'
    cases hk'
    exact absurd hc' hc

/-- The rest of a path after one of its sides. -/
lemma of_mem (h : net.ClosurePath id p x) (hm : (m, side) ∈ p) :
    ∃ source output q, net.inputLinkByName? m side.input = some (source, output) ∧
      net.ClosurePath source q x ∧ q ⊆ p := by
  induction h with
  | here => cases hm
  | @step id source x k side' output p hk hc hl rest ih =>
    obtain e | hm := List.mem_cons.1 hm
    · cases e
      exact ⟨source, output, p, hl, rest, List.subset_cons_self _ _⟩
    · obtain ⟨source', output', q, hl', hq, hsub⟩ := ih hm
      exact ⟨source', output', q, hl', hq, List.subset_cons_of_subset _ hsub⟩

end ClosurePath

lemma feeds_of_inputLinkByName?
    (hl : net.inputLinkByName? id name = some s) : ∃ i, net.Feeds s (id, i) := by
  obtain ⟨node, _, hl⟩ := Option.bind_eq_some_iff.1 hl
  obtain ⟨i, _, hl⟩ := Option.bind_eq_some_iff.1 hl
  exact ⟨i, feeds_of_inputLink? hl⟩

lemma Valid.kind?_of_inputLinkByName? (h : net.Valid)
    (hl : net.inputLinkByName? id name = some s) : ∃ k, net.kind? s.1 = some k := by
  obtain ⟨i, hf⟩ := feeds_of_inputLinkByName? hl
  exact (h.joins hf).source

/-- The nodes of a path are different, since the rank falls. -/
lemma ValidBy.nodup_path (h : net.ValidBy rank) (hp : net.ClosurePath id p x) :
    (p.map Prod.fst).Nodup ∧ ∀ m ∈ p.map Prod.fst, m ∈ net.ids ∧ rank m ≤ rank id := by
  induction hp with
  | here => simp
  | @step id source x k side output p hk _ hl rest ih =>
    obtain ⟨i, hf⟩ := feeds_of_inputLinkByName? hl
    have hlt : rank source < rank id := h.ranked hf
    obtain ⟨node, hn, _⟩ := kind?_eq_some_iff.1 hk
    rw [List.map_cons, List.nodup_cons]
    refine ⟨⟨fun hm => ?_, ih.1⟩, fun m hm => ?_⟩
    · have := (ih.2 id hm).2
      omega
    · obtain rfl | hm := List.mem_cons.1 hm
      · exact ⟨mem_ids.2 ⟨node, hn⟩, le_rfl⟩
      · exact ⟨(ih.2 m hm).1, ((ih.2 m hm).2.trans_lt hlt).le⟩

/-- No path is longer than there are nodes. -/
lemma Valid.length_path_le (h : net.Valid) (hp : net.ClosurePath id p x) :
    p.length ≤ net.nodeCount := by
  obtain ⟨rank, h⟩ := h
  obtain ⟨hnd, hmem⟩ := h.nodup_path hp
  have hsub : p.map Prod.fst ⊆ net.ids := fun m hm => (hmem m hm).1
  simpa [nodeCount] using hnd.subperm hsub |>.length_le

/-- Between two nodes there are finitely many paths. -/
lemma Valid.finite_paths (h : net.Valid) (id x : NodeId) : {p | net.ClosurePath id p x}.Finite := by
  obtain ⟨rank, h⟩ := h
  induction hr : rank id using Nat.strong_induction_on generalizing id with
  | _ r ih =>
    have hside : ∀ side : Side, {p | ∃ source output,
        net.inputLinkByName? id side.input = some (source, output) ∧
          net.ClosurePath source p x}.Finite := by
      intro side
      cases hl : net.inputLinkByName? id side.input with
      | none => simp
      | some s =>
        obtain ⟨i, hf⟩ := feeds_of_inputLinkByName? hl
        refine (ih _ (hr ▸ h.ranked hf) s.1 rfl).subset ?_
        rintro p ⟨source, output, e, hp⟩
        cases e
        exact hp
    refine ((Set.finite_singleton []).union (((hside .first).image ((id, .first) :: ·)).union
      ((hside .second).image ((id, .second) :: ·)))).subset ?_
    rintro p hp
    cases hp with
    | here => exact .inl rfl
    | @step _ source _ _ side output rest _ _ hl hrest =>
      cases side with
      | first => exact .inr (.inl ⟨rest, ⟨source, output, hl, hrest⟩, rfl⟩)
      | second => exact .inr (.inr ⟨rest, ⟨source, output, hl, hrest⟩, rfl⟩)

/-! ## Weights of paths -/

/-- The factor that a mix, or the node that splits a weight for it, works with: a given value for
the output that feeds it, or else the number that its input holds. -/
def factor (net : Network) (env : NodeId × Nat → ℚ) (id : NodeId) : ℚ :=
  match net.inputLinkByName? id "Fac" with
  | some source => env source
  | none => exactValue (((net.node? id).map fun node => node.float "Fac").getD 0)

/-- What one side of a mix or a sum contributes. -/
def sideWeight (net : Network) (env : NodeId × Nat → ℚ) (turn : NodeId × Side) : ℚ :=
  match net.kind? turn.1, turn.2 with
  | some .mixClosure, .first => 1 - net.factor env turn.1
  | some .mixClosure, .second => net.factor env turn.1
  | _, _ => 1

/-- The product of what the sides of a path contribute. -/
def pathWeight (net : Network) (env : NodeId × Nat → ℚ) (p : List (NodeId × Side)) : ℚ :=
  (p.map (net.sideWeight env)).prod

/-- The sum of the weights of all paths from one node to another. -/
noncomputable def pathSum (net : Network) (env : NodeId × Nat → ℚ) (id x : NodeId) : ℚ :=
  ∑ᶠ p ∈ {p | net.ClosurePath id p x}, net.pathWeight env p

/-- The sum over the paths from what feeds an input. -/
noncomputable def terminalSum (base : Network) (env : NodeId × Nat → ℚ) (output : NodeId)
    (terminal : String) (x : NodeId) : ℚ :=
  match base.inputLinkByName? output terminal with
  | some (root, _) => base.pathSum env root x
  | none => 0

/-- What one side contributes to the sum. -/
noncomputable def branchSum (net : Network) (env : NodeId × Nat → ℚ) (id x : NodeId)
    (side : Side) : ℚ :=
  net.sideWeight env (id, side) * net.terminalSum env id side.input x

variable {env : NodeId × Nat → ℚ}

/-- A closure that combines no others is reached from itself only. -/
lemma pathSum_leaf (hk : net.kind? id = some k) (hc : k.special ≠ .combineClosure) :
    net.pathSum env id x = if id = x then 1 else 0 := by
  have hset : {p | net.ClosurePath id p x} = if id = x then {[]} else ∅ := by
    ext p
    split
    · rename_i e
      subst e
      exact ⟨fun hp => (ClosurePath.eq_nil hk hc hp).1, fun hp => hp ▸ .here _⟩
    · rename_i e
      exact ⟨fun hp => absurd (ClosurePath.eq_nil hk hc hp).2 e, fun hp => hp.elim⟩
  rw [pathSum, hset]
  split
  · rw [finsum_mem_singleton]
    rfl
  · rw [finsum_mem_empty]

/-- The paths through one side of a mix or a sum. -/
lemma Valid.finsum_side (h : net.Valid) (hk : net.kind? id = some k)
    (hc : k.special = .combineClosure) (env : NodeId × Nat → ℚ) (x : NodeId) (side : Side) :
    {p | ∃ rest, p = (id, side) :: rest ∧ net.ClosurePath id p x}.Finite ∧
      ∑ᶠ p ∈ {p | ∃ rest, p = (id, side) :: rest ∧ net.ClosurePath id p x},
        net.pathWeight env p = net.branchSum env id x side := by
  refine ⟨(h.finite_paths id x).subset fun p hp => hp.choose_spec.2, ?_⟩
  unfold branchSum terminalSum
  cases hl : net.inputLinkByName? id side.input with
  | none =>
    have hset : {p | ∃ rest, p = (id, side) :: rest ∧ net.ClosurePath id p x} = ∅ := by
      ext p
      refine ⟨?_, fun hp => hp.elim⟩
      rintro ⟨rest, rfl, hp⟩
      obtain ⟨_, _, source, output, hl', _⟩ := ClosurePath.cons_iff.1 hp
      rw [hl] at hl'
      cases hl'
    rw [hset, finsum_mem_empty, mul_zero]
  | some s =>
    have hset : {p | ∃ rest, p = (id, side) :: rest ∧ net.ClosurePath id p x} =
        ((id, side) :: ·) '' {p | net.ClosurePath s.1 p x} := by
      ext p
      constructor
      · rintro ⟨rest, rfl, hp⟩
        obtain ⟨_, _, source, output, hl', hrest⟩ := ClosurePath.cons_iff.1 hp
        rw [hl] at hl'
        cases hl'
        exact ⟨rest, hrest, rfl⟩
      · rintro ⟨rest, hrest, rfl⟩
        exact ⟨rest, rfl, .step hk hc hl hrest⟩
    dsimp only
    rw [hset, finsum_mem_image (fun a _ b _ e => (List.cons.inj e).2), pathSum, mul_finsum_mem]
    rfl

/-- What reaches a closure through a mix or a sum comes through one of its sides. -/
lemma Valid.pathSum_combine (h : net.Valid) (hk : net.kind? id = some k)
    (hc : k.special = .combineClosure) (hx : id ≠ x) :
    net.pathSum env id x = net.branchSum env id x .first + net.branchSum env id x .second := by
  have hset : {p | net.ClosurePath id p x} =
      {p | ∃ rest, p = (id, .first) :: rest ∧ net.ClosurePath id p x} ∪
        {p | ∃ rest, p = (id, .second) :: rest ∧ net.ClosurePath id p x} := by
    ext p
    constructor
    · intro hp
      cases hp with
      | here => exact absurd rfl hx
      | @step _ _ _ _ side _ rest hk' hc' hl hrest =>
        cases side with
        | first => exact .inl ⟨rest, rfl, .step hk' hc' hl hrest⟩
        | second => exact .inr ⟨rest, rfl, .step hk' hc' hl hrest⟩
    · rintro (⟨_, _, hp⟩ | ⟨_, _, hp⟩) <;> exact hp
  have hdisj : Disjoint {p | ∃ rest, p = (id, Side.first) :: rest ∧ net.ClosurePath id p x}
      {p | ∃ rest, p = (id, Side.second) :: rest ∧ net.ClosurePath id p x} := by
    rw [Set.disjoint_left]
    rintro p ⟨rest, rfl, _⟩ ⟨rest', e, _⟩
    cases e
  obtain ⟨hf₁, hs₁⟩ := h.finsum_side hk hc env x .first
  obtain ⟨hf₂, hs₂⟩ := h.finsum_side hk hc env x .second
  rw [pathSum, hset, finsum_mem_union hdisj hf₁ hf₂, hs₁, hs₂]

end Network

end Shading
