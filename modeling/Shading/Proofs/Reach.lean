import Mathlib.Tactic
import Shading.Walk.Dependencies

/-!
# What a depth-first search finds

Two searches walk networks: `reachable`, behind cycle checks and the removal of nodes without
influence, and `postorder`, behind the collection of dependencies.  Both strike a node from a list
of fresh ones when they enter it, so neither result says by itself what was found.

`Way next P a b` is the relation they are measured against: steps of `next` lead from `a` to `b`
and every node on the way, both ends included, satisfies `P`.  The main statements are
`mem_reachable` and `mem_dependencies`: a node is found exactly if there is a way to it through
nodes that were fresh when the search began.
-/

namespace Shading

open List Shading.Frame

/-- Steps of `next` lead from one node to another, through nodes that satisfy `P`. -/
inductive Way (next : NodeId → List NodeId) (P : NodeId → Prop) : NodeId → NodeId → Prop
  | here {a : NodeId} (ha : P a) : Way next P a a
  | step {a b c : NodeId} (ha : P a) (hab : b ∈ next a) (w : Way next P b c) : Way next P a c

namespace Way

variable {next : NodeId → List NodeId} {P Q : NodeId → Prop} {a b c n : NodeId}
  {start : List NodeId}

lemma left (w : Way next P a b) : P a := by
  cases w with
  | here ha => exact ha
  | step ha _ _ => exact ha

lemma right (w : Way next P a b) : P b := by
  induction w with
  | here ha => exact ha
  | step _ _ _ ih => exact ih

lemma mono (h : ∀ x, P x → Q x) (w : Way next P a b) : Way next Q a b := by
  induction w with
  | here ha => exact .here (h _ ha)
  | step ha hab _ ih => exact .step (h _ ha) hab ih

lemma trans (w : Way next P a b) (v : Way next P b c) : Way next P a c := by
  induction w with
  | here _ => exact v
  | step ha hab _ ih => exact .step ha hab (ih v)

lemma snoc (w : Way next P a b) (hbc : c ∈ next b) (hc : P c) : Way next P a c :=
  w.trans (.step w.right hbc (.here hc))

/-- A way that keeps to `Q` as long as it can: either all of it does, or it leaves `Q` somewhere.
Stated for one node `n` that is struck: the rest of a way after its last visit to `n` avoids `n`. -/
lemma avoid (n : NodeId) (w : Way next P a c) :
    c = n ∨ (∃ y ∈ next n, Way next (fun x => P x ∧ x ≠ n) y c) ∨
      Way next (fun x => P x ∧ x ≠ n) a c := by
  induction w with
  | @here a ha =>
    by_cases h : a = n
    · exact .inl h
    · exact .inr (.inr (.here ⟨ha, h⟩))
  | @step a b c ha hab _ ih =>
    obtain h | h | h := ih
    · exact .inl h
    · exact .inr (.inl h)
    · by_cases hn : a = n
      · exact .inr (.inl ⟨b, hn ▸ hab, h⟩)
      · exact .inr (.inr (.step ⟨ha, hn⟩ hab h))

/-- Entering a fresh node: what can be reached from it or from elsewhere is the node itself and
what can be reached without it from its neighbours or from elsewhere. -/
lemma enter_iff (hn : P n) : (∃ x ∈ n :: start, Way next P x c) ↔
      c = n ∨ ∃ x ∈ next n ++ start, Way next (fun y => P y ∧ y ≠ n) x c := by
  constructor
  · rintro ⟨x, hx, w⟩
    obtain h | ⟨y, hy, h⟩ | h := w.avoid n
    · exact .inl h
    · exact .inr ⟨y, mem_append_left _ hy, h⟩
    · obtain rfl | hx := mem_cons.1 hx
      · exact absurd rfl h.left.2
      · exact .inr ⟨x, mem_append_right _ hx, h⟩
  · rintro (rfl | ⟨x, hx, w⟩)
    · exact ⟨c, mem_cons_self, .here hn⟩
    · have w := w.mono fun _ h => h.1
      obtain hx | hx := mem_append.1 hx
      · exact ⟨n, mem_cons_self, .step hn hx w⟩
      · exact ⟨x, mem_cons_of_mem _ hx, w⟩

/-- A node that is not fresh is not entered. -/
lemma pass_iff (hn : ¬ P n) : (∃ x ∈ n :: start, Way next P x c) ↔ ∃ x ∈ start, Way next P x c := by
  constructor
  · rintro ⟨x, hx, w⟩
    obtain rfl | hx := mem_cons.1 hx
    · exact absurd w.left hn
    · exact ⟨x, hx, w⟩
  · rintro ⟨x, hx, w⟩
    exact ⟨x, mem_cons_of_mem _ hx, w⟩

lemma congr_iff (h : ∀ x, P x ↔ Q x) : Way next P a b ↔ Way next Q a b :=
  ⟨mono fun x => (h x).1, mono fun x => (h x).2⟩

end Way

lemma mem_erase_iff {fresh : List NodeId} (hf : fresh.Nodup) {n x : NodeId} :
    x ∈ fresh.erase n ↔ x ∈ fresh ∧ x ≠ n := by
  rw [hf.mem_erase_iff, and_comm]

/-! ## Preorder -/

variable {c : NodeId}

/-- A search finds what can be reached through fresh nodes. -/
theorem mem_reachable {next : NodeId → List NodeId} {fresh work : List NodeId}
    (hf : fresh.Nodup) :
    c ∈ reachable next fresh work ↔ ∃ x ∈ work, Way next (· ∈ fresh) x c := by
  induction fresh, work using reachable.induct next with
  | case1 fresh => simp [reachable]
  | case2 fresh id work hid ih =>
    rw [reachable, if_pos hid, mem_cons, ih (hf.erase id), Way.enter_iff hid]
    simp only [Way.congr_iff fun _ => mem_erase_iff hf]
  | case3 fresh id work hid ih =>
    rw [reachable, if_neg hid, ih hf, Way.pass_iff hid]

/-! ## Postorder -/

/-- The nodes that the frames of a path have not looked at yet. -/
def Frame.pending (path : List Frame) : List NodeId := path.flatMap Prod.snd

@[simp] lemma Frame.pending_cons (id : NodeId) (rest : List NodeId) (path : List Frame) :
    pending ((id, rest) :: path) = rest ++ pending path := rfl

lemma mem_postorder {sources : NodeId → List NodeId} {fresh : List NodeId} {path : List Frame}
    {found : NodeSet} (hf : fresh.Nodup) :
    c ∈ postorder sources fresh path found ↔
      c ∈ found ∨ c ∈ path.map Prod.fst ∨ ∃ x ∈ pending path, Way sources (· ∈ fresh) x c := by
  induction fresh, path, found using postorder.induct sources with
  | case1 fresh found => simp [postorder, pending]
  | case2 fresh found id path ih =>
    rw [postorder, ih hf, OrderedSet.mem_insert, pending_cons, nil_append,
      map_cons, mem_cons, or_assoc, or_assoc]
  | case3 fresh found id next rest path hn ih =>
    rw [postorder, if_pos hn, ih (hf.erase next)]
    simp only [pending_cons, Way.congr_iff fun _ => mem_erase_iff hf]
    rw [cons_append, Way.enter_iff hn]
    simp only [map_cons, mem_cons]
    generalize (∃ x ∈ sources next ++ (rest ++ pending path), _) = later
    tauto
  | case4 fresh found id next rest path hn ih =>
    rw [postorder, if_neg hn, ih hf]
    simp only [pending_cons]
    rw [cons_append, Way.pass_iff hn, map_cons, map_cons]

namespace Network

variable {net : Network} {skip : NodeId → Nat → Bool} {isDone : NodeId → Bool} {found : NodeSet}
  {id n : NodeId} {input : Nat} {avoid : Option NodeId}

/-- A link leads from one node to the other. -/
def Precedes (net : Network) (a b : NodeId) : Prop :=
  ∃ l ∈ net.links, l.2.source = a ∧ l.2.target = b

/-- Links never lead in a circle. -/
def Acyclic (net : Network) : Prop := ∀ n, ¬ Relation.TransGen net.Precedes n n

/-- Steps along which a rank grows do not lead in a circle. -/
lemma not_transGen_self {r : NodeId → NodeId → Prop} (rank : NodeId → Nat)
    (h : ∀ a b, r a b → rank a < rank b) (n : NodeId) : ¬ Relation.TransGen r n n := by
  intro hn
  have hlt : Relation.TransGen (· < ·) (rank n) (rank n) := hn.lift rank h
  rw [Relation.transGen_eq_self] at hlt
  exact lt_irrefl _ hlt

lemma acyclic_of_rank {rank : NodeId → Nat}
    (h : ∀ l ∈ net.links, rank l.2.source < rank l.2.target) : net.Acyclic := by
  refine not_transGen_self rank fun a b hab => ?_
  obtain ⟨l, hl, rfl, rfl⟩ := hab
  exact h l hl

/-- Without circles, nodes are ranked by how many nodes lead to them. -/
lemma Acyclic.exists_rank (h : net.Acyclic) :
    ∃ rank : NodeId → Nat, ∀ {a b}, net.Precedes a b → rank a < rank b := by
  classical
  let above n := {m ∈ (net.links.map fun l => l.2.source).toFinset |
    Relation.TransGen net.Precedes m n}
  refine ⟨fun n => (above n).card, fun {a b} hab => Finset.card_lt_card ?_⟩
  have hsource : a ∈ (net.links.map fun l => l.2.source).toFinset := by
    obtain ⟨l, hl, rfl, _⟩ := hab
    exact mem_toFinset.2 (mem_map_of_mem hl)
  refine (Finset.ssubset_iff_of_subset fun m hm => ?_).2
    ⟨a, Finset.mem_filter.2 ⟨hsource, .single hab⟩, fun ha => h a (Finset.mem_filter.1 ha).2⟩
  obtain ⟨hm, hma⟩ := Finset.mem_filter.1 hm
  exact Finset.mem_filter.2 ⟨hm, hma.tail hab⟩

/-- The node that feeds an input, unless the input is skipped. -/
def source? (net : Network) (skip : NodeId → Nat → Bool) (id : NodeId) (input : Nat) :
    Option NodeId :=
  if skip id input then none else (net.inputLink? id input).map Prod.fst

lemma source?_eq_some_iff : net.source? skip id input = some n ↔
    skip id input = false ∧ ∃ output, net.inputLink? id input = some (n, output) := by
  cases hs : skip id input <;> simp [source?, hs]

/-- The nodes that a search for dependencies may enter. -/
def Enterable (net : Network) (isDone : NodeId → Bool) (found : NodeSet) (avoid : Option NodeId)
    (n : NodeId) : Prop :=
  n < net.nodes.size ∧ isDone n = false ∧ some n ≠ avoid ∧ n ∉ found

/-- The nodes from which a search for dependencies chooses. -/
def fresh (net : Network) (isDone : NodeId → Bool) (found : NodeSet) (avoid : Option NodeId) :
    List NodeId :=
  (range net.nodes.size).filter fun n => !isDone n && some n != avoid && !found.contains n

lemma nodup_fresh : (net.fresh isDone found avoid).Nodup := nodup_range.filter _

lemma mem_fresh : n ∈ net.fresh isDone found avoid ↔ net.Enterable isDone found avoid n := by
  simp [fresh, Enterable, OrderedSet.contains, and_assoc]

lemma dependencies_eq : net.dependencies skip isDone found id input avoid =
    (net.source? skip id input).elim found fun first =>
      if first ∈ net.fresh isDone found avoid then
        postorder (net.sources skip) ((net.fresh isDone found avoid).erase first)
          [(first, net.sources skip first)] found
      else found := by
  unfold dependencies source?
  split
  · rfl
  · cases net.inputLink? id input <;> rfl

/-- An input depends on what can be reached from it through nodes that are not done, not found
before and not avoided. -/
theorem mem_dependencies : c ∈ net.dependencies skip isDone found id input avoid ↔
      c ∈ found ∨ ∃ first, net.source? skip id input = some first ∧
        Way (net.sources skip) (net.Enterable isDone found avoid) first c := by
  rw [dependencies_eq]
  cases net.source? skip id input with
  | none => simp
  | some first =>
    simp only [Option.elim_some, Option.some.injEq, exists_eq_left',
      ← Way.congr_iff fun _ => mem_fresh]
    have hnd : (net.fresh isDone found avoid).Nodup := nodup_fresh
    set fresh := net.fresh isDone found avoid
    by_cases hfirst : first ∈ fresh
    · have key : (∃ x ∈ [first], Way (net.sources skip) (· ∈ fresh) x c) ↔ c = first ∨
          ∃ x ∈ net.sources skip first ++ [],
            Way (net.sources skip) (fun y => y ∈ fresh ∧ y ≠ first) x c := Way.enter_iff hfirst
      simp only [mem_singleton, exists_eq_left, append_nil] at key
      rw [if_pos hfirst, mem_postorder (hnd.erase first)]
      simp only [Way.congr_iff fun _ => mem_erase_iff hnd, pending_cons, map_cons,
        map_nil, mem_singleton]
      rw [show pending [] = [] from rfl, append_nil, ← key]
    · rw [if_neg hfirst]
      exact ⟨.inl, fun h => h.resolve_right fun w => hfirst w.left⟩

end Network

end Shading
