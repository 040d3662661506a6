/-!
# Ordered sets

A set that remembers the order in which its members were added.  Adding a member that is there
already leaves it where it is, so the list of members never repeats one; that is part of the type.

Membership is the view of the set: `mem_insert`, `mem_union` and `mem_inter` say what each operation
does to it.
-/

namespace Shading

/-- A list without repetitions. -/
structure OrderedSet (α : Type) where
  toList : List α
  nodup : toList.Nodup

namespace OrderedSet

variable {α : Type}

def empty : OrderedSet α := ⟨[], .nil⟩

instance : Inhabited (OrderedSet α) := ⟨empty⟩

instance : Membership α (OrderedSet α) := ⟨fun s a => a ∈ s.toList⟩

def size (s : OrderedSet α) : Nat := s.toList.length

def isEmpty (s : OrderedSet α) : Bool := s.toList.isEmpty

theorem mem_def {s : OrderedSet α} {a : α} : a ∈ s ↔ a ∈ s.toList := Iff.rfl

theorem not_mem_empty (a : α) : a ∉ (empty : OrderedSet α) := by simp [mem_def, empty]

theorem nodup_concat {l : List α} {a : α} (hl : l.Nodup) (ha : a ∉ l) : (l ++ [a]).Nodup := by
  rw [List.nodup_append]
  refine ⟨hl, by simp, fun x hx y hy => ?_⟩
  rw [List.mem_singleton] at hy
  subst hy
  exact fun h => ha (h ▸ hx)

/-- The members that satisfy a test, in the same order. -/
def filter (s : OrderedSet α) (p : α → Bool) : OrderedSet α :=
  ⟨s.toList.filter p, s.nodup.filter p⟩

variable [DecidableEq α]

instance (a : α) (s : OrderedSet α) : Decidable (a ∈ s) := inferInstanceAs (Decidable (a ∈ s.toList))

def contains (s : OrderedSet α) (a : α) : Bool := decide (a ∈ s)

/-- The set with `a` as its last member, unless it is a member already. -/
def insert (s : OrderedSet α) (a : α) : OrderedSet α :=
  if h : a ∈ s.toList then s else ⟨s.toList ++ [a], nodup_concat s.nodup h⟩

/-- The members of a list, each where it stands first. -/
def ofList (l : List α) : OrderedSet α := l.foldl insert empty

/-- The members of `s`, then those of `t` that are not among them. -/
def union (s t : OrderedSet α) : OrderedSet α := t.toList.foldl insert s

/-- The members of `s` that are in `t`. -/
def inter (s t : OrderedSet α) : OrderedSet α := s.filter t.contains

/-- Whether two sets have different members, whatever their order. -/
def differs (s t : OrderedSet α) : Bool :=
  s.size != t.size || s.toList.any fun a => !t.contains a

@[simp] theorem contains_iff {s : OrderedSet α} {a : α} : s.contains a = true ↔ a ∈ s := by
  simp [contains]

theorem insert_of_mem {s : OrderedSet α} {a : α} (h : a ∈ s) : s.insert a = s := dif_pos h

theorem toList_insert_of_not_mem {s : OrderedSet α} {a : α} (h : a ∉ s) :
    (s.insert a).toList = s.toList ++ [a] := by
  have h' : a ∉ s.toList := h
  rw [insert, dif_neg h']

@[simp] theorem mem_insert {s : OrderedSet α} {a b : α} : b ∈ s.insert a ↔ b ∈ s ∨ b = a := by
  by_cases h : a ∈ s
  · rw [insert_of_mem h]
    exact ⟨.inl, fun hb => hb.elim (fun hb => hb) fun e => e ▸ h⟩
  · rw [mem_def, toList_insert_of_not_mem h]
    simp [mem_def]

theorem mem_foldl_insert {l : List α} {s : OrderedSet α} {b : α} :
    b ∈ l.foldl insert s ↔ b ∈ s ∨ b ∈ l := by
  induction l generalizing s with
  | nil => simp
  | cons a l ih => simp [ih, or_assoc]

theorem mem_union {s t : OrderedSet α} {b : α} : b ∈ s.union t ↔ b ∈ s ∨ b ∈ t :=
  mem_foldl_insert

theorem mem_inter {s t : OrderedSet α} {b : α} : b ∈ s.inter t ↔ b ∈ s ∧ b ∈ t := by
  simp only [inter, filter, mem_def, List.mem_filter]
  simp [contains, mem_def]

end OrderedSet

end Shading
