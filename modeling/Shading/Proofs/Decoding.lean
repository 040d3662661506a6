import Shading.Proofs.Machine

/-!
# Reading sections back

A section is a list of words, and only the opcodes tell which of them are instructions and which are
data.  `Machine.decode?` reads a section from its start by the width of each opcode.  It fails at a
word that is no opcode and at data that the section is too short for.

Sections are written in pieces that are complete by themselves: instructions with their data, and
jumps with what they pass over.  Such code is `Structured`.  It can be decoded, whatever comes after
it, and its jumps are `Nested`.
-/

namespace Shading

open List

variable {o : Opcode} {data : List Instruction} {i : Instruction}

/-- The jumps of a section. -/
def Opcode.isJump : Opcode → Bool
  | .jumpIfZero | .jumpIfOne => true
  | _ => false

lemma Opcode.isJump_iff : o.isJump = true ↔ o = .jumpIfZero ∨ o = .jumpIfOne := by
  cases o <;> simp [isJump]

namespace Machine

/-! ## Decoding -/

/-- An instruction, where it stands, and the data that follows it. -/
structure Step where
  position : Nat
  opcode : Opcode
  word : Instruction
  data : List Instruction

/-- The runs of slots that an instruction reads or writes. -/
def ranges (i : Instruction) (data : List Instruction) (o : Opcode) : List SlotRange :=
  let a := access i ((data[0]?).getD ⟨0, 0, 0, 0⟩) o
  a.reads ++ a.writes

namespace Step

def isJump (s : Step) : Bool := s.opcode.isJump

/-- Where a jump leads to.  It counts from the position after it. -/
def target (s : Step) : Nat := (((s.position + 1 : Nat) : Int) + s.word.w1.toInt).toNat

/-- The positions that a jump passes over. -/
def passed (s : Step) : Set Nat := Set.Ico (s.position + 1) s.target

/-- What two jumps pass over is nested or disjoint. -/
def Bracketed (s t : Step) : Prop :=
  s.passed ⊆ t.passed ∨ t.passed ⊆ s.passed ∨ ∀ k ∈ s.passed, k ∉ t.passed

/-- The runs of slots at the operands of the instruction. -/
def operands (s : Step) : List SlotRange := ranges s.word s.data s.opcode

end Step

/-- Reads words from a position on.  The given number of words are data of the instruction before
them. -/
def decodeFrom : Nat → Nat → List Instruction → Option (List Step)
  | _, 0, [] => some []
  | _, _ + 1, [] => none
  | pc, skip + 1, _ :: rest => decodeFrom (pc + 1) skip rest
  | pc, 0, i :: rest =>
    (Opcode.ofWord? i.w0).bind fun o =>
      (decodeFrom (pc + 1) (width i o - 1) rest).map (⟨pc, o, i, rest.take (width i o - 1)⟩ :: ·)

/-- Reads a section from its start to its end. -/
def decode? (code : Array Instruction) : Option (List Step) := decodeFrom 0 0 code.toList

lemma decodeFrom_data (data rest : List Instruction) (pc : Nat) :
    decodeFrom pc data.length (data ++ rest) = decodeFrom (pc + data.length) 0 rest := by
  induction data generalizing pc with
  | nil => rfl
  | cons i data ih =>
    show decodeFrom (pc + 1) data.length (data ++ rest) = _
    rw [ih, length_cons, Nat.add_assoc, Nat.add_comm 1]

/-- An instruction is read together with its data. -/
lemma decodeFrom_cons (ho : Opcode.ofWord? i.w0 = some o) (hw : data.length + 1 = width i o)
    (rest : List Instruction) (pc : Nat) : decodeFrom pc 0 (i :: (data ++ rest)) =
      (decodeFrom (pc + (i :: data).length) 0 rest).map (⟨pc, o, i, data⟩ :: ·) := by
  have hskip : width i o - 1 = data.length := by omega
  rw [decodeFrom, ho, Option.bind_some, hskip, decodeFrom_data, take_left, length_cons,
    Nat.add_assoc, Nat.add_comm 1]

/-- Instructions with their data are read one after another. -/
lemma exists_steps_of_items {R : Instruction → List Instruction → Opcode → Prop}
    {items : List (List Instruction)} (h : ∀ c ∈ items, Item R c) (pc : Nat) :
    ∃ steps, decodeFrom pc 0 items.flatten = some steps ∧
      ∀ x ∈ steps, R x.word x.data x.opcode := by
  induction items generalizing pc with
  | nil => exact ⟨[], rfl, by simp⟩
  | cons c items ih =>
    obtain ⟨hc, hrest⟩ := forall_mem_cons.1 h
    cases c with
    | nil => exact hc.elim
    | cons i data =>
      obtain ⟨o, ho, hw, hR⟩ := hc
      obtain ⟨steps, hsteps, hall⟩ := ih hrest (pc + (i :: data).length)
      refine ⟨⟨pc, o, i, data⟩ :: steps, ?_, forall_mem_cons.2 ⟨hR, hall⟩⟩
      rw [flatten_cons, cons_append, decodeFrom_cons ho hw, hsteps, Option.map_some]

/-! ## Nested jumps -/

/-- The jumps among some instructions lead forward to one of them, or to the position after the
last, and of two jumps the earlier one leads before the later one or not into what that passes
over. -/
structure Nested (start stop : Nat) (steps : List Step) : Prop where
  within : ∀ s ∈ steps, start ≤ s.position ∧ s.position < stop
  first : steps = [] ∧ start = stop ∨ ∃ s ∈ steps, s.position = start
  ordered : steps.Pairwise fun s t => s.position < t.position ∧
    (s.isJump = true → t.isJump = true → s.target ≤ t.position ∨ t.target ≤ s.target)
  jumps : ∀ s ∈ steps, s.isJump = true → s.position < s.target ∧ s.target ≤ stop ∧
    (s.target = stop ∨ ∃ t ∈ steps, t.position = s.target)

namespace Nested

variable {start mid stop : Nat} {s : Step} {steps later : List Step}

lemma nil (start : Nat) : Nested start start [] := ⟨by simp, .inl ⟨rfl, rfl⟩, .nil, by simp⟩

lemma single (s : Step) (hs : s.isJump = false) (hp : s.position < stop) :
    Nested s.position stop [s] where
  within := by simpa using hp
  first := .inr ⟨s, mem_singleton_self s, rfl⟩
  ordered := pairwise_singleton _ _
  jumps t ht hj := by
    rw [mem_singleton.1 ht, hs] at hj
    cases hj

lemma jump (h : Nested (s.position + 1) stop steps) (hs : s.target = stop)
    (hle : s.position + 1 ≤ stop) : Nested s.position stop (s :: steps) where
  within t ht := by
    obtain rfl | ht := mem_cons.1 ht
    · omega
    · have := h.within t ht
      omega
  first := .inr ⟨s, mem_cons_self, rfl⟩
  ordered := by
    refine pairwise_cons.2 ⟨fun t ht => ⟨?_, fun _ hj => .inr ?_⟩, h.ordered⟩
    · have := h.within t ht
      omega
    · rw [hs]
      exact (h.jumps t ht hj).2.1
  jumps t ht hj := by
    obtain rfl | ht := mem_cons.1 ht
    · exact ⟨by omega, hs.le, .inl hs⟩
    · obtain ⟨hlt, hle, hland⟩ := h.jumps t ht hj
      refine ⟨hlt, hle, hland.imp_right ?_⟩
      rintro ⟨u, hu, hut⟩
      exact ⟨u, mem_cons_of_mem _ hu, hut⟩

/-- One piece after another: what led to the end of the first leads to the start of the second. -/
lemma append (h : Nested start mid steps) (h' : Nested mid stop later) (hle : start ≤ mid)
    (hle' : mid ≤ stop) : Nested start stop (steps ++ later) where
  within s hs := by
    obtain hs | hs := mem_append.1 hs
    · have := h.within s hs
      omega
    · have := h'.within s hs
      omega
  first := by
    obtain ⟨rfl, rfl⟩ | ⟨s, hs, hstart⟩ := h.first
    · exact h'.first
    · exact .inr ⟨s, mem_append_left _ hs, hstart⟩
  ordered := by
    refine pairwise_append.2 ⟨h.ordered, h'.ordered, fun s hs t ht => ?_⟩
    have hst : s.position < mid ∧ mid ≤ t.position := ⟨(h.within s hs).2, (h'.within t ht).1⟩
    refine ⟨by omega, fun hj _ => .inl ?_⟩
    have := (h.jumps s hs hj).2.1
    omega
  jumps s hs hj := by
    obtain hs | hs := mem_append.1 hs
    · obtain ⟨hlt, hend, hland⟩ := h.jumps s hs hj
      refine ⟨hlt, by omega, ?_⟩
      obtain hmid | ⟨t, ht, hst⟩ := hland
      · rw [hmid]
        obtain ⟨_, hstop⟩ | ⟨t, ht, hst⟩ := h'.first
        · exact .inl hstop
        · exact .inr ⟨t, mem_append_right _ ht, hst⟩
      · exact .inr ⟨t, mem_append_left _ ht, hst⟩
    · obtain ⟨hlt, hend, hland⟩ := h'.jumps s hs hj
      refine ⟨hlt, hend, hland.imp_right ?_⟩
      rintro ⟨t, ht, hst⟩
      exact ⟨t, mem_append_right _ ht, hst⟩

end Nested

/-- The jumps of a section are sound: each leads forward to an instruction of the section, and what
two of them pass over is nested or disjoint. -/
structure SoundJumps (size : Nat) (steps : List Step) : Prop where
  lands : ∀ s ∈ steps, s.isJump = true →
    s.position < s.target ∧ s.target < size ∧ ∃ t ∈ steps, t.position = s.target
  bracketed : ∀ s ∈ steps, ∀ t ∈ steps, s.isJump = true → t.isJump = true → s.Bracketed t

lemma Step.Bracketed.symm {s t : Step} (h : s.Bracketed t) : t.Bracketed s := by
  rcases h with h | h | h
  · exact .inr (.inl h)
  · exact .inl h
  · exact .inr (.inr fun k ht hs => h k hs ht)

lemma Step.bracketed_of_lt {s t : Step} (hst : s.position < t.position)
    (h : s.target ≤ t.position ∨ t.target ≤ s.target) : s.Bracketed t := by
  rcases h with h | h
  · refine .inr (.inr fun k hs ht => ?_)
    have hs := hs.2
    have ht := ht.1
    omega
  · refine .inr (.inl fun k hk => ?_)
    have hk : t.position + 1 ≤ k ∧ k < t.target := hk
    show s.position + 1 ≤ k ∧ k < s.target
    omega

/-- Nested jumps none of which leads beyond the last instruction are sound. -/
lemma Nested.soundJumps {stop : Nat} {steps : List Step} (h : Nested 0 stop steps)
    (hstop : ∀ s ∈ steps, s.isJump = true → s.target ≠ stop) : SoundJumps stop steps where
  lands s hs hj := by
    obtain ⟨hlt, hle, hland⟩ := h.jumps s hs hj
    have hne := hstop s hs hj
    exact ⟨hlt, by omega, hland.resolve_left hne⟩
  bracketed s hs t ht hsj htj := by
    let R := fun s t : Step => s.isJump = true → t.isJump = true → s.Bracketed t
    have : Std.Symm R := ⟨fun s t h ht hs => (h hs ht).symm⟩
    have hself : ∀ x ∈ steps, R x x := fun _ _ _ _ => .inl subset_rfl
    have hpairs : steps.Pairwise R :=
      h.ordered.imp fun hst hs ht => Step.bracketed_of_lt hst.1 (hst.2 hs ht)
    exact hpairs.forall_of_forall hself hs ht hsj htj

/-! ## Structured code -/

/-- Code in pieces that are complete by themselves: instructions with their data, and jumps with
what they pass over.  `P` holds of all instructions, and none is the end of a section. -/
inductive Structured (P : Instruction → List Instruction → Opcode → Prop) : List Instruction → Prop
  | nil : Structured P []
  | plain {i : Instruction} {data rest : List Instruction} {o : Opcode}
      (ho : Opcode.ofWord? i.w0 = some o) (hplain : o.isJump = false) (hstop : o ≠ .stop)
      (hw : data.length + 1 = width i o) (hP : P i data o) (hrest : Structured P rest) :
      Structured P (i :: (data ++ rest))
  | jump {i : Instruction} {inner rest : List Instruction} {o : Opcode}
      (ho : Opcode.ofWord? i.w0 = some o) (hjump : o.isJump = true)
      (hd : i.w1 = Int32.ofNat inner.length) (hP : P i [] o) (hinner : Structured P inner)
      (hrest : Structured P rest) : Structured P (i :: (inner ++ rest))

namespace Structured

variable {P P' : Instruction → List Instruction → Opcode → Prop} {words words' : List Instruction}

lemma append (h : Structured P words) (h' : Structured P words') :
    Structured P (words ++ words') := by
  induction h with
  | nil => exact h'
  | plain ho hplain hstop hw hP _ ih =>
    rw [cons_append, append_assoc]
    exact .plain ho hplain hstop hw hP ih
  | jump ho hjump hd hP hinner _ _ ih =>
    rw [cons_append, append_assoc]
    exact .jump ho hjump hd hP hinner ih

lemma mono (h : Structured P words) (hP : ∀ i data o, P i data o → P' i data o) :
    Structured P' words := by
  induction h with
  | nil => exact .nil
  | plain ho hplain hstop hw h _ ih => exact .plain ho hplain hstop hw (hP _ _ _ h) ih
  | jump ho hjump hd h _ _ ih ih' => exact .jump ho hjump hd (hP _ _ _ h) ih ih'

lemma single {a b c : Int32} (hplain : o.isJump = false)
    (hstop : o ≠ .stop) (hw : data.length + 1 = width (.op o a b c) o)
    (hP : P (.op o a b c) data o) : Structured P (.op o a b c :: data) := by
  rw [← append_nil data]
  exact .plain (Opcode.ofWord?_word o) hplain hstop hw hP .nil

/-- A jump over the rest. -/
lemma skipped {b c : Int32} (hjump : o.isJump = true)
    (hP : P (.op o (Int32.ofNat words.length) b c) [] o) (h : Structured P words) :
    Structured P (.op o (Int32.ofNat words.length) b c :: words) := by
  have hall : Structured P (.op o (Int32.ofNat words.length) b c :: (words ++ [])) :=
    .jump (Opcode.ofWord?_word o) hjump rfl hP h .nil
  rwa [append_nil] at hall

/-- A distance that fits into a word is where the jump leads to. -/
lemma target_eq {pc n : Nat} (hd : i.w1 = Int32.ofNat n) (hn : n < 2 ^ 31) :
    (⟨pc, o, i, data⟩ : Step).target = pc + 1 + n := by
  show (((pc + 1 : Nat) : Int) + i.w1.toInt).toNat = _
  rw [hd, Int32.toInt_ofNat_of_lt hn]
  omega

/-- Structured code can be read, whatever comes after it, and its jumps are nested if their
distances fit into words. -/
theorem exists_steps (h : Structured P words) (pc : Nat) : ∃ steps : List Step,
    (∀ rest, decodeFrom pc 0 (words ++ rest) =
      (decodeFrom (pc + words.length) 0 rest).map (steps ++ ·)) ∧
    (∀ s ∈ steps, s.opcode ≠ .stop ∧ P s.word s.data s.opcode) ∧
    (words.length < 2 ^ 31 → Nested pc (pc + words.length) steps) := by
  induction h generalizing pc with
  | nil => exact ⟨[], fun rest => by simp, by simp, fun _ => .nil pc⟩
  | @plain i data rest o ho hplain hstop hw hP _ ih =>
    obtain ⟨steps, hdecode, hall, hnested⟩ := ih (pc + (i :: data).length)
    refine ⟨⟨pc, o, i, data⟩ :: steps, fun tail => ?_, forall_mem_cons.2 ⟨⟨hstop, hP⟩, hall⟩,
      fun hsize => ?_⟩
    · rw [cons_append, append_assoc, decodeFrom_cons ho hw, hdecode, Option.map_map,
        ← cons_append, length_append, Nat.add_assoc]
      rfl
    · rw [← cons_append, length_append] at hsize ⊢
      have hlt : pc < pc + (i :: data).length := by simp
      have hfirst : Nested pc (pc + (i :: data).length) [⟨pc, o, i, data⟩] :=
        .single ⟨pc, o, i, data⟩ hplain hlt
      rw [← Nat.add_assoc]
      exact hfirst.append (hnested (by omega)) (by omega) (by omega)
  | @jump i inner rest o ho hjump hd hP _ _ ih ih' =>
    obtain ⟨steps, hdecode, hall, hnested⟩ := ih (pc + 1)
    obtain ⟨later, hdecode', hall', hnested'⟩ := ih' (pc + 1 + inner.length)
    have hw : ([] : List Instruction).length + 1 = width i o := by
      obtain rfl | rfl := Opcode.isJump_iff.1 hjump <;> rfl
    have hstop : o ≠ .stop := by
      rintro rfl
      cases hjump
    refine ⟨⟨pc, o, i, []⟩ :: (steps ++ later), fun tail => ?_, ?_, fun hsize => ?_⟩
    · have hread := decodeFrom_cons ho hw (inner ++ (rest ++ tail)) pc
      rw [nil_append] at hread
      rw [cons_append, append_assoc, hread, length_singleton, hdecode, hdecode',
        Option.map_map, Option.map_map, length_cons, length_append]
      have hpc : pc + (inner.length + rest.length + 1) = pc + 1 + inner.length + rest.length := by
        omega
      rw [hpc]
      congr 1
      funext rest
      simp
    · exact forall_mem_cons.2 ⟨⟨hstop, hP⟩, forall_mem_append.2 ⟨hall, hall'⟩⟩
    · rw [length_cons, length_append] at hsize ⊢
      have hpc : pc + (inner.length + rest.length + 1) = pc + 1 + inner.length + rest.length := by
        omega
      have hover : Nested pc (pc + 1 + inner.length) (⟨pc, o, i, []⟩ :: steps) :=
        .jump (hnested (by omega)) (target_eq hd (by omega)) (by dsimp only; omega)
      rw [hpc]
      exact hover.append (hnested' (by omega)) (by omega) (by omega)

end Structured

end Machine

end Shading
