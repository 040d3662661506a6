import Shading.Proofs.Program
import Shading.Scene.Device

/-!
# Joined programs

The kernel reads the programs of all shaders from one array.  A table with one jump per shader comes
first, and behind it the programs stand one after another without their headers, so a target that
counts the header of its own program has to be moved by where the program stands.  A jump of the
table then leads to the instructions to which the header of the program leads: from there on the
array holds what the program holds up to its end (`exists_table_joined`).
-/

namespace Shading

open Instruction List Option

variable {entries : EntryTable Span} {header : Instruction} {p : Program} {offset t : Nat}
  {program : Option (Array Instruction)} {programs : List (Option (Array Instruction))}
  {sections : EntryTable (Array Instruction)} {code : Array Instruction}

/-! ## Headers -/

/-- What a shader is evaluated for.  A header holds where each of these begins. -/
inductive Stage where
  | surface | volume | displacement
  deriving DecidableEq, Repr

namespace Instruction

def stageWord (i : Instruction) : Stage → Int32
  | .surface => i.w1
  | .volume => i.w2
  | .displacement => i.w3

def target (i : Instruction) (r : Stage) : Nat := (i.stageWord r).toInt.toNat

variable {i : Instruction} {r : Stage} {t : Nat}

lemma target_of_stageWord (h : i.stageWord r = Int32.ofNat t) (ht : t < 2 ^ 31) :
    i.target r = t := by
  rw [target, h, Int32.toInt_ofNat_of_lt ht, Int.toNat_natCast]

end Instruction

namespace Program

/-- Where a stage begins: at the section of its entry point, and for the surface at the bump that
runs into it. -/
def stageStart? (entries : EntryTable Span) : Stage → Option Nat
  | .surface => ((entries.get? .bump).map Span.start).or ((entries.get? .surface).map Span.start)
  | .volume => (entries.get? .volume).map Span.start
  | .displacement => (entries.get? .displacement).map Span.start

lemma exists_of_stageStart? {r : Stage} (h : stageStart? entries r = some t) :
    ∃ e span, entries.get? e = some span ∧ span.start = t := by
  have hentry : ∀ e, (entries.get? e).map Span.start = some t →
      ∃ e span, entries.get? e = some span ∧ span.start = t := by
    intro e he
    obtain ⟨span, hspan, ht⟩ := map_eq_some_iff.1 he
    exact ⟨e, span, hspan, ht⟩
  cases r with
  | surface =>
    obtain hbump | ⟨_, hsurface⟩ := or_eq_some_iff.1 h
    · exact hentry _ hbump
    · exact hentry _ hsurface
  | volume => exact hentry _ h
  | displacement => exact hentry _ h

/-- A header that leads to where the stages of a program begin, and to a lone end for those that
begin nowhere. -/
structure Heads (header : Instruction) (p : Program) : Prop where
  first : p.instructions.toList.head? = some header
  pos : ∀ r, 0 < header.target r
  le : ∀ r, header.target r ≤ p.instructions.size
  start : ∀ r, stageStart? p.entries r = some (header.target r) ∨
    stageStart? p.entries r = none ∧
      p.instructions.toList.drop (header.target r) = [.op .stop 0 0 0]

/-- Sections between a header that leads to them and a terminator for the stages without one. -/
lemma heads_framed (hplaces : Places sections (code, entries)) {lacks : Bool}
    (hlacks : lacks = true ↔ ∃ r, stageStart? entries r = none)
    (hheader : ∀ r, header.stageWord r = Int32.ofNat ((stageStart? entries r).getD code.size))
    (hentries : p.entries = entries)
    (hp : p.instructions =
      (if lacks then code.push (.op .stop 0 0 0) else code).setIfInBounds 0 header)
    (hsize : p.instructions.size < 2 ^ 31) : Heads header p := by
  have hpos : 0 < code.size := hplaces.header
  have hle : code.size ≤ p.instructions.size := by
    rw [hp, Array.size_setIfInBounds]
    split <;> simp
  -- where a stage leads, by whether it has a section
  have hstage : ∀ r, 0 < header.target r ∧ header.target r ≤ p.instructions.size ∧
      (stageStart? entries r = some (header.target r) ∨ stageStart? entries r = none ∧
        p.instructions.toList.drop (header.target r) = [.op .stop 0 0 0]) := by
    intro r
    have hword := hheader r
    cases hstart : stageStart? entries r with
    | some t =>
      obtain ⟨e, span, hspan, rfl⟩ := exists_of_stageStart? hstart
      obtain ⟨hbegin, hlen, hstop, _⟩ := hplaces.spans hspan
      have hbound : span.start ≤ p.instructions.size := hlen.trans (hstop.trans hle)
      rw [hstart] at hword
      rw [target_of_stageWord hword (hbound.trans_lt hsize)]
      exact ⟨hbegin, hbound, .inl rfl⟩
    | none =>
      rw [hstart, getD_none] at hword
      rw [target_of_stageWord hword (hle.trans_lt hsize)]
      refine ⟨hpos, hle, .inr ⟨rfl, ?_⟩⟩
      rw [hp, if_pos (hlacks.2 ⟨r, hstart⟩), Array.toList_setIfInBounds, drop_set_of_lt hpos,
        Array.toList_push, ← Array.length_toList, drop_left]
  refine ⟨?_, fun r => (hstage r).1, fun r => (hstage r).2.1, fun r => ?_⟩
  · rw [hp, head?_eq_getElem?, Array.getElem?_toList, Array.getElem?_setIfInBounds_self_of_lt]
    split
    · simp
    · exact hpos
  · rw [hentries]
    exact (hstage r).2.2

/-- Some stage begins nowhere. -/
lemma exists_stageStart?_eq_none :
    ((stageStart? entries .surface).isNone || (stageStart? entries .volume).isNone ||
      (stageStart? entries .displacement).isNone) = true ↔ ∃ r, stageStart? entries r = none := by
  simp only [Bool.or_eq_true, isNone_iff_eq_none]
  refine ⟨?_, fun ⟨r, hr⟩ => ?_⟩
  · rintro ((h | h) | h)
    exacts [⟨_, h⟩, ⟨_, h⟩, ⟨_, h⟩]
  · cases r with
    | surface => exact .inl (.inl hr)
    | volume => exact .inl (.inr hr)
    | displacement => exact .inr hr

/-- The header of a program that was laid out. -/
lemma exists_heads_ofSections {peak : Nat}
    (hsize : (ofSections sections peak).instructions.size < 2 ^ 31) :
    ∃ header, Heads header (ofSections sections peak) := by
  refine ⟨_, heads_framed (places_sectionOrder sections) exists_stageStart?_eq_none ?_ rfl rfl
    hsize⟩
  intro r
  cases r <;> rfl

end Program

/-! ## The table and what stands behind it -/

/-- What stands in the joined array for a shader: its program without the header, or an end. -/
def programBody : Option (Array Instruction) → List Instruction
  | some code => if code.isEmpty then [.op .stop 0 0 0] else code.toList.tail
  | none => [.op .stop 0 0 0]

def programBodies (programs : List (Option (Array Instruction))) : List Instruction :=
  programs.flatMap programBody

lemma placeProgram_eq_of_head? (h : code.toList.head? = some header) :
    placeProgram offset (some code) = (.op .shaderJump (header.w1 - 1 + Int32.ofNat offset)
      (header.w2 - 1 + Int32.ofNat offset) (header.w3 - 1 + Int32.ofNat offset),
        code.toList.tail) := by
  simp [placeProgram, h]

lemma placeProgram_eq_of_empty (h : ∀ code, program = some code → code = #[]) :
    placeProgram offset program = (.op .shaderJump (Int32.ofNat offset) (Int32.ofNat offset)
      (Int32.ofNat offset), [.op .stop 0 0 0]) := by
  cases program with
  | none => rfl
  | some code =>
    rw [h code rfl]
    rfl

lemma placeProgram_snd (offset : Nat) (program : Option (Array Instruction)) :
    (placeProgram offset program).2 = programBody program := by
  by_cases hempty : ∀ code, program = some code → code = #[]
  · rw [placeProgram_eq_of_empty hempty]
    cases program with
    | none => rfl
    | some code => simp [programBody, hempty code rfl]
  · push Not at hempty
    obtain ⟨code, rfl, hcode⟩ := hempty
    obtain ⟨header, hheader⟩ : ∃ header, code.toList.head? = some header :=
      isSome_iff_exists.1 (by simpa using hcode)
    rw [placeProgram_eq_of_head? hheader, programBody, if_neg (by simpa using hcode)]

/-- A table with the jumps of some programs into what stands behind a table of the length
`count`. -/
structure Joins (count : Nat) (programs : List (Option (Array Instruction)))
    (acc : Array Instruction × Array Instruction) : Prop where
  size : acc.1.size = programs.length
  jumps : ∀ {i : Nat} {program}, programs[i]? = some program → acc.1[i]? =
    some (placeProgram (count + (programBodies (programs.take i)).length) program).1
  bodies : acc.2.toList = programBodies programs

lemma Joins.append {count : Nat}
    {acc : Array Instruction × Array Instruction} (h : Joins count programs acc)
    (program : Option (Array Instruction)) :
    Joins count (programs ++ [program]) (appendProgram count acc program) := by
  have hoffset : acc.2.size = (programBodies programs).length := by
    rw [← h.bodies, Array.length_toList]
  refine ⟨by simp [appendProgram, h.size], fun {i p} hp => ?_, ?_⟩
  · dsimp only [appendProgram]
    rw [Array.getElem?_push, h.size]
    by_cases hi : i = programs.length
    · subst hi
      obtain rfl : program = p := by simpa using hp
      rw [if_pos rfl, take_left, hoffset]
    · have hlt : i < programs.length := by
        have := (List.getElem?_eq_some_iff.1 hp).1
        rw [length_append, length_singleton] at this
        omega
      rw [getElem?_append_left hlt] at hp
      rw [if_neg hi, h.jumps hp, take_append_of_le_length hlt.le]
  · dsimp only [appendProgram]
    rw [Array.toList_append, placeProgram_snd, h.bodies, programBodies, programBodies,
      flatMap_append, flatMap_singleton]

lemma joins_foldl (count : Nat) (programs : List (Option (Array Instruction))) :
    Joins count programs (programs.foldl (appendProgram count) (#[], #[])) := by
  induction programs using reverseRecOn with
  | nil => exact ⟨rfl, by simp, rfl⟩
  | append_singleton programs program ih =>
    rw [foldl_append]
    exact ih.append program

/-- The joined array is a table with one jump per program, and the programs. -/
lemma exists_table_joinPrograms (programs : List (Option (Array Instruction))) :
    ∃ table : List Instruction, table.length = programs.length ∧
      (joinPrograms programs).toList = table ++ programBodies programs ∧
      ∀ {i : Nat} {program}, programs[i]? = some program → table[i]? = some
        (placeProgram (programs.length + (programBodies (programs.take i)).length) program).1 := by
  have h := joins_foldl programs.length programs
  refine ⟨_, h.size, ?_, fun hp => (Array.getElem?_toList ..).trans (h.jumps hp)⟩
  rw [← h.bodies]
  exact Array.toList_append

/-- A program stands where its jump was told. -/
lemma exists_append_programBody
    {table : List Instruction} (hlength : table.length = programs.length) {i : Nat}
    (hp : programs[i]? = some program) :
    ∃ before after, table ++ programBodies programs = before ++ (programBody program ++ after) ∧
      before.length = programs.length + (programBodies (programs.take i)).length := by
  obtain ⟨hi, hget⟩ := List.getElem?_eq_some_iff.1 hp
  refine ⟨table ++ programBodies (programs.take i), programBodies (programs.drop (i + 1)), ?_, ?_⟩
  · conv_lhs => rw [← take_append_drop i programs, drop_eq_getElem_cons hi, hget]
    rw [append_assoc, programBodies, flatMap_append, flatMap_cons]
    rfl
  · rw [length_append, hlength]

/-- Moving a target that counts the header to where the rest of the program stands. -/
lemma rebase_ofNat (ht : 0 < t) :
    Int32.ofNat t - 1 + Int32.ofNat offset = Int32.ofNat (t - 1 + offset) := by
  rw [Int32.ofNat_add, Int32.ofNat_sub _ _ ht]
  rfl

lemma placeProgram_fst_w0 (offset : Nat) (program : Option (Array Instruction)) :
    (placeProgram offset program).1.w0 = Opcode.shaderJump.word := by
  unfold placeProgram
  split <;> rfl

/-- A jump leads to where the rest of its program stands as the header leads into the program. -/
lemma target_placeProgram
    (h : Program.Heads header p) (hoffset : offset + p.instructions.size ≤ 2 ^ 31) (r : Stage) :
    (placeProgram offset (some p.instructions)).1.target r = header.target r - 1 + offset := by
  have hpos := h.pos r
  have hle := h.le r
  have hword : header.stageWord r = Int32.ofNat (header.target r) := by
    rw [target, ← Int32.ofInt_eq_ofNat,
      Int.toNat_of_nonneg (Int.lt_toNat.1 hpos).le, Int32.ofInt_toInt]
  refine target_of_stageWord ?_ (by omega)
  rw [placeProgram_eq_of_head? h.first, ← rebase_ofNat hpos, ← hword]
  cases r <;> rfl

/-- From where its jump leads the array holds what a program holds from where its header leads. -/
lemma drop_prefix_drop_target {before after : List Instruction} (h : Program.Heads header p)
    (hsize : before.length + p.instructions.size ≤ 2 ^ 31) (r : Stage) :
    before.length ≤ (placeProgram before.length (some p.instructions)).1.target r ∧
      p.instructions.toList.drop (header.target r) <+:
        (before ++ (p.instructions.toList.tail ++ after)).drop
          ((placeProgram before.length (some p.instructions)).1.target r) := by
  obtain ⟨t, ht⟩ := Nat.exists_eq_add_of_lt (h.pos r)
  rw [Nat.zero_add] at ht
  rw [target_placeProgram h hsize, ht, Nat.add_sub_cancel, Nat.add_comm t before.length]
  refine ⟨Nat.le_add_right _ _, ?_⟩
  rw [drop_length_add_append, ← drop_tail]
  exact (prefix_append _ _).drop t

/-- A jump for a shader without a program leads to its end. -/
lemma getElem?_target_of_empty {before after : List Instruction}
    (h : ∀ code, program = some code → code = #[])
    (hsize : before.length < 2 ^ 31) (r : Stage) :
    (before ++ (programBody program ++ after))[(placeProgram before.length program).1.target r]? =
      some (.op .stop 0 0 0) := by
  have hword : (placeProgram before.length program).1.stageWord r = Int32.ofNat before.length := by
    rw [placeProgram_eq_of_empty h]
    cases r <;> rfl
  rw [target_of_stageWord hword hsize, ← placeProgram_snd 0,
    placeProgram_eq_of_empty h, getElem?_append_right le_rfl, Nat.sub_self]
  rfl

lemma Shader.exists_heads {s : Shader} {options : BytecodeOptions} {ids : AttributeIds}
    (hsize : (s.compileBytecode options ids).1.program.instructions.size < 2 ^ 31) :
    ∃ header, Program.Heads header (s.compileBytecode options ids).1.program :=
  Program.exists_heads_ofSections hsize

namespace Program

def joined (programs : List (Option Program)) : List Instruction :=
  (joinPrograms (programs.map fun p => p.map instructions)).toList

/-- Running a shader through the joined array is running its own program.  Programs that are
missing, empty or compiled are joined into a table with one jump per shader and the bodies of the
programs, one after another and nothing else.  A jump of the table to a program leads behind the
table, for each stage to a place from where on the array holds what the program holds from where its
header leads up to its end: there the stage begins, with the bump if the program has one, or there
is a lone end.  The other jumps lead to an end. -/
theorem exists_table_joined {programs : List (Option Program)}
    (hprograms : ∀ p : Program, some p ∈ programs → p.instructions = #[] ∨
      ∃ s options ids, p = (Shader.compileBytecode s options ids).1.program)
    (hsize : (joined programs).length < 2 ^ 31) :
    ∃ table : List Instruction,
      table.length = programs.length ∧ (∀ jump ∈ table, jump.w0 = Opcode.shaderJump.word) ∧
      joined programs =
        table ++ programs.flatMap (fun p => programBody (p.map Program.instructions)) ∧
      ∀ (i : Nat) (jump : Instruction), table[i]? = some jump →
        (∀ (p : Program) (header : Instruction), programs[i]? = some (some p) →
          p.instructions.toList.head? = some header →
          ∀ r, programs.length ≤ jump.target r ∧
            p.instructions.toList.drop (header.target r) <+:
              (joined programs).drop (jump.target r) ∧
            (stageStart? p.entries r = some (header.target r) ∨
              stageStart? p.entries r = none ∧
                p.instructions.toList.drop (header.target r) = [.op .stop 0 0 0])) ∧
        ((∀ p : Program, programs[i]? = some (some p) → p.instructions = #[]) →
          ∀ r, (joined programs)[jump.target r]? = some (.op .stop 0 0 0)) := by
  obtain ⟨table, hlength, hjoined, hjumps⟩ :=
    exists_table_joinPrograms (programs.map fun p => p.map Program.instructions)
  rw [List.length_map] at hlength
  have hbodies : programBodies (programs.map fun p => p.map Program.instructions) =
      programs.flatMap fun p => programBody (p.map Program.instructions) :=
    List.flatMap_map ..
  -- the jump and the body of the shader at a position
  have hplace : ∀ (i : Nat) (jump : Instruction), table[i]? = some jump →
      ∃ program before after, programs[i]? = some program ∧
        joined programs = before ++ (programBody (program.map Program.instructions) ++ after) ∧
        programs.length ≤ before.length ∧
        jump = (placeProgram before.length (program.map Program.instructions)).1 := by
    intro i jump hjump
    have hi : i < programs.length := hlength ▸ (List.getElem?_eq_some_iff.1 hjump).1
    obtain ⟨program, hprogram⟩ : ∃ program, programs[i]? = some program :=
      ⟨_, List.getElem?_eq_getElem hi⟩
    have hcode : (programs.map fun p => p.map Program.instructions)[i]? =
        some (program.map Program.instructions) := by
      rw [List.getElem?_map, hprogram, map_some]
    obtain ⟨before, after, hsplit, hbefore⟩ :=
      exists_append_programBody (hlength.trans (List.length_map _).symm) hcode
    refine ⟨program, before, after, hprogram, hjoined.trans hsplit, ?_, ?_⟩
    · rw [hbefore, List.length_map]
      exact Nat.le_add_right _ _
    · rw [hjumps hcode, ← hbefore] at hjump
      exact (some.inj hjump).symm
  refine ⟨table, hlength, fun jump hjump => ?_, hjoined.trans (by rw [hbodies]), ?_⟩
  · obtain ⟨i, hi⟩ := List.mem_iff_getElem?.1 hjump
    obtain ⟨program, before, after, _, _, _, rfl⟩ := hplace i jump hi
    exact placeProgram_fst_w0 _ _
  · intro i jump hjump
    obtain ⟨program, before, after, hprogram, hsplit, hbefore, rfl⟩ := hplace i jump hjump
    have hfits := congrArg List.length hsplit
    rw [List.length_append, List.length_append] at hfits
    refine ⟨fun p header hp hheader r => ?_, fun hempty r => ?_⟩
    · obtain rfl : program = some p := some.inj (hprogram.symm.trans hp)
      have hne : p.instructions ≠ #[] := by
        intro hnil
        rw [hnil] at hheader
        cases hheader
      rw [map_some, programBody, if_neg (by simpa using hne)] at hsplit hfits
      have hlen : p.instructions.toList.length = p.instructions.size := Array.length_toList
      rw [List.length_tail, hlen] at hfits
      have hi : i < programs.length := (List.getElem?_eq_some_iff.1 hp).1
      obtain ⟨first, hheads⟩ : ∃ first, Heads first p := by
        obtain ⟨s, options, ids, rfl⟩ := (hprograms p (List.mem_of_getElem? hp)).resolve_left hne
        exact Shader.exists_heads (by omega)
      obtain rfl : first = header := some.inj (hheads.first.symm.trans hheader)
      have hroom : before.length + p.instructions.size ≤ 2 ^ 31 := by omega
      obtain ⟨hbehind, hagrees⟩ := drop_prefix_drop_target hheads hroom r
      rw [hsplit]
      exact ⟨hbefore.trans hbehind, hagrees, hheads.start r⟩
    · rw [hsplit]
      refine getElem?_target_of_empty (fun code hcode => ?_) (by omega) r
      obtain ⟨p, rfl, rfl⟩ := map_eq_some_iff.1 hcode
      exact hempty p hprogram

/-- A surface that emits light. -/
def glowing : Program :=
  ((Shader.withGraph "" ((Graph.new.add .emission).2.connected 1 "Emission" 0
    "Surface")).compileBytecode {} .empty).1.program

/-- A shader without a program, one with an empty program, and the surface that emits light. -/
def threePrograms : List (Option Program) := [none, some ⟨#[], {}, 0⟩, some glowing]

/-- The table in front of these. -/
theorem exists_table_threePrograms : (joined threePrograms).length < 2 ^ 31 ∧
      ∃ table : List Instruction, table.length = 3 ∧
        (∀ jump ∈ table, jump.w0 = Opcode.shaderJump.word) ∧
        joined threePrograms =
          table ++ threePrograms.flatMap (fun p => programBody (p.map Program.instructions)) := by
  have hsize : (joined threePrograms).length < 2 ^ 31 := by decide +kernel
  have hprograms : ∀ p : Program, some p ∈ threePrograms → p.instructions = #[] ∨
      ∃ s options ids, p = (Shader.compileBytecode s options ids).1.program := by
    intro p hp
    obtain rfl | rfl : p = ⟨#[], {}, 0⟩ ∨ p = glowing := by simpa [threePrograms] using hp
    · exact .inl rfl
    · exact .inr ⟨_, _, _, rfl⟩
  obtain ⟨table, hlength, hjumps, hjoined, _⟩ := exists_table_joined hprograms hsize
  exact ⟨hsize, table, hlength, hjumps, hjoined⟩

end Program

end Shading
