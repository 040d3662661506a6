import Shading.Script.Files

/-!
# Compilers of script sources

A compiler takes a source file and leaves a compiled file, or says why it cannot.  The library does
not care how; the compilers here differ in whether they work at all and in what they write.
-/

namespace Shading

/-- Compiles the file at the first path into one at the second; a failure says why and changes
nothing. -/
structure SourceCompiler where
  run : (input output : String) → FileStore → Except String FileStore

/-- How a program ends: with a status of success, or with what it wrote about its failure. -/
inductive ProgramOutcome where
  | success
  | failure (report : String)
  deriving DecidableEq, Repr

/-- What the programs of a host do when they are asked to compile; a program that is not there
cannot be started. -/
abbrev ProgramTable : Type := String → Option ProgramOutcome

namespace SourceCompiler

/-- The compiler that fails with the given report. -/
def failing (report : String) : SourceCompiler := ⟨fun _ _ _ => .error report⟩

/-- The compiler that is not there. -/
def unavailable : SourceCompiler := failing "unavailable"

/-- The compiler that writes the given file whatever its source says. -/
def writing (file : StoredFile) : SourceCompiler :=
  ⟨fun _ output files => .ok ((files.makeDirectories output).write output file)⟩

/-- The compiler that chooses by the path of the source. -/
def byInput (choose : String → SourceCompiler) : SourceCompiler :=
  ⟨fun input output files => (choose input).run input output files⟩

/-- The compiler that starts a program.  Only how the program ends is known, so it writes
nothing. -/
def program (table : ProgramTable) (name : String) : SourceCompiler :=
  ⟨fun _ _ files =>
    match table name with
    | none => .error ReadError.missing.message
    | some .success => .ok files
    | some (.failure report) => .error (String.ofList (Text.trim report.toList))⟩

end SourceCompiler

end Shading
