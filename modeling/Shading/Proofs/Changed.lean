import Mathlib.Data.List.Induction
import Mathlib.Data.List.Perm.Subperm
import Shading.Engine.Group
import Shading.Proofs.Requests

/-!
# Requests that have changed

Two sets of requests are compared by their sizes and in one direction only.  That is enough, since
no set holds a request twice, on whatever way it was put together.  So a compilation finds out
exactly whether it asks for other attributes than the one before (`AttributeSet.differs_exact`).
-/

namespace Shading

open OrderedSet

lemma OrderedSet.differs_iff {α : Type} [DecidableEq α] {s t : OrderedSet α} :
    s.differs t = true ↔ ∃ a, ¬ (a ∈ s ↔ a ∈ t) := by
  rw [← not_forall, ← Bool.not_eq_false, not_iff_not]
  constructor
  · intro h
    simp only [differs, Bool.or_eq_false_iff, bne_eq_false_iff_eq, List.any_eq_false,
      Bool.not_eq_true', Bool.not_eq_false, contains_iff] at h
    have hsub := List.subperm_of_subset s.nodup h.2
    exact fun a => (hsub.perm_of_length_le (Nat.le_of_eq h.1.symm)).mem_iff
  · intro h
    have hperm := (List.perm_ext_iff_of_nodup s.nodup t.nodup).2 h
    simp [differs, size, hperm.length_eq, ← mem_def, h]

namespace AttributeSet

/-- What can be done to a set of requests. -/
inductive Change where
  | add (key : AttributeKey)
  | addStandard (a : StandardAttribute)
  | addName (name : String)
  | merge (other : AttributeSet)
  | clear

def change (s : AttributeSet) : Change → AttributeSet
  | .add key => s.insert key
  | .addStandard a => s.insertStandard a
  | .addName name => s.insertName name
  | .merge other => s.union other
  | .clear => .empty

/-- The set that a sequence of changes leads to. -/
def changes (l : List Change) : AttributeSet := l.foldl change .empty

/-- The keys that a change adds. -/
def Change.Adds (key : AttributeKey) : Change → Prop
  | .add k => key = k
  | .addStandard a => key = .standard a
  | .addName name => key = .ofName name
  | .merge other => key ∈ other
  | .clear => False

/-- The key was added and the set was not cleared since. -/
def Asked (l : List Change) (key : AttributeKey) : Prop :=
  ∃ before c after, l = before ++ c :: after ∧ c.Adds key ∧ .clear ∉ after

variable {key : AttributeKey}

lemma mem_change {s : AttributeSet} {c : Change} :
    key ∈ s.change c ↔ c.Adds key ∨ c ≠ .clear ∧ key ∈ s := by
  cases c <;> simp [change, Change.Adds, insertStandard, insertName, mem_union,
    not_mem_empty, or_comm]

lemma mem_changes {l : List Change} : key ∈ changes l ↔ Asked l key := by
  induction l using List.reverseRecOn with
  | nil => simp [changes, Asked, not_mem_empty]
  | append_singleton l c ih =>
    rw [changes, List.foldl_concat, mem_change, ← changes, ih]
    constructor
    · rintro (hc | ⟨hc, before, d, after, rfl, hd, hafter⟩)
      · exact ⟨l, c, [], rfl, hc, by simp⟩
      · exact ⟨before, d, after ++ [c], by simp, hd, by simp [hafter, Ne.symm hc]⟩
    · rintro ⟨before, d, after, h, hd, hafter⟩
      obtain rfl | ⟨after, e, rfl⟩ := after.eq_nil_or_concat'
      · cases (List.append_inj' h rfl).2
        exact .inl hd
      · rw [← List.cons_append, ← List.append_assoc] at h
        obtain ⟨rfl, he⟩ := List.append_inj' h rfl
        cases he
        simp only [List.mem_append, List.mem_singleton, not_or] at hafter
        exact .inr ⟨Ne.symm hafter.2, before, d, after, rfl, hd, hafter.1⟩

end AttributeSet

/-- One of the ways to compile a shader. -/
inductive Compilation where
  | bytecode (options : BytecodeOptions) (ids : AttributeIds)
  | groups (background : Bool) (host : EngineHost)

def Shader.compiledBy (s : Shader) : Compilation → Shader
  | .bytecode options ids => (s.compileBytecode options ids).2.1
  | .groups background host => (s.compileGroups background host).2.1

/-- What the entry points that the compilation finishes ask for. -/
def Shader.requestedBy (s : Shader) : Compilation → AttributeSet
  | .bytecode options ids => (s.prepare.compileSections s.needsBump options ids).requests
  | .groups background host => (EntryPoint.all.foldl (GroupResults.addEntry s.prepare background)
      { host, flags := { hasBump := s.needsBump, hasBssrdfBump := s.needsBump } }).requests

/-- Sets of requests differ exactly if some key was asked for in one of them only, in whatever order
and on whatever way, so it does not matter which of them comes first.  Of all compilations of a
shader the last one decides whether its attributes have to be updated: it does so if there is a key
that it asks for and the shader did not ask for before, or the other way round.  The shader has the
requests of that compilation, and the positions before it was moved if it is moved and bumped. -/
theorem AttributeSet.differs_exact :
    (∀ l l' : List Change,
      ((changes l).differs (changes l') = true ↔ ∃ key, ¬ (Asked l key ↔ Asked l' key)) ∧
        (changes l).differs (changes l') = (changes l').differs (changes l)) ∧
    ∀ (s : Shader) (earlier : List Compilation) (last : Compilation),
      let before := earlier.foldl Shader.compiledBy s
      let after := before.compiledBy last
      (after.needUpdateAttribute = true ↔
        ∃ key, ¬ (key ∈ before.attributes ↔ key ∈ after.attributes)) ∧
      ∀ key, key ∈ after.attributes ↔ key ∈ before.requestedBy last ∨
        key = .standard .positionUndisplaced ∧ after.flags.hasDisplacement = true ∧
          after.displacementMethod = .both := by
  refine ⟨fun l l' => ⟨?_, ?_⟩, fun s earlier last => ⟨?_, fun key => ?_⟩⟩
  · simp only [differs_iff, mem_changes]
  · rw [Bool.eq_iff_iff, differs_iff, differs_iff]
    simp only [iff_comm]
  · simp only [iff_comm (a := _ ∈ Shader.attributes (List.foldl ..)), ← differs_iff]
    cases last <;> rfl
  · cases last <;> exact Shader.mem_updateAttributes_iff

/-- A color that is an attribute is new to the shader when it is first compiled, and no other time,
whichever way it is compiled. -/
theorem AttributeSet.painted_differs_exact :
    let painted := Shader.painted
    let first := painted.compiledBy (.bytecode {} .empty)
    let again := first.compiledBy (.groups false ⟨{ settings := {} }, {}⟩)
    (∃ key, ¬ (key ∈ painted.attributes ↔ key ∈ first.attributes)) ∧
      ∀ key, key ∈ first.attributes ↔ key ∈ again.attributes := by
  intro painted first again
  have hfirst := (differs_exact.2 painted [] (.bytecode {} .empty)).1
  have hagain := (differs_exact.2 painted [.bytecode {} .empty]
    (.groups false ⟨{ settings := {} }, {}⟩)).1
  refine ⟨hfirst.1 (by decide +kernel), fun key => ?_⟩
  by_contra hkey
  exact absurd (hagain.2 ⟨key, hkey⟩) (by decide +kernel)

end Shading
