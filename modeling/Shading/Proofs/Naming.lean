import Mathlib.Data.List.Nodup
import Shading.Engine.Group

/-!
# Names in the engine

The engine knows the parameters and the results of a layer by names without spaces, in one space of
names for both.  A name that an input shares with an output gets a suffix on either side.  But names
are compared as they are written, spaces included, and nobody looks whether a name with a suffix is
taken.  So sockets are told apart exactly if neither matters (`Node.nodup_engineNames_iff`).
-/

namespace Shading

/-- Names of which some get a suffix. -/
lemma nodup_map_suffix_iff (P : String → Prop) {f : String → String} {l : List String} {s : String}
    (hl : (l.map dropSpaces).Nodup) (hf : ∀ x ∈ l, P x → f x = dropSpaces x ++ s)
    (hf' : ∀ x ∈ l, ¬ P x → f x = dropSpaces x) :
    (l.map f).Nodup ↔ ∀ x ∈ l, P x → ∀ y ∈ l, ¬ P y → dropSpaces y ≠ dropSpaces x ++ s := by
  constructor
  · intro hnodup x hx hpx y hy hpy h
    rw [← hf x hx hpx, ← hf' y hy hpy] at h
    exact hpy (List.inj_on_of_nodup_map hnodup hy hx h ▸ hpx)
  · intro h
    rw [List.Nodup, List.pairwise_map] at hl ⊢
    refine hl.imp_of_mem fun {x y} hx hy hne e => ?_
    by_cases hpx : P x <;> by_cases hpy : P y
    · rw [hf x hx hpx, hf y hy hpy] at e
      exact hne (by simpa using e)
    · exact h x hx hpx y hy hpy (by rw [← hf x hx hpx, ← hf' y hy hpy, e])
    · exact h y hy hpy x hx hpx (by rw [← hf y hy hpy, ← hf' x hx hpx, e])
    · exact hne (by rw [← hf' x hx hpx, ← hf' y hy hpy, e])

namespace Node

variable {node : Node} {x y : String}

def inputNames (node : Node) : List String := node.inputs.map Input.name

def outputNames (node : Node) : List String := node.outputs.map Output.name

/-- The names by which the engine knows the sockets of a node. -/
def engineNames (node : Node) : List String :=
  node.inputNames.map node.engineInput ++ node.outputNames.map node.engineOutput

/-- The name is that of an input and that of an output. -/
def IsShared (node : Node) (x : String) : Prop := x ∈ node.inputNames ∧ x ∈ node.outputNames

lemma engineInput_of_shared (h : node.IsShared x) : node.engineInput x = dropSpaces x ++ "In" := by
  rw [engineInput, if_pos]
  simpa [outputNames] using h.2

lemma engineOutput_of_shared (h : node.IsShared x) : node.engineOutput x = dropSpaces x ++ "Out" := by
  rw [engineOutput, if_pos]
  simpa [inputNames] using h.1

lemma engineInput_of_not_shared (hx : x ∈ node.inputNames) (h : ¬ node.IsShared x) :
    node.engineInput x = dropSpaces x := by
  rw [engineInput, if_neg, String.append_empty]
  exact fun hany => h ⟨hx, by simpa [outputNames] using hany⟩

lemma engineOutput_of_not_shared (hx : x ∈ node.outputNames) (h : ¬ node.IsShared x) :
    node.engineOutput x = dropSpaces x := by
  rw [engineOutput, if_neg, String.append_empty]
  exact fun hany => h ⟨by simpa [inputNames] using hany, hx⟩

/-- Let no two inputs, and no two outputs, have the same name without spaces.  Then the engine knows
no two sockets by the same name exactly if an input and an output never differ by spaces only, and no
name with a suffix is that of a socket that needs none. -/
theorem nodup_engineNames_iff (hin : (node.inputNames.map dropSpaces).Nodup)
    (hout : (node.outputNames.map dropSpaces).Nodup) :
    node.engineNames.Nodup ↔
      (∀ x ∈ node.inputNames, ∀ y ∈ node.outputNames, dropSpaces x = dropSpaces y → x = y) ∧
      ∀ x y, node.IsShared x → y ∈ node.inputNames ∨ y ∈ node.outputNames → ¬ node.IsShared y →
        dropSpaces y ≠ dropSpaces x ++ "In" ∧ dropSpaces y ≠ dropSpaces x ++ "Out" := by
  rw [engineNames, List.nodup_append,
    nodup_map_suffix_iff node.IsShared hin (fun _ _ => engineInput_of_shared)
      fun _ => engineInput_of_not_shared,
    nodup_map_suffix_iff node.IsShared hout (fun _ _ => engineOutput_of_shared)
      fun _ => engineOutput_of_not_shared]
  simp only [List.forall_mem_map]
  constructor
  · rintro ⟨hi, ho, hio⟩
    refine ⟨fun x hx y hy h => ?_, fun x y hs hy hns => ?_⟩
    · by_contra hne
      have hsx : ¬ node.IsShared x := fun hs => hne (List.inj_on_of_nodup_map hout hs.2 hy h)
      have hsy : ¬ node.IsShared y := fun hs => hne (List.inj_on_of_nodup_map hin hx hs.1 h)
      refine hio x hx y hy ?_
      rw [engineInput_of_not_shared hx hsx, engineOutput_of_not_shared hy hsy, h]
    · obtain hy | hy := hy
      · refine ⟨hi x hs.1 hs y hy hns, fun h => hio y hy x hs.2 ?_⟩
        rw [engineInput_of_not_shared hy hns, engineOutput_of_shared hs, h]
      · refine ⟨fun h => hio x hs.1 y hy ?_, ho x hs.2 hs y hy hns⟩
        rw [engineInput_of_shared hs, engineOutput_of_not_shared hy hns, h]
  · rintro ⟨hspace, hsuffix⟩
    refine ⟨fun x _ hs y hy hns => (hsuffix x y hs (.inl hy) hns).1,
      fun x _ hs y hy hns => (hsuffix x y hs (.inr hy) hns).2, fun x hx y hy h => ?_⟩
    by_cases hsx : node.IsShared x <;> by_cases hsy : node.IsShared y
    · -- The suffixes differ in their last letters.
      rw [engineInput_of_shared hsx, engineOutput_of_shared hsy] at h
      have hlast := congrArg (fun s => s.toList.getLast?) h
      simp at hlast
    · rw [engineInput_of_shared hsx, engineOutput_of_not_shared hy hsy] at h
      exact (hsuffix x y hsx (.inr hy) hsy).1 h.symm
    · rw [engineInput_of_not_shared hx hsx, engineOutput_of_shared hsy] at h
      exact (hsuffix y x hsy (.inl hx) hsx).2 h
    · rw [engineInput_of_not_shared hx hsx, engineOutput_of_not_shared hy hsy] at h
      cases hspace x hx y hy h
      exact hsx ⟨hx, hy⟩

/-- An input and an output that differ by a space. -/
theorem nodup_engineNames_spaced :
    let node : Node :=
      ⟨.script (.file "s.oso"), [⟨"A B", .float, .float 0, false⟩], [⟨"AB", .float⟩]⟩
    (node.inputNames.map dropSpaces).Nodup ∧ (node.outputNames.map dropSpaces).Nodup ∧
      ¬ node.engineNames.Nodup := by
  intro node
  have hin : (node.inputNames.map dropSpaces).Nodup := by decide
  have hout : (node.outputNames.map dropSpaces).Nodup := by decide
  refine ⟨hin, hout, fun h => absurd (((nodup_engineNames_iff hin hout).1 h).1 "A B" ?_ "AB" ?_ ?_) ?_⟩
  all_goals decide

end Node

end Shading
