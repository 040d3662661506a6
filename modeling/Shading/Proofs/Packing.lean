import Mathlib.Data.List.Basic
import Shading.Engine.Recorder

/-!
# Values packed as parameters

A parameter is a flat list of atoms: integers, numbers and texts.  `SocketValue.elements` takes a
value apart into elements, and `ParamElement.components` an element into atoms: a truth value is an
integer, a vector is its coordinates, and a transform is the sixteen entries of its full matrix,
column by column.  The atoms of a parameter are the components of the elements of its value, one
element after the other (`SocketValue.Packs`), so the value can be read off the atoms
(`SocketValue.toParam_packs`).

A parameter says how many elements it has, but a length of zero stands for a single element.  So
the one value that fits a type and is not taken is the empty array (`SocketValue.toParam_taken`).
-/

namespace Shading

open List

/-! ## Elements and their components -/

/-- One of the values that a parameter holds. -/
inductive ParamAtom where
  | int (v : Int32)
  | float (v : Float32)
  | string (v : String)

def ParamData.atoms : ParamData → List ParamAtom
  | ints v => v.map .int
  | floats v => v.map .float
  | strings v => v.map .string

/-- A single value, or a member of an array. -/
inductive ParamElement where
  | bool (v : Bool)
  | int (v : Int32)
  | float (v : Float32)
  | string (v : String)
  | vec2 (v : Vec2)
  | vec3 (v : Vec3)
  | transform (v : Transform)

/-- The elements that the engine can be told: closures and unsigned numbers have none. -/
def SocketValue.elements : SocketValue → List ParamElement
  | .none | .uint _ => []
  | .bool v => [.bool v]
  | .float v => [.float v]
  | .int v => [.int v]
  | .vec3 v => [.vec3 v]
  | .vec2 v => [.vec2 v]
  | .string v => [.string v]
  | .transform v => [.transform v]
  | .bools v => v.map .bool
  | .floats v => v.map .float
  | .ints v => v.map .int
  | .vec3s v => v.map .vec3
  | .vec2s v => v.map .vec2
  | .strings v => v.map .string
  | .transforms v => v.map .transform

/-- An entry of the full matrix, whose last row is fixed. -/
def Transform.entry (t : Transform) (row column : Nat) : Float32 :=
  if h : row < 3 ∧ column < 4 then t.rows[row][column] else if column = 3 then 1 else 0

/-- What an element is made of.  Entry `4 * j + k` of a transform is the one in row `k` and
column `j`. -/
def ParamElement.components : ParamElement → List ParamAtom
  | bool v => [.int (if v then 1 else 0)]
  | int v => [.int v]
  | float v => [.float v]
  | string v => [.string v]
  | vec2 v => [.float v.x, .float v.y]
  | vec3 v => [.float v.x, .float v.y, .float v.z]
  | transform v => (range 16).map fun n => .float (v.entry (n % 4) (n / 4))

lemma ParamData.length_atoms (d : ParamData) : d.atoms.length = d.length := by
  cases d <;> simp [atoms, length]

namespace Transform

lemma transposedProjection_eq (t : Transform) :
    t.transposedProjection = (range 16).map fun n => t.entry (n % 4) (n / 4) := by
  have hentry : ∀ i j : Fin 4, t.matrix[i][j] = t.entry i j := by
    intro i j
    simp only [matrix, entry, Fin.getElem_fin, Vector.getElem_push, j.2, and_true]
    split
    · rfl
    · rcases j with ⟨_ | _ | _ | _ | j, hj⟩
      iterate 4 rfl
      omega
  simp only [transposedProjection, hentry]
  rfl

lemma transposedProjection_injective : Function.Injective transposedProjection := by
  intro t t' h
  rw [transposedProjection_eq, transposedProjection_eq] at h
  have hentry : ∀ i < 3, ∀ j < 4, t.entry i j = t'.entry i j := by
    intro i hi j hj
    have hn := map_inj_left.1 h (4 * j + i) (mem_range.2 (by omega))
    rwa [show (4 * j + i) % 4 = i by omega, show (4 * j + i) / 4 = j by omega] at hn
  obtain ⟨rows⟩ := t
  obtain ⟨rows'⟩ := t'
  refine congrArg mk (Vector.ext fun i hi => Vector.ext fun j hj => ?_)
  simpa [entry, hi, hj] using hentry i hi j hj

end Transform

lemma flatMap_injective {α β : Type} {f : α → List β} {c : Nat} (hc : 0 < c)
    (hlength : ∀ a, (f a).length = c) (hf : Function.Injective f) :
    Function.Injective fun l : List α => l.flatMap f := by
  have hne : ∀ a, f a ≠ [] := fun a => ne_nil_of_length_pos (hlength a ▸ hc)
  intro l
  induction l with
  | nil =>
    rintro (_ | ⟨a, l'⟩) h
    · rfl
    · exact absurd h (by simp [hne])
  | cons a l ih =>
    rintro (_ | ⟨b, l'⟩) h
    · exact absurd h (by simp [hne])
    · obtain ⟨hab, hl⟩ := append_inj h ((hlength a).trans (hlength b).symm)
      rw [hf hab, ih hl]

/-! ## Parameters -/

lemma toInt32_toInt (b : Bool) : b.toInt.toInt32 = if b then 1 else 0 := by cases b <;> rfl

/-- The atoms of a parameter are the components of the elements, all of one width, and its type has
the number of elements unless there is only one. -/
structure SocketValue.Packs (v : SocketValue) (p : Param) : Prop where
  base : p.data.base = p.ty.base
  atoms : p.data.atoms = v.elements.flatMap ParamElement.components
  width : ∀ e ∈ v.elements, e.components.length = p.ty.aggregate.components
  length : p.ty.length = v.elements.length ∨ p.ty.length = 0 ∧ v.elements.length = 1

namespace SocketValue

variable {name name' : String} {ty : SocketType} {v v' : SocketValue} {p p' : Param}

lemma Packs.single {e : ParamElement} (hv : v.elements = [e]) (hd : p.data.atoms = e.components)
    (hb : p.data.base = p.ty.base) (hw : e.components.length = p.ty.aggregate.components)
    (hl : p.ty.length = 0) : v.Packs p :=
  ⟨hb, by simp [hv, hd], by simp [hv, hw], .inr ⟨hl, by simp [hv]⟩⟩

lemma Packs.array {α : Type} {f : α → ParamElement} {l : List α} {t : ParamType} {d : ParamData}
    (hv : v.elements = l.map f) (hd : d.atoms = l.flatMap fun a => (f a).components)
    (hb : d.base = t.base) (hw : ∀ a, (f a).components.length = t.aggregate.components) :
    v.Packs ⟨t.array l.length, d⟩ :=
  ⟨hb, by rw [hd, hv, flatMap_map], by simp [hv, hw, ParamType.array],
    .inl (by simp [hv, ParamType.array])⟩

lemma packs_of_toParam (h : v.toParam name ty = .ok p) : v.Packs p := by
  have hmatrix : ∀ t : Transform, t.transposedProjection.map ParamAtom.float =
      (ParamElement.transform t).components := by
    intro t
    rw [Transform.transposedProjection_eq, map_map]
    rfl
  unfold toParam at h
  split at h <;> cases h
  -- Single values are their only element; numbers and texts of arrays are elements as they are.
  all_goals try exact .single rfl rfl rfl rfl rfl
  all_goals try exact .array rfl map_eq_flatMap rfl fun _ => rfl
  all_goals try exact .array rfl map_flatMap rfl fun _ => rfl
  · exact .single rfl (congrArg (fun n => [ParamAtom.int n]) (toInt32_toInt _)) rfl rfl rfl
  · exact .single rfl (hmatrix _) rfl rfl rfl
  · refine .array rfl ?_ rfl fun _ => rfl
    simp only [ParamData.atoms, map_map, toInt32_toInt]
    exact map_eq_flatMap
  · refine .array rfl ?_ rfl fun _ => rfl
    simp only [ParamData.atoms, map_flatMap, hmatrix]

/-- What a type packs can be told apart. -/
lemma toParam_injective (h : v.toParam name ty = .ok p) (h' : v'.toParam name' ty = .ok p')
    (hd : p'.data = p.data) : v' = v := by
  have hvec : Function.Injective Vec3.toList := by
    rintro ⟨⟩ ⟨⟩ h
    simpa [Vec3.toList] using h
  have hpair : Function.Injective Vec2.toList := by
    rintro ⟨⟩ ⟨⟩ h
    simpa [Vec2.toList] using h
  have hbool : Function.Injective fun b : Bool => b.toInt.toInt32 := fun a b => by
    revert a b
    decide
  have hmatrix := Transform.transposedProjection_injective
  cases ty <;> cases v <;> cases h <;> cases v' <;> cases h' <;> injection hd with hd
  all_goals try exact congrArg _ hd
  all_goals try exact congrArg _ (singleton_inj.1 hd)
  all_goals try exact congrArg _ (hvec hd)
  all_goals try exact congrArg _ (flatMap_injective (c := 3) (by decide) (fun _ => rfl) hvec hd)
  · exact congrArg _ (hbool (singleton_inj.1 hd))
  · exact congrArg _ (hpair hd)
  · exact congrArg _ (hmatrix hd)
  · exact congrArg _ (map_injective_iff.2 hbool hd)
  · exact congrArg _ (flatMap_injective (c := 2) (by decide) (fun _ => rfl) hpair hd)
  · exact congrArg _ (flatMap_injective (c := 16) (by decide)
      (fun t => by simp [Transform.transposedProjection_eq]) hmatrix hd)

lemma Packs.length_data (h : v.Packs p) :
    p.data.length = p.ty.aggregate.components * v.elements.length := by
  rw [← ParamData.length_atoms, h.atoms, length_flatMap, map_congr_left h.width,
    map_const', sum_replicate_nat, Nat.mul_comm]

lemma Packs.take_drop (h : v.Packs p) {i : Nat} {e : ParamElement} (hi : v.elements[i]? = some e) :
    (p.data.atoms.drop (p.ty.aggregate.components * i)).take p.ty.aggregate.components =
      e.components := by
  have hwidth := h.width
  rw [h.atoms]
  generalize v.elements = l at hi hwidth ⊢
  clear h
  induction l generalizing i with
  | nil => simp at hi
  | cons a l ih =>
    have ha := hwidth a mem_cons_self
    cases i with
    | zero =>
      cases hi
      simp [← ha]
    | succ i =>
      rw [flatMap_cons, Nat.mul_succ, Nat.add_comm, ← drop_drop, ← ha, drop_left' rfl]
      exact ha ▸ ih hi fun e he => hwidth e (mem_cons_of_mem _ he)

/-- A parameter is consistent unless it has no elements. -/
lemma Packs.isConsistent_iff (h : v.Packs p) : p.isConsistent = true ↔ v.elements ≠ [] := by
  have hpos : 0 < p.ty.aggregate.components := by cases p.ty.aggregate <;> decide
  rw [Param.isConsistent, h.base, beq_self_eq_true, Bool.true_and, beq_iff_eq, h.length_data,
    ParamType.valueCount, Nat.mul_right_inj (Nat.ne_of_gt hpos), ← length_pos_iff]
  obtain hl | ⟨hl, hone⟩ := h.length <;> omega

lemma exists_toParam_iff :
    (∃ p, v.toParam name ty = .ok p) ↔ v.fits ty = true ∧ ty ≠ .closure ∧ ty ≠ .uint := by
  cases ty <;> cases v <;> simp [toParam, fits, form, zero]

/-! ## Main statements -/

/-- Every value that fits the type of a socket has a parameter, closures and unsigned numbers apart,
and no other value has one.  The engine takes the parameter unless the value is an empty array. -/
theorem toParam_taken (name : String) (ty : SocketType) (v : SocketValue) :
    ((∃ p, v.toParam name ty = .ok p) ↔ v.fits ty = true ∧ ty ≠ .closure ∧ ty ≠ .uint) ∧
      ∀ p, v.toParam name ty = .ok p → (p.isConsistent = true ↔ v.elements ≠ []) ∧
        ∀ e : Recorder, e.openGroup.isSome = true →
          ((∃ e', e.parameter name p = .ok e') ↔ v.elements ≠ []) := by
  refine ⟨exists_toParam_iff, fun p hp => ?_⟩
  have hc := (packs_of_toParam hp).isConsistent_iff
  refine ⟨hc, fun e he => ?_⟩
  rw [← hc, Recorder.parameter, Recorder.requireOpen, if_pos he]
  cases p.isConsistent
  · refine ⟨fun h => ?_, fun h => by cases h⟩
    obtain ⟨_, h⟩ := h
    cases h
  · exact ⟨fun _ => rfl, fun _ => ⟨_, rfl⟩⟩

/-- An empty array has a parameter, which an open group refuses. -/
theorem toParam_taken_empty :
    let e : Recorder := { openGroup := some 0 }
    ∃ p, (floats []).toParam "knots" .floatArray = .ok p ∧ ¬ ∃ e', e.parameter "knots" p = .ok e' := by
  intro e
  obtain ⟨hexists, htaken⟩ := toParam_taken "knots" .floatArray (floats [])
  obtain ⟨p, hp⟩ := hexists.2 (by decide)
  exact ⟨p, hp, fun h => ((htaken p hp).2 e rfl).1 h rfl⟩

/-- The data of a parameter determine the value: element `i` stands at the positions from `c * i`
on, where `c` is the number of components of the type, and nothing else is there. -/
theorem toParam_packs (h : v.toParam name ty = .ok p) :
    p.data.length = p.ty.aggregate.components * v.elements.length ∧
      (∀ i e, v.elements[i]? = some e →
        (p.data.atoms.drop (p.ty.aggregate.components * i)).take p.ty.aggregate.components =
          e.components) ∧
        ∀ name' v' p', v'.toParam name' ty = .ok p' → p'.data = p.data → v' = v :=
  have hp := packs_of_toParam h
  ⟨hp.length_data, fun _ _ => hp.take_drop, fun _ _ _ h' => toParam_injective h h'⟩

/-- The second of two transforms. -/
theorem toParam_packs_shifts :
    let moved := Transform.shift ⟨1, 2, 3⟩
    let p : Param := ⟨ParamType.matrix.array 2, .floats
      (Transform.identity.transposedProjection ++ moved.transposedProjection)⟩
    (transforms [.identity, moved]).toParam "poses" .transformArray = .ok p ∧
      (p.data.atoms.drop 16).take 16 = (ParamElement.transform moved).components := by
  intro moved p
  have h : (transforms [.identity, moved]).toParam "poses" .transformArray = .ok p := rfl
  exact ⟨h, (toParam_packs h).2.1 1 _ rfl⟩

end SocketValue

end Shading
