import Mathlib
import Shading.Graph.Json

/-!
# Values that survive their documents

A document that a program builds holds binary numbers as they are, and a document that was read from
text holds the decimals that stand there.  `Json.mapNumbers` goes from the one to the other: all
numbers are exchanged and everything else stays.  If integers are kept and every binary number reads
back (`Json.Faithful`), then what is written as a document is what is read from it, for sockets,
kinds, nodes and links.
-/

namespace Shading

open Json Option

namespace Json

/-! ## Documents with other numbers -/

mutual

/-- The document with its numbers exchanged. -/
def mapNumbers (f : Number → Number) : Json → Json
  | .null => .null
  | .bool b => .bool b
  | .num n => .num (f n)
  | .str s => .str s
  | .arr items => .arr (mapItems f items)
  | .obj members => .obj (mapMembers f members)

def mapItems (f : Number → Number) : List Json → List Json
  | [] => []
  | x :: xs => x.mapNumbers f :: mapItems f xs

def mapMembers (f : Number → Number) : List (String × Json) → List (String × Json)
  | [] => []
  | (name, x) :: ms => (name, x.mapNumbers f) :: mapMembers f ms

end

variable {f : Number → Number} {P : Float32 → Prop} {α β : Type} {read : Json → Option α}
  {write : α → Json}

@[simp] lemma mapItems_eq_map (items : List Json) : mapItems f items = items.map (mapNumbers f) := by
  induction items with
  | nil => rfl
  | cons x xs ih => rw [mapItems, ih, List.map_cons]

attribute [simp] mapNumbers mapMembers

/-- Integers are kept, and the binary numbers in question read back. -/
structure Faithful (f : Number → Number) (P : Float32 → Prop) : Prop where
  int : ∀ n, f (.int n) = .int n
  float : ∀ x, P x → float32? (.num (f (.float x))) = some x

lemma faithful_id : Faithful id P := ⟨fun _ => rfl, fun _ _ => rfl⟩

mutual

lemma mapNumbers_id : ∀ j : Json, j.mapNumbers id = j
  | .null | .bool _ | .num _ | .str _ => rfl
  | .arr items => congrArg arr (mapItems_id items)
  | .obj members => congrArg obj (mapMembers_id members)

lemma mapItems_id : ∀ items : List Json, mapItems id items = items
  | [] => rfl
  | x :: xs => congrArg₂ List.cons (mapNumbers_id x) (mapItems_id xs)

lemma mapMembers_id : ∀ members : List (String × Json), mapMembers id members = members
  | [] => rfl
  | (name, x) :: ms =>
    congrArg₂ List.cons (congrArg (name, ·) (mapNumbers_id x)) (mapMembers_id ms)

end

namespace Faithful

variable (h : Faithful f P)

include h

lemma float32? {x : Float32} (hx : P x) : ((Json.float x).mapNumbers f).float32? = some x := by
  rw [Json.float, mapNumbers]
  exact h.float x hx

lemma mapNumbers_int (n : Int) : (Json.int n).mapNumbers f = .int n := by
  rw [Json.int, mapNumbers, h.int]

lemma mapNumbers_nat (n : Nat) : (Json.nat n).mapNumbers f = .nat n := h.mapNumbers_int n

end Faithful

/-! ## Leaves, lists and records -/

lemma natBelow?_nat {bound n : Nat} (h : n < bound) : (nat n).natBelow? bound = some n := by
  simp [natBelow?, intWithin?, nat, h]

lemma uint16?_nat (n : UInt16) : (Json.nat n.toNat).uint16? = some n := by
  rw [uint16?, natBelow?_nat n.toNat_lt, map_some, UInt16.ofNat_toNat]

lemma uint32?_nat (n : UInt32) : (Json.nat n.toNat).uint32? = some n := by
  rw [uint32?, natBelow?_nat n.toNat_lt, map_some, UInt32.ofNat_toNat]

lemma int32?_int (n : Int32) : (Json.int n.toInt).int32? = some n := by
  have hlo := n.le_toInt
  have hhi := n.toInt_lt
  have hwithin : (int n.toInt).intWithin? (-2147483648) 2147483648 = some n.toInt := by
    rw [int, intWithin?, if_pos]
    simp only [Bool.and_eq_true, decide_eq_true_eq]
    exact ⟨hlo, hhi⟩
  rw [int32?, hwithin, map_some, Int32.ofInt_toInt]

lemma list?_map {l : List α} (h : ∀ a ∈ l, read ((write a).mapNumbers f) = some a) :
    ((arr (l.map write)).mapNumbers f).list? read = some l := by
  rw [mapNumbers, mapItems_eq_map, list?]
  induction l with
  | nil => rfl
  | cons a l ih =>
    have hrest := ih fun b hb => h b (List.mem_cons_of_mem a hb)
    simp only [List.map_cons, List.mapM_cons, h a List.mem_cons_self, hrest]
    rfl

lemma vector?_map {n : Nat} {v : Vector α n}
    (h : ∀ a ∈ v.toList, read ((write a).mapNumbers f) = some a) :
    ((arr (v.toList.map write)).mapNumbers f).vector? n read = some v := by
  have hsize : v.toList.toArray.size = n := by simp
  rw [vector?, list?_map h]
  simp only [bind, bind_some, hsize, dite_true]
  exact congrArg some (Vector.toArray_inj.1 (Array.toArray_toList ..))

/-- A value that may be absent, and whose document is not null. -/
lemma option?_ofOption {o : Option α}
    (h : ∀ a ∈ o, read ((write a).mapNumbers f) = some a ∧ (write a).mapNumbers f ≠ .null) :
    option? read ((ofOption write o).mapNumbers f) = some o := by
  cases o with
  | none => rfl
  | some a =>
    obtain ⟨hread, hnull⟩ := h a rfl
    rw [ofOption, Json.option?, hread, map_some]
    exact hnull

end Json

/-! ## The numbers of a node -/

def Transform.numbers (t : Transform) : List Float32 := t.toLists.flatten

def SocketValue.numbers : SocketValue → List Float32
  | .float v => [v]
  | .vec3 v => v.toList
  | .vec2 v => v.toList
  | .transform v => v.numbers
  | .floats v => v
  | .vec3s v => v.flatMap Vec3.toList
  | .vec2s v => v.flatMap Vec2.toList
  | .transforms v => v.flatMap Transform.numbers
  | _ => []

def NodeKind.numbers : NodeKind → List Float32
  | .value v => [v]
  | .rgb color => color.toList
  | .textureCoordinate _ transform => (transform.map Transform.numbers).getD []
  | _ => []

/-- The numbers in a node: in its kind and in the values of its inputs. -/
def Node.numbers (n : Node) : List Float32 := n.kind.numbers ++ n.inputs.flatMap (·.value.numbers)

open Json

variable {f : Number → Number} {P : Float32 → Prop} (h : Faithful f P) {v : SocketValue}

/-! ## Sockets -/

include h

lemma Vec3.ofJson?_toJson {v : Vec3} (hv : ∀ x ∈ v.toList, P x) :
    Vec3.ofJson? (v.toJson.mapNumbers f) = some v := by
  simp only [Vec3.toList, List.forall_mem_cons] at hv
  simp [Vec3.toJson, Vec3.ofJson?, fields?, record?, occurrences, Fields.get?, List.lookup,
    h.float32? hv.1, h.float32? hv.2.1, h.float32? hv.2.2.1]

lemma Vec2.ofJson?_toJson {v : Vec2} (hv : ∀ x ∈ v.toList, P x) :
    Vec2.ofJson? (v.toJson.mapNumbers f) = some v := by
  simp only [Vec2.toList, List.forall_mem_cons] at hv
  simp [Vec2.toJson, Vec2.ofJson?, fields?, record?, occurrences, Fields.get?, List.lookup,
    h.float32? hv.1, h.float32? hv.2.1]

lemma Transform.ofJson?_toJson {t : Transform} (ht : ∀ x ∈ t.numbers, P x) :
    Transform.ofJson? (t.toJson.mapNumbers f) = some t := by
  have hrow : ∀ row ∈ t.rows.toList,
      ((arr (row.toList.map float)).mapNumbers f).vector? 4 float32? = some row := by
    intro row hr
    refine vector?_map fun x hx => h.float32? (ht x ?_)
    exact List.mem_flatten.2 ⟨row.toList, List.mem_map_of_mem hr, hx⟩
  have hrows : (arr (t.toLists.map fun row => .arr (row.map float))).mapNumbers f =
      (arr (t.rows.toList.map fun row => .arr (row.toList.map float))).mapNumbers f := by
    rw [Transform.toLists, List.map_map]
    rfl
  rw [Transform.toJson, mapNumbers, mapMembers, hrows]
  have hread := vector?_map hrow
  generalize (arr (t.rows.toList.map _)).mapNumbers f = rows at hread ⊢
  simp [Transform.ofJson?, fields?, record?, occurrences, Fields.get?, List.lookup, hread]

omit h in
lemma SocketType.ofJson?_toJson (t : SocketType) :
    SocketType.ofJson? (t.toJson.mapNumbers f) = some t := by
  cases t <;> rfl

/-- A value with a payload is read from the payload. -/
lemma SocketValue.ofPayload?_toJson (hv : ∀ x ∈ v.numbers, P x) {p : Json}
    (hp : v.payload? = some p) : ofPayload? v.form (p.mapNumbers f) = some v := by
  have hmem : ∀ {α : Type} {floats : α → List Float32} {l : List α},
      (∀ x ∈ l.flatMap floats, P x) → ∀ a ∈ l, ∀ x ∈ floats a, P x :=
    fun hl a ha x hx => hl x (List.mem_flatMap.2 ⟨a, ha, hx⟩)
  cases v with
  | none => cases hp
  | bool v | string v =>
    cases hp
    rfl
  | float v =>
    cases hp
    simp only [ofPayload?, form, h.float32? (hv v (List.mem_singleton_self v)), Option.map_some]
  | int v =>
    cases hp
    simp only [ofPayload?, form, h.mapNumbers_int, int32?_int, Option.map_some]
  | uint v =>
    cases hp
    simp only [ofPayload?, form, h.mapNumbers_nat, uint32?_nat, Option.map_some]
  | vec3 v =>
    cases hp
    simp only [ofPayload?, form, Vec3.ofJson?_toJson h hv, Option.map_some]
  | vec2 v =>
    cases hp
    simp only [ofPayload?, form, Vec2.ofJson?_toJson h hv, Option.map_some]
  | transform v =>
    cases hp
    simp only [ofPayload?, form, Transform.ofJson?_toJson h hv, Option.map_some]
  | bools v | strings v =>
    cases hp
    exact congrArg (Option.map _) (list?_map fun a _ => rfl)
  | floats v =>
    cases hp
    exact congrArg (Option.map _) (list?_map fun x hx => h.float32? (hv x hx))
  | ints v =>
    cases hp
    refine congrArg (Option.map _) (list?_map fun a _ => ?_)
    rw [h.mapNumbers_int, int32?_int]
  | vec3s v =>
    cases hp
    exact congrArg (Option.map _) (list?_map fun a ha => Vec3.ofJson?_toJson h (hmem hv a ha))
  | vec2s v =>
    cases hp
    exact congrArg (Option.map _) (list?_map fun a ha => Vec2.ofJson?_toJson h (hmem hv a ha))
  | transforms v =>
    cases hp
    exact congrArg (Option.map _) (list?_map fun a ha => Transform.ofJson?_toJson h (hmem hv a ha))

lemma SocketValue.ofJson?_toJson (hv : ∀ x ∈ v.numbers, P x) :
    SocketValue.ofJson? (v.toJson.mapNumbers f) = some v := by
  rw [SocketValue.toJson]
  cases hp : v.payload? with
  | none =>
    cases v with
    | none => rfl
    | _ => cases hp
  | some p =>
    have hform : v.form ≠ "None" := by
      cases v with
      | none => cases hp
      | _ => exact ne_of_beq_false rfl
    simp only [mapNumbers, mapMembers, SocketValue.ofJson?, variant?, bind, bind_some, if_neg hform]
    exact SocketValue.ofPayload?_toJson h hv hp

lemma Input.ofJson?_toJson {i : Input} (hi : ∀ x ∈ i.value.numbers, P x) :
    Input.ofJson? (i.toJson.mapNumbers f) = some i := by
  simp [Input.toJson, Input.ofJson?, fields?, record?, occurrences, Fields.get?, List.lookup,
    SocketType.ofJson?_toJson, SocketValue.ofJson?_toJson h hi, str?, bool?]

omit h in
lemma Output.ofJson?_toJson (o : Output) : Output.ofJson? (o.toJson.mapNumbers f) = some o := by
  simp [Output.toJson, Output.ofJson?, fields?, record?, occurrences, Fields.get?, List.lookup,
    SocketType.ofJson?_toJson, str?]

/-! ## Kinds and nodes -/

omit h in
lemma ScriptSource.ofJson?_toJson (source : ScriptSource) :
    ScriptSource.ofJson? (source.toJson.mapNumbers f) = some source := by
  cases source with
  | file path => rfl
  | bytecode hash => rfl

omit h in
/-- The parameters of a kind stand under the names that are looked for. -/
lemma NodeKind.ofJson?_eq_ofFields? (k : NodeKind) :
    NodeKind.ofJson? (k.toJson.mapNumbers f) = ofFields? k.label fun name =>
      (("type", str k.label) :: mapMembers f k.parameters).lookup name := by
  have hnames : ("type" :: parameterNames k.label).all (fun name =>
      occurrences (("type", str k.label) :: mapMembers f k.parameters) name ≤ 1) = true := by
    cases k <;> simp [label, parameters, parameterNames, occurrences]
  simp [toJson, ofJson?, List.lookup, fields?, record?, hnames]

lemma NodeKind.ofJson?_toJson {k : NodeKind} (hk : ∀ x ∈ k.numbers, P x) :
    NodeKind.ofJson? (k.toJson.mapNumbers f) = some k := by
  rw [ofJson?_eq_ofFields?]
  cases k with
  | value v =>
    simp [label, parameters, List.lookup, ofFields?, Fields.get?,
      h.float32? (hk v (List.mem_singleton_self v))]
  | rgb color =>
    simp [label, parameters, List.lookup, ofFields?, Fields.get?, Vec3.ofJson?_toJson h hk]
  | math op useClamp =>
    have hop : lenientEnum? MathOp.all MathOp.label (.str op.label) = some op := by
      cases op <;> rfl
    simp [label, parameters, List.lookup, ofFields?, Fields.get?, bool?, hop]
  | vectorMath op =>
    have hop : lenientEnum? VectorMathOp.all VectorMathOp.label (.str op.label) = some op := by
      cases op <;> rfl
    simp [label, parameters, List.lookup, ofFields?, Fields.get?, hop]
  | mixRgb blend useClamp =>
    have hblend : lenientEnum? MixBlend.all MixBlend.label (.str blend.label) = some blend := by
      cases blend <;> rfl
    simp [label, parameters, List.lookup, ofFields?, Fields.get?, bool?, hblend]
  | textureCoordinate fromDupli transform =>
    have htransform : option? Transform.ofJson?
        ((ofOption Transform.toJson transform).mapNumbers f) = some transform := by
      refine option?_ofOption fun t ht => ⟨Transform.ofJson?_toJson h fun x hx => hk x ?_, ?_⟩
      · rw [NodeKind.numbers, ht, map_some]
        exact hx
      · simp [Transform.toJson]
    simp [label, parameters, List.lookup, ofFields?, Fields.get?, Fields.option?, bool?, htransform]
  -- the documents of numbers are not to be opened: their bounds are large
  | imageTexture slot filename colorspace =>
    have hread : ∀ j, uint32? j = some slot → ofFields? "ImageTexture" (fun name =>
        [("type", .str "ImageTexture"), ("slot", j), ("filename", .str filename),
          ("colorspace", .str colorspace)].lookup name) =
            some (.imageTexture slot filename colorspace) := fun j hj => by
      simp [List.lookup, ofFields?, Fields.get?, str?, hj]
    rw [parameters, mapMembers, h.mapNumbers_nat]
    exact hread _ (uint32?_nat slot)
  | ambientOcclusion samples onlyLocal =>
    have hread : ∀ j, uint32? j = some samples → ofFields? "AmbientOcclusion" (fun name =>
        [("type", .str "AmbientOcclusion"), ("samples", j),
          ("only_local", .bool onlyLocal)].lookup name) =
            some (.ambientOcclusion samples onlyLocal) := fun j hj => by
      simp [List.lookup, ofFields?, Fields.get?, bool?, hj]
    rw [parameters, mapMembers, h.mapNumbers_nat]
    exact hread _ (uint32?_nat samples)
  | script source =>
    simp [label, parameters, List.lookup, ofFields?, Fields.get?, ScriptSource.ofJson?_toJson]
  | namedAttribute _ | bump _ _ | bumpFromDisplacement _ | displacement _ =>
    simp [label, parameters, List.lookup, ofFields?, Fields.get?, bool?, str?]
  | _ => simp [label, ofFields?, plain]

lemma Node.ofJson?_toJson {n : Node} (hn : ∀ x ∈ n.numbers, P x) :
    Node.ofJson? (n.toJson.mapNumbers f) = some n := by
  simp only [Node.numbers, List.mem_append, List.mem_flatMap] at hn
  have hkind := NodeKind.ofJson?_toJson h fun x hx => hn x (.inl hx)
  have hinputs := list?_map fun i hi =>
    Input.ofJson?_toJson h fun x hx => hn x (.inr ⟨i, hi, hx⟩)
  have houtputs := list?_map (l := n.outputs) fun o _ => Output.ofJson?_toJson (f := f) o
  rw [Node.toJson, mapNumbers]
  simp only [mapMembers]
  generalize (arr (n.inputs.map Input.toJson)).mapNumbers f = inputs at hinputs ⊢
  generalize (arr (n.outputs.map Output.toJson)).mapNumbers f = outputs at houtputs ⊢
  simp [Node.ofJson?, fields?, record?, occurrences, Fields.get?, List.lookup, hkind, hinputs,
    houtputs]

/-! ## Links and options -/

omit h in
lemma Link.ofJson?_arr {l : Link} {source target output input : Json}
    (hs : source.index32? = some l.source) (ht : target.index32? = some l.target)
    (ho : output.uint16? = some l.output) (hi : input.uint16? = some l.input) :
    Link.ofJson? (.arr [source, target, .obj [("from_output", output), ("to_input", input)]]) =
      some l := by
  simp [Link.ofJson?, fields?, record?, occurrences, Fields.get?, List.lookup, hs, ht, ho, hi]

lemma Link.ofJson?_toJson {l : Link} (hs : l.source < UInt32.size) (ht : l.target < UInt32.size) :
    Link.ofJson? (l.toJson.mapNumbers f) = some l := by
  have hdoc : l.toJson.mapNumbers f = .arr [.nat l.source, .nat l.target,
      .obj [("from_output", .nat l.output.toNat), ("to_input", .nat l.input.toNat)]] := by
    simp [Link.toJson, h.mapNumbers_nat]
  rw [hdoc]
  exact ofJson?_arr (natBelow?_nat hs) (natBelow?_nat ht) (uint16?_nat _) (uint16?_nat _)

omit h in
lemma FinalizeOptions.ofJson?_toJson (o : FinalizeOptions) :
    FinalizeOptions.ofJson? (o.toJson.mapNumbers f) = some o :=
  rfl

end Shading
