import Mathlib.Order.Defs.PartialOrder
import Shading.Proofs.Composition
import Shading.Proofs.Machine

/-!
# Numbers of attributes

A section numbers the names of the attributes that it reads, in a table that all sections share.
Nothing else in it depends on that table.  What a step asks the table for and what it appends is
known beforehand, up to the numbers that stand in it (`Rendered`).  So if the construction is started
again with a table that goes on from the one it left behind, it does the same and numbers no more
names (`Numbered`).
-/

namespace Shading

open Instruction List AttributeIds EStateM

/-! ## Tables -/

namespace AttributeIds

/-- A table comes before another if the other goes on from it: no number has changed. -/
instance : Preorder AttributeIds where
  le ids ids' := ids.names.toList <+: ids'.names.toList
  le_refl ids := prefix_rfl
  le_trans _ _ _ h h' := h.trans h'

lemma le_def {ids ids' : AttributeIds} : ids ≤ ids' ↔ ids.names.toList <+: ids'.names.toList := Iff.rfl

lemma le_insert (ids : AttributeIds) (name : String) : ids ≤ ⟨ids.names.insert name⟩ := by
  rw [le_def]
  by_cases h : name ∈ ids.names
  · rw [OrderedSet.insert_of_mem h]
  · rw [OrderedSet.toList_insert_of_not_mem h]
    exact prefix_append _ _

lemma position_eq {ids ids' : AttributeIds} {name : String} (h : ids ≤ ids') (hn : name ∈ ids.names) :
    ids'.position name = ids.position name := by
  obtain ⟨rest, hrest⟩ := le_def.1 h
  rw [position, position, ← hrest, idxOf_append_of_mem hn]

/-- Asking for a number goes on from the table, and asking again gives the same. -/
lemma lookupKey_spec (ids : AttributeIds) (key : AttributeKey) :
    ids ≤ (ids.lookupKey key).2 ∧
      ∀ ids', (ids.lookupKey key).2 ≤ ids' → ids'.lookupKey key = ((ids.lookupKey key).1, ids') := by
  cases key with
  | standard a => exact ⟨le_rfl, fun _ _ => rfl⟩
  | named name =>
    simp only [lookupKey, lookup]
    cases StandardAttribute.ofName? name with
    | some a => exact ⟨le_rfl, fun _ _ => rfl⟩
    | none =>
      refine ⟨ids.le_insert name, fun ids' h => ?_⟩
      have hmem : name ∈ ids.names.insert name := OrderedSet.mem_insert.2 (.inr rfl)
      have hmem' : name ∈ ids'.names := (le_def.1 h).subset hmem
      simp only [OrderedSet.insert_of_mem hmem', position_eq h hmem]

def number (ids : AttributeIds) (key : AttributeKey) : Nat := (ids.lookupKey key).1

/-- The table after asking for some keys. -/
def after (ids : AttributeIds) (keys : List AttributeKey) : AttributeIds :=
  keys.foldl (fun ids key => (ids.lookupKey key).2) ids

lemma after_append (ids : AttributeIds) (keys keys' : List AttributeKey) :
    ids.after (keys ++ keys') = (ids.after keys).after keys' := foldl_append

lemma le_after (ids : AttributeIds) (keys : List AttributeKey) : ids ≤ ids.after keys := by
  induction keys generalizing ids with
  | nil => exact le_rfl
  | cons key keys ih => exact (ids.lookupKey_spec key).1.trans (ih _)

/-- A key that was asked for keeps its number. -/
lemma lookupKey_of_after_le {ids ids' : AttributeIds} {keys : List AttributeKey} {key : AttributeKey}
    (hkey : key ∈ keys) (h : ids.after keys ≤ ids') :
    ids'.lookupKey key = ((ids.after keys).number key, ids') := by
  induction keys generalizing ids with
  | nil => cases hkey
  | cons k keys ih =>
    obtain rfl | hkey := mem_cons.1 hkey
    · have hle : (ids.lookupKey key).2 ≤ ids.after (key :: keys) := le_after _ keys
      have hspec := (ids.lookupKey_spec key).2
      rw [hspec _ (hle.trans h), number, hspec _ hle]
    · exact ih hkey h

lemma after_eq_self {ids ids' : AttributeIds} {keys : List AttributeKey} (h : ids.after keys ≤ ids') :
    ids'.after keys = ids' := by
  refine foldlRecOn (motive := (· = ids')) _ _ rfl fun _ hids k hk => ?_
  rw [hids, lookupKey_of_after_le hk h]

end AttributeIds

/-! ## What steps append -/

/-- An instruction with its data that reads no attribute. -/
abbrev Whole : List Instruction → Prop := Machine.Item fun _ _ o => o ≠ .attr

lemma Whole.single {o : Opcode} {a b c : Int32} (ho : o.isSingle = true) :
    Whole [.op o a b c] := by
  refine ⟨o, Opcode.ofWord?_word o, ?_, ?_⟩
  · cases o <;> first | rfl | cases ho
  · rintro rfl
    cases ho

lemma Whole.texCoord {a b c : Int32} {data : List Instruction}
    (h : data.length + 1 = Machine.width (.op .texCoord a b c) .texCoord) :
    Whole (.op .texCoord a b c :: data) :=
  ⟨.texCoord, Opcode.ofWord?_word _, h, Opcode.noConfusion⟩

/-- A step that appends such an instruction and does nothing else. -/
def Emit.Puts (m : Emit PUnit) : Prop :=
  ∃ words, Whole words ∧ ∀ s, m s = .ok ⟨⟩ { s with code := words.foldl Array.push s.code }

namespace Emit.Puts

variable {o : Opcode} {a b c : Int32} {i : Instruction} {slot : Nat} {transform : Option Transform}

lemma single (ho : o.isSingle = true) : Puts (op o a b c) := ⟨[_], .single ho, fun _ => rfl⟩

lemma data (ho : o.hasData = true) : Puts (op o a b c >>= fun _ => push i) := by
  refine ⟨[.op o a b c, i], ⟨o, Opcode.ofWord?_word o, ?_, ?_⟩, fun _ => rfl⟩
  · cases o <;> first | rfl | cases ho
  · rintro rfl
    cases ho

lemma normal : Puts (op .texCoord 0 b 0) := ⟨[_], .texCoord rfl, fun _ => rfl⟩

lemma forIn_push {β : Type} (f : β → Instruction) (l : List β) (s : SectionState) :
    (forIn l PUnit.unit (fun b _ => do
      push (f b)
      return ForInStep.yield PUnit.unit) : Emit PUnit) s =
      .ok ⟨⟩ { s with code := (l.map f).foldl Array.push s.code } := by
  induction l generalizing s with
  | nil => rfl
  | cons b l ih =>
    rw [forIn_cons]
    exact ih { s with code := s.code.push (f b) }

/-- Coordinates of an object, with the transformation if there is one. -/
lemma object : Puts (do
    op .texCoord 1 (SectionContext.slotWord slot) (boolWord transform.isSome)
    if let some t := transform then
      for row in t.rows.toList do
        push (vec4 row)) := by
  cases transform with
  | none => exact ⟨[_], .texCoord rfl, fun _ => rfl⟩
  | some t =>
    refine ⟨.op .texCoord 1 (SectionContext.slotWord slot) 1 ::
      t.rows.toList.map vec4, .texCoord (by simp; rfl), fun s => ?_⟩
    change EStateM.bind _ _ { s with code := s.code.push _ } = _
    rw [EStateM.bind, forIn_push]
    rfl

end Emit.Puts

/-- What is appended at once: an instruction with its data, or the read of an attribute. -/
inductive Piece where
  | plain (words : List Instruction)
  | read (key : AttributeKey) (b c : Int32)

namespace Piece

/-- The instructions of a piece, with some numbers. -/
def words (number : AttributeKey → Nat) : Piece → List Instruction
  | plain words => words
  | read key b c => [.op .attr (Int32.ofNat (number key)) b c]

/-- The piece is whole, and the attribute that it reads is among some. -/
def Within (keys : List AttributeKey) : Piece → Prop
  | plain words => Whole words
  | read key _ _ => key ∈ keys

variable {p : Piece} {pieces : List Piece} {keys keys' : List AttributeKey} {ids ids' : AttributeIds}
  {number number' : AttributeKey → Nat}

lemma Within.mono (h : p.Within keys) (hk : keys ⊆ keys') : p.Within keys' := by
  cases p with
  | plain words => exact h
  | read key b c => exact hk h

def render (number : AttributeKey → Nat) (pieces : List Piece) : List Instruction :=
  pieces.flatMap (words number)

lemma render_append (number : AttributeKey → Nat) (pieces pieces' : List Piece) :
    render number (pieces ++ pieces') = render number pieces ++ render number pieces' :=
  flatMap_append

lemma length_render (pieces : List Piece) (number number' : AttributeKey → Nat) :
    (render number pieces).length = (render number' pieces).length := by
  have hone : ∀ p : Piece, (p.words number).length = (p.words number').length := by
    rintro ⟨⟩ <;> rfl
  simp only [render, length_flatMap, hone]

lemma render_congr (h : ∀ p ∈ pieces, p.Within keys) (hn : ∀ key ∈ keys, number key = number' key) :
    render number pieces = render number' pieces := by
  refine flatMap_congr fun p hp => ?_
  cases p with
  | plain words => rfl
  | read key b c => rw [words, words, hn key (h _ hp)]

/-- Numbers that were asked for have come to stay. -/
lemma render_eq (h : ∀ p ∈ pieces, p.Within keys) (hids : ids.after keys ≤ ids') :
    render ids'.number pieces = render (ids.after keys).number pieces :=
  render_congr h fun key hkey => by
    rw [number, lookupKey_of_after_le hkey hids]

end Piece

/-! ## Steps -/

namespace Emit

open Piece SectionContext

variable {α β : Type} {m : Emit α} {f : α → Emit β}

/-- The state that a step leaves behind, whether it failed or not. -/
def left : Result BytecodeError SectionState α → SectionState
  | .ok _ s => s
  | .error _ s => s

/-- The same outcome with another table. -/
def renumber (ids : AttributeIds) :
    Result BytecodeError SectionState α → Result BytecodeError SectionState α
  | .ok a s => .ok a { s with ids }
  | .error e s => .error e { s with ids }

/-- A step that goes on from the table it finds, and does the same with every table that goes on from
the one it leaves behind, which it then leaves alone. -/
structure Numbered (m : Emit α) : Prop where
  grows : ∀ s, s.ids ≤ (left (m s)).ids
  again : ∀ {s ids}, (left (m s)).ids ≤ ids → m { s with ids } = renumber ids (m s)

/-- The same outcome with other instructions and another table. -/
def place (code : Array Instruction) (ids : AttributeIds) :
    Result BytecodeError SectionState α → Result BytecodeError SectionState α
  | .ok a s => .ok a { s with code, ids }
  | .error e s => .error e { s with code, ids }

/-- What a step does depends neither on the instructions before it nor on the table: it asks for some
keys and appends some pieces. -/
structure Rendered (m : Emit α) : Prop where
  spec : ∀ s, ∃ keys pieces, (∀ p ∈ pieces, p.Within keys) ∧ ∀ code ids, code.size = s.code.size →
    m { s with code, ids } =
      place (code ++ (render (ids.after keys).number pieces).toArray) (ids.after keys) (m s)

namespace Rendered

lemma numbered (h : Rendered m) : Numbered m := by
  refine ⟨fun s => ?_, fun {s ids} hids => ?_⟩
  all_goals obtain ⟨keys, pieces, hwithin, heq⟩ := h.spec s
  all_goals have hself := heq s.code s.ids rfl
  · have hle := s.ids.le_after keys
    rw [hself]
    cases m s <;> exact hle
  · have hleft : (left (m s)).ids = s.ids.after keys ∧
        (left (m s)).code = s.code ++ (render (s.ids.after keys).number pieces).toArray := by
      rw [hself]
      cases m s <;> exact ⟨rfl, rfl⟩
    rw [hleft.1] at hids
    rw [heq s.code ids rfl, after_eq_self hids, render_eq hwithin hids, ← hleft.2]
    cases m s <;> rfl

/-! ### Rules -/

/-- A step that appends nothing and does not look at the table. -/
lemma of_eq (h : ∀ s code ids, code.size = s.code.size → m { s with code, ids } =
    place code ids (m s)) : Rendered m :=
  ⟨fun s => ⟨[], [], by simp, fun code ids hcode => by
    rw [h s code ids hcode, render, flatMap_nil, Array.append_empty]
    rfl⟩⟩

lemma pure (a : α) : Rendered (Pure.pure a) := of_eq fun _ _ _ _ => rfl

lemma throw (e : BytecodeError) : Rendered (MonadExcept.throw e : Emit α) := of_eq fun _ _ _ _ => rfl

lemma modify {f : SectionState → SectionState} (h : ∀ s code ids, code.size = s.code.size →
    f { s with code, ids } = { f s with code, ids }) : Rendered (modify f) :=
  of_eq fun s code ids hcode => congrArg (Result.ok PUnit.unit) (h s code ids hcode)

lemma of_puts {m : Emit PUnit} (h : Puts m) : Rendered m := by
  obtain ⟨words, hw, heq⟩ := h
  refine ⟨fun s => ⟨[], [.plain words], forall_mem_singleton.2 hw, fun code ids _ => ?_⟩⟩
  rw [heq, heq, render, flatMap_singleton]
  simp only [foldl_push_eq_append']
  rfl

lemma bind (hm : Rendered m) (hf : ∀ a, Rendered (f a)) : Rendered (m >>= f) := by
  have hbind : ∀ t, (m >>= f) t = EStateM.bind m f t := fun _ => rfl
  refine ⟨fun s => ?_⟩
  obtain ⟨keys, pieces, hwithin, heq⟩ := hm.spec s
  have hself := heq s.code s.ids rfl
  cases hr : m s with
  | error e t =>
    refine ⟨keys, pieces, hwithin, fun code ids hcode => ?_⟩
    rw [hbind, hbind, EStateM.bind, EStateM.bind, heq code ids hcode, hr]
    rfl
  | ok a t =>
    obtain ⟨keys', pieces', hwithin', heq'⟩ := (hf a).spec t
    refine ⟨keys ++ keys', pieces ++ pieces', forall_mem_append.2 ⟨fun p hp =>
      (hwithin p hp).mono (subset_append_left ..), fun p hp =>
      (hwithin' p hp).mono (subset_append_right ..)⟩, fun code ids hcode => ?_⟩
    have hsize : t.code.size = s.code.size + (render (s.ids.after keys).number pieces).length := by
      rw [hr] at hself
      have := congrArg (fun r => (left r).code.size) hself
      simpa [left, place] using this
    have hrest := heq' (code ++ (render (ids.after keys).number pieces).toArray) (ids.after keys) (by
      rw [hsize, ← length_render pieces (ids.after keys).number]
      simp [hcode])
    rw [hbind, hbind, EStateM.bind, EStateM.bind, heq code ids hcode, hr]
    have happ := render_append ((ids.after keys).after keys').number pieces pieces'
    rw [render_eq hwithin ((ids.after keys).le_after keys')] at happ
    rw [after_append, happ, ← append_toArray, ← Array.append_assoc]
    exact hrest

lemma get_bind {f : SectionState → Emit β} (hf : ∀ s code ids, f { s with code, ids } = f s)
    (h : ∀ s, Rendered (f s)) : Rendered (get >>= f) := by
  refine ⟨fun s => ?_⟩
  obtain ⟨keys, pieces, hwithin, heq⟩ := (h s).spec s
  refine ⟨keys, pieces, hwithin, fun code ids hcode => ?_⟩
  have hbind : ∀ t, (get >>= f) t = f t t := fun _ => rfl
  rw [hbind, hbind, hf]
  exact heq code ids hcode

lemma of_get {f : SectionState → Emit β} (h : ∀ s code ids, code.size = s.code.size →
    f { s with code, ids } { s with code, ids } = place code ids (f s s)) : Rendered (get >>= f) :=
  of_eq h

lemma looks : Looks fun _ m => Rendered m := ⟨⟨pure, throw, bind⟩, get_bind⟩

end Rendered

/-! ### Elementary steps -/

lemma rendered_claim (size : Nat) : Rendered (claim size) := by
  refine .of_get fun s code ids hcode => ?_
  rw [hcode]
  cases s.stack.claim size s.code.size <;> rfl

lemma rendered_read (offset size : Nat) : Rendered (read offset size) := by
  refine .of_get fun s code ids hcode => ?_
  rw [hcode]
  cases s.stack.read offset size s.code.size <;> rfl

lemma rendered_release (offset size : Nat) : Rendered (release offset size) :=
  .modify fun s code ids hcode => by simp only [hcode]

lemma handles_rendered : Handles fun _ m => Rendered m where
  toLooks := Rendered.looks
  claim := rendered_claim
  read := rendered_read
  release := rendered_release
  addUser _ _ := .modify fun _ _ _ _ => rfl
  setInputSlot _ _ _ := .modify fun _ _ _ _ => rfl
  setOutputSlot _ _ _ := .modify fun _ _ _ _ => rfl
  setWeight _ := .modify fun _ _ _ _ => rfl
  single ho := .of_puts (.single ho)
  data ho := .of_puts (.data ho)

/-! ### Attributes -/

/-- Asking for a number without using it. -/
lemma rendered_attributeWord (key : AttributeKey) :
    Rendered (attributeWord key >>= fun _ => Pure.pure ⟨⟩ : Emit PUnit) := by
  refine ⟨fun s => ⟨[key], [], by simp, fun code ids _ => ?_⟩⟩
  rfl

lemma rendered_emitAttributeRead (key : AttributeKey) (slot : Nat) (width : Int32) :
    Rendered (emitAttributeRead key slot width) := by
  refine ⟨fun s => ⟨[key], [.read key (slotWord slot) width],
    forall_mem_singleton.2 (mem_singleton.2 rfl), fun code ids _ => ?_⟩⟩
  have hword : (ids.lookupKey key).2.lookupKey key = ((ids.lookupKey key).1, (ids.lookupKey key).2) :=
    (ids.lookupKey_spec key).2 _ le_rfl
  change _ = place (code ++ (render (ids.lookupKey key).2.number _).toArray) (ids.lookupKey key).2 _
  rw [render, flatMap_singleton, words, number, hword, ← Array.push_eq_append]
  rfl

lemma emitAttributeRead_of_lookupKey {key : AttributeKey} {n slot : Nat} {width : Int32}
    {s : SectionState} (h : s.ids.lookupKey key = (n, s.ids)) :
    emitAttributeRead key slot width s = op .attr (Int32.ofNat n) (slotWord slot) width s := by
  have heq : emitAttributeRead key slot width s = op .attr (Int32.ofNat (s.ids.lookupKey key).1)
      (slotWord slot) width { s with ids := (s.ids.lookupKey key).2 } := rfl
  rw [heq, h]

/-- The forms of an attribute that something uses, each read in some way. -/
def readForms (ctx : SectionContext) (id : NodeId) (read : Nat → Int32 → Emit Unit) : Emit Unit := do
  for x in [("Color", wideRead), ("Vector", wideRead), ("Fac", narrowRead)] do
    if ctx.isOutputLinked id x.1 then
      let slot ← ctx.assignOutput id x.1
      read slot x.2

/-- A number that was asked for does not change, so it can as well be asked for at every read. -/
lemma emitAttribute_eq (ctx : SectionContext) (id : NodeId) (name : String) :
    ctx.emitAttribute id name = (attributeWord (.ofName name) >>= fun _ => readForms ctx id
      (emitAttributeRead (.ofName name))) := by
  have hread : ∀ (l : List (String × Int32)) n s,
      s.ids.lookupKey (.ofName name) = (n, s.ids) →
      (forIn l PUnit.unit (fun x _ => do
        if ctx.isOutputLinked id x.1 then
          let slot ← ctx.assignOutput id x.1
          op .attr (Int32.ofNat n) (slotWord slot) x.2
        return ForInStep.yield PUnit.unit) : Emit PUnit) s =
      (forIn l PUnit.unit (fun x _ => do
        if ctx.isOutputLinked id x.1 then
          let slot ← ctx.assignOutput id x.1
          emitAttributeRead (.ofName name) slot x.2
        return ForInStep.yield PUnit.unit) : Emit PUnit) s := by
    intro l n s hs
    induction l generalizing s with
    | nil => rfl
    | cons x l ih =>
      rw [forIn_cons, forIn_cons]
      by_cases hl : ctx.isOutputLinked id x.1 = true
      · have hgrows := (handles_rendered.assignOutput x.1 : Rendered (ctx.assignOutput id x.1)).numbered
        simp only [if_pos hl, bind_assoc]
        change EStateM.bind _ _ s = EStateM.bind _ _ s
        rw [EStateM.bind, EStateM.bind]
        cases hr : ctx.assignOutput id x.1 s with
        | error e t => rfl
        | ok slot t =>
          have hle : s.ids ≤ t.ids := by simpa [hr, left] using hgrows.grows s
          have ht := (s.ids.lookupKey_spec (.ofName name)).2 t.ids (by rwa [hs])
          rw [hs] at ht
          change _ = EStateM.bind _ _ t
          rw [EStateM.bind, emitAttributeRead_of_lookupKey ht]
          exact ih { t with code := t.code.push _ } ht
      · simp only [if_neg hl]
        exact ih s hs
  funext s
  have hs := (s.ids.lookupKey_spec (.ofName name)).2 _ le_rfl
  have hrun := hread [("Color", wideRead), ("Vector", wideRead), ("Fac", narrowRead)] _
    { s with ids := (s.ids.lookupKey (.ofName name)).2 } hs
  have hbind : ∀ {m m' : Emit PUnit} {t : SectionState}, m t = m' t →
      (m >>= fun _ => Pure.pure ()) t = (m' >>= fun _ => Pure.pure ()) t := by
    intro m m' t h
    change EStateM.bind _ _ t = EStateM.bind _ _ t
    rw [EStateM.bind, EStateM.bind, h]
  exact hbind hrun

end Emit

/-! ### Nodes and sections -/

namespace SectionContext

open Emit

variable {ctx : SectionContext} {id : NodeId}

lemma rendered_emitAttribute (name : String) : Rendered (ctx.emitAttribute id name) := by
  have h : Handles fun _ m => Rendered m := handles_rendered
  rw [emitAttribute_eq, ← pure_bind PUnit.unit fun _ => readForms ctx id _, ← bind_assoc]
  refine (rendered_attributeWord _).bind fun _ => Rendered.bind (h.forIn (fun x _ _ => ?_) _) fun _ =>
    .pure _
  exact h.ite (fun _ => (h.assignOutput _).bind fun _ => (rendered_emitAttributeRead ..).bind fun _ =>
    .pure _) fun _ => .pure _

lemma rendered_emitNode (node : Node) : Rendered (ctx.emitNode id node) := by
  have h : Handles fun _ m => Rendered m := handles_rendered
  have hread := rendered_emitAttributeRead
  have hgen : ∀ slot, Rendered (ctx.emitGenerated slot) := h.emitGenerated fun _ _ => hread ..
  exact h.plain.emitNode (fun _ _ => rendered_emitAttribute _)
    (fun _ _ _ => h.emitTextureCoordinate (fun _ => hgen)
      (fun _ => .of_puts .normal) (fun _ _ => hread ..) fun _ => .of_puts .object)
    (fun _ _ _ _ => h.emitImage (fun _ _ => hread ..) ..) (fun _ => h.emitChecker fun _ => hgen)
    fun _ _ _ => h.plain.emitBump (fun _ => h.shareOutput ..) _ _

lemma building_rendered : Building ctx fun _ m => Rendered m where
  toLooks := Rendered.looks
  setPhase _ := .modify fun _ _ _ _ => rfl
  release := rendered_release
  forgetOutput _ _ := .modify fun _ _ _ _ => rfl
  forgetInput _ := .modify fun _ _ _ _ => rfl
  markDone _ := .modify fun _ _ _ _ => rfl
  markClosure _ := .modify fun _ _ _ _ => rfl
  modifyFlags _ := .modify fun _ _ _ _ => rfl
  request _ := .modify fun _ _ _ _ => rfl
  emitNode _ := rendered_emitNode _
  assignWeight _ _ := handles_rendered.assignWeight _
  dropWeight := .modify fun _ _ _ _ => rfl

/-- A jump and what stands behind it.  How far it goes does not depend on the numbers. -/
lemma rendered_jump {o : Opcode} (ho : o.isSingle = true) {w : Int32} {m : Emit Unit}
    (hm : Rendered m) {β : Type} {b : β} : Rendered (do
      let position := (← get).code.size
      op o 0 w 0
      m
      patchJump position
      return b) := by
  have hblock : ∀ t : SectionState, (do
      let position := (← get).code.size
      op o 0 w 0
      m
      patchJump position
      return b : Emit β) t = EStateM.bind m (fun _ t' => .ok b { t' with
        code := t'.code.modify t.code.size fun i =>
          { i with w1 := Int32.ofNat (t'.code.size - t.code.size - 1) } })
        { t with code := t.code.push (.op o 0 w 0) } := fun t => rfl
  refine ⟨fun s => ?_⟩
  obtain ⟨keys, pieces, hwithin, heq⟩ := hm.spec { s with code := s.code.push (.op o 0 w 0) }
  have hsize : ∀ {code : Array Instruction}, code.size = s.code.size →
      (code.push (.op o 0 w 0)).size = (s.code.push (.op o 0 w 0)).size := by simp
  have hjump : ∀ n, ∀ p ∈ .plain [.op o n w 0] :: pieces, p.Within keys := fun n =>
    forall_mem_cons.2 ⟨Whole.single ho, hwithin⟩
  cases hr : m { s with code := s.code.push (.op o 0 w 0) } with
  | error e t =>
    refine ⟨keys, _, hjump 0, fun code ids hcode => ?_⟩
    have hrun := heq _ ids (hsize hcode)
    rw [hr] at hrun
    rw [hblock, hblock]
    unfold EStateM.bind
    rw [hr, hrun]
    simp [place, Piece.render, Piece.words]
  | ok u t =>
    refine ⟨keys, _, hjump (Int32.ofNat (Piece.render s.ids.number pieces).length),
      fun code ids hcode => ?_⟩
    have hrun := heq _ ids (hsize hcode)
    rw [hr] at hrun
    rw [hblock, hblock]
    unfold EStateM.bind
    rw [hr, hrun]
    have hlength := Piece.length_render pieces (ids.after keys).number s.ids.number
    have hcode : ((code.push (.op o 0 w 0) ++ (Piece.render (ids.after keys).number pieces).toArray).modify
        code.size fun i => { i with w1 := Int32.ofNat (Piece.render s.ids.number pieces).length }) = code ++
          (Piece.render (ids.after keys).number (.plain [.op o (Int32.ofNat
            (Piece.render s.ids.number pieces).length) w 0] :: pieces)).toArray := by
      apply Array.ext'
      rw [Array.toList_modify, Array.toList_append, Array.toList_push, append_assoc,
        ← Array.length_toList, singleton_append, modify_append_cons, Array.toList_append]
      rfl
    simp [place, ← hcode, hlength]

lemma walking_rendered : Walking ctx fun _ m => Rendered m :=
  building_rendered.walking fun ho hm => (handles_rendered.assignInputAt _).bind fun _ =>
    rendered_jump (by obtain rfl | rfl := ho <;> rfl) hm

/-- A section depends on the table only through the numbers that it writes down. -/
theorem rendered_compile : Rendered ctx.compile := by
  have h : Building ctx fun _ m => Rendered m := building_rendered
  exact h.compile h.setPhase handles_rendered.plain.closing.emitOutput handles_rendered.leaveBump
    (handles_rendered.single rfl) handles_rendered.enterBump h.modifyFlags fun _ _ =>
      walking_rendered.visit ..

end SectionContext

end Shading
