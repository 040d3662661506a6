import Shading.Proofs.Packing
import Shading.Script.Interface

/-!
# What scripts declare

A compiled script declares its shader in the first line whose first word is a kind of shader, and
its parameters in lines after that one, up to the code.  The name of the shader is what follows the
keyword, but the keyword is cut off by its length from the start of the line.  So the name is only
right if the line does not start with a blank, and then nothing is cut inside a character
(`ScriptInterface.parse_declared`).

Every parameter that a socket can stand for gets one, in the order of the lines, and whatever default
was declared, the engine takes the value that an input starts with (`ScriptInterface.toNode_bound`).
-/

namespace Shading

open List Text

/-! ## Lines -/

lemma Text.exists_pieces (p : Char → Bool) (s : List Char) :
    ∃ ws, pieces p s = s.takeWhile (fun c => !p c) :: ws := by
  induction s with
  | nil => exact ⟨[], rfl⟩
  | cons c s ih =>
    obtain ⟨ws, hws⟩ := ih
    cases hc : p c <;> simp [pieces, hc, hws]

namespace ScriptLine

variable {l : List Char} {kind : String}

/-- The line is neither empty nor a remark, and its first word is this one. -/
def StartsWith (l : List Char) (w : String) : Prop :=
  (l ≠ [] ∧ l.head? ≠ some '#' ∧ ¬ "OpenShadingLanguage".toList <+: l) ∧
    String.ofList ((words l).headD []) = w

/-- What a line is about is told by its first word. -/
def Describes (l : List Char) : ScriptLine → Prop
  | other => ∀ w, StartsWith l w → w ∉ kinds ∧ w ∉ ["param", "oparam", "code"]
  | declaration kind rest => StartsWith l kind ∧ kind ∈ kinds ∧ rest = dropBytes? kind.utf8ByteSize l
  | parameter isOutput => StartsWith l (if isOutput then "oparam" else "param")
  | code => StartsWith l "code"

lemma describes_ofText (l : List Char) : Describes l (ofText l) := by
  have hcounts : (l.isEmpty || l.head? == some '#' ||
      "OpenShadingLanguage".toList.isPrefixOf l) = true ↔
      ¬ (l ≠ [] ∧ l.head? ≠ some '#' ∧ ¬ "OpenShadingLanguage".toList <+: l) := by
    rw [Bool.or_eq_true, Bool.or_eq_true, isPrefixOf_iff_prefix, List.isEmpty_iff, beq_iff_eq]
    tauto
  unfold ofText
  split
  · rename_i h
    exact fun w hw => absurd hw.1 (hcounts.1 h)
  · rename_i h
    replace h := not_not.1 fun hnot => h (hcounts.2 hnot)
    dsimp only
    split_ifs with hkind hparam houtput hcode
    · exact ⟨⟨h, rfl⟩, by simpa using hkind, rfl⟩
    · exact ⟨h, hparam⟩
    · exact ⟨h, houtput⟩
    · exact ⟨h, hcode⟩
    · rintro _ ⟨_, rfl⟩
      simp only [mem_cons, not_mem_nil, or_false, not_or]
      exact ⟨by simpa using hkind, hparam, houtput, hcode⟩

/-- If the line does not start with a blank, the keyword is all that is cut off. -/
lemma exists_dropBytes? (hl : StartsWith l kind) (hkind : kind ∈ kinds)
    (hblank : ∀ c ∈ l.head?, isBlank c = false) :
    ∃ rest, l = kind.toList ++ rest ∧ dropBytes? kind.utf8ByteSize l = some rest := by
  obtain ⟨c, s, rfl⟩ := ne_nil_iff_exists_cons.1 hl.1.1
  have hkeyword : kind.toList = (c :: s).takeWhile (fun c => !isBlank c) := by
    obtain ⟨ws, hws⟩ := exists_pieces isBlank (c :: s)
    rw [← hl.2, words, hws]
    simp [hblank c rfl]
  have hcut : ∀ rest, dropBytes? kind.utf8ByteSize (kind.toList ++ rest) = some rest := by
    simp only [kinds, mem_cons, not_mem_nil, or_false] at hkind
    rintro (_ | _) <;> rcases hkind with rfl | rfl | rfl | rfl | rfl <;> rfl
  obtain ⟨rest, hrest⟩ : ∃ rest, c :: s = kind.toList ++ rest :=
    ⟨_, hkeyword ▸ takeWhile_append_dropWhile.symm⟩
  exact ⟨rest, hrest, hrest ▸ hcut rest⟩

end ScriptLine

/-! ## Declarations -/

namespace ScriptInterface

open ScriptLine

/-- The first line that declares a shader is this one, and the code does not start before it. -/
def Declares (ls : List (List Char)) (kind : String) (l : List Char) : Prop :=
  ∃ before after, ls = before ++ l :: after ∧ StartsWith l kind ∧ kind ∈ kinds ∧
    ∀ m ∈ before, ∀ w, StartsWith m w → w ∉ kinds ∧ w ≠ "code"

/-- The lines up to the code declare these parameters, in their order. -/
inductive Lists : List (List Char) → List ScriptParam → Prop
  | nil : Lists [] []
  | code {l ls} : StartsWith l "code" → Lists (l :: ls) []
  | param {l ls ps p} {isOutput : Bool} : StartsWith l (if isOutput then "oparam" else "param") →
      ScriptParam.read isOutput l = .ok p → Lists ls ps → Lists (l :: ls) (p :: ps)
  | other {l ls ps} : (∀ w, StartsWith l w → w ∉ ["param", "oparam", "code"]) → Lists ls ps →
      Lists (l :: ls) ps

variable {ls : List (List Char)} {l : List Char} {kind : String} {ps : List ScriptParam}

/-- A line that declares a shader declares no parameter. -/
lemma Lists.declaration (hl : StartsWith l kind) (hkind : kind ∈ kinds) (h : Lists ls ps) :
    Lists (l :: ls) ps := by
  refine .other ?_ h
  rintro _ ⟨_, rfl⟩
  rw [hl.2]
  exact (by decide : ∀ kind ∈ kinds, kind ∉ ["param", "oparam", "code"]) kind hkind

lemma bind_ne_error {ε α β : Type} {x : Except ε α} {f : α → Except ε β} {e : ε} (hx : x ≠ .error e)
    (hf : ∀ a, f a ≠ .error e) : (x >>= f) ≠ .error e := by
  cases x with
  | error e' =>
    intro h
    cases h
    exact hx rfl
  | ok a => exact hf a

/-- Nothing is cut off by bytes in the line of a parameter. -/
lemma read_ne_splitCharacter (isOutput : Bool) (l : List Char) :
    ScriptParam.read isOutput l ≠ .error .splitCharacter := by
  have hlength : ∀ s, readLength s ≠ .error .splitCharacter := by
    intro s
    unfold readLength
    dsimp only
    repeat' split
    all_goals
      intro h
      cases h
  have htype : ∀ s, ScriptType.read s ≠ .error .splitCharacter := by
    intro s
    simp only [ScriptType.read, pure_bind]
    split
    · split <;>
      · intro h
        cases h
    · refine bind_ne_error (hlength _) fun n => ?_
      cases n <;> dsimp only <;> split <;>
      · intro h
        cases h
  unfold ScriptParam.read
  split
  · split
    · intro h
      cases h
    · refine bind_ne_error (htype _) fun t h => ?_
      cases h
  · intro h
    cases h

lemma lists_readParams (number : Nat) (ls : List (List Char)) :
    (∀ ps, readParams number ls = .ok ps → Lists (ls.map trimEnd) ps) ∧
      ∀ n, readParams number ls ≠ .error ⟨n, .splitCharacter⟩ := by
  fun_induction readParams number ls with
  | case1 => simp [Lists.nil]
  | case2 number line rest h =>
    have hline := h ▸ describes_ofText (trimEnd line)
    simpa using Lists.code hline
  | case3 number line rest isOutput h ih =>
    have hline := h ▸ describes_ofText (trimEnd line)
    refine ⟨?_, fun n => bind_ne_error ?_ fun p => bind_ne_error (ih.2 n) fun ps h => ?_⟩
    · cases hread : ScriptParam.read isOutput (trimEnd line) with
      | error fault => exact fun ps h => by cases h
      | ok p =>
        cases hrest : readParams (number + 1) rest with
        | error e => exact fun ps h => by cases h
        | ok qs =>
          intro ps h
          cases h
          exact .param hline hread (ih.1 qs hrest)
    · cases hread : ScriptParam.read isOutput (trimEnd line) with
      | error fault =>
        intro h
        cases h
        exact read_ne_splitCharacter _ _ hread
      | ok p =>
        intro h
        cases h
    · cases h
  | case4 number line rest kind name h ih =>
    have hline := h ▸ describes_ofText (trimEnd line)
    exact ⟨fun ps hps => (ih.1 ps hps).declaration hline.1 hline.2.1, ih.2⟩
  | case5 number line rest h ih =>
    have hline := h ▸ describes_ofText (trimEnd line)
    exact ⟨fun ps hps => .other (fun w hw => (hline w hw).2) (ih.1 ps hps), ih.2⟩

lemma declares_readLines (number : Nat) (ls : List (List Char)) :
    (∀ i, readLines number ls = .ok i → Lists (ls.map trimEnd) i.params ∧
      ∃ l rest, Declares (ls.map trimEnd) i.kind l ∧ dropBytes? i.kind.utf8ByteSize l = some rest ∧
        i.name = String.ofList (trim rest)) ∧
    ∀ n, readLines number ls = .error ⟨n, .splitCharacter⟩ →
      ∃ kind l, Declares (ls.map trimEnd) kind l ∧ dropBytes? kind.utf8ByteSize l = none := by
  fun_induction readLines number ls with
  | case1 => simp
  | case2 => simp
  | case3 => simp
  | case4 number line rest kind h =>
    have hline := h ▸ describes_ofText (trimEnd line)
    refine ⟨fun i h => (by cases h), fun _ _ =>
      ⟨kind, _, ⟨[], _, rfl, hline.1, hline.2.1, ?_⟩, hline.2.2.symm⟩⟩
    simp
  | case5 => simp
  | case6 number line rest kind name h hname =>
    have hline := h ▸ describes_ofText (trimEnd line)
    obtain ⟨hlists, hsplit⟩ := lists_readParams (number + 1) rest
    cases hrest : readParams (number + 1) rest with
    | error e =>
      refine ⟨fun i h => (by cases h), fun n h => ?_⟩
      cases h
      exact absurd hrest (hsplit n)
    | ok ps =>
      refine ⟨fun i h => ?_, fun n h => (by cases h)⟩
      cases h
      exact ⟨(hlists ps hrest).declaration hline.1 hline.2.1, _, name,
        ⟨[], _, rfl, hline.1, hline.2.1, by simp⟩, hline.2.2.symm, rfl⟩
  | case7 number line rest h ih =>
    have hline := h ▸ describes_ofText (trimEnd line)
    have hcons : ∀ {kind l}, Declares (rest.map trimEnd) kind l →
        Declares ((line :: rest).map trimEnd) kind l := by
      rintro kind l ⟨before, after, hls, hl, hkind, hbefore⟩
      refine ⟨trimEnd line :: before, after, by rw [map_cons, hls, cons_append], hl, hkind, ?_⟩
      exact forall_mem_cons.2
        ⟨fun w hw => ⟨(hline w hw).1, fun e => (hline w hw).2 (by simp [e])⟩, hbefore⟩
    refine ⟨fun i hi => ?_, fun n hn => ?_⟩
    · obtain ⟨hlists, l, rest, hl, hcut⟩ := ih.1 i hi
      exact ⟨.other (fun w hw => (hline w hw).2) hlists, l, rest, hcons hl, hcut⟩
    · obtain ⟨kind, l, hl, hcut⟩ := ih.2 n hn
      exact ⟨kind, l, hcons hl, hcut⟩

/-- The shader is declared by the first line whose first word is a kind of shader.  Its name is what
the line holds behind as many bytes as the keyword has, without blanks at the ends.  If the line does
not start with a blank, that is what follows the keyword, and only if it does, these bytes may end
inside a character. -/
theorem parse_declared (text : String) :
    (∀ i, parse text = .ok i → ∃ l rest, Declares ((lines text.toList).map trimEnd) i.kind l ∧
      dropBytes? i.kind.utf8ByteSize l = some rest ∧ i.name = String.ofList (trim rest) ∧
        ((∀ c ∈ l.head?, isBlank c = false) → l = i.kind.toList ++ rest)) ∧
    ∀ number, parse text = .error ⟨number, .splitCharacter⟩ →
      ∃ kind l, Declares ((lines text.toList).map trimEnd) kind l ∧
        ∃ c ∈ l.head?, isBlank c = true := by
  obtain ⟨hok, herror⟩ := declares_readLines 1 (lines text.toList)
  refine ⟨fun i hi => ?_, fun number hnumber => ?_⟩
  · obtain ⟨_, l, rest, hl, hcut, hname⟩ := hok i hi
    refine ⟨l, rest, hl, hcut, hname, fun hblank => ?_⟩
    obtain ⟨_, _, _, hword, hkind, _⟩ := hl
    obtain ⟨rest', hl, hrest⟩ := exists_dropBytes? hword hkind hblank
    cases hcut.symm.trans hrest
    exact hl
  · obtain ⟨kind, l, hl, hcut⟩ := herror number hnumber
    refine ⟨kind, l, hl, ?_⟩
    by_contra hblank
    obtain ⟨_, _, _, hword, hkind, _⟩ := hl
    obtain ⟨rest, _, hrest⟩ := exists_dropBytes? hword hkind fun c hc =>
      Bool.eq_false_iff.2 fun h => hblank ⟨c, hc, h⟩
    cases hcut.symm.trans hrest

/-- A blank in front of the keyword shifts the name. -/
theorem parse_declared_blank : parse " shader echo" = .ok ⟨"shader", "r echo", []⟩ ∧
    ∃ l rest, Declares ((lines " shader echo".toList).map trimEnd) "shader" l ∧
      dropBytes? 6 l = some rest ∧ "r echo" = String.ofList (trim rest) := by
  have h : parse " shader echo" = .ok ⟨"shader", "r echo", []⟩ := by rfl
  obtain ⟨l, rest, hl, hrest, hname, _⟩ := (parse_declared " shader echo").1 _ h
  exact ⟨h, l, rest, hl, hrest, hname⟩

end ScriptInterface

/-! ## Sockets -/

namespace ScriptParam

variable {p : ScriptParam} {ty : SocketType}

/-- The socket that stands for a parameter. -/
def socket? (p : ScriptParam) : Option (String × SocketType) :=
  if p.isSupported then p.socketType?.map (p.name, ·) else none

lemma fits_initialValue (p : ScriptParam) (ty : SocketType) : (p.initialValue ty).fits ty = true := by
  have hzero : (SocketValue.zero ty).fits ty = true := beq_self_eq_true _
  unfold initialValue defaultValue?
  split
  · rename_i v _
    split_ifs with hvec hfloat
    · split
      · cases ty <;> first | rfl | cases hvec
      · exact hzero
    · subst hfloat
      cases v <;> rfl
    · exact hzero
  · rename_i v _
    split_ifs with hint
    · subst hint
      cases v <;> rfl
    · exact hzero
  · rename_i v _
    split_ifs with hstring
    · subst hstring
      cases v <;> rfl
    · exact hzero
  · exact hzero

/-- The engine takes the value that an input starts with. -/
lemma exists_toParam_initialValue (hty : p.socketType? = some ty) (hne : ty ≠ .closure)
    (name : String) : ∃ q, (p.initialValue ty).toParam name ty = .ok q ∧ q.isConsistent = true := by
  have hfits := p.fits_initialValue ty
  generalize p.initialValue ty = v at hfits ⊢
  -- The types of sockets are those of single values.
  have hsingle : ty ≠ .uint ∧ v.elements ≠ [] := by
    unfold socketType? at hty
    split at hty
    · exact absurd (Option.some.inj hty).symm hne
    · obtain ⟨base, _, hbase⟩ := Option.bind_eq_some_iff.1 hty
      cases base <;> cases hbase <;> cases v <;>
        first | exact ⟨by decide, cons_ne_nil _ _⟩ | cases hfits
  obtain ⟨q, hq⟩ := SocketValue.exists_toParam_iff.2 ⟨hfits, hne, hsingle.1⟩
  exact ⟨q, hq, (SocketValue.packs_of_toParam hq).isConsistent_iff.2 hsingle.2⟩

end ScriptParam

namespace ScriptInterface

lemma map_filter_sockets (i : ScriptInterface) (q : ScriptParam → Bool) :
    (i.sockets.filter fun x => q x.1).map (fun x => (x.1.name, x.2)) =
      (i.params.filter q).filterMap ScriptParam.socket? := by
  rw [sockets]
  induction i.params with
  | nil => rfl
  | cons p ps ih =>
    rw [filterMap_cons, filter_cons]
    cases hs : p.isSupported <;> cases hty : p.socketType? <;> cases hq : q p <;>
      simp [ScriptParam.socket?, hs, hty, hq, ih]

/-- The inputs and outputs of the node of a script are the parameters that sockets can stand for, in
the order in which the lines of the text declare them.  Inputs hold values of their types, whatever
defaults were declared, and the engine takes all of them but closures. -/
theorem toNode_bound {text : String} {i : ScriptInterface} (h : parse text = .ok i)
    (source : ScriptSource) :
    Lists ((lines text.toList).map trimEnd) i.params ∧
    (i.toNode source).inputs.map (fun x => (x.name, x.ty)) =
      (i.params.filter fun p => !p.isOutput).filterMap ScriptParam.socket? ∧
    (i.toNode source).outputs.map (fun x => (x.name, x.ty)) =
      (i.params.filter fun p => p.isOutput).filterMap ScriptParam.socket? ∧
    ∀ x ∈ (i.toNode source).inputs, x.value.fits x.ty = true ∧ (x.ty ≠ .closure →
      ∃ q, x.value.toParam x.name x.ty = .ok q ∧ q.isConsistent = true) := by
  refine ⟨((declares_readLines 1 _).1 i h).1, ?_, ?_, ?_⟩
  · rw [← map_filter_sockets, toNode, map_map]
    rfl
  · rw [← map_filter_sockets, toNode, map_map]
    rfl
  · intro x hx
    obtain ⟨⟨p, ty⟩, hp, rfl⟩ := mem_map.1 hx
    obtain ⟨p', _, hif⟩ := mem_filterMap.1 (mem_filter.1 hp).1
    split_ifs at hif
    obtain ⟨ty', hty, heq⟩ := Option.map_eq_some_iff.1 hif
    cases heq
    exact ⟨p.fits_initialValue ty, fun hne => p.exists_toParam_initialValue hty hne _⟩

/-- A parameter whose default is no number, and a result of the same name. -/
def echo : ScriptInterface :=
  ⟨"shader", "echo", [⟨"n", some .int, false, false, false, false, 0, none⟩,
    ⟨"n", some .int, true, false, false, false, 1, none⟩]⟩

theorem toNode_bound_echo :
    parse "shader echo\nparam\tint\tn\tmany\noparam\tint[1]\tn\ncode main" = .ok echo ∧
      (echo.toNode (.file "echo.oso")).inputs.map (fun x => (x.name, x.ty)) = [("n", .int)] := by
  have h : parse "shader echo\nparam\tint\tn\tmany\noparam\tint[1]\tn\ncode main" = .ok echo := by
    rfl
  exact ⟨h, (toNode_bound h (.file "echo.oso")).2.1⟩

end ScriptInterface

end Shading
