import Shading.Proofs.Listing

/-!
# Runs along a listing

A listing cuts a section into lines and the jumps of the section lead from lines to later lines.
The machine then never stops inside a line and never goes back (`Run.along`), and a line that it
has passed without executing it stands between a jump that was taken and the target of that jump.

From this follows when a read is right.  `Kept` can be checked without running anything: the value
was written by an earlier line and nothing in between touches its slots.  Then it is what the slots
hold in every run that executed the writer, and if every jump over the writer is also one over the
reader, every run that comes to the reader has done so.
-/

namespace Shading

open List Machine

variable {i : Instruction} {o : Opcode} {σ : Contents}

/-! ## Positions -/

def position (lines : List Line) (p : Nat) : Nat := ((lines.take p).map fun l => l.words.length).sum

variable {lines : List Line} {line : Line} {p q : Nat}

@[simp] lemma position_zero (lines : List Line) : position lines 0 = 0 := rfl

lemma position_succ (h : lines[p]? = some line) :
    position lines (p + 1) = position lines p + line.words.length := by
  rw [position, position, take_add_one, h]
  simp

lemma position_length (lines : List Line) :
    position lines lines.length = (lines.flatMap Line.words).length := by
  rw [position, take_length, length_flatMap]

lemma getElem?_flatMap_words (h : lines[p]? = some line) {j : Nat} (hj : j < line.words.length) :
    (lines.flatMap Line.words)[position lines p + j]? = line.words[j]? := by
  induction lines generalizing p with
  | nil => simp at h
  | cons first rest ih =>
    cases p with
    | zero =>
      obtain rfl : first = line := by simpa using h
      rw [position_zero, Nat.zero_add, flatMap_cons, getElem?_append_left hj]
    | succ p =>
      have hpos : position (first :: rest) (p + 1) = first.words.length + position rest p := by
        simp [position]
      rw [hpos, flatMap_cons, getElem?_append_right (by omega),
        show first.words.length + position rest p + j - first.words.length =
          position rest p + j by omega]
      exact ih (by simpa using h)

lemma position_lt (hwords : ∀ l ∈ lines, l.words ≠ []) (hpq : p < q) (hq : q ≤ lines.length) :
    position lines p < position lines q := by
  induction q with
  | zero => omega
  | succ q ih =>
    obtain ⟨l, hl⟩ : ∃ l, lines[q]? = some l := ⟨_, getElem?_eq_getElem (by omega)⟩
    have hpos := length_pos_iff.2 (hwords l (mem_of_getElem? hl))
    rw [position_succ hl]
    obtain rfl | hlt := Nat.eq_or_lt_of_le (Nat.lt_succ_iff.1 hpq)
    · omega
    · have := ih hlt (by omega)
      omega

lemma position_inj (hwords : ∀ l ∈ lines, l.words ≠ []) (hp : p ≤ lines.length)
    (hq : q ≤ lines.length) (h : position lines p = position lines q) : p = q := by
  obtain hlt | rfl | hlt := Nat.lt_trichotomy p q
  · exact absurd h (position_lt hwords hlt hq).ne
  · rfl
  · exact absurd h (position_lt hwords hlt hp).ne'

/-! ## Jumps -/

/-- A line that jumps to another, or just behind the last one, with what the jump looks at. -/
structure JumpsTo (lines : List Line) (i : Instruction) (o : Opcode) (a t : Nat) : Prop where
  line : ∃ l, lines[a]? = some l ∧ l.Decodes i o
  jump : o = .jumpIfOne ∨ o = .jumpIfZero
  later : a < t
  inside : t ≤ lines.length
  lands : (position lines t : Int) = position lines a + 1 + i.w1.toInt

/-- Lines that make up a section, whose jumps lead from lines to later lines. -/
structure Laid (ctx : SectionContext) (lines : List Line) (code : Array Instruction) : Prop where
  words : code.toList = lines.flatMap Line.words
  compiles : ∀ l ∈ lines, Compiles ctx l
  lands : ∀ {a l i o}, lines[a]? = some l → l.Decodes i o → o = .jumpIfOne ∨ o = .jumpIfZero →
    ∃ t, JumpsTo lines i o a t

namespace Laid

variable {ctx : SectionContext} {code : Array Instruction}

lemma words_ne_nil (h : Laid ctx lines code) : ∀ l ∈ lines, l.words ≠ [] :=
  fun l hl => (h.compiles l hl).words_ne_nil

lemma getElem? (h : Laid ctx lines code) (hl : lines[p]? = some line) {j : Nat}
    (hj : j < line.words.length) : code[position lines p + j]? = line.words[j]? := by
  rw [← Array.getElem?_toList, h.words, getElem?_flatMap_words hl hj]

lemma fetch (h : Laid ctx lines code) (hl : lines[p]? = some line) (hd : line.Decodes i o) :
    code[position lines p]? = some i := by
  have hpos : 0 < line.words.length := length_pos_iff.2 (h.words_ne_nil line (mem_of_getElem? hl))
  have := h.getElem? hl hpos
  rwa [Nat.add_zero, hd.head] at this

lemma fetch_end (h : Laid ctx lines code) : code[position lines lines.length]? = none := by
  rw [position_length, ← h.words, ← Array.getElem?_toList]
  exact getElem?_eq_none le_rfl

end Laid

/-! ## Runs -/

namespace Machine

lemma next?_eq_some {code : Array Instruction} {pc pc' : Nat}
    (h : next? code σ pc = some pc') (hi : code[pc]? = some i)
    (ho : Opcode.ofWord? i.w0 = some o) :
    (jumps σ i o = true ∧ pc' = (((pc + 1 : Nat) : Int) + i.w1.toInt).toNat) ∨
      pc' = pc + width i o := by
  simp only [next?, hi, ho, Option.bind_eq_bind, Option.bind_some] at h
  split at h
  · cases h
  · split at h
    · rename_i hj
      exact .inl ⟨hj, (Option.some.inj h).symm⟩
    · exact .inr (Option.some.inj h).symm

lemma jump_of_jumps (h : jumps σ i o = true) : o = .jumpIfOne ∨ o = .jumpIfZero := by
  cases o <;> simp_all [jumps]

/-- What a run along a listing looks like.  The machine stands at a line, everything it executed
stands before, later lines in front, and a line it did not execute stands behind a jump that was
taken. -/
structure Along (lines : List Line) (past : List (Nat × Contents)) (p : Nat) : Prop where
  inside : p ≤ lines.length
  before : ∀ x ∈ past, ∃ q < p, x.1 = position lines q
  sorted : past.Pairwise fun x y => y.1 < x.1
  skipped : ∀ q < p, (∃ σ, (position lines q, σ) ∈ past) ∨
    ∃ a t i o σ, (position lines a, σ) ∈ past ∧ JumpsTo lines i o a t ∧ jumps σ i o = true ∧
      a < q ∧ q < t ∧ t ≤ p

theorem Run.along {ctx : SectionContext} {code : Array Instruction}
    (h : Laid ctx lines code) {past : List (Nat × Contents)} {pc : Nat} (run : Run code past pc) :
    ∃ p, pc = position lines p ∧ Along lines past p := by
  induction run with
  | start => exact ⟨0, rfl, Nat.zero_le _, by simp, .nil, by omega⟩
  | @step past pc pc' σ _ hnext ih =>
    obtain ⟨p, rfl, hp⟩ := ih
    obtain ⟨l, hl⟩ : ∃ l, lines[p]? = some l := by
      cases hl : lines[p]? with
      | some l => exact ⟨l, rfl⟩
      | none =>
        obtain rfl : p = lines.length := le_antisymm hp.inside (getElem?_eq_none_iff.1 hl)
        simp [next?, h.fetch_end] at hnext
    obtain ⟨i, o, hd⟩ := (h.compiles l (mem_of_getElem? hl)).decodes
    have hlt := h.words_ne_nil
    -- The next line is the target of a jump that is taken, or the line after this one.
    have hto : ∃ p', pc' = position lines p' ∧ p < p' ∧ p' ≤ lines.length ∧
        (p' = p + 1 ∨ JumpsTo lines i o p p' ∧ jumps σ i o = true) := by
      obtain ⟨hjump, rfl⟩ | rfl := next?_eq_some hnext (h.fetch hl hd) hd.opcode
      · obtain ⟨t, ht⟩ := h.lands hl hd (jump_of_jumps hjump)
        refine ⟨t, ?_, ht.later, ht.inside, .inr ⟨ht, hjump⟩⟩
        have := ht.lands
        omega
      · refine ⟨p + 1, ?_, by omega, ?_, .inl rfl⟩
        · rw [position_succ hl, hd.width]
        · exact (List.getElem?_eq_some_iff.1 hl).1
    obtain ⟨p', rfl, hpp', hp'le, hcase⟩ := hto
    refine ⟨p', rfl, hp'le, ?_, ?_, ?_⟩
    · intro x hx
      obtain rfl | hx := mem_cons.1 hx
      · exact ⟨p, hpp', rfl⟩
      · obtain ⟨q, hq, e⟩ := hp.before x hx
        exact ⟨q, hq.trans hpp', e⟩
    · refine pairwise_cons.2 ⟨fun y hy => ?_, hp.sorted⟩
      obtain ⟨q, hq, e⟩ := hp.before y hy
      rw [e]
      exact position_lt hlt hq hp.inside
    · intro q hq
      obtain hqp | rfl | hqp := Nat.lt_trichotomy q p
      · obtain ⟨τ, hτ⟩ | ⟨a, t, j, u, τ, hτ, ht, hj, haq, hqt, htp⟩ := hp.skipped q hqp
        · exact .inl ⟨τ, mem_cons_of_mem _ hτ⟩
        · exact .inr ⟨a, t, j, u, τ, mem_cons_of_mem _ hτ, ht, hj, haq, hqt, by omega⟩
      · exact .inl ⟨σ, mem_cons_self⟩
      · obtain rfl | ⟨ht, hj⟩ := hcase
        · omega
        · exact .inr ⟨p, p', i, o, σ, mem_cons_self, ht, hj, hqp, hq, le_rfl⟩

namespace Along

variable {past : List (Nat × Contents)} {σ : Contents}

/-- If every jump over a line is also one over the place that a run has come to, the run has executed
the line. -/
lemma executed (ha : Along lines past p) (hq : q < p)
    (hg : ∀ i o a t, JumpsTo lines i o a t → a < q → q < t → p < t) :
    ∃ σ, (position lines q, σ) ∈ past := by
  obtain h | ⟨a, t, i, o, σ, _, ht, _, haq, hqt, htp⟩ := ha.skipped q hq
  · exact h
  · have := hg i o a t ht haq hqt
    omega

/-- What was executed since a line stands between it and the place that the run has come to. -/
lemma since (ha : Along lines past p) (hwords : ∀ l ∈ lines, l.words ≠ []) (hq : q < p)
    (hσ : (position lines q, σ) ∈ past) :
    ∃ between older, past = between ++ (position lines q, σ) :: older ∧ ∀ x ∈ between,
      ∃ k l, q < k ∧ k < p ∧ lines[k]? = some l ∧ x.1 = position lines k := by
  obtain ⟨between, older, rfl⟩ := append_of_mem hσ
  refine ⟨between, older, rfl, fun x hx => ?_⟩
  obtain ⟨k, hkp, hpos⟩ := ha.before x (mem_append_left _ hx)
  have hlt := (pairwise_append.1 ha.sorted).2.2 x hx _ mem_cons_self
  refine ⟨k, _, ?_, hkp, getElem?_eq_getElem (hkp.trans_le ha.inside), hpos⟩
  rw [hpos] at hlt
  by_contra hle
  obtain rfl | hkq := Nat.eq_or_lt_of_le (Nat.le_of_not_lt hle)
  · exact lt_irrefl _ hlt
  · have := position_lt hwords hkq (hq.le.trans ha.inside)
    omega

end Along

/-! ## Last writes -/

/-- What the instruction at a position reads and writes. -/
def accessAt (code : Array Instruction) (pc : Nat) : Access :=
  match code[pc]? with
  | none => {}
  | some i =>
    match Opcode.ofWord? i.w0 with
    | none => {}
    | some o => access i ((code[pc + 1]?).getD ⟨0, 0, 0, 0⟩) o

/-- Data is read by operations that have exactly one word of it. -/
lemma access_congr {data data' : Instruction} (h : width i o = 2 → data = data') :
    access i data o = access i data' o := by
  cases o with
  | closureBsdf => rw [h rfl]
  | mix => rw [h rfl]
  | _ => rfl

/-- In a run, a run of slots was last written at a position: the instruction there writes exactly
these slots, and nothing executed since then touches one of them. -/
def LastWrite (code : Array Instruction) (past : List (Nat × Contents)) (r : SlotRange)
    (pc : Nat) : Prop :=
  ∃ between σ older, past = between ++ (pc, σ) :: older ∧ r ∈ (accessAt code pc).writes ∧
    ∀ x ∈ between, ∀ t ∈ (accessAt code x.1).writes, t.Apart r

end Machine

lemma Laid.accessAt {ctx : SectionContext} {code : Array Instruction} (h : Laid ctx lines code)
    (hl : lines[p]? = some line) :
    accessAt code (position lines p) = ⟨line.reads.map Prod.snd, line.writes.map Prod.snd⟩ := by
  obtain ⟨i, o, hd⟩ := (h.compiles line (mem_of_getElem? hl)).decodes
  rw [Machine.accessAt, h.fetch hl hd]
  dsimp only
  rw [hd.opcode, ← hd.access]
  refine access_congr fun hw => ?_
  rw [h.getElem? hl (by rw [← hd.width, hw]; omega)]

/-! ## Reads -/

namespace SectionContext

/-- A bump without strength that hands on the normal that feeds it. -/
def PassesOn (ctx : SectionContext) (m : NodeId) : Prop :=
  ∃ node invert space, ctx.graph.net.node? m = some node ∧ node.kind = .bump invert space ∧
    (!ctx.isLinked m "Strength" && node.float "Strength" == 0 && ctx.isLinked m "Normal") = true

/-- The output that computes what an output gives: itself, unless its node hands on another. -/
inductive Origin (ctx : SectionContext) : NodeId × Nat → NodeId × Nat → Prop
  | own {m : NodeId} {o : Nat} (h : ¬ ctx.PassesOn m) : Origin ctx (m, o) (m, o)
  | passed {m : NodeId} {o : Nat} {source t : NodeId × Nat} (h : ctx.PassesOn m)
      (hl : ctx.link? m 3 = some source) (rest : Origin ctx source t) : Origin ctx (m, o) t

/-- What a node has to find when it reads: the output that feeds the input, or the constant of an
input that nothing feeds or whose link the section ignores. -/
inductive Provides (ctx : SectionContext) (n : NodeId) : Operand → Written → Prop
  | linked {i : Nat} {source t : NodeId × Nat} (hl : ctx.link? n i = some source)
      (ho : Origin ctx source t) : Provides ctx n (.input i) (.output t)
  | constant {i : Nat} (hl : ctx.link? n i = none) : Provides ctx n (.input i) (.constant (n, i))
  | coordinate : Provides ctx n .coordinate (.coordinate n)
  | state : Provides ctx n .state .state

end SectionContext

/-- What is written to slots at a line and still there before another. -/
structure Kept (lines : List Line) (w : Written) (r : SlotRange) (q p : Nat) : Prop where
  written : ∃ l, lines[q]? = some l ∧ (w, r) ∈ l.writes
  earlier : q < p
  apart : ∀ k l, q < k → k < p → lines[k]? = some l → ∀ x ∈ l.writes, x.2.Apart r

namespace Kept

variable {ctx : SectionContext} {code : Array Instruction} {w : Written} {r : SlotRange}
  {past : List (Nat × Contents)}

/-- A value that is still there was last written in a run if it was written in it at all. -/
lemma lastWrite (hk : Kept lines w r q p) (h : Laid ctx lines code)
    (ha : Along lines past p) {σ : Contents}
    (hσ : (position lines q, σ) ∈ past) :
    LastWrite code past r (position lines q) := by
  obtain ⟨l, hl, hw⟩ := hk.written
  obtain ⟨between, older, hpast, hbetween⟩ := ha.since h.words_ne_nil hk.earlier hσ
  refine ⟨between, σ, older, hpast, ?_, fun x hx t ht => ?_⟩
  · rw [h.accessAt hl]
    exact mem_map.2 ⟨_, hw, rfl⟩
  · obtain ⟨k, l', hqk, hk', hl', hpos⟩ := hbetween x hx
    rw [hpos, h.accessAt hl'] at ht
    obtain ⟨y, hy, rfl⟩ := mem_map.1 ht
    exact hk.apart k l' hqk hk' hl' y hy

end Kept

/-! ## Weights of closures -/

namespace Machine

/-- What the instruction at a position does besides accessing slots. -/
def effectAt (code : Array Instruction) (pc : Nat) : Effect :=
  ((code[pc]?).map Instruction.effect).getD .plain

/-- In a run, the weight for closures was last set at a position. -/
def LastWeight (code : Array Instruction) (past : List (Nat × Contents)) (pc : Nat) : Prop :=
  ∃ between σ older, past = between ++ (pc, σ) :: older ∧ effectAt code pc = .weight ∧
    ∀ x ∈ between, effectAt code x.1 ≠ .weight

end Machine

lemma Laid.effectAt {ctx : SectionContext} {code : Array Instruction} (h : Laid ctx lines code)
    (hl : lines[p]? = some line) : effectAt code (position lines p) = line.effect := by
  have hpos : 0 < line.words.length := length_pos_iff.2 (h.words_ne_nil line (mem_of_getElem? hl))
  rw [Machine.effectAt, Line.effect, ← h.getElem? hl hpos, Nat.add_zero]

/-- A line sets the weight for a closure of the same node further down, and nothing in between sets
another or jumps. -/
structure Weighed (lines : List Line) (p q : Nat) : Prop where
  earlier : p < q
  weight : ∃ w l, lines[p]? = some w ∧ lines[q]? = some l ∧ w.node = l.node ∧ w.effect = .weight
  plain : ∀ k l, p < k → k < q → lines[k]? = some l → l.effect = .plain

/-- If no jump leads to a place between the two lines, the weight is the last that was set in every
run that comes to the closure. -/
lemma Weighed.lastWeight {ctx : SectionContext} {code : Array Instruction}
    {past : List (Nat × Contents)} (hw : Weighed lines p q) (h : Laid ctx lines code)
    (ha : Along lines past q)
    (hg : ∀ i o a t, JumpsTo lines i o a t → p < t → q < t) :
    LastWeight code past (position lines p) := by
  obtain ⟨w, _, hl, _, _, hweight⟩ := hw.weight
  obtain ⟨σ, hσ⟩ := ha.executed hw.earlier fun i o a t ht _ hpt => hg i o a t ht hpt
  obtain ⟨between, older, hpast, hbetween⟩ := ha.since h.words_ne_nil hw.earlier hσ
  refine ⟨between, σ, older, hpast, (h.effectAt hl).trans hweight, fun x hx => ?_⟩
  obtain ⟨k, l, hpk, hkq, hk, hpos⟩ := hbetween x hx
  rw [hpos, h.effectAt hk, hw.plain k l hpk hkq hk]
  decide

end Shading
