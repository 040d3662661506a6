import Shading.Proofs.Recording

/-!
# The record as a history of groups

The recording engine keeps the calls that it accepts.  Its record is always the history of groups
that were built one after the other (`BuildHistory`): beginnings and ends alternate, the groups are
numbered in order, and what is said about layers stands inside a group, about layers that the group
has or, for a new one, does not have.

The state of the engine is a summary of its record (`Recorder.Summarizes`), and that is enough to decide
about every request: one is refused exactly if its call does not go on with the history, and then
nothing changes (`Recorder.performAll_history`).
-/

namespace Shading

open List

/-! ## Histories -/

namespace EngineCall

def isBegin : EngineCall → Bool
  | .groupBegin .. => true
  | _ => false

def isBoundary : EngineCall → Bool
  | .groupBegin .. | .groupEnd => true
  | _ => false

def group? : EngineCall → Option GroupId
  | .groupBegin _ group => some group
  | _ => none

/-- A call about a layer goes with what was said about the group before. -/
def Fits (body : List EngineCall) : EngineCall → Prop
  | .parameter _ value => value.isConsistent = true
  | .shader _ _ layer => layer ∉ body.filterMap layer?
  | .connect fromLayer _ toLayer _ =>
    fromLayer ∈ body.filterMap layer? ∧ toLayer ∈ body.filterMap layer?
  | _ => True

end EngineCall

open EngineCall

/-- A group is open at the end of a record, and these are the calls since its beginning. -/
def OpenSince (record body : List EngineCall) : Prop :=
  ∃ before name group, record = before ++ .groupBegin name group :: body ∧
    ∀ c ∈ body, c.isBoundary = false

/-- Groups are built one after the other. -/
structure BuildHistory (record : List EngineCall) : Prop where
  alternate : (record.filter isBoundary).map isBegin =
    (range (record.countP isBoundary)).map (· % 2 == 0)
  numbers : record.filterMap group? = range (record.countP isBegin)
  inside : ∀ before c after, record = before ++ c :: after → c.isForLayer = true →
    ∃ body, OpenSince before body ∧ c.Fits body

/-- A call that goes on with a history. -/
structure Continues (record : List EngineCall) (c : EngineCall) : Prop where
  begins : c.isBegin = true → (∀ body, ¬ OpenSince record body) ∧
    c.group? = some (record.countP isBegin)
  ends : c = .groupEnd → ∃ body, OpenSince record body
  inside : c.isForLayer = true → ∃ body, OpenSince record body ∧ c.Fits body

variable {record body : List EngineCall} {c : EngineCall}

lemma openSince_concat : OpenSince (record ++ [c]) body ↔ (c.isBegin = true ∧ body = []) ∨
    (c.isBoundary = false ∧ ∃ body', body = body' ++ [c] ∧ OpenSince record body') := by
  constructor
  · rintro ⟨before, name, group, h, hbody⟩
    rcases eq_nil_or_concat body with rfl | ⟨body', d, rfl⟩
    · obtain ⟨_, hc⟩ := append_inj' h rfl
      cases hc
      exact .inl ⟨rfl, rfl⟩
    · rw [concat_eq_append, ← cons_append, ← append_assoc] at h
      obtain ⟨hrecord, hc⟩ := append_inj' h rfl
      cases hc
      rw [concat_eq_append] at hbody ⊢
      exact .inr ⟨hbody c (by simp), body', rfl, before, name, group, hrecord,
        fun d hd => hbody d (mem_append_left _ hd)⟩
  · rintro (⟨hc, rfl⟩ | ⟨hc, body', rfl, before, name, group, rfl, hbody⟩)
    · cases c with
      | groupBegin name group => exact ⟨record, name, group, rfl, by simp⟩
      | _ => cases hc
    · refine ⟨before, name, group, by simp, fun d hd => ?_⟩
      obtain hd | hd := mem_append.1 hd
      · exact hbody d hd
      · rwa [mem_singleton.1 hd]

lemma begin_or_end_or_neither (c : EngineCall) : (∃ name group, c = .groupBegin name group) ∨
    c = .groupEnd ∨ (c.isBoundary = false ∧ c.isBegin = false ∧ c.group? = none) := by
  cases c <;> simp [isBoundary, isBegin, group?]

lemma continues_iff (hc : c.isBoundary = false) : Continues record c ↔
    (c.isForLayer = true → ∃ body, OpenSince record body ∧ c.Fits body) := by
  refine ⟨fun h => h.inside, fun h => ⟨fun hbegin => ?_, ?_, h⟩⟩
  · obtain ⟨name, group, rfl⟩ | rfl | ⟨_, hfalse, _⟩ := begin_or_end_or_neither c
    · cases hc
    · cases hc
    · exact absurd (hbegin.symm.trans hfalse) (by decide)
  · rintro rfl
    cases hc

/-- A history is made call by call.  A group is open if the number of boundaries is odd. -/
lemma BuildHistory.concat (h : BuildHistory record) (hc : Continues record c)
    (hopen : (∃ body, OpenSince record body) ↔ record.countP isBoundary % 2 = 1) :
    BuildHistory (record ++ [c]) := by
  refine ⟨?_, ?_, fun before d after heq hd => ?_⟩
  · rw [filter_append, countP_append, map_append, h.alternate]
    obtain ⟨name, group, rfl⟩ | rfl | ⟨hboundary, _, _⟩ := begin_or_end_or_neither c
    · have heven : record.countP isBoundary % 2 = 0 := by
        have := mt hopen.2 fun ⟨body, hbody⟩ => (hc.begins rfl).1 body hbody
        omega
      rw [show [groupBegin name group].filter isBoundary = [groupBegin name group] from rfl,
        show [groupBegin name group].countP isBoundary = 1 from rfl, range_succ]
      simp [isBegin, heven]
    · have hodd := hopen.1 (hc.ends rfl)
      rw [show [groupEnd].filter isBoundary = [groupEnd] from rfl,
        show [groupEnd].countP isBoundary = 1 from rfl, range_succ]
      simp [isBegin, hodd]
    · simp [hboundary]
  · rw [filterMap_append, countP_append, h.numbers]
    obtain ⟨name, group, rfl⟩ | rfl | ⟨_, hbegin, hgroup⟩ := begin_or_end_or_neither c
    · cases (hc.begins rfl).2
      simp [group?, isBegin, range_succ]
    · simp [group?, isBegin]
    · simp [hbegin, hgroup]
  · rcases eq_nil_or_concat after with rfl | ⟨after', x, rfl⟩
    · obtain ⟨rfl, hlast⟩ := append_inj' heq rfl
      cases hlast
      exact hc.inside hd
    · rw [concat_eq_append, ← cons_append, ← append_assoc] at heq
      obtain ⟨rfl, _⟩ := append_inj' heq rfl
      exact h.inside before d after' rfl hd

/-! ## Requests -/

/-- What the engine can be asked to do. -/
inductive EngineRequest where
  | option (name : String) (value : Param)
  | groupBegin (name : String)
  | parameter (name : String) (value : Param)
  | shader (usage : ShaderUsage) (shader layer : String)
  | connect (fromLayer fromParam toLayer toParam : String)
  | groupEnd
  | loadBytecode (name : String)
  | optimizeAll

/-- The call that goes on record if the next group has the given number. -/
def EngineRequest.call (group : GroupId) : EngineRequest → EngineCall
  | option name value => .option name value
  | groupBegin name => .groupBegin name group
  | parameter name value => .parameter name value
  | shader usage name layer => .shader usage name layer
  | connect fromLayer fromParam toLayer toParam => .connect fromLayer fromParam toLayer toParam
  | groupEnd => .groupEnd
  | loadBytecode name => .loadBytecode name
  | optimizeAll => .optimizeAll

namespace Recorder

variable {e : Recorder}

/-- A request that the engine may refuse. -/
def attempt (call : Recorder → Except Rejection Recorder) :
    EStateM Rejection Recorder (Option GroupId) := fun e =>
  match call e with
  | .ok e' => .ok none e'
  | .error x => .error x e

/-- Whether the engine accepts a call. -/
def Accepts (e : Recorder) : EngineCall → Prop
  | .groupBegin .. => e.openGroup = none
  | .groupEnd => e.openGroup.isSome = true
  | c => c.isForLayer = true → e.openGroup.isSome = true ∧ e.Takes c

/-- The engine with a call on record. -/
def accepted (e : Recorder) : EngineCall → Recorder
  | .groupBegin name _ => e.begun name
  | .groupEnd => e.ended
  | .loadBytecode name => e.load name
  | c => e.told [c]

lemma calls_accepted (e : Recorder) (r : EngineRequest) :
    (e.accepted (r.call e.nextGroup)).calls = e.calls.push (r.call e.nextGroup) := by
  cases r <;> simp [EngineRequest.call, accepted, begun, ended, load, told, record]

/-! ## The state as a summary of the record -/

/-- The record is a history, and the state says what matters about it. -/
structure Summarizes (e : Recorder) : Prop where
  history : BuildHistory e.calls.toList
  nextGroup : e.nextGroup = e.calls.toList.countP isBegin
  isOpen : e.openGroup.isSome = true ↔ ∃ body, OpenSince e.calls.toList body
  odd : e.openGroup.isSome = true ↔ e.calls.toList.countP isBoundary % 2 = 1
  layers : ∀ body, OpenSince e.calls.toList body → ∀ layer,
    layer ∈ e.layers ↔ layer ∈ body.filterMap layer?

/-- What the engine checks about a layer is what the record says about it. -/
lemma Summarizes.takes_iff (h : e.Summarizes) (hc : c.isForLayer = true)
    (hbody : OpenSince e.calls.toList body) : e.Takes c ↔ c.Fits body := by
  have hlayers := h.layers body hbody
  cases c with
  | parameter name value => rfl
  | shader usage name layer => exact not_congr (hlayers layer)
  | connect fromLayer fromParam toLayer toParam =>
    exact and_congr (hlayers fromLayer) (hlayers toLayer)
  | _ => cases hc

lemma Summarizes.open_and_takes_iff (h : e.Summarizes) (hc : c.isForLayer = true) :
    (e.openGroup.isSome = true ∧ e.Takes c) ↔ ∃ body, OpenSince e.calls.toList body ∧ c.Fits body := by
  constructor
  · rintro ⟨hopen, htakes⟩
    obtain ⟨body, hbody⟩ := h.isOpen.1 hopen
    exact ⟨body, hbody, (h.takes_iff hc hbody).1 htakes⟩
  · rintro ⟨body, hbody, hfits⟩
    exact ⟨h.isOpen.2 ⟨body, hbody⟩, (h.takes_iff hc hbody).2 hfits⟩

/-- The calls that are accepted are those that go on with the history. -/
lemma Summarizes.accepts_iff (h : e.Summarizes) (r : EngineRequest) :
    e.Accepts (r.call e.nextGroup) ↔ Continues e.calls.toList (r.call e.nextGroup) := by
  have hother : ∀ {c : EngineCall}, c.isBoundary = false →
      ((c.isForLayer = true → e.openGroup.isSome = true ∧ e.Takes c) ↔ Continues e.calls.toList c) :=
    fun hc => (forall_congr' h.open_and_takes_iff).trans (continues_iff hc).symm
  cases r with
  | groupBegin name =>
    have hclosed : e.openGroup = none ↔ ∀ body, ¬ OpenSince e.calls.toList body := by
      rw [← Option.not_isSome_iff_eq_none, h.isOpen, not_exists]
    refine hclosed.trans ⟨fun hno => ⟨fun _ => ⟨hno, congrArg some h.nextGroup⟩, ?_, ?_⟩, fun hcont =>
      (hcont.begins rfl).1⟩
    · exact fun heq => EngineCall.noConfusion heq
    · exact fun hin => absurd hin Bool.false_ne_true
  | groupEnd =>
    refine h.isOpen.trans ⟨fun hopen => ⟨?_, fun _ => hopen, ?_⟩, fun hcont => hcont.ends rfl⟩
    · exact fun hbegin => absurd hbegin Bool.false_ne_true
    · exact fun hin => absurd hin Bool.false_ne_true
  | _ => exact hother rfl

lemma accepted_of_not_boundary (e : Recorder) (hc : c.isBoundary = false) :
    (e.accepted c).openGroup = e.openGroup ∧ (e.accepted c).nextGroup = e.nextGroup ∧
      ∀ layer, layer ∈ (e.accepted c).layers ↔ layer ∈ e.layers ∨ c.layer? = some layer := by
  cases c with
  | groupBegin name group => cases hc
  | groupEnd => cases hc
  | loadBytecode name => exact ⟨rfl, rfl, fun layer => by simp [accepted, load, record, layer?]⟩
  | shader usage name layer =>
    exact ⟨rfl, rfl, fun x => by simp [accepted, mem_layers_told, layer?, eq_comm]⟩
  | _ => exact ⟨rfl, rfl, fun x => by simp [accepted, mem_layers_told, layer?]⟩

/-- One more call is accepted. -/
lemma Summarizes.accepted (h : e.Summarizes) {r : EngineRequest} (hr : e.Accepts (r.call e.nextGroup)) :
    (e.accepted (r.call e.nextGroup)).Summarizes := by
  have hcalls : (e.accepted (r.call e.nextGroup)).calls.toList =
      e.calls.toList ++ [r.call e.nextGroup] := by rw [calls_accepted, Array.toList_push]
  have hhistory := h.history.concat ((h.accepts_iff r).1 hr) (h.isOpen.symm.trans h.odd)
  obtain ⟨name, group, hbegin⟩ | hend | ⟨hboundary, hbegin, _⟩ :=
    begin_or_end_or_neither (r.call e.nextGroup)
  · rw [hbegin] at hr hcalls hhistory ⊢
    refine ⟨by rwa [hcalls], ?_, ?_, ?_, ?_⟩ <;> rw [hcalls]
    · rw [countP_append, ← h.nextGroup]
      rfl
    · exact iff_of_true rfl ⟨[], openSince_concat.2 (.inl ⟨rfl, rfl⟩)⟩
    · have heven := mt h.odd.2 (by rw [show e.openGroup = none from hr]; exact Bool.false_ne_true)
      rw [countP_append, show [groupBegin name group].countP isBoundary = 1 from rfl]
      exact iff_of_true rfl (by omega)
    · intro body hbody layer
      obtain ⟨_, rfl⟩ | ⟨hfalse, _⟩ := openSince_concat.1 hbody
      · exact iff_of_false (OrderedSet.not_mem_empty layer) not_mem_nil
      · cases hfalse
  · rw [hend] at hr hcalls hhistory ⊢
    have hclosed : ∀ body, ¬ OpenSince (e.calls.toList ++ [.groupEnd]) body := by
      intro body hbody
      obtain ⟨hfalse, _⟩ | ⟨hfalse, _⟩ := openSince_concat.1 hbody <;> cases hfalse
    refine ⟨by rwa [hcalls], ?_, ?_, ?_, ?_⟩ <;> rw [hcalls]
    · rw [countP_append, ← h.nextGroup]
      rfl
    · exact iff_of_false Bool.false_ne_true fun ⟨body, hbody⟩ => hclosed body hbody
    · have hodd := h.odd.1 hr
      rw [countP_append, show [groupEnd].countP isBoundary = 1 from rfl]
      exact iff_of_false Bool.false_ne_true (by omega)
    · exact fun body hbody => absurd hbody (hclosed body)
  · obtain ⟨hopen, hnext, hlayers⟩ := e.accepted_of_not_boundary hboundary
    have hsince : ∀ {body}, OpenSince (e.calls.toList ++ [r.call e.nextGroup]) body ↔
        ∃ body', body = body' ++ [r.call e.nextGroup] ∧ OpenSince e.calls.toList body' := by
      intro body
      rw [openSince_concat, hbegin, hboundary]
      simp
    refine ⟨by rwa [hcalls], ?_, ?_, ?_, ?_⟩ <;> rw [hcalls]
    · rw [hnext, countP_append, countP_singleton, hbegin, ← h.nextGroup]
      rfl
    · rw [hopen, h.isOpen]
      constructor
      · exact fun ⟨body, hbody⟩ => ⟨_, hsince.2 ⟨body, rfl, hbody⟩⟩
      · rintro ⟨_, hbody⟩
        obtain ⟨body, _, hbody⟩ := hsince.1 hbody
        exact ⟨body, hbody⟩
    · rw [hopen, h.odd, countP_append, countP_singleton, hboundary]
      rfl
    · intro body hbody layer
      obtain ⟨body', rfl, hbody'⟩ := hsince.1 hbody
      rw [hlayers, h.layers body' hbody', filterMap_append, mem_append]
      simp [mem_filterMap]

end Recorder

end Shading
