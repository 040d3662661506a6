import Mathlib.Logic.Basic
import Shading.Engine.Host

/-!
# Sources that were edited

A source is loaded by way of the compiled file beside it.  Whether that file is made again is decided
by the times of the two files, but the cache is asked for the compiled file before.  So an edited
source is compiled again as long as the cache has not heard of the compiled file as it is now, and
the answer is then the file that the compiler leaves (`EngineHost.loadFile_of_stale`).
-/

namespace Shading

lemma ScriptCache.get?_insert (c : ScriptCache) (key : String) (entry : Option LoadedScript)
    (k : String) : (c.insert key entry).get? k = if k = key then some entry else c.get? k := by
  rw [insert, get?, List.lookup_cons, get?]
  by_cases hk : k = key
  · simp [hk]
  · rw [if_neg hk, beq_false_of_ne hk]
    induction c.entries with
    | nil => rfl
    | cons e entries ih =>
      obtain ⟨k', entry'⟩ := e
      by_cases hkey : k' = key
      · have hne : (k == k') = false := beq_false_of_ne (hkey ▸ hk)
        rw [List.filter_cons_of_neg (by simp [hkey]), List.lookup_cons, hne]
        exact ih
      · rw [List.filter_cons_of_pos (by simpa using hkey), List.lookup_cons, List.lookup_cons]
        cases k == k' with
        | true => rfl
        | false => exact ih

namespace EngineHost

variable {α β : Type} {h : EngineHost} {key path compiled : String} {modified : UInt64}

/-! ## Steps as equations -/

def withScript (h : EngineHost) (key text : String) : EngineHost :=
  { h with
    recorder := h.recorder.load key
    cache := h.cache.insert key (some (.ofText text)) }

def withFailure (h : EngineHost) (key : String) : EngineHost :=
  { h with cache := h.cache.insert key none }

/-- What happens with a key: it is found, it has failed before, or it has not been tried. -/
def consult (h : EngineHost) (key : String)
    (found untried : EStateM.Result ScriptError EngineHost α) :
    EStateM.Result ScriptError EngineHost α :=
  match h.cache.get? key with
  | some (some _) => found
  | some none => .error (.failedEarlier key) h
  | none => untried

variable {found untried : EStateM.Result ScriptError EngineHost α}

lemma consult_of_isLoaded (hk : h.cache.isLoaded key = true) : h.consult key found untried = found := by
  rw [ScriptCache.isLoaded, ScriptCache.loaded?] at hk
  rw [consult]
  cases hget : h.cache.get? key with
  | none => rw [hget] at hk; cases hk
  | some entry =>
    cases entry with
    | none => rw [hget] at hk; cases hk
    | some script => rfl

lemma consult_of_failed (hk : h.cache.get? key = some none) :
    h.consult key found untried = .error (.failedEarlier key) h := by
  rw [consult, hk]

lemma consult_of_untried (hk : h.cache.get? key = none) : h.consult key found untried = untried := by
  rw [consult, hk]

/-- The three things that can be known about a key. -/
lemma known_cases (h : EngineHost) (key : String) :
    h.cache.isLoaded key = true ∨ h.cache.get? key = some none ∨ h.cache.get? key = none := by
  rw [ScriptCache.isLoaded, ScriptCache.loaded?]
  cases h.cache.get? key with
  | none => exact .inr (.inr rfl)
  | some entry =>
    cases entry with
    | none => exact .inr (.inl rfl)
    | some script => exact .inl rfl

/-- The text of a compiled file is loaded, if it can be read. -/
def readScript (h : EngineHost) (key path : String) : EStateM.Result ScriptError EngineHost String :=
  match h.files.read path with
  | .ok text => .ok key (h.withScript key text)
  | .error error => .error (.unreadable path error) (h.withFailure key)

def runCompiler (h : EngineHost) (key path compiled : String) :
    EStateM.Result ScriptError EngineHost Unit :=
  match h.settings.compiler.run path compiled h.files with
  | .ok files => .ok () { h with files }
  | .error report => .error (.notCompiled path report) (h.withFailure key)

lemma get_bind_apply (f : EngineHost → EStateM ScriptError EngineHost β) (h : EngineHost) :
    (get >>= f) h = f h h := rfl

lemma bind_apply (m : EStateM ScriptError EngineHost α)
    (f : α → EStateM ScriptError EngineHost β) (h : EngineHost) :
    (m >>= f) h = EStateM.bind m f h := rfl

lemma known_eq : known key h = h.consult key (.ok true h) (.ok false h) := by
  rw [known, get_bind_apply, consult]
  cases h.cache.get? key with
  | none => rfl
  | some entry => cases entry <;> rfl

lemma known_bind_apply (f : Bool → EStateM ScriptError EngineHost β) :
    (known key >>= f) h = h.consult key (f true h) (f false h) := by
  rw [bind_apply, EStateM.bind, known_eq]
  obtain hk | hk | hk := h.known_cases key
  · rw [consult_of_isLoaded hk, consult_of_isLoaded hk]
  · rw [consult_of_failed hk, consult_of_failed hk]
  · rw [consult_of_untried hk, consult_of_untried hk]

lemma loadText_eq (text : String) :
    loadText key text h = h.consult key (.ok key h) (.ok key (h.withScript key text)) := by
  rw [loadText, known_bind_apply]
  rfl

lemma loadCompiled_eq : loadCompiled path modified h =
    h.consult (scriptKey path modified) (.ok (scriptKey path modified) h)
      (h.readScript (scriptKey path modified) path) := by
  rw [loadCompiled, known_bind_apply]
  obtain hk | hk | hk := h.known_cases (scriptKey path modified)
  · rw [consult_of_isLoaded hk, consult_of_isLoaded hk]
    rfl
  · rw [consult_of_failed hk, consult_of_failed hk]
  · rw [consult_of_untried hk, consult_of_untried hk, if_neg Bool.false_ne_true, get_bind_apply,
      readScript]
    cases h.files.read path with
    | ok text =>
      dsimp only
      rw [loadText_eq, consult_of_untried hk]
    | error error => rfl

lemma compileSource_eq : compileSource path compiled h =
    h.consult (scriptKey path (h.files.modified path))
      (h.runCompiler (scriptKey path (h.files.modified path)) path compiled)
      (h.runCompiler (scriptKey path (h.files.modified path)) path compiled) := by
  rw [compileSource, get_bind_apply, known_bind_apply]
  congr 1 <;>
  · rw [runCompiler]
    cases h.settings.compiler.run path compiled h.files <;> rfl

/-- The answer to the load of a compiled file. -/
lemma eq_of_loadCompiled_eq_ok {h' : EngineHost} (hok : loadCompiled path modified h = .ok key h') :
    key = scriptKey path modified ∧ (h.cache.isLoaded key = true ∨
      ∃ text, h.files.read path = .ok text ∧ h'.cache.loaded? key = some (.ofText text)) := by
  rw [loadCompiled_eq] at hok
  obtain hk | hk | hk := h.known_cases (scriptKey path modified)
  · rw [consult_of_isLoaded hk] at hok
    cases hok
    exact ⟨rfl, .inl hk⟩
  · rw [consult_of_failed hk] at hok
    cases hok
  · rw [consult_of_untried hk, readScript] at hok
    cases hread : h.files.read path with
    | error error =>
      rw [hread] at hok
      cases hok
    | ok text =>
      rw [hread] at hok
      cases hok
      refine ⟨rfl, .inr ⟨text, rfl, ?_⟩⟩
      rw [ScriptCache.loaded?, withScript, ScriptCache.get?_insert, if_pos rfl]
      rfl

def compiledBeside (path : String) : String :=
  String.ofList (Path.withExtension path.toList "oso".toList)

/-- The compiled file of a source has to be made. -/
def remake (h : EngineHost) (path compiled : String) : EStateM.Result ScriptError EngineHost String :=
  match compileSource path compiled h with
  | .ok _ h' => loadCompiled compiled (h'.files.modified compiled) h'
  | .error e h' => .error e h'

/-- The compiled file of a source is made if it is missing or older. -/
def makeUp (h : EngineHost) (path compiled : String) : EStateM.Result ScriptError EngineHost String :=
  if h.files.modified compiled = 0 ∨ h.files.modified compiled < h.files.modified path then
    h.remake path compiled
  else loadCompiled compiled (h.files.modified compiled) h

lemma makeUp_eq {b : Bool} (hb : b = true ↔ h.files.modified compiled = 0 ∨
    h.files.modified compiled < h.files.modified path) :
    (if b = true then do
      compileSource path compiled
      loadCompiled compiled ((← get).files.modified compiled)
    else loadCompiled compiled (h.files.modified compiled)) h = h.makeUp path compiled := by
  rw [makeUp]
  by_cases hold : b = true
  · rw [if_pos hold, if_pos (hb.1 hold), remake, bind_apply, EStateM.bind]
    cases compileSource path compiled h <;> rfl
  · rw [if_neg hold, if_neg (mt hb.2 hold)]

/-- The cache is asked for the compiled file before the times are compared. -/
lemma loadSource_eq : loadSource path h =
    if h.files.modified (compiledBeside path) = 0 then h.makeUp path (compiledBeside path)
    else h.consult (scriptKey (compiledBeside path) (h.files.modified (compiledBeside path)))
      (.ok (scriptKey (compiledBeside path) (h.files.modified (compiledBeside path))) h)
      (h.makeUp path (compiledBeside path)) := by
  unfold loadSource compiledBeside
  generalize String.ofList (Path.withExtension path.toList "oso".toList) = compiled
  rw [get_bind_apply]
  by_cases hzero : h.files.modified compiled = 0
  · rw [if_neg (by simp [hzero]), if_pos hzero]
    exact makeUp_eq (by simp)
  · rw [if_pos (by simp [hzero]), if_neg hzero, known_bind_apply]
    exact congrArg (h.consult _ _) (makeUp_eq (by simp))

lemma loadFile_eq_of_source (hsource : Path.extension? path.toList = some "osl".toList) :
    loadFile path h = loadSource path h := by
  rw [loadFile, hsource]
  rfl

/-! ## Edited sources -/

/-- A source that is newer than its compiled file is compiled, unless it failed to compile as it is
now, as long as the cache has not heard of the compiled file.  If there is an answer then, it is the
key of the compiled file that the compiler left, and stands for the text of that file or for one that
was loaded under the same key before. -/
theorem loadFile_of_stale (hsource : Path.extension? path.toList = some "osl".toList)
    (hstale : h.files.get? (compiledBeside path) = none ∨
      h.files.modified (compiledBeside path) < h.files.modified path)
    (hunheard : h.files.modified (compiledBeside path) ≠ 0 →
      h.cache.get? (scriptKey (compiledBeside path) (h.files.modified (compiledBeside path))) = none) :
    (h.cache.get? (scriptKey path (h.files.modified path)) = some none ∧
      loadFile path h = .error (.failedEarlier (scriptKey path (h.files.modified path))) h) ∨
    (∃ report, h.settings.compiler.run path (compiledBeside path) h.files = .error report ∧
      loadFile path h = .error (.notCompiled path report)
        (h.withFailure (scriptKey path (h.files.modified path)))) ∨
    ∃ files, h.settings.compiler.run path (compiledBeside path) h.files = .ok files ∧
      loadFile path h =
        loadCompiled (compiledBeside path) (files.modified (compiledBeside path)) { h with files } ∧
      ∀ key h', loadFile path h = .ok key h' →
        key = scriptKey (compiledBeside path) (files.modified (compiledBeside path)) ∧
        (h.cache.isLoaded key = true ∨ ∃ text, files.read (compiledBeside path) = .ok text ∧
          h'.cache.loaded? key = some (.ofText text)) := by
  have hload : loadFile path h = h.remake path (compiledBeside path) := by
    have hmade : h.makeUp path (compiledBeside path) = h.remake path (compiledBeside path) := by
      refine if_pos (hstale.imp_left fun hmissing => ?_)
      rw [FileStore.modified, hmissing]
      rfl
    rw [loadFile_eq_of_source hsource, loadSource_eq, hmade]
    split
    · rfl
    · exact consult_of_untried (hunheard ‹_›)
  rw [hload, remake, compileSource_eq]
  obtain hfailed | hfree : h.cache.get? (scriptKey path (h.files.modified path)) = some none ∨
      ∀ r : EStateM.Result ScriptError EngineHost Unit,
        h.consult (scriptKey path (h.files.modified path)) r r = r := by
    obtain hk | hk | hk := h.known_cases (scriptKey path (h.files.modified path))
    · exact .inr fun r => consult_of_isLoaded hk
    · exact .inl hk
    · exact .inr fun r => consult_of_untried hk
  · rw [consult_of_failed hfailed]
    exact .inl ⟨hfailed, rfl⟩
  · rw [hfree, runCompiler]
    cases h.settings.compiler.run path (compiledBeside path) h.files with
    | error report => exact .inr (.inl ⟨report, rfl, rfl⟩)
    | ok files =>
      refine .inr (.inr ⟨files, rfl, rfl, fun key h' hok => ?_⟩)
      have hcompiled : loadCompiled (compiledBeside path) (files.modified (compiledBeside path))
          { h with files } = .ok key h' := hok
      obtain ⟨hkey, htext⟩ := eq_of_loadCompiled_eq_ok hcompiled
      exact ⟨hkey, htext⟩

/-- A source that was edited after it had been compiled, and a compiler that works. -/
def edited : EngineHost where
  settings := { compiler := .writing ⟨"shader glow".toUTF8, 10⟩ }
  files := { files := [(["glow.osl".toList], ⟨.empty, 9⟩), (["glow.oso".toList], ⟨.empty, 5⟩)] }

theorem loadFile_edited :
    edited.files.modified (compiledBeside "glow.osl") < edited.files.modified "glow.osl" ∧
    ∃ files, edited.settings.compiler.run "glow.osl" (compiledBeside "glow.osl") edited.files =
        .ok files ∧
      loadFile "glow.osl" edited = loadCompiled (compiledBeside "glow.osl")
        (files.modified (compiledBeside "glow.osl")) { edited with files } := by
  have hstale : edited.files.modified (compiledBeside "glow.osl") <
      edited.files.modified "glow.osl" := by
    decide +kernel
  refine ⟨hstale, ?_⟩
  obtain ⟨hfailed, _⟩ | ⟨report, hrun, _⟩ | ⟨files, hrun, hload, _⟩ :=
    loadFile_of_stale (by decide +kernel) (.inr hstale) fun _ => rfl
  · cases hfailed
  · cases hrun
  · exact ⟨files, hrun, hload⟩

end EngineHost

end Shading
