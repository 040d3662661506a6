import Shading.Engine.Host
import Shading.Proofs.StepRelations

/-!
# Scripts that cannot be loaded

An attempt to load a script changes the engine even if it fails: the key is remembered, and a
compiled file may be left behind.  So one failure says nothing about the next attempt.  `Refuses`
says of an engine that scripts cannot be loaded however often they are tried.

A failed attempt tells the engine nothing and registers no image
(`silent_of_loadSourceOf_eq_error`).
-/

namespace Shading

namespace EngineHost

/-- What an engine can become while scripts are tried in vain: it is told other things and other
images are registered, and attempts to load one of the scripts fail. -/
inductive Tries (sources : ScriptSource → Prop) (host : EngineHost) : EngineHost → Prop
  | start : Tries sources host host
  | tell {h : EngineHost} (ht : Tries sources host h) (recorder : Recorder) (textures : Textures) :
      Tries sources host { h with recorder, textures }
  | load {h h' : EngineHost} {source : ScriptSource} {e : ScriptError} (ht : Tries sources host h)
      (hs : sources source) (hload : loadSourceOf source h = .error e h') : Tries sources host h'

/-- None of the scripts can be loaded, however often they are tried. -/
def Refuses (host : EngineHost) (sources : ScriptSource → Prop) : Prop :=
  ∀ h, Tries sources host h → ∀ source, sources source → ∃ e h', loadSourceOf source h = .error e h'

variable {sources : ScriptSource → Prop} {host host' host'' : EngineHost} {source : ScriptSource}

lemma Tries.trans (h : Tries sources host host') (h' : Tries sources host' host'') :
    Tries sources host host'' := by
  induction h' with
  | start => exact h
  | tell _ recorder textures ih => exact .tell ih recorder textures
  | load _ hs hload ih => exact .load ih hs hload

lemma Refuses.of_tries (h : host.Refuses sources) (ht : Tries sources host host') :
    host'.Refuses sources :=
  fun _ ht' => h _ (ht.trans ht')

/-- A text that was never registered cannot be loaded. -/
lemma refuses_of_not_isLoaded
    (h : ∀ source, sources source → ∃ hash, source = .bytecode hash ∧
      host.cache.isLoaded hash = false) : host.Refuses sources := by
  have hload : ∀ {h : EngineHost} {source}, h.cache = host.cache → sources source →
      ∃ e, loadSourceOf source h = .error e h := by
    intro h' source hcache hsource
    obtain ⟨hash, rfl, hfree⟩ := h source hsource
    refine ⟨.notLoaded hash, ?_⟩
    change (if h'.cache.isLoaded hash then (return hash) else throw (.notLoaded hash) :
      EStateM ScriptError EngineHost String) h' = _
    rw [hcache, hfree]
    rfl
  have hcache : ∀ h', Tries sources host h' → h'.cache = host.cache := by
    intro h' ht
    induction ht with
    | start => rfl
    | tell _ _ _ ih => exact ih
    | load _ hs hload' ih =>
      obtain ⟨e, hsame⟩ := hload ih hs
      cases hload'.symm.trans hsame
      exact ih
  intro h' ht source hsource
  obtain ⟨e, he⟩ := hload (hcache h' ht) hsource
  exact ⟨e, h', he⟩

/-! ## What a failed load leaves alone -/

/-- The engine has been told nothing new, and no image was registered. -/
def Silent (host h : EngineHost) : Prop := h.recorder = host.recorder ∧ h.textures = host.textures

lemma leads_fail {α : Type} {Q : α → EngineHost → Prop} (key : String) (error : ScriptError) :
    Leads host.Silent (fail key error : EStateM ScriptError EngineHost α) Q host.Silent :=
  .bind (.modify fun _ hs => hs) fun _ => .throw fun _ hs => hs

lemma leads_known (key : String) :
    Leads host.Silent (known key) (fun _ => host.Silent) host.Silent := by
  refine .get_bind fun h hs => ?_
  have hP : ∀ t, t = h → host.Silent t := fun t ht => ht ▸ hs
  split
  · exact .pre hP (.pure fun _ hs => hs)
  · exact .pre hP (.throw fun _ hs => hs)
  · exact .pre hP (.pure fun _ hs => hs)

lemma leads_loadText (key text : String) :
    Leads host.Silent (loadText key text) (fun _ _ => True) host.Silent := by
  refine (leads_known key).bind fun known => ?_
  exact .ite (fun _ _ _ => trivial) fun _ _ _ => trivial

lemma leads_loadCompiled (path : String) (modified : UInt64) :
    Leads host.Silent (loadCompiled path modified) (fun _ _ => True) host.Silent := by
  refine (leads_known _).bind fun known => .ite (fun _ _ _ => trivial) fun _ => ?_
  refine .of_get fun h => ?_
  split
  · exact leads_loadText _ _
  · exact leads_fail _ _

lemma leads_compileSource (path compiled : String) :
    Leads host.Silent (compileSource path compiled) (fun _ => host.Silent) host.Silent := by
  refine .get_bind fun h hs => .pre (fun t ht => ht ▸ hs) ?_
  refine (leads_known _).bind fun _ => ?_
  split
  · exact fun _ _ => hs
  · exact leads_fail _ _

lemma leads_loadSource (path : String) :
    Leads host.Silent (loadSource path) (fun _ _ => True) host.Silent := by
  unfold loadSource
  generalize String.ofList (Path.withExtension path.toList "oso".toList) = compiled
  refine .of_get fun h => ?_
  have hrest : ∀ modified : UInt64, Leads host.Silent
      (if modified == 0 || modified < h.files.modified path then do
        compileSource path compiled
        loadCompiled compiled ((← get).files.modified compiled)
      else loadCompiled compiled modified) (fun _ _ => True) host.Silent := by
    intro modified
    refine .ite (fun _ => (leads_compileSource _ _).bind fun _ => ?_) fun _ =>
      leads_loadCompiled _ _
    exact .of_get fun h => leads_loadCompiled _ _
  exact .ite (fun _ => (leads_known _).bind fun _ => .ite (fun _ _ _ => trivial) fun _ => hrest _)
    fun _ => hrest _

lemma leads_loadBare (name : String) :
    Leads host.Silent (loadBare name) (fun _ _ => True) host.Silent := by
  refine .of_get fun h => ?_
  split
  · exact .throw fun _ hs => hs
  · exact .of_get fun h => leads_loadCompiled _ _

lemma leads_loadFile (path : String) :
    Leads host.Silent (loadFile path) (fun _ _ => True) host.Silent := by
  unfold loadFile
  split
  · exact @leads_loadSource host path
  · exact .of_get fun h => leads_loadCompiled path _
  · exact .throw fun _ hs => hs
  · exact .ite (fun _ => leads_loadBare _) fun _ => .throw fun _ hs => hs

lemma silent_of_loadSourceOf_eq_error {e : ScriptError}
    (h : loadSourceOf source host = .error e host') : host.Silent host' := by
  have hleads : Leads host.Silent (loadSourceOf source) (fun _ _ => True) host.Silent := by
    cases source with
    | file path => exact leads_loadFile path
    | bytecode hash =>
      refine .of_get fun h => ?_
      exact .ite (fun _ _ _ => trivial) fun _ => .throw fun _ hs => hs
  exact hleads.of_error ⟨rfl, rfl⟩ h

end EngineHost

end Shading
