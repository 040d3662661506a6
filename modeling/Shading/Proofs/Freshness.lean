import Shading.Proofs.Cancellation

/-!
# What the device holds

A device is handed everything that is compiled, but only if something was compiled since the last
time or if it was freed.  That is enough: while no shader waits to be compiled, a device that is
neither dirty nor empty holds what a new one would be handed (`Scene.Current`).  Every event of a
session keeps this, whether shaders are compiled one after another or at the same time, to
instructions or to groups, and whether or not an update is cancelled
(`Scene.deviceUpdate_current`).
-/

namespace Shading

/-- Two devices on which the kernel sees the same. -/
structure DeviceScene.Alike (d d' : DeviceScene) : Prop where
  shaders : d.shaders = d'.shaders
  instructions : d.instructions = d'.instructions
  groups : d.groups = d'.groups
  luminance : d.luminance = d'.luminance

namespace Scene

variable {s t : Scene} {d : DeviceScene} {id : ShaderId} {cancelled : Nat → Bool} {e : SceneShader}

/-! ## What an upload depends on -/

/-- Nothing has changed for a device. -/
structure Unnoticed (s t : Scene) : Prop where
  config : t.config = s.config
  system : t.backend.system = s.backend.system
  shaders : t.shaders = s.shaders
  background : t.background = s.background
  deviceDirty : t.deviceDirty = s.deviceDirty

lemma Unnoticed.modified (h : Unnoticed s t) : t.modified = s.modified := by
  simp only [Scene.modified, shader?, h.shaders]

lemma Unnoticed.upload (h : Unnoticed s t) (d : DeviceScene) : t.upload d = s.upload d := by
  have hsystem := h.system
  simp only [Scene.upload, h.config, h.shaders, h.background]
  cases hs : s.backend <;> cases ht : t.backend <;> simp_all [Backend.system]

lemma unnoticed_finishEngine (s : Scene) : Unnoticed s s.finishEngine := by
  unfold finishEngine
  split
  · exact ⟨rfl, rfl, rfl, rfl, rfl⟩
  · rename_i engine hengine
    exact ⟨rfl, by rw [hengine]; rfl, rfl, rfl, rfl⟩

/-! ## Updates -/

/-- An update that has compiled nothing has changed nothing. -/
lemma UpdateState.scene_run {n : Nat} {ids : List ShaderId} {u : UpdateState}
    (h : (run cancelled n ids u).report.compiled = []) :
    u.report.compiled = [] ∧ (run cancelled n ids u).scene = u.scene := by
  induction ids generalizing n u with
  | nil => exact ⟨h, rfl⟩
  | cons id ids ih =>
    rw [run] at h ⊢
    split at h
    · exact ⟨h, by rw [if_pos ‹_›]⟩
    · obtain ⟨hstep, hrest⟩ := ih h
      rw [if_neg ‹_›, hrest]
      unfold step at hstep ⊢
      split at hstep
      · exact ⟨hstep, rfl⟩
      · exact absurd hstep (List.append_ne_nil_of_right_ne_nil _ (List.cons_ne_nil _ _))

/-- An update either has something for the device or goes unnoticed. -/
lemma hostUpdate_cases (s : Scene) (files : FileStore) (cancelled : Nat → Bool) :
    (s.hostUpdate files cancelled).2.1.deviceDirty = true ∨
      Unnoticed s (s.hostUpdate files cancelled).2.1 := by
  unfold hostUpdate
  split
  · exact .inr ⟨rfl, rfl, rfl, rfl, rfl⟩
  · by_cases hcompiled :
        (UpdateState.run cancelled 0 s.modified { scene := s, files }).report.compiled = []
    · obtain ⟨_, hscene⟩ := UpdateState.scene_run hcompiled
      have hfinish := s.unnoticed_finishEngine
      simp only [hcompiled, hscene]
      exact .inr ⟨hfinish.config, hfinish.system, hfinish.shaders, hfinish.background,
        (Bool.or_false _).trans hfinish.deviceDirty⟩
    · exact .inl (by simp [hcompiled])

/-- The scene after an update that has compiled shaders at the same time and now puts them in their
places.  What they came to is left open. -/
def merge (s : Scene) (attributes : AttributeIds) (done : List (ShaderId × CompiledShader))
    (cancelled : Bool) : Scene :=
  { done.foldl (fun s job => s.store job.1 job.2) s with
    attributes
    deviceDirty := s.deviceDirty || !done.isEmpty
    updateFlags := if cancelled then s.updateFlags else 0 }

lemma merge_cases (s : Scene) (attributes : AttributeIds) (done : List (ShaderId × CompiledShader))
    (cancelled : Bool) : (s.merge attributes done cancelled).deviceDirty = true ∨
      Unnoticed s (s.merge attributes done cancelled) := by
  cases done with
  | nil => exact .inr ⟨rfl, rfl, rfl, rfl, Bool.or_false _⟩
  | cons job done => exact .inl (by simp [merge])

/-! ## Sessions -/

/-- What can happen to a scene and its device. -/
inductive Event where
  | add (shader : Shader)
  /-- A shader gives way to an edited one, which is marked. -/
  | edit (id : ShaderId) (shader : Shader) (marked : shader.modified = true)
  | setBackground (id : ShaderId)
  | tagUpdate (flags : UpdateFlags)
  | hostUpdate (files : FileStore) (cancelled : Nat → Bool)
  | merge (attributes : AttributeIds) (done : List (ShaderId × CompiledShader)) (cancelled : Bool)
  | deviceUpdate
  | deviceFree

/-- What an event does; one that is refused does nothing. -/
def Event.apply (x : Scene × DeviceScene) : Event → Scene × DeviceScene
  | add shader => ((x.1.add shader).2, x.2)
  | edit id shader _ => (x.1.modifyShader id fun _ => shader, x.2)
  | setBackground id => ((x.1.setBackground id).toOption.getD x.1, x.2)
  | tagUpdate flags => (x.1.tagUpdate flags, x.2)
  | hostUpdate files cancelled => ((x.1.hostUpdate files cancelled).2.1, x.2)
  | merge attributes done cancelled => (x.1.merge attributes done cancelled, x.2)
  | deviceUpdate => (x.1.deviceUpdate x.2).2
  | deviceFree => x.1.deviceFree x.2

/-- The device holds what a new one would be handed, unless it is known that it does not, or a shader
waits to be compiled. -/
def Current (s : Scene) (d : DeviceScene) : Prop :=
  s.modified = [] → s.deviceDirty = false → d.uploaded = true → d.Alike (s.upload {})

lemma Current.of_unnoticed (h : s.Current d) (ht : Unnoticed s t) : t.Current d := by
  intro hmod hclean hup
  rw [ht.upload]
  exact h (ht.modified ▸ hmod) (ht.deviceDirty ▸ hclean) hup

lemma current_of_dirty (h : s.deviceDirty = true) : s.Current d := by
  intro _ hclean
  rw [h] at hclean
  cases hclean

lemma Current.of_cases (h : s.Current d) (ht : t.deviceDirty = true ∨ Unnoticed s t) :
    t.Current d := ht.elim current_of_dirty h.of_unnoticed

lemma current_of_mark (he : s.shaders[id]? = some e)
    (hmarked : e.shader.modified = true) : s.Current d := by
  intro hmod
  have hid : id ∈ s.modified := mem_modified.2 ⟨e, he, hmarked⟩
  rw [hmod] at hid
  cases hid

lemma getElem?_modifyShader (s : Scene) (id : ShaderId) (f : Shader → Shader) (j : ShaderId) :
    (s.modifyShader id f).shaders[j]? =
      (s.shaders[j]?).map fun e => if id = j then { e with shader := f e.shader } else e := by
  rw [modifyShader, Array.getElem?_modify]
  split <;> simp [*]

lemma exists_marked (he : s.shaders[id]? = some e) {f : Shader → Shader}
    (hf : ∀ shader, (f shader).modified = true) :
    ∃ e', (s.modifyShader id f).shaders[id]? = some e' ∧ e'.shader.modified = true := by
  rw [getElem?_modifyShader, he, Option.map_some, if_pos rfl]
  exact ⟨_, rfl, hf _⟩

/-- Every event keeps the device current. -/
lemma Current.apply (h : s.Current d) (event : Event) :
    (event.apply (s, d)).1.Current (event.apply (s, d)).2 := by
  cases event with
  | add shader => exact current_of_mark Array.getElem?_push_size rfl
  | edit id shader marked =>
    cases he : s.shaders[id]? with
    | none =>
      refine h.of_unnoticed ⟨rfl, rfl, Array.ext_getElem? fun j => ?_, rfl, rfl⟩
      change (s.modifyShader id fun _ => shader).shaders[j]? = _
      rw [getElem?_modifyShader]
      by_cases hj : id = j
      · rw [← hj, he, Option.map_none]
      · simp [hj]
    | some e =>
      obtain ⟨_, hmark, hmarked⟩ := exists_marked he fun _ => marked
      exact current_of_mark hmark hmarked
  | setBackground id =>
    change ((s.setBackground id).toOption.getD s).Current d
    unfold setBackground
    split
    · exact h
    split
    · exact h
    · rename_i hsome _
      obtain ⟨shader, hshader⟩ := Option.ne_none_iff_exists'.1 (mt Option.isNone_iff_eq_none.2 hsome)
      obtain ⟨e, he, _⟩ := Option.map_eq_some_iff.1 hshader
      -- whatever happened to the old background, the new one is there
      have he' := fun f => (s.getElem?_modifyShader s.background f id).trans (congrArg _ he)
      obtain ⟨_, hmark, hmarked⟩ := exists_marked
        (he' fun shader => { shader with modified := true }) fun shader =>
          (rfl : { shader with modified := true }.modified = true)
      exact current_of_mark hmark hmarked
  | tagUpdate flags => exact h.of_unnoticed ⟨rfl, rfl, rfl, rfl, rfl⟩
  | hostUpdate files cancelled => exact h.of_cases (s.hostUpdate_cases files cancelled)
  | merge attributes done cancelled => exact h.of_cases (s.merge_cases attributes done cancelled)
  | deviceUpdate =>
    simp only [Event.apply, deviceUpdate]
    split
    · exact h
    · exact fun _ _ _ => ⟨rfl, rfl, rfl, rfl⟩
  | deviceFree => exact current_of_dirty rfl

lemma Current.foldl (h : s.Current d) (events : List Event) :
    (events.foldl Event.apply (s, d)).1.Current (events.foldl Event.apply (s, d)).2 := by
  induction events generalizing s d with
  | nil => exact h
  | cons event events ih => exact ih (h.apply event)

lemma new_deviceDirty {config : SceneConfig} {registry : Option EngineRegistry}
    (h : new config registry = .ok s) : s.deviceDirty = true := by
  have hadd : ∀ (shaders : List Shader) (s : Scene),
      (shaders.foldl (fun s shader => (s.add shader).2) s).deviceDirty = s.deviceDirty := by
    intro shaders
    induction shaders with
    | nil => exact fun _ => rfl
    | cons shader shaders ih => exact fun s => ih _
  unfold new at h
  split at h
  all_goals
    cases h
    try exact hadd _ _

/-- Whatever happens to a new scene and its device: after the device is updated while nothing else
has to be, it holds what a new device would be handed, and updating it again does nothing.  An
update that hands everything over returns true, as that of a new device does, and any other leaves
the scene and the device alone. -/
theorem deviceUpdate_current {config : SceneConfig} {registry : Option EngineRegistry}
    {start : Scene} (hstart : Scene.new config registry = .ok start) (events : List Event) :
    let x := events.foldl Event.apply (start, {})
    let after := (x.1.deviceUpdate x.2).2
    (after.1.needsUpdate = false → after.2.Alike (after.1.deviceUpdate {}).2.2) ∧
      after.1.deviceUpdate after.2 = (false, after) ∧
      after.1.deviceUpdate {} = (true, after.1, after.1.upload {}) ∧
      if (x.1.deviceUpdate x.2).1 then after.2 = x.1.upload x.2 else after = x := by
  intro x after
  have hcurrent : after.1.Current after.2 :=
    ((current_of_dirty (new_deviceDirty hstart)).foldl events).apply .deviceUpdate
  have hclean : after.1.deviceDirty = false ∧ after.2.uploaded = true := by
    simp only [after, deviceUpdate]
    split
    · rename_i hidle
      simpa using hidle
    · exact ⟨rfl, rfl⟩
  have hnew : after.1.deviceUpdate {} = (true, after.1, after.1.upload {}) := by
    have hsame : { after.1 with deviceDirty := false } = after.1 := by rw [← hclean.1]
    simp [deviceUpdate, hsame]
  refine ⟨fun hneeds => ?_, by simp [deviceUpdate, hclean], hnew, ?_⟩
  · rw [hnew]
    exact hcurrent (needsUpdate_eq_false_iff.1 hneeds).2 hclean.1 hclean.2
  · simp only [after, deviceUpdate]
    split <;> rfl

/-- The default shaders are compiled and handed over, and then one of them is edited: it is compiled
by the second update after the first was cancelled, and its program is handed over again. -/
theorem fresh_deviceUpdate_current :
    let events : List Event := [.hostUpdate {} never, .deviceUpdate,
      .edit 1 { name := "edited", graph := .new } rfl, .hostUpdate {} fun _ => true,
      .deviceUpdate, .hostUpdate {} never]
    let x := events.foldl Event.apply (fresh, {})
    let after := (x.1.deviceUpdate x.2).2
    Scene.new {} none = .ok fresh ∧ after.1.needsUpdate = false ∧
      after.2.Alike (after.1.deviceUpdate {}).2.2 ∧
        after.1.deviceUpdate after.2 = (false, after) := by
  intro events x after
  obtain ⟨hlike, hagain, _⟩ := deviceUpdate_current new_eq_fresh events
  have hneeds : after.1.needsUpdate = false := by decide +kernel
  exact ⟨new_eq_fresh, hneeds, hlike hneeds, hagain⟩

end Scene

end Shading
