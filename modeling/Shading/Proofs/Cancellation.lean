import Mathlib.Data.List.Nodup
import Shading.Scene.Basic

/-!
# Cancelled updates

An update that is cancelled has compiled the first of the modified shaders, and the others are as
they were.  So the next update goes on where it stopped, and it does not matter how often that
happens: an update that is not cancelled comes to the same in the end, and no shader is compiled
twice on the way (`Scene.hostUpdates_cancelled`).

This is so because compiling to instructions needs no more of a scene than its shaders, its
background and its table of attributes.  None of that is touched between two shaders.
-/

namespace Shading.Scene

open List

variable {s : Scene} {id : ShaderId} {done done' rest : List ShaderId} {u : UpdateState}

/-! ## Modified shaders -/

lemma mem_modified : id ∈ s.modified ↔ ∃ e, s.shaders[id]? = some e ∧ e.shader.modified = true := by
  rw [modified, mem_filter, mem_range, shader?]
  constructor
  · rintro ⟨hlt, hmod⟩
    rw [Array.getElem?_eq_getElem hlt] at hmod ⊢
    exact ⟨_, rfl, hmod⟩
  · rintro ⟨e, he, hmod⟩
    exact ⟨(Array.getElem?_eq_some_iff.1 he).1, by rw [he]; exact hmod⟩

lemma nodup_modified : s.modified.Nodup := nodup_range.filter _

lemma needsUpdate_eq_false_iff : s.needsUpdate = false ↔ s.updateFlags = 0 ∧ s.modified = [] := by
  simp [needsUpdate]

/-! ## Polls -/

namespace UpdateState

/-- The first shaders are compiled, and all of them if no poll cancels the update. -/
lemma run_spec (cancelled : Nat → Bool) (n : Nat) (ids : List ShaderId) (u : UpdateState) :
    ∃ done rest, ids = done ++ rest ∧ ((∀ k, cancelled k = false) → rest = []) ∧
      run cancelled n ids u =
        let v := done.foldl step u
        { v with report := { v.report with cancelled := v.report.cancelled || !rest.isEmpty } } := by
  induction ids generalizing n u with
  | nil => exact ⟨[], [], rfl, fun _ => rfl, by simp [run]⟩
  | cons id ids ih =>
    by_cases hn : cancelled n = true
    · refine ⟨[], id :: ids, rfl, fun h => ?_, by simp [run, hn]⟩
      rw [h n] at hn
      cases hn
    · obtain ⟨done, rest, rfl, hall, hrun⟩ := ih (n + 1) (u.step id)
      exact ⟨id :: done, rest, rfl, hall, by rw [run, if_neg hn, hrun, foldl_cons]⟩

end UpdateState

/-! ## Compiling to instructions -/

/-- What a shader of the scene is compiled to, with the table of attributes as it is then. -/
def instructionsOf (s : Scene) (id : ShaderId) (shader : Shader) :
    BytecodeOutput × Shader × AttributeIds :=
  shader.compileBytecode ⟨id == s.background, s.config.recordTrace⟩ s.attributes

def keptOf (out : BytecodeOutput × Shader × AttributeIds) : SceneShader where
  shader := { out.2.1 with compiled := some (.bytecode out.1.program), modified := false }
  programHash := some out.1.program.hash
  emitting := isSampledLight out.2.1

def renew (s : Scene) (id : ShaderId) : Scene :=
  (UpdateState.step { scene := s, files := {} } id).scene

section

variable (hb : s.backend = .bytecode)
include hb

lemma renew_eq {e : SceneShader} (he : s.shaders[id]? = some e) : s.renew id = { s with
        attributes := (s.instructionsOf id e.shader).2.2
        shaders := s.shaders.setIfInBounds id (keptOf (s.instructionsOf id e.shader)) } := by
  simp only [renew, UpdateState.step, he, compileShader, hb, store]
  rfl

/-- Why else the scene has to be updated does not matter. -/
lemma renew_flags (hid : id ∈ s.modified) (updateFlags : UpdateFlags) (deviceDirty : Bool) :
    { s with updateFlags, deviceDirty }.renew id = { s.renew id with updateFlags, deviceDirty } := by
  obtain ⟨e, he, _⟩ := mem_modified.1 hid
  rw [renew_eq hb he, renew_eq (s := { s with updateFlags, deviceDirty }) hb he]
  rfl

/-- The first of the modified shaders is not modified any more. -/
lemma modified_renew (h : s.modified = id :: rest) : (s.renew id).modified = rest := by
  obtain ⟨e, he, _⟩ := mem_modified.1 (h ▸ mem_cons_self : id ∈ s.modified)
  have hlt : id < s.shaders.size := (Array.getElem?_eq_some_iff.1 he).1
  have hfilter : (s.renew id).modified = s.modified.filter (· ≠ id) := by
    rw [renew_eq hb he, modified, modified, filter_filter, Array.size_setIfInBounds]
    refine filter_congr fun j _ => ?_
    by_cases hj : id = j
    · subst hj
      simp [shader?, hlt, keptOf]
    · simp [shader?, hj, Ne.symm hj]
  have hnodup : (id :: rest).Nodup := h ▸ nodup_modified
  rw [hfilter, h, filter_cons_of_neg (by simp), filter_eq_self]
  intro j hj
  simpa using fun e : j = id => (nodup_cons.1 hnodup).1 (e ▸ hj)

/-- What compiling a modified shader leaves as it is. -/
lemma renew_frame (hid : id ∈ s.modified) :
    (s.renew id).backend = .bytecode ∧ (s.renew id).updateFlags = s.updateFlags ∧
      (s.renew id).deviceDirty = s.deviceDirty ∧
        ∀ j, j ≠ id → (s.renew id).shaders[j]? = s.shaders[j]? := by
  obtain ⟨e, he, _⟩ := mem_modified.1 hid
  rw [renew_eq hb he]
  exact ⟨hb, rfl, rfl, fun j hj => Array.getElem?_setIfInBounds_ne hj.symm⟩

omit hb in
/-- A step compiles the shader and notes it. -/
lemma UpdateState.step_spec (hb : u.scene.backend = .bytecode) (hid : id ∈ u.scene.modified) :
    (u.step id).scene = u.scene.renew id ∧ (u.step id).files = u.files ∧
      (u.step id).report.compiled = u.report.compiled ++ [id] ∧
        (u.step id).report.cancelled = u.report.cancelled := by
  obtain ⟨e, he, _⟩ := mem_modified.1 hid
  simp only [renew_eq hb he, step, he, compileShader, hb]
  exact ⟨rfl, trivial, rfl, rfl⟩

/-! ### Several shaders -/

/-- The scene with the first of the modified shaders compiled.  The others are left, and so is
everything else that the shaders do not share. -/
lemma foldl_renew_spec (h : s.modified = done ++ rest) :
    (done.foldl renew s).modified = rest ∧ (done.foldl renew s).backend = .bytecode ∧
      (done.foldl renew s).updateFlags = s.updateFlags ∧
        (done.foldl renew s).deviceDirty = s.deviceDirty ∧
          ∀ j, j ∉ done → (done.foldl renew s).shaders[j]? = s.shaders[j]? := by
  induction done generalizing s with
  | nil => exact ⟨h, hb, rfl, rfl, fun _ _ => rfl⟩
  | cons id done ih =>
    have hid : id ∈ s.modified := h ▸ mem_cons_self
    obtain ⟨hb', hflags, hdirty, hother⟩ := renew_frame hb hid
    obtain ⟨hmod, hb'', hflags', hdirty', hother'⟩ := ih hb' (modified_renew hb h)
    refine ⟨hmod, hb'', hflags'.trans hflags, hdirty'.trans hdirty, fun j hj => ?_⟩
    rw [mem_cons, not_or] at hj
    exact (hother' j hj.2).trans (hother j hj.1)

lemma foldl_renew_flags (h : s.modified = done ++ rest)
    (updateFlags : UpdateFlags) (deviceDirty : Bool) :
    done.foldl renew { s with updateFlags, deviceDirty } =
      { done.foldl renew s with updateFlags, deviceDirty } := by
  induction done generalizing s with
  | nil => rfl
  | cons id done ih =>
    have hid : id ∈ s.modified := h ▸ mem_cons_self
    rw [foldl_cons, renew_flags hb hid, ih (renew_frame hb hid).1 (modified_renew hb h), foldl_cons]

end

lemma UpdateState.foldl_step_spec
    (hb : u.scene.backend = .bytecode) (h : u.scene.modified = done ++ rest) :
    (done.foldl step u).scene = done.foldl renew u.scene ∧ (done.foldl step u).files = u.files ∧
      (done.foldl step u).report.compiled = u.report.compiled ++ done ∧
        (done.foldl step u).report.cancelled = u.report.cancelled := by
  induction done generalizing u with
  | nil => exact ⟨rfl, rfl, (append_nil _).symm, rfl⟩
  | cons id done ih =>
    have hid : id ∈ u.scene.modified := h ▸ mem_cons_self
    obtain ⟨hscene, hfiles, hcompiled, hcancelled⟩ := step_spec hb hid
    obtain ⟨hscene', hfiles', hcompiled', hcancelled'⟩ := ih
      (by rw [hscene]; exact (renew_frame hb hid).1) (by rw [hscene]; exact modified_renew hb h)
    refine ⟨?_, hfiles'.trans hfiles, ?_, hcancelled'.trans hcancelled⟩
    · rw [foldl_cons, hscene', hscene, foldl_cons]
    · rw [foldl_cons, hcompiled', hcompiled, append_assoc, singleton_append]

/-! ## Updates -/

def never : Nat → Bool := fun _ => false

/-- The scene after an update that compiles these of its modified shaders.  If no other shader is
modified there is no reason for an update left. -/
def updated (s : Scene) (done : List ShaderId) : Scene :=
  { done.foldl renew s with
    deviceDirty := s.deviceDirty || !done.isEmpty
    updateFlags := if (done.foldl renew s).modified = [] then 0 else s.updateFlags }

lemma modified_updated (hb : s.backend = .bytecode) (h : s.modified = done ++ rest) :
    (s.updated done).modified = rest :=
  (foldl_renew_spec hb h).1

/-- An update compiles the first of the modified shaders, and all of them if it is not cancelled. -/
lemma hostUpdate_spec (hb : s.backend = .bytecode) (files : FileStore) (cancelled : Nat → Bool) :
    ∃ done rest, s.modified = done ++ rest ∧ (cancelled = never → rest = []) ∧
      (s.hostUpdate files cancelled).1.compiled = done ∧
        (s.hostUpdate files cancelled).2 = (s.updated done, files) := by
  by_cases hneeds : s.needsUpdate = true
  · obtain ⟨done, rest, hmod, hall, hrun⟩ :=
      UpdateState.run_spec cancelled 0 s.modified { scene := s, files }
    obtain ⟨hscene, hfiles, hcompiled, hcancelled⟩ :=
      UpdateState.foldl_step_spec (u := { scene := s, files }) hb hmod
    obtain ⟨hleft, hb', hflags, hdirty, _⟩ := foldl_renew_spec hb hmod
    refine ⟨done, rest, hmod, fun h => hall fun _ => h ▸ rfl, ?_, ?_⟩
    · simp only [hostUpdate, hneeds, hrun, hcompiled, Bool.not_true, Bool.false_eq_true, if_false,
        nil_append]
    · simp only [hostUpdate, hneeds, hrun, hcompiled, hscene, hfiles, hcancelled, finishEngine, hb',
        hdirty, hflags, updated, hleft, Bool.not_true, Bool.false_eq_true, if_false,
        nil_append, Bool.false_or, Bool.not_eq_true', isEmpty_eq_false_iff, ite_not]
  · obtain ⟨hflags, hempty⟩ := needsUpdate_eq_false_iff.1 (eq_false_of_ne_true hneeds)
    refine ⟨[], [], hempty, fun _ => rfl, ?_, ?_⟩
    · simp [hostUpdate, hneeds]
    · simp [hostUpdate, hneeds, updated, hempty, ← hflags]

lemma updated_updated (hb : s.backend = .bytecode) (h : s.modified = done ++ (done' ++ rest)) :
    (s.updated done).updated done' = s.updated (done ++ done') := by
  obtain ⟨hmod, hb', _⟩ := foldl_renew_spec hb h
  obtain ⟨hmod', _⟩ := foldl_renew_spec hb (h.trans (append_assoc ..).symm)
  have hfold : done'.foldl renew (s.updated done) =
      { (done ++ done').foldl renew s with
        deviceDirty := (s.updated done).deviceDirty, updateFlags := (s.updated done).updateFlags } := by
    rw [foldl_append]
    exact foldl_renew_flags hb' hmod ..
  have hleft : (done'.foldl renew (s.updated done)).modified = rest := by
    rw [hfold]
    exact hmod'
  have hdirty : ((s.deviceDirty || !done.isEmpty) || !done'.isEmpty) =
      (s.deviceDirty || !(done ++ done').isEmpty) := by
    cases done <;> simp
  have hflags : (if rest = [] then 0 else if done' ++ rest = [] then 0 else s.updateFlags) =
      if rest = [] then 0 else s.updateFlags := by
    by_cases hrest : rest = []
    · rw [if_pos hrest, if_pos hrest]
    · rw [if_neg hrest, if_neg hrest, if_neg fun hnil => hrest (append_eq_nil_iff.1 hnil).2]
  calc (s.updated done).updated done'
      = { (done ++ done').foldl renew s with
          deviceDirty := (s.deviceDirty || !done.isEmpty) || !done'.isEmpty
          updateFlags := if rest = [] then 0
            else if done' ++ rest = [] then 0 else s.updateFlags } := by
        rw [updated, hleft, hfold, updated, hmod]
    _ = s.updated (done ++ done') := by rw [hdirty, hflags, updated, hmod']

/-- Several updates, one after another, each with its own polls. -/
def hostUpdates (s : Scene) (files : FileStore) :
    List (Nat → Bool) → List HostUpdate × Scene × FileStore
  | [] => ([], s, files)
  | cancelled :: rest =>
    let (report, s, files) := s.hostUpdate files cancelled
    let (reports, s, files) := s.hostUpdates files rest
    (report :: reports, s, files)

/-- Updates of which the last is not cancelled compile all modified shaders between them. -/
lemma hostUpdates_spec (hb : s.backend = .bytecode) (files : FileStore) (calls : List (Nat → Bool)) :
    (s.hostUpdates files (calls ++ [never])).1.flatMap (·.compiled) = s.modified ∧
      (s.hostUpdates files (calls ++ [never])).2 = (s.updated s.modified, files) := by
  induction calls generalizing s with
  | nil =>
    obtain ⟨done, rest, hmod, hall, hcompiled, hnext⟩ := hostUpdate_spec hb files never
    rw [hall rfl, append_nil] at hmod
    simp only [nil_append, hostUpdates, flatMap_singleton]
    exact ⟨hcompiled.trans hmod.symm, hnext.trans (by rw [hmod])⟩
  | cons cancelled calls ih =>
    obtain ⟨done, rest, hmod, _, hcompiled, hnext⟩ := hostUpdate_spec hb files cancelled
    obtain ⟨_, hb', _⟩ := foldl_renew_spec hb hmod
    obtain ⟨hreports, hlast⟩ := ih (s := s.updated done) hb'
    rw [modified_updated hb hmod] at hreports hlast
    simp only [cons_append, hostUpdates, hnext, flatMap_cons]
    constructor
    · rw [hreports, hcompiled, hmod]
    · refine hlast.trans ?_
      have hall : s.modified = done ++ (rest ++ []) := by rw [append_nil, hmod]
      rw [updated_updated hb hall, ← hmod]

/-- A scene whose shaders are compiled to instructions is updated several times, and only the last
update is certain not to be cancelled.  The scene is then the same as after one update that is not
cancelled, and there is nothing left to update.  Every shader that was modified was compiled by one
of the updates and by no other, and no other shader has changed. -/
theorem hostUpdates_cancelled (hb : s.backend = .bytecode) (files : FileStore)
    (calls : List (Nat → Bool)) :
    let several := s.hostUpdates files (calls ++ [never])
    several.2 = (s.hostUpdate files never).2 ∧ several.2.1.needsUpdate = false ∧
      several.1.Pairwise (fun r r' => r.compiled.Disjoint r'.compiled) ∧
        (∀ id, id ∈ s.modified ↔ ∃ r ∈ several.1, id ∈ r.compiled) ∧
          ∀ id, id ∉ s.modified → several.2.1.shaders[id]? = s.shaders[id]? := by
  intro several
  obtain ⟨hcompiled, hlast⟩ := hostUpdates_spec hb files calls
  obtain ⟨_, honce⟩ := hostUpdates_spec hb files []
  have hmod : s.modified = s.modified ++ [] := (List.append_nil _).symm
  obtain ⟨hleft, _, _, _, hother⟩ := foldl_renew_spec hb hmod
  have hnodup : (several.1.flatMap (·.compiled)).Nodup := hcompiled ▸ nodup_modified
  have hscene : several.2.1 = s.updated s.modified := congrArg Prod.fst hlast
  refine ⟨hlast.trans honce.symm, ?_, (List.nodup_flatMap.1 hnodup).2, fun id => ?_, fun id hid => ?_⟩
  · rw [hscene, needsUpdate_eq_false_iff, modified_updated hb hmod]
    exact ⟨if_pos hleft, rfl⟩
  · rw [← List.mem_flatMap, hcompiled]
  · rw [hscene]
    exact hother id hid

/-- A scene with the default shaders, none of which is compiled yet. -/
def fresh : Scene :=
  Shader.defaults.foldl (fun s shader => (s.add shader).2)
    { config := {}, backend := .bytecode, background := defaultIds.background }

lemma new_eq_fresh : new {} none = .ok fresh := rfl

/-- The first update of the default shaders is cancelled before the second shader. -/
theorem fresh_hostUpdates_cancelled : fresh.backend = .bytecode ∧ fresh.modified = [0, 1, 2, 3, 4] ∧
      let several := fresh.hostUpdates {} ([fun n => n == 1] ++ [never])
      several.2 = (fresh.hostUpdate {} never).2 ∧
        ∀ id, id ∈ fresh.modified ↔ ∃ r ∈ several.1, id ∈ r.compiled := by
  obtain ⟨hlast, _, _, hmod, _⟩ := hostUpdates_cancelled (s := fresh) rfl {} [fun n => n == 1]
  exact ⟨rfl, by decide +kernel, hlast, hmod⟩

end Shading.Scene
