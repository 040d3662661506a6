import Shading.Proofs.Recording

/-!
# The record of a compilation

Whatever becomes of an entry point, its group is closed again, and between the beginning of the
group and its end stand calls for layers only (`exists_reaches_build`).  Groups are numbered upwards,
so the calls for a group can be found in the record by its number (`EngineCall.ofGroup`).
-/

namespace Shading

open GroupContext GroupM List Recorder EngineHost

variable {ctx : GroupContext} {n : NodeId} {node : Node} {s s' : GroupState}
  {sources : ScriptSource → Prop} {P : EngineHost → Prop} {α : Type}

/-! ## What every step keeps -/

/-- A property of engines with an open group that calls for layers, images and vain attempts to load
scripts do not change. -/
structure Steady (sources : ScriptSource → Prop) (P : EngineHost → Prop) : Prop where
  isOpen : ∀ {h : EngineHost}, P h → h.recorder.openGroup.isSome = true
  told : ∀ {h : EngineHost} {c : EngineCall}, c.isForLayer = true → P h →
    P { h with recorder := h.recorder.told [c] }
  textures : ∀ {h : EngineHost} (t : Textures), P h → P { h with textures := t }
  load : ∀ {h : EngineHost} {source : ScriptSource}, sources source → P h →
    ∃ e h', loadSourceOf source h = .error e h' ∧ P h'

namespace Steady

variable (h : Steady sources P)
include h

lemma tell {call : Recorder → Except Rejection Recorder} {c : EngineCall} (hc : c.isForLayer = true)
    (hcall : ∀ {r r'}, r.openGroup.isSome = true → call r = .ok r' → r' = r.told [c]) :
    (tell call).Retains (fun s => P s.host) fun _ s => P s.host := by
  refine .get_bind fun s hs => ?_
  cases hr : call s.host.recorder with
  | ok r =>
    rw [hcall (h.isOpen hs) hr]
    exact fun _ _ => h.told hc hs
  | error e => exact .pre (fun t ht => ht ▸ hs) (.throw fun _ hs => hs)

lemma telling : ctx.Telling (fun s => P s.host) fun _ s => P s.host where
  parameter _ _ := h.tell rfl fun hopen hr => ((parameter_eq_ok_iff hopen).1 hr).2
  shader _ _ := h.tell rfl fun hopen hr => ((shader_eq_ok_iff hopen).1 hr).2
  connect _ _ _ _ := h.tell rfl fun hopen hr => ((connect_eq_ok_iff hopen).1 hr).2
  image _ _ hs := h.textures _ hs
  error _ hs := hs

/-- Loading is tried in vain. -/
lemma addAll (hscripts : ∀ source, ctx.net.Scripts source → sources source) :
    ctx.addAll.Retains (fun s => P s.host) fun _ s => P s.host := by
  refine h.telling.addAll (fun hh hs => hh ▸ hs) fun hsource s hs => ?_
  obtain ⟨e, host, hload, hhost⟩ := h.load (hscripts _ hsource) hs
  rw [loadScript_of_error hload]
  exact hhost

end Steady

variable {host : EngineHost} {name : String} {group : GroupId}

/-! ## What is on record after a group -/

/-- An engine without an open group has come from another one by groups that were begun and ended,
in which scripts were tried in vain. -/
structure EngineHost.Reaches (sources : ScriptSource → Prop) (host : EngineHost)
    (calls : List EngineCall) (h : EngineHost) : Prop where
  tries : host.Tries sources h
  closed : h.recorder.openGroup = none
  recorded : h.recorder.calls.toList = host.recorder.calls.toList ++ calls
  nextGroup : host.recorder.nextGroup ≤ h.recorder.nextGroup
  numbered : ∀ name group, .groupBegin name group ∈ calls → group < h.recorder.nextGroup

namespace EngineHost.Reaches

variable {h h' : EngineHost} {calls calls' : List EngineCall}

lemma refl (hclosed : host.recorder.openGroup = none) : Reaches sources host [] host where
  tries := .start
  closed := hclosed
  recorded := (append_nil _).symm
  nextGroup := le_rfl
  numbered _ _ h := absurd h not_mem_nil

lemma congr (hr : Reaches sources host calls h) (heq : h' = h) : Reaches sources host calls h' :=
  heq ▸ hr

lemma trans (hr : Reaches sources host calls h) (hr' : Reaches sources h calls' h') :
    Reaches sources host (calls ++ calls') h' where
  tries := hr.tries.trans hr'.tries
  closed := hr'.closed
  recorded := by rw [hr'.recorded, hr.recorded, append_assoc]
  nextGroup := hr.nextGroup.trans hr'.nextGroup
  numbered name group hmem := by
    rcases mem_append.1 hmem with hmem | hmem
    · exact (hr.numbered name group hmem).trans_le hr'.nextGroup
    · exact hr'.numbered name group hmem

end EngineHost.Reaches

/-- A group is under construction in an engine that was closed before. -/
structure EngineHost.Building (sources : ScriptSource → Prop) (host : EngineHost) (name : String)
    (body : List EngineCall) (h : EngineHost) : Prop where
  tries : host.Tries sources h
  openGroup : h.recorder.openGroup = some host.recorder.nextGroup
  nextGroup : h.recorder.nextGroup = host.recorder.nextGroup + 1
  recorded : h.recorder.calls.toList = host.recorder.calls.toList ++
    .groupBegin name host.recorder.nextGroup :: body
  isForLayer : ∀ c ∈ body, c.isForLayer = true

namespace EngineHost.Building

variable {h : EngineHost} {body : List EngineCall}

lemma start (host : EngineHost) (name : String) :
    Building sources host name [] (GroupState.opened host name).host where
  tries := .tell .start _ host.textures
  openGroup := rfl
  nextGroup := rfl
  recorded := by simp [GroupState.opened, begun, record]
  isForLayer _ hc := absurd hc not_mem_nil

lemma steady (hhost : host.Refuses sources) (name : String) :
    Steady sources fun h => ∃ body, Building sources host name body h where
  isOpen := by
    rintro h ⟨body, hb⟩
    rw [hb.openGroup]
    rfl
  told := by
    rintro h c hc ⟨body, hb⟩
    refine ⟨body ++ [c], .tell hb.tries _ h.textures, hb.openGroup, hb.nextGroup, ?_, ?_⟩
    · simp [told, hb.recorded]
    · exact forall_mem_append.2 ⟨hb.isForLayer, by simpa using hc⟩
  textures := by
    rintro h t ⟨body, hb⟩
    exact ⟨body, .tell hb.tries h.recorder t, hb.openGroup, hb.nextGroup, hb.recorded,
      hb.isForLayer⟩
  load := by
    rintro h source hsource ⟨body, hb⟩
    obtain ⟨e, h', hload⟩ := hhost h hb.tries source hsource
    have hsame : h'.recorder = h.recorder := (silent_of_loadSourceOf_eq_error hload).1
    exact ⟨e, h', hload, body, .load hb.tries hsource hload, hsame ▸ hb.openGroup,
      hsame ▸ hb.nextGroup, hsame ▸ hb.recorded, hb.isForLayer⟩

lemma closed {s : GroupState} (hb : Building sources host name body s.host) :
    host.Reaches sources (.groupBegin name host.recorder.nextGroup :: (body ++ [.groupEnd]))
      s.closed.host where
  tries := .tell hb.tries _ s.host.textures
  closed := rfl
  recorded := by
    simp [GroupState.closed, ended, record, hb.recorded]
  nextGroup := by
    change _ ≤ s.host.recorder.nextGroup
    rw [hb.nextGroup]
    exact Nat.le_succ _
  numbered name' group hmem := by
    change _ < s.host.recorder.nextGroup
    rw [hb.nextGroup]
    simp only [mem_cons, EngineCall.groupBegin.injEq, mem_append, reduceCtorEq,
      not_mem_nil, or_false] at hmem
    rcases hmem with ⟨_, rfl⟩ | hbody
    · exact Nat.lt_succ_self _
    · have := hb.isForLayer _ hbody
      cases this

end EngineHost.Building

/-- The group of an entry point is closed whatever happens, and there are calls for layers in it
only. -/
lemma exists_reaches_build (hclosed : host.recorder.openGroup = none) (hhost : host.Refuses sources)
    (hscripts : ∀ source, ctx.net.Scripts source → sources source) :
    ∃ (body : List EngineCall) (t : GroupState), (∀ c ∈ body, c.isForLayer = true) ∧
      host.Reaches sources
        (.groupBegin name host.recorder.nextGroup :: (body ++ [.groupEnd])) t.host ∧
      ((ctx.build name { host } = .ok host.recorder.nextGroup t ∧
          ∃ s, ctx.addAll (.opened host name) = .ok ⟨⟩ s ∧ t = s.closed) ∨
        ∃ e, ctx.build name { host } = .error e t) := by
  have hsteady := Building.steady hhost name
  have hleads := hsteady.addAll hscripts (.opened host name) ⟨[], .start host name⟩
  cases hadd : ctx.addAll (.opened host name) with
  | ok u t =>
    rw [hadd] at hleads
    obtain ⟨body, hb⟩ := hleads
    exact ⟨body, t.closed, hb.isForLayer, hb.closed,
      .inl ⟨build_of_ok hclosed hadd (hsteady.isOpen ⟨body, hb⟩), t, rfl, rfl⟩⟩
  | error e t =>
    rw [hadd] at hleads
    obtain ⟨body, hb⟩ := hleads
    exact ⟨body, t.closed, hb.isForLayer, hb.closed,
      .inr ⟨e, build_of_error hclosed hadd (hsteady.isOpen ⟨body, hb⟩)⟩⟩

/-- A group that was built in an engine that refuses its scripts is what the engine hears about its
members. -/
lemma reaches_of_build_eq_ok (hclosed : host.recorder.openGroup = none)
    (hhost : host.Refuses ctx.net.Scripts)
    (hout : ctx.net.isScript ctx.graph.output = false)
    (h : ctx.build name { host } = .ok group s) :
    group = host.recorder.nextGroup ∧
      ctx.Tellable (host.recorder.begun name) host.textures.slots.size ∧
      (∀ c ∈ ctx.heard host.textures.slots.size ctx.members, c.isForLayer = true) ∧
      host.Reaches ctx.net.Scripts (.groupBegin name group ::
        (ctx.heard host.textures.slots.size ctx.members ++ [.groupEnd])) s.host := by
  obtain ⟨body, t, hbody, hreaches, ⟨hbuild, u, hadd, hu⟩ | ⟨e, hbuild⟩⟩ :=
    exists_reaches_build hclosed hhost fun _ h => h
  · cases hbuild.symm.trans h
    have hadded := tellable_of_addAll rfl rfl rfl rfl hhost (.tell .start _ host.textures) hout hadd
    have hrecorder : u.host.recorder = (host.recorder.begun name).told
        (ctx.heard host.textures.slots.size ctx.members) := hadded.2
    have hsame : body = ctx.heard host.textures.slots.size ctx.members := by
      have hcalls := hreaches.recorded
      rw [hu] at hcalls
      change (u.host.recorder.ended).calls.toList = _ at hcalls
      rw [hrecorder] at hcalls
      simpa [ended, record, told, begun] using hcalls.symm
    rw [← hsame]
    exact ⟨rfl, hadded.1, hbody, hreaches⟩
  · cases hbuild.symm.trans h

/-! ## Compilations -/

lemma EngineHost.Refuses.of_isScript {net : Network} (h : ∀ n, net.isScript n = false) :
    host.Refuses net.Scripts := by
  rintro h' _ source ⟨n, hn⟩
  have := h n
  rw [Network.isScript, hn] at this
  cases this

namespace EngineCall

/-- Whether a call begins the group with the number. -/
def begins (group : GroupId) : EngineCall → Bool
  | .groupBegin _ g => g == group
  | _ => false

/-- The calls for layers between the beginning of a group and its end. -/
def ofGroup (group : GroupId) (calls : List EngineCall) : List EngineCall :=
  (((calls.dropWhile fun c => !c.begins group).drop 1).takeWhile (· != .groupEnd)).filter isForLayer

lemma ofGroup_append {before body after : List EngineCall}
    (hbefore : ∀ c ∈ before, c.begins group = false) (hbody : ∀ c ∈ body, c.isForLayer = true) :
    ofGroup group (before ++ .groupBegin name group :: (body ++ .groupEnd :: after)) = body := by
  have hdrop : (before ++ .groupBegin name group :: (body ++ .groupEnd :: after)).dropWhile
      (fun c => !c.begins group) = .groupBegin name group :: (body ++ .groupEnd :: after) := by
    rw [dropWhile_append_of_pos fun c hc => by simp [hbefore c hc]]
    exact dropWhile_cons_of_neg (by simp [begins])
  have htake : (body ++ .groupEnd :: after).takeWhile (· != .groupEnd) = body := by
    rw [takeWhile_append_of_pos fun c hc => ?_, takeWhile_cons_of_neg (by simp), append_nil]
    have := hbody c hc
    cases c <;> first | rfl | cases this
  rw [ofGroup, hdrop, drop_one, tail_cons, htake]
  exact filter_eq_self.2 hbody

end EngineCall

/-- The calls that were recorded after those of an earlier state of the engine. -/
def EngineHost.callsSince (h host : EngineHost) : List EngineCall :=
  h.recorder.calls.toList.drop host.recorder.calls.size

namespace GroupResults

variable {sh : Shader} {background : Bool} {res : GroupResults} {e e' : EntryPoint}
  {entries : List EntryPoint}

lemma get?_addEntry_of_ne (h : e' ≠ e) :
    (res.addEntry sh background e).groups.get? e' = res.groups.get? e' := by
  unfold addEntry
  split
  · rfl
  dsimp only
  split
  · exact (EntryTable.get?_set ..).trans (if_neg h)
  · rfl

lemma get?_foldl_of_not_mem (h : e ∉ entries) :
    (entries.foldl (addEntry sh background) res).groups.get? e = res.groups.get? e := by
  induction entries generalizing res with
  | nil => rfl
  | cons e' entries ih =>
    rw [mem_cons, not_or] at h
    rw [foldl_cons, ih h.2, get?_addEntry_of_ne h.1]

section

variable (hclosed : res.host.recorder.openGroup = none) (hhost : res.host.Refuses sources)
  (hscripts : ∀ source, sh.graph.net.Scripts source → sources source)
include hclosed hhost hscripts

/-- Entry points leave the engine without an open group. -/
lemma exists_reaches_addEntry :
    ∃ calls, res.host.Reaches sources calls (res.addEntry sh background e).host := by
  by_cases hadmits : res.Admits sh e
  · obtain ⟨body, t, _, hreaches, hbuild⟩ := @exists_reaches_build
      (sh.groupContext background e) sources res.host sh.name hclosed hhost hscripts
    refine ⟨_, hreaches.congr ?_⟩
    obtain ⟨hbuild, _⟩ | ⟨error, hbuild⟩ := hbuild
    · rw [addEntry_of_admits hadmits, hbuild, addOutcome]
      rfl
    · rw [addEntry_of_admits hadmits, hbuild, addOutcome]
  · rw [addEntry_of_not_admits hadmits]
    exact ⟨[], .refl hclosed⟩

lemma exists_reaches_foldl (entries : List EntryPoint) : ∃ calls,
      res.host.Reaches sources calls (entries.foldl (addEntry sh background) res).host := by
  induction entries generalizing res with
  | nil => exact ⟨[], .refl hclosed⟩
  | cons e entries ih =>
    obtain ⟨calls, hfirst⟩ := @exists_reaches_addEntry sources sh background res e hclosed hhost
      hscripts
    obtain ⟨calls', hrest⟩ := ih hfirst.closed (hhost.of_tries hfirst.tries)
    exact ⟨calls ++ calls', hfirst.trans hrest⟩

end

/-- What the groups of the entry points before one amount to. -/
def before (sh : Shader) (background : Bool) (res : GroupResults) (e : EntryPoint) :
    GroupResults :=
  (EntryPoint.all.takeWhile (· != e)).foldl (addEntry sh background) res

/-- What the groups of all entry points amount to. -/
abbrev addAll (sh : Shader) (background : Bool) (res : GroupResults) : GroupResults :=
  EntryPoint.all.foldl (addEntry sh background) res

lemma exists_addAll_eq (e : EntryPoint) : ∃ rest : List EntryPoint, e ∉ rest ∧
    res.addAll sh background = rest.foldl (addEntry sh background)
      ((res.before sh background e).addEntry sh background e) := by
  cases e
  · exact ⟨[.bump, .volume, .displacement], by decide, rfl⟩
  · exact ⟨[.volume, .displacement], by decide, rfl⟩
  · exact ⟨[.displacement], by decide, rfl⟩
  · exact ⟨[], by decide, rfl⟩

lemma exists_reaches_before (hclosed : res.host.recorder.openGroup = none)
    (hhost : res.host.Refuses sh.graph.net.Scripts) (e : EntryPoint) : ∃ calls,
      res.host.Reaches sh.graph.net.Scripts calls (res.before sh background e).host :=
  exists_reaches_foldl hclosed hhost (fun _ h => h) _

lemma get?_before (hempty : res.groups = {}) :
    (res.before sh background e).groups.get? e = none := by
  have hnot : e ∉ EntryPoint.all.takeWhile (· != e) := by cases e <;> decide
  rw [before, get?_foldl_of_not_mem hnot, hempty, EntryTable.get?_empty]

/-- An entry point has a group exactly if it was built. -/
lemma get?_addAll_eq_some_iff (hempty : res.groups = {}) {group : GroupId} :
    (res.addAll sh background).groups.get? e = some group ↔
      (res.before sh background e).Admits sh e ∧ ∃ t, (sh.groupContext background e).build sh.name
        { host := (res.before sh background e).host } = .ok group t := by
  obtain ⟨rest, hrest, hall⟩ := @exists_addAll_eq sh background res e
  have hbefore := @get?_before sh background res e hempty
  rw [hall, get?_foldl_of_not_mem hrest]
  by_cases hadmits : (res.before sh background e).Admits sh e
  · rw [and_iff_right hadmits]
    cases hbuild : (sh.groupContext background e).build sh.name
        { host := (res.before sh background e).host } with
    | ok g t =>
      rw [addEntry_of_admits hadmits, hbuild, addOutcome]
      dsimp only [addGroup, EntryTable.insert]
      rw [EntryTable.get?_set, if_pos rfl]
      simp
    | error error t =>
      rw [addEntry_of_admits hadmits, hbuild, addOutcome, hbefore]
      simp
  · rw [addEntry_of_not_admits hadmits, hbefore]
    simp [hadmits]

/-- An entry point that has a group could be told to the engine, and the calls for the group are what
the engine hears about its members. -/
lemma tellable_of_get?_addAll (hclosed : res.host.recorder.openGroup = none)
    (hempty : res.groups = {}) (hhost : res.host.Refuses sh.graph.net.Scripts)
    (hout : sh.graph.net.isScript sh.graph.output = false) {group : GroupId}
    (h : (res.addAll sh background).groups.get? e = some group) :
    (res.before sh background e).Admits sh e ∧
      (sh.groupContext background e).Tellable
        ((res.before sh background e).host.recorder.begun sh.name)
        (res.before sh background e).host.textures.slots.size ∧
      EngineCall.ofGroup group ((res.addAll sh background).host.callsSince res.host) =
        (sh.groupContext background e).heard (res.before sh background e).host.textures.slots.size
          (sh.groupContext background e).members := by
  obtain ⟨hadmits, t, hbuild⟩ := (get?_addAll_eq_some_iff hempty).1 h
  obtain ⟨rest, _, hall⟩ := @exists_addAll_eq sh background res e
  obtain ⟨earlier, hearlier⟩ := @exists_reaches_before sh background res hclosed hhost e
  obtain ⟨rfl, htellable, hheard, hown⟩ := @reaches_of_build_eq_ok (sh.groupContext background e) t
    _ _ group hearlier.closed (hhost.of_tries hearlier.tries) hout hbuild
  refine ⟨hadmits, htellable, ?_⟩
  have hsame : ((res.before sh background e).addEntry sh background e).host = t.host := by
    rw [addEntry_of_admits hadmits, hbuild, addOutcome]
    rfl
  have hentry := hearlier.trans (hown.congr hsame)
  obtain ⟨later, hlater⟩ := @exists_reaches_foldl sh.graph.net.Scripts sh background _ hentry.closed
    (hhost.of_tries hentry.tries) (fun _ h => h) rest
  -- groups are numbered upwards, so none of the earlier ones has this number
  have hbefore : ∀ c ∈ earlier,
      c.begins (res.before sh background e).host.recorder.nextGroup = false := by
    intro c hc
    cases c with
    | groupBegin name g => exact beq_false_of_ne (hearlier.numbered name g hc).ne
    | _ => rfl
  rw [callsSince, hall, (hentry.trans hlater).recorded,
    drop_left' Array.length_toList, append_assoc, cons_append, append_assoc,
    singleton_append]
  exact EngineCall.ofGroup_append hbefore hheard

/-- Without scripts, an entry point that can be told to the engine gets a group. -/
lemma exists_get?_addAll (hclosed : res.host.recorder.openGroup = none) (hempty : res.groups = {})
    (hfree : ∀ n, sh.graph.net.isScript n = false)
    (hadmits : (res.before sh background e).Admits sh e)
    (h : (sh.groupContext background e).Tellable
      ((res.before sh background e).host.recorder.begun sh.name)
      (res.before sh background e).host.textures.slots.size) :
    ∃ group, (res.addAll sh background).groups.get? e = some group := by
  obtain ⟨calls, hearlier⟩ := @exists_reaches_before sh background res hclosed
    (.of_isScript hfree) e
  obtain ⟨t, hbuild, _⟩ := @exists_build_of_tellable (sh.groupContext background e) _ sh.name
    hearlier.closed (fun n _ => hfree n) (fun n _ => hfree n) h
  exact ⟨_, (get?_addAll_eq_some_iff hempty).2 ⟨hadmits, t, hbuild⟩⟩

end GroupResults

end Shading
