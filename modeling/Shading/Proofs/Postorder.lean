import Shading.Proofs.Reach
import Shading.Proofs.StepRelations

/-!
# Nodes in postorder

Nodes are scheduled in passes, and every pass emits what is ready.  The dependencies of an input,
however, are collected in postorder.  If a schedule for them comes to an end at all, then none of
them waits for itself, and each stands behind its sources already: the first pass emits them all, in
the order in which they were collected (`Emission.runs_of_schedule`).
-/

namespace Shading

open List Moves OrderedSet Shading.Frame

variable {id : NodeId} {net : Network} {skip : NodeId → Nat → Bool} {isDone : NodeId → Bool}
  {input : Nat}

/-! ## Lists in which sources come first -/

/-- Every node of the list stands behind all that it needs. -/
def Behind (needs : NodeId → NodeId → Prop) (l : List NodeId) : Prop :=
  ∀ before n after, l = before ++ n :: after → ∀ d, needs n d → d ∈ before

/-- Every node of the list stands behind all its sources. -/
def SourcesFirst (sources : NodeId → List NodeId) (l : List NodeId) : Prop :=
  ∀ before n after, l = before ++ n :: after → ∀ d ∈ sources n, d ∈ before

section

variable {sources : NodeId → List NodeId} {needs : NodeId → NodeId → Prop} {l : List NodeId}
  {n : NodeId}

lemma Behind.nil : Behind needs [] := by
  intro before n after h
  simp at h

lemma Behind.snoc (h : Behind needs l) (hn : ∀ d, needs n d → d ∈ l) : Behind needs (l ++ [n]) := by
  intro before m after hsplit d hd
  rcases eq_nil_or_concat after with rfl | ⟨after, z, rfl⟩
  · obtain ⟨rfl, hsame⟩ := append_inj' hsplit rfl
    obtain rfl : n = m := by simpa using hsame
    exact hn d hd
  · have hsplit' : l ++ [n] = (before ++ m :: after) ++ [z] := by simpa using hsplit
    obtain ⟨hl, _⟩ := append_inj' hsplit' rfl
    exact h before m after hl d hd

lemma SourcesFirst.nil : SourcesFirst sources [] :=
  show Behind (fun n d => d ∈ sources n) _ from .nil

lemma SourcesFirst.snoc (h : SourcesFirst sources l) (hn : ∀ d ∈ sources n, d ∈ l) :
    SourcesFirst sources (l ++ [n]) :=
  show Behind (fun n d => d ∈ sources n) _ from Behind.snoc h hn

/-- The position in such a list is higher than those of the sources. -/
lemma SourcesFirst.idxOf_lt (h : SourcesFirst sources l) (hl : l.Nodup) (hn : n ∈ l) {d : NodeId}
    (hd : d ∈ sources n) : d ∈ l ∧ l.idxOf d < l.idxOf n := by
  obtain ⟨before, after, rfl⟩ := append_of_mem hn
  have hmem := h before n after rfl d hd
  have hnot : n ∉ before := fun hb =>
    (nodup_append.1 hl).2.2 n hb n mem_cons_self rfl
  refine ⟨mem_append_left _ hmem, ?_⟩
  rw [idxOf_append_of_mem hmem, idxOf_append_of_notMem hnot]
  have := idxOf_lt_length_of_mem hmem
  omega

end

/-! ## The search for dependencies -/

section

variable {sources : NodeId → List NodeId} {needs : NodeId → NodeId → Prop} {rank : NodeId → Nat}
  {inside : NodeId → Prop} {found : NodeSet} {child avoid : Option NodeId} {path : List Frame}

/-- What was found before comes first. -/
lemma prefix_postorder (sources : NodeId → List NodeId) (fresh : List NodeId) (path : List Frame)
    (found : NodeSet) : found.toList <+: (postorder sources fresh path found).toList := by
  induction fresh, path, found using postorder.induct sources with
  | case1 fresh found => rw [postorder]
  | case2 fresh found id path ih =>
    rw [postorder]
    refine IsPrefix.trans ?_ ih
    by_cases hid : id ∈ found
    · rw [OrderedSet.insert_of_mem hid]
    · rw [toList_insert_of_not_mem hid]
      exact prefix_append ..
  | case3 fresh found id next rest path hn ih => rwa [postorder, if_pos hn]
  | case4 fresh found id next rest path hn ih => rwa [postorder, if_neg hn]

/-- The search is on the way along a path: what a node on it needs has been found, or will be looked
at, or is the next node of the path, which lies deeper. -/
def Frame.Descends (sources : NodeId → List NodeId) (needs : NodeId → NodeId → Prop)
    (rank : NodeId → Nat) (inside : NodeId → Prop) (found : NodeSet) :
    Option NodeId → List Frame → Prop
  | _, [] => True
  | child, (id, rest) :: path =>
    inside id ∧ rest ⊆ sources id ∧ (∀ d, needs id d → d ∈ rest ∨ d ∈ found ∨ child = some d) ∧
      (∀ f ∈ path, rank id < rank f.1) ∧ Descends sources needs rank inside found (some id) path

/-- The deepest node of a path is finished. -/
lemma Frame.Descends.finish (h : Descends sources needs rank inside found (some id) path) :
    Descends sources needs rank inside (found.insert id) none path := by
  have hmono : ∀ {child path}, Descends sources needs rank inside found child path →
      Descends sources needs rank inside (found.insert id) child path := by
    intro child path h
    induction path generalizing child with
    | nil => trivial
    | cons f path ih =>
      obtain ⟨hin, hsub, hsources, hrank, hpath⟩ := h
      refine ⟨hin, hsub, fun d hd => ?_, hrank, ih hpath⟩
      exact (hsources d hd).imp_right (.imp_left fun hd => mem_insert.2 (.inl hd))
  cases path with
  | nil => trivial
  | cons f path =>
    obtain ⟨hin, hsub, hsources, hrank, hpath⟩ := h
    refine ⟨hin, hsub, fun d hd => ?_, hrank, hmono hpath⟩
    rcases hsources d hd with hrest | hfound | hchild
    · exact .inl hrest
    · exact .inr (.inl (mem_insert.2 (.inl hfound)))
    · exact .inr (.inl (mem_insert.2 (.inr (Option.some.inj hchild).symm)))

/-- Without circles, a search in postorder puts first what is needed. -/
lemma behind_postorder {fresh : List NodeId}
    (hfresh : ∀ n d, inside n → d ∈ sources n → d ∈ fresh → inside d ∧ rank d < rank n)
    (hneeds : ∀ n d, inside n → needs n d → d ∈ sources n ∧ inside d ∧ rank d < rank n)
    (hpath : Descends sources needs rank inside found none path)
    (hcover : ∀ n, inside n → n ∈ fresh ∨ n ∈ found ∨ n ∈ path.map Prod.fst)
    (hfound : Behind needs found.toList) :
    Behind needs (postorder sources fresh path found).toList := by
  induction fresh, path, found using postorder.induct sources with
  | case1 fresh found =>
    rw [postorder]
    exact hfound
  | case2 fresh found id path ih =>
    rw [postorder]
    obtain ⟨_, _, hsources, _, hrest⟩ := hpath
    apply ih hfresh hrest.finish
    · intro n hn
      have := hcover n hn
      simp only [map_cons, mem_cons] at this
      rw [mem_insert]
      tauto
    · by_cases hid : id ∈ found
      · rwa [OrderedSet.insert_of_mem hid]
      · rw [toList_insert_of_not_mem hid]
        apply hfound.snoc
        intro d hd
        simpa [mem_def] using hsources d hd
  | case3 fresh found id next rest path hn ih =>
    rw [postorder, if_pos hn]
    obtain ⟨hin, hsub, hsources, hrank, hrest⟩ := hpath
    obtain ⟨hnext, hdeeper⟩ := hfresh id next hin (hsub mem_cons_self) hn
    apply ih
    · exact fun n d hn hd hmem => hfresh n d hn hd (mem_of_mem_erase hmem)
    · refine ⟨hnext, Subset.refl _, fun d hd => .inl (hneeds next d hnext hd).1, ?_, hin,
        fun d hd => hsub (mem_cons_of_mem _ hd), fun d hd => ?_, hrank, hrest⟩
      · rintro f (_ | ⟨_, hf⟩)
        · exact hdeeper
        · exact hdeeper.trans (hrank f hf)
      · have := hsources d hd
        simp only [mem_cons, reduceCtorEq, or_false] at this
        rw [Option.some.injEq]
        tauto
    · intro n hn'
      have := hcover n hn'
      simp only [map_cons, mem_cons] at this ⊢
      by_cases heq : n = next
      · exact .inr (.inr (.inl heq))
      · rw [mem_erase_of_ne heq]
        tauto
    · exact hfound
  | case4 fresh found id next rest path hn ih =>
    rw [postorder, if_neg hn]
    obtain ⟨hin, hsub, hsources, hrank, hrest⟩ := hpath
    -- a node of the path lies higher than this source, so it has been found if it is needed
    have hseen : needs id next → next ∈ found := by
      intro hneed
      obtain ⟨_, hnext, hdeeper⟩ := hneeds id next hin hneed
      have := hcover next hnext
      simp only [map_cons, mem_cons, mem_map] at this
      rcases this with hfresh | hfound | rfl | ⟨f, hf, rfl⟩
      · exact absurd hfresh hn
      · exact hfound
      · omega
      · have := hrank f hf
        omega
    apply ih hfresh
    · refine ⟨hin, fun d hd => hsub (mem_cons_of_mem _ hd), fun d hd => ?_, hrank, hrest⟩
      rcases hsources d hd with hmem | hfound | hchild
      · obtain rfl | hmem := mem_cons.1 hmem
        · exact .inr (.inl (hseen hd))
        · exact .inl hmem
      · exact .inr (.inl hfound)
      · cases hchild
    · exact hcover
    · exact hfound

/-- Without circles, the dependencies of an input come after what they need themselves. -/
lemma Network.behind_dependencies
    (hfresh : ∀ n d, inside n → d ∈ net.sources skip n → net.Enterable isDone found avoid d →
      inside d ∧ rank d < rank n)
    (hneeds : ∀ n d, inside n → needs n d → d ∈ net.sources skip n ∧ inside d ∧ rank d < rank n)
    (hcover : ∀ n, inside n → n ∈ found ∨ net.Enterable isDone found avoid n)
    (hfirst : ∀ first, net.source? skip id input = some first →
      net.Enterable isDone found avoid first → inside first)
    (hfound : Behind needs found.toList) :
    Behind needs (net.dependencies skip isDone found id input avoid).toList := by
  rw [dependencies_eq]
  cases hs : net.source? skip id input with
  | none => exact hfound
  | some first =>
    rw [Option.elim_some]
    split
    · rename_i hin
      have hin := hfirst first hs (mem_fresh.1 hin)
      apply behind_postorder
      · exact fun n d hn hd hfd => hfresh n d hn hd (mem_fresh.1 (mem_of_mem_erase hfd))
      · exact hneeds
      · exact ⟨hin, Subset.refl _, fun d hd => .inl (hneeds _ d hin hd).1, by simp, trivial⟩
      · intro n hn
        by_cases heq : n = first
        · exact .inr (.inr (by simp [heq]))
        · rw [mem_erase_of_ne heq, mem_fresh]
          exact (hcover n hn).symm.imp_right .inl
      · exact hfound
    · exact hfound

lemma Network.precedes_of_mem_sources {n d : NodeId} (h : d ∈ net.sources skip n) :
    net.Precedes d n := by
  unfold sources at h
  split at h
  · cases h
  · obtain ⟨i, _, h⟩ := mem_filterMap.1 h
    split at h
    · cases h
    · obtain ⟨_, hlink, rfl⟩ := Option.map_eq_some_iff.1 h
      obtain ⟨l, hl, rfl⟩ := Option.map_eq_some_iff.1 hlink
      have htarget := find?_some hl
      rw [Bool.and_eq_true, beq_iff_eq] at htarget
      exact ⟨l, mem_of_find?_eq_some hl, rfl, htarget.1⟩

/-- Collecting the dependencies of an input appends, each of them once, the nodes that can be reached
from it along inputs that are not skipped, through nodes that are not done, not avoided and not found
before.  If links make no circle, every node that is appended stands behind all its sources that are
in the set. -/
theorem Network.dependencies_exact (net : Network) (skip : NodeId → Nat → Bool)
    (isDone : NodeId → Bool) (found : NodeSet) (id : NodeId) (input : Nat) (avoid : Option NodeId) :
    ∃ added, (net.dependencies skip isDone found id input avoid).toList = found.toList ++ added ∧
      (found.toList ++ added).Nodup ∧
      (∀ n, n ∈ added ↔ skip id input = false ∧ ∃ first output,
        net.inputLink? id input = some (first, output) ∧
          Way (net.sources skip) (net.Enterable isDone found avoid) first n) ∧
      (net.Acyclic → ∀ before n after, added = before ++ n :: after → ∀ d ∈ net.sources skip n,
        d ∈ found.toList ++ added → d ∈ found.toList ++ before) := by
  obtain ⟨added, hadded⟩ : found.toList <+:
      (net.dependencies skip isDone found id input avoid).toList := by
    rw [dependencies_eq]
    cases net.source? skip id input with
    | none => exact List.prefix_rfl
    | some first =>
      rw [Option.elim_some]
      split
      · exact prefix_postorder ..
      · exact List.prefix_rfl
  have hnodup : (found.toList ++ added).Nodup := hadded ▸ OrderedSet.nodup _
  have hnew : ∀ {n}, n ∈ added → n ∉ found := fun ha hf =>
    (List.nodup_append.1 hnodup).2.2 _ hf _ ha rfl
  have hmem : ∀ {n}, n ∈ found.toList ++ added ↔ n ∈ found ∨ ∃ first,
      net.source? skip id input = some first ∧
        Way (net.sources skip) (net.Enterable isDone found avoid) first n := by
    rw [hadded]
    exact mem_dependencies
  refine ⟨added, hadded.symm, hnodup, fun n => ?_, fun hac => ?_⟩
  · simp only [source?_eq_some_iff] at hmem
    constructor
    · intro hn
      obtain ⟨first, ⟨hskip, output, hl⟩, w⟩ :=
        (hmem.1 (List.mem_append_right _ hn)).resolve_left (hnew hn)
      exact ⟨hskip, first, output, hl, w⟩
    · rintro ⟨hskip, first, output, hl, w⟩
      exact (List.mem_append.1 (hmem.2 (.inr ⟨first, ⟨hskip, output, hl⟩, w⟩))).resolve_left
        w.right.2.2.2
  · obtain ⟨rank, hrank⟩ := hac.exists_rank
    have hless : ∀ {n d}, d ∈ net.sources skip n → rank d < rank n :=
      fun hd => hrank (precedes_of_mem_sources hd)
    -- only new nodes need anything, namely those of their sources that can be in the set
    have hbehind : Behind (fun n d => n ∉ found ∧ d ∈ net.sources skip n ∧
        (d ∈ found ∨ net.Enterable isDone found avoid d)) (found.toList ++ added) := by
      rw [hadded]
      apply behind_dependencies
      · exact fun n d (_ : n ∈ found ∨ net.Enterable isDone found avoid n) hd he =>
          ⟨.inr he, hless hd⟩
      · exact fun n d _ hd => ⟨hd.2.1, hd.2.2, hless hd.2.1⟩
      · exact fun n hn => hn
      · exact fun first _ he => .inr he
      · rintro before n after hsplit d ⟨hn, _⟩
        exact absurd (OrderedSet.mem_def.2 (hsplit ▸ List.mem_append_right _ List.mem_cons_self)) hn
    rintro before n after rfl d hd hin
    refine hbehind _ n after (List.append_assoc ..).symm d ⟨hnew (by simp), hd, ?_⟩
    obtain hd | ⟨_, _, w⟩ := hmem.1 hin
    exacts [.inl hd, .inr w.right]

/-- A vector that two operations pass on. -/
def Network.chain : Network where
  nodes := #[some (.ofKind .geometry), some (.ofKind (.vectorMath .add)),
    some (.ofKind (.vectorMath .add))]
  vacant := []
  links := [(1, ⟨1, 0, 2, 0⟩), (0, ⟨0, 0, 1, 0⟩)]
  vacantLinks := []
  linkBound := 2

lemma Network.acyclic_chain : chain.Acyclic := @acyclic_of_rank chain id (by decide)

/-- The second operation depends on the vector and on the first one, which stands behind it. -/
theorem Network.dependencies_exact_chain : chain.Acyclic ∧
    (chain.dependencies (fun _ _ => false) (fun _ => false) .empty 2 0 none).toList = [0, 1] ∧
      ∀ before n after, [0, 1] = before ++ n :: after →
        ∀ d ∈ chain.sources (fun _ _ => false) n, d ∈ [0, 1] → d ∈ before := by
  have hlist : (chain.dependencies (fun _ _ => false) (fun _ => false) .empty 2 0 none).toList =
      [0, 1] := by decide +kernel
  obtain ⟨added, hadded, _, _, hbehind⟩ :=
    dependencies_exact chain (fun _ _ => false) (fun _ => false) .empty 2 0 none
  obtain rfl : [0, 1] = added := hlist.symm.trans hadded
  exact ⟨acyclic_chain, hlist, hbehind acyclic_chain⟩

/-- If everything that the nodes need can be entered, all sources come first. -/
lemma Network.sourcesFirst_dependencies (hdone : ∀ n, isDone n = false)
    (hinside : ∀ n, inside n → ∀ d ∈ net.sources skip n, inside d ∧ rank d < rank n)
    (hsize : ∀ n, inside n → n < net.nodes.size)
    (hfirst : ∀ first, net.source? skip id input = some first → first < net.nodes.size →
      inside first) :
    SourcesFirst (net.sources skip) (net.dependencies skip isDone .empty id input none).toList :=
  show Behind (fun n d => d ∈ net.sources skip n) _ from behind_dependencies
    (fun n d hn hd _ => hinside n hn d hd) (fun n d hn hd => ⟨hd, hinside n hn d hd⟩)
    (fun n hn => .inr ⟨hsize n hn, hdone n, by simp, not_mem_empty n⟩)
    (fun first hs h => hfirst first hs h.1) SourcesFirst.nil

end

/-! ### Leaving nodes out -/

section

variable {sources sources' : NodeId → List NodeId} {p : NodeId → Bool} {fresh fresh' : List NodeId}
  {path : List Frame} {found found' : NodeSet} {f : Frame}

lemma OrderedSet.toList_insert_filter (h : found'.toList = found.toList.filter p) {n : NodeId}
    (hn : p n = true) : (found'.insert n).toList = (found.insert n).toList.filter p := by
  have hmem : n ∈ found' ↔ n ∈ found := by
    rw [mem_def, mem_def, h, mem_filter, and_iff_left hn]
  by_cases hfound : n ∈ found
  · rw [insert_of_mem hfound, insert_of_mem (hmem.2 hfound), h]
  · rw [toList_insert_of_not_mem hfound,
      toList_insert_of_not_mem fun h => hfound (hmem.1 h), h, filter_append,
      filter_cons_of_pos hn, filter_nil]

lemma OrderedSet.toList_filter_insert {n : NodeId} (hn : p n = false) :
    (found.insert n).toList.filter p = found.toList.filter p := by
  by_cases hfound : n ∈ found
  · rw [insert_of_mem hfound]
  · rw [toList_insert_of_not_mem hfound, filter_append,
      filter_cons_of_neg (by simp [hn]), filter_nil, append_nil]

/-- A path without the nodes that are left out. -/
def Frame.keep (p : NodeId → Bool) (path : List Frame) : List Frame :=
  (path.filter fun f => p f.1).map fun f => (f.1, f.2.filter p)

lemma Frame.keep_cons_of_pos (h : p f.1 = true) :
    keep p (f :: path) = (f.1, f.2.filter p) :: keep p path := by
  rw [keep, keep, filter_cons, if_pos h, map_cons]

lemma Frame.keep_cons_of_neg (h : p f.1 = false) : keep p (f :: path) = keep p path := by
  rw [keep, keep, filter_cons, if_neg (by simp [h])]

lemma Frame.keep_of_neg {next : NodeId} {rest : List NodeId} (h : p next = false) :
    keep p ((id, next :: rest) :: path) = keep p ((id, rest) :: path) := by
  cases hid : p id with
  | true =>
    rw [keep_cons_of_pos hid, keep_cons_of_pos hid, filter_cons_of_neg (by simp [h])]
  | false => rw [keep_cons_of_neg hid, keep_cons_of_neg hid]

/-- If nothing else feeds the nodes that are left out, the search finds the others in the same order
without them. -/
lemma filter_postorder (hkept : ∀ n, p n = true → sources' n = (sources n).filter p)
    (hfeeds : ∀ n, ∀ d ∈ sources n, p d = true → p n = true)
    (hpath : ∀ f ∈ path, ∀ d ∈ f.2, p d = true → p f.1 = true)
    (hfresh : fresh.Nodup) (hfresh' : fresh'.Nodup)
    (hsame : ∀ n, p n = true → (n ∈ fresh' ↔ n ∈ fresh))
    (hfound : found'.toList = found.toList.filter p) :
    (postorder sources' fresh' (keep p path) found').toList =
      (postorder sources fresh path found).toList.filter p := by
  induction fresh, path, found using postorder.induct sources generalizing fresh' found' with
  | case1 fresh found =>
    rw [postorder, show keep p [] = [] from rfl, postorder]
    exact hfound
  | case2 fresh found id path ih =>
    rw [forall_mem_cons] at hpath
    rw [postorder.eq_2 sources]
    cases hid : p id with
    | true =>
      rw [keep_cons_of_pos hid, filter_nil, postorder]
      exact ih hpath.2 hfresh hfresh' hsame (toList_insert_filter hfound hid)
    | false =>
      rw [keep_cons_of_neg hid]
      rw [← toList_filter_insert hid] at hfound
      exact ih hpath.2 hfresh hfresh' hsame hfound
  | case3 fresh found id next rest path hn ih =>
    obtain ⟨hfirst, hpath⟩ := forall_mem_cons.1 hpath
    have hpath' : ∀ f ∈ (next, sources next) :: (id, rest) :: path,
        ∀ d ∈ f.2, p d = true → p f.1 = true :=
      forall_mem_cons.2 ⟨hfeeds next, forall_mem_cons.2
        ⟨fun d hd => hfirst d (mem_cons_of_mem _ hd), hpath⟩⟩
    rw [postorder.eq_3 sources, if_pos hn]
    cases hnext : p next with
    | true =>
      have hid : p id = true := hfirst next mem_cons_self hnext
      rw [keep_cons_of_pos hid, filter_cons_of_pos hnext, postorder,
        if_pos ((hsame next hnext).2 hn)]
      have hkeep : keep p ((next, sources next) :: (id, rest) :: path) =
          (next, sources' next) :: (id, rest.filter p) :: keep p path := by
        rw [keep_cons_of_pos hnext, keep_cons_of_pos hid, hkept next hnext]
      rw [← hkeep]
      refine ih hpath' (hfresh.erase _) (hfresh'.erase _) (fun n hpn => ?_) hfound
      rw [hfresh.mem_erase_iff, hfresh'.mem_erase_iff, hsame n hpn]
    | false =>
      rw [keep_of_neg hnext, ← keep_cons_of_neg (f := (next, sources next)) hnext]
      refine ih hpath' (hfresh.erase _) hfresh' (fun n hpn => ?_) hfound
      rw [hsame n hpn, mem_erase_of_ne]
      rintro rfl
      rw [hnext] at hpn
      cases hpn
  | case4 fresh found id next rest path hn ih =>
    obtain ⟨hfirst, hpath⟩ := forall_mem_cons.1 hpath
    have hpath' : ∀ f ∈ (id, rest) :: path, ∀ d ∈ f.2, p d = true → p f.1 = true :=
      forall_mem_cons.2 ⟨fun d hd => hfirst d (mem_cons_of_mem _ hd), hpath⟩
    rw [postorder.eq_3 sources, if_neg hn]
    cases hnext : p next with
    | true =>
      have hid : p id = true := hfirst next mem_cons_self hnext
      rw [keep_cons_of_pos hid, filter_cons_of_pos hnext, postorder,
        if_neg fun h => hn ((hsame next hnext).1 h)]
      have hkeep : keep p ((id, rest) :: path) =
          (id, rest.filter p) :: keep p path := keep_cons_of_pos hid
      rw [← hkeep]
      exact ih hpath' hfresh hfresh' hsame hfound
    | false =>
      rw [keep_of_neg hnext]
      exact ih hpath' hfresh hfresh' hsame hfound

/-- The dependencies of an input if some nodes, which nothing else feeds, are left out. -/
lemma Network.filter_dependencies {net' : Network} {skip' : NodeId → Nat → Bool}
    (hsize : net'.nodes.size = net.nodes.size)
    (hkept : ∀ n, p n = true → net'.sources skip' n = (net.sources skip n).filter p)
    (hfeeds : ∀ n, ∀ d ∈ net.sources skip n, p d = true → p n = true)
    (hfirst : net'.source? skip' id input = (net.source? skip id input).filter p) :
    (net'.dependencies skip' isDone .empty id input none).toList =
      (net.dependencies skip isDone .empty id input none).toList.filter p := by
  have hsame : net'.fresh isDone .empty none = net.fresh isDone .empty none := by
    rw [fresh, hsize, fresh]
  rw [dependencies_eq, dependencies_eq, hfirst, hsame]
  cases net.source? skip id input with
  | none => rfl
  | some first =>
    have hnodup : (net.fresh isDone .empty none).Nodup := nodup_fresh
    set fresh := net.fresh isDone .empty none
    have hfilter : (postorder (net'.sources skip') (fresh.erase first)
        (keep p [(first, net.sources skip first)]) .empty).toList =
          (postorder (net.sources skip) (fresh.erase first) [(first, net.sources skip first)]
            .empty).toList.filter p :=
      filter_postorder hkept hfeeds (forall_mem_singleton.2 (hfeeds first)) (hnodup.erase _)
        (hnodup.erase _) (fun _ _ => Iff.rfl) rfl
    rw [Option.filter_some, Option.elim_some]
    cases hp : p first with
    | true =>
      rw [if_pos rfl, Option.elim_some]
      split
      · rw [← hfilter, keep_cons_of_pos hp, hkept first hp]
        rfl
      · rfl
    | false =>
      rw [if_neg Bool.false_ne_true, Option.elim_none]
      split
      · rw [← hfilter, keep_cons_of_neg hp,
          show keep p [] = [] from rfl, postorder]
      · rfl

end

/-! ## Schedules -/

namespace Emission

variable {ε σ : Type} {w : Emission ε σ} {n m : NodeId} {nodes rest order before : List NodeId}
  {s t s' : σ} {p : Pass} {passes k : Nat}

/-- Emitting a node marks this node, and no other. -/
def Marks (w : Emission ε σ) : Prop :=
  ∀ n s s', w.emit n s = .ok ⟨⟩ s' → ∀ m, w.isDone s' m = true ↔ w.isDone s m = true ∨ m = n

lemma Leaves.mem_or_isDone (hw : w.Marks) (h : w.Leaves nodes rest order s s') (hm : m ∈ nodes) :
    m ∈ rest ∨ w.isDone s' m = true :=
  (h.keeps (fun n _ s t _ _ _ hemit => ⟨trivial,
    (hw n s t hemit n).2 (.inr rfl), fun m hm => (hw n s t hemit m).2 (.inl hm)⟩) trivial).2.2 m hm

namespace Runs

/-- One pass suffices. -/
lemma exists_pass (h : w.Runs nodes s s') : ∃ b, w.pass nodes s = .ok ⟨[], b⟩ s' := by
  induction h with
  | nil => exact ⟨false, rfl⟩
  | cons hnew hready hemit _ ih =>
    obtain ⟨b, hpass⟩ := ih
    refine ⟨true, ?_⟩
    rw [pass_cons, if_neg (by simp [hnew]), if_pos hready]
    exact bind_eq_ok.2 ⟨_, _, hemit, bind_eq_ok.2 ⟨_, _, hpass, rfl⟩⟩

lemma run (h : w.Runs nodes s s') (passes : Nat) : w.run nodes passes s = .ok (passes + 1) s' := by
  obtain ⟨b, hpass⟩ := h.exists_pass
  unfold Emission.run
  exact bind_eq_ok.2 ⟨_, _, hpass, rfl⟩

lemma isDone_iff (hw : w.Marks) (h : w.Runs nodes s s') :
    w.isDone s' m = true ↔ w.isDone s m = true ∨ m ∈ nodes := by
  induction h with
  | nil => simp
  | cons _ _ hemit _ ih => rw [ih, hw _ _ _ hemit, mem_cons, or_assoc]

/-- Nodes that are emitted one after the other do not wait for each other in a circle. -/
lemma sourcesFirst (hw : w.Marks) (h : w.Runs nodes s s')
    (hs : ∀ m, w.isDone s m = true ↔ m ∈ before) (hbefore : SourcesFirst w.sources before)
    (hnodup : before.Nodup) :
    SourcesFirst w.sources (before ++ nodes) ∧ (before ++ nodes).Nodup := by
  induction h generalizing before with
  | nil =>
    rw [append_nil]
    exact ⟨hbefore, hnodup⟩
  | @cons n rest s t s' hnew hready hemit _ ih =>
    rw [append_cons]
    have hn : n ∉ before := fun hmem => by
      rw [(hs n).2 hmem] at hnew
      cases hnew
    apply ih
    · intro m
      rw [hw n s t hemit m, hs, mem_append, mem_singleton]
    · exact hbefore.snoc fun d hd => (hs d).1 (all_eq_true.1 hready d hd)
    · exact nodup_concat hnodup hn

end Runs

/-- If the nodes stand behind all that they need and that is not done at the start, a pass emits them
all. -/
lemma runs_of_pass {base : NodeId → Prop} (hw : w.Marks) (hnew : ∀ n ∈ nodes, ¬ base n)
    (hs : ∀ m, w.isDone s m = true ↔ base m ∨ m ∈ before)
    (hfirst : Behind (fun n d => d ∈ w.sources n ∧ ¬ base d) (before ++ nodes))
    (hnodup : (before ++ nodes).Nodup) (h : w.pass nodes s = .ok p s') :
    w.Runs nodes s s' := by
  induction nodes generalizing before s p with
  | nil =>
    cases h
    exact .nil
  | cons n rest ih =>
    obtain ⟨hn, hrest⟩ := forall_mem_cons.1 hnew
    have hdone : w.isDone s n = false := by
      rw [← Bool.not_eq_true, hs, or_iff_right hn]
      exact fun hmem => (nodup_append.1 hnodup).2.2 n hmem n mem_cons_self rfl
    have hready : w.isReady s n = true := all_eq_true.2 fun d hd =>
      (hs d).2 (or_iff_not_imp_left.2 fun h => hfirst before n rest rfl d ⟨hd, h⟩)
    rw [pass_cons, if_neg (by simp [hdone]), if_pos hready] at h
    obtain ⟨_, t, hemit, h⟩ := bind_eq_ok.1 h
    obtain ⟨q, _, hpass, h⟩ := bind_eq_ok.1 h
    cases h
    rw [append_cons] at hfirst hnodup
    have ht : ∀ m, w.isDone t m = true ↔ base m ∨ m ∈ before ++ [n] := by
      intro m
      rw [hw n s t hemit m, hs, mem_append, mem_singleton, or_assoc]
    exact .cons hdone hready hemit (ih hrest ht hfirst hnodup hpass)

/-- A schedule of the dependencies of an input that comes to an end emits them in the order in which
they were collected, each of them behind its sources. -/
theorem runs_of_schedule
    (hw : w.Marks) (hsources : w.sources = net.sources skip)
    (hdone : ∀ n, isDone n = false) (hs : ∀ n, w.isDone s n = false)
    (h : w.schedule (net.dependencies skip isDone .empty id input none) s = .ok k s') :
    w.Runs (net.dependencies skip isDone .empty id input none).toList s s' ∧
      SourcesFirst w.sources (net.dependencies skip isDone .empty id input none).toList := by
  set nodes := net.dependencies skip isDone .empty id input none
  have hnone : ∀ m, w.isDone s m = true ↔ m ∈ ([] : List NodeId) := by simp [hs]
  obtain ⟨order, hl⟩ := exists_leaves_of_run h
  obtain ⟨hfirst, hnodup⟩ := hl.runs.sourcesFirst hw hnone .nil nodup_nil
  rw [nil_append] at hfirst hnodup
  have hall : ∀ n ∈ nodes, n ∈ order := by
    intro n hn
    have hlast := (hl.mem_or_isDone hw hn).resolve_left not_mem_nil
    simpa [hs] using (hl.runs.isDone_iff hw).1 hlast
  have hinside : ∀ n, n ∈ order → ∀ d ∈ net.sources skip n,
      d ∈ order ∧ order.idxOf d < order.idxOf n := by
    intro n hn d hd
    exact hfirst.idxOf_lt hnodup hn (hsources ▸ hd)
  have hordered : SourcesFirst w.sources nodes.toList := by
    rw [hsources]
    apply Network.sourcesFirst_dependencies hdone hinside
    · intro n hn
      obtain ⟨_, _, way⟩ := (Network.mem_dependencies.1 (hl.subset hn)).resolve_left
        (not_mem_empty n)
      exact way.right.1
    · intro first hs hlt
      apply hall
      exact Network.mem_dependencies.2 (.inr ⟨first, hs,
        .here ⟨hlt, hdone first, by simp, not_mem_empty first⟩⟩)
  have hrun := h
  rw [schedule, run] at hrun
  obtain ⟨p, t, hpass, _⟩ := bind_eq_ok.1 hrun
  have hbehind : Behind (fun n d => d ∈ w.sources n ∧ ¬ False) ([] ++ nodes.toList) :=
    fun before n after h d hd => hordered before n after h d hd.1
  have hruns' := runs_of_pass hw (fun _ _ => not_false) (by simp [hs]) hbehind nodes.nodup hpass
  cases (hruns'.run 0).symm.trans h
  exact ⟨hruns', hordered⟩

end Emission

end Shading
