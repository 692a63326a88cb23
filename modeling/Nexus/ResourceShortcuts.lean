import Nexus.ResourceSearch

/-!
# The shortcuts of the resource list

`get_resources_impl` leaves out remotes that the view can skip and, where the search is for remotes only, those that the
search rules out. The loop with these decisions as parameters is `pipeline`. Both shortcuts are right: no resource has a
type that a search for remotes accepts (`searchAccepts_eq_false`), and a view keeps nothing of a remote that it can skip
(`restrictEntry_eq_none`).
-/

namespace Nexus

open List ListContext String

/-! ## The loop without its decisions -/

def restrictEntry : Option View → RemoteWithResources → Option RemoteWithResources
  | none, entry => some entry
  | some view, entry => if view.retains (view.restrict entry) then some (view.restrict entry) else none

theorem restrictToView_eq_filterMap (view) (entries) :
    restrictToView view entries = entries.filterMap (restrictEntry view) := by
  cases view with
  | none => exact (filterMap_some).symm
  | some =>
    rw [restrictToView, ← filterMap_eq_filter, filterMap_map]
    exact filterMap_congr fun entry _ => by
      simp [restrictEntry, Option.guard]

namespace ListContext

variable (w : ListContext) (maxAge : UInt64) (filters : Search) (resourceType : Option ResourceType)

def contribution (remotesOnly : Bool) (allows : String → Bool) (view : Option View) (p : String × Remote) :
    Option RemoteWithResources :=
  if allows p.1 && w.searchConsidersIf filters remotesOnly p.1 p.2 then
    if w.keepsEntry filters (w.gatherIf maxAge filters resourceType remotesOnly p.1 p.2) then
      restrictEntry view (w.gatherIf maxAge filters resourceType remotesOnly p.1 p.2)
    else none
  else none

theorem pipeline_eq_filterMap (remotesOnly : Bool) (allows) (view) :
    w.pipeline maxAge filters resourceType remotesOnly allows view =
      w.remotes.entries.filterMap (w.contribution maxAge filters resourceType remotesOnly allows view) := by
  rw [pipeline, restrictToView_eq_filterMap]
  simp only [filterMap_filter, filterMap_map]
  refine filterMap_congr fun p _ => ?_
  simp [contribution]

end ListContext

/-! ## Remotes only -/

/-- What is assumed of `to_lowercase`. -/
structure TextFunctions.Lowercases (txt : TextFunctions) : Prop where
  small : ∀ s : String, (∀ c ∈ s.toList, 'a' ≤ c ∧ c ≤ 'z') → txt.toLowercase s = s
  nonempty : ∀ s : String, txt.toLowercase s = "" → s = ""

variable {txt : TextFunctions} {filters : Search} {term : SearchTerm}

def SearchTerm.HasValue (term : SearchTerm) : Prop := ∀ category, term.category = some category → term.value ≠ ""

theorem SearchTerm.hasValue_fromStr (s) : (SearchTerm.fromStr s).HasValue := by
  intro category h
  unfold SearchTerm.fromStr at h ⊢
  split at h
  split at h
  · split at h
    · cases h
    · next hne =>
      rw [if_neg hne]
      exact fun empty => hne (.inr empty)
  · cases h

theorem hasValue_searchFilters (search) :
    ∀ t ∈ (searchFilters search).requiredTerms ++ (searchFilters search).optionalTerms, t.HasValue := by
  cases search with
  | none => simp [searchFilters, Search.default]
  | some s =>
    intro t ht
    have hmem : t ∈ (Lib.Text.splitWhitespace s).map SearchTerm.fromStr := by
      rcases mem_append.mp ht with ht | ht <;> exact mem_of_mem_filter ht
    obtain ⟨word, -, rfl⟩ := mem_map.mp hmem
    exact SearchTerm.hasValue_fromStr word

theorem sorted_searchFilters (search) : (searchFilters search).Sorted := by
  cases search with
  | none => exact ⟨forall_mem_nil _, forall_mem_nil _⟩
  | some => exact Search.sorted_fromIter _

theorem foldl_countRemotesOnly : ∀ (ts : List SearchTerm) (c : RemotesOnlyCounts),
    ts.foldl (fun c t => (countRemotesOnly txt t c).2) c =
      ⟨c.isRequired || ts.any fun t => asksForRemotes txt t && !t.optional,
        c.optionalMatches + ts.countP fun t => asksForRemotes txt t && t.optional,
        c.optionalTerms + ts.countP fun t => t.optional⟩
  | [], c => by simp
  | t :: ts, c => by
    rw [foldl_cons, foldl_countRemotesOnly ts, countRemotesOnly_snd]
    simp only [any_cons, countP_cons, RemotesOnlyCounts.mk.injEq, Bool.or_assoc, true_and]
    cases asksForRemotes txt t <;> cases t.optional <;> simp <;> omega

theorem asksForRemotes_of_isRemotesOnly (hs : filters.Sorted) (h : isRemotesOnly txt filters) :
    (∃ t ∈ filters.requiredTerms, asksForRemotes txt t) ∨
      (filters.optionalTerms ≠ [] ∧ ∀ t ∈ filters.optionalTerms, asksForRemotes txt t) := by
  obtain ⟨hneeded, hopt⟩ := hs
  have hmats : filters.requiredTerms.countP (fun t => asksForRemotes txt t && t.optional) = 0 :=
    countP_eq_zero.mpr fun t ht => by simp [hneeded t ht]
  have hterms : filters.requiredTerms.countP (fun t => t.optional) = 0 :=
    countP_eq_zero.mpr fun t ht => by simp [hneeded t ht]
  have hlen : filters.optionalTerms.countP (fun t => t.optional) = filters.optionalTerms.length :=
    countP_eq_length.mpr hopt
  rw [isRemotesOnly_eq ⟨hneeded, hopt⟩, foldl_countRemotesOnly] at h
  simp only [Bool.false_or, Nat.zero_add, any_append, countP_append, hmats, hterms, hlen, Bool.or_eq_true,
    Bool.and_eq_true, decide_eq_true_eq, beq_iff_eq, any_eq_true] at h
  rcases h with (⟨t, ht, hasks, -⟩ | ⟨t, ht, -, hnot⟩) | ⟨hpos, hall⟩
  · exact .inl ⟨t, ht, hasks⟩
  · simp [hopt t ht] at hnot
  · refine .inr ⟨fun hnil => ?_, fun t ht => ?_⟩
    · simp [hnil] at hpos
    · have hboth := countP_eq_length.mp hall t ht
      simp only [Bool.and_eq_true] at hboth
      exact hboth.1

theorem resourceMatchesSearchTerm_of_asksForRemotes (hlower : txt.Lowercases) (hvalue : term.HasValue)
    (h : asksForRemotes txt term) (remoteName) (resource) :
    resourceMatchesSearchTerm txt remoteName resource term = some false := by
  unfold asksForRemotes at h
  unfold resourceMatchesSearchTerm
  split at h
  · next hcat =>
    obtain ⟨category, hcategory, -⟩ := Option.map_eq_some_iff.mp hcat
    have hne : txt.toLowercase term.value ≠ "" := fun he => hvalue category hcategory (hlower.nonempty _ he)
    obtain ⟨c, cs, hchars⟩ := exists_cons_of_ne_nil fun hnil => hne (String.toList_eq_nil_iff.mp hnil)
    have hrem : txt.toLowercase "remote" = "remote" := hlower.small _ (by simp)
    have htype : txt.toLowercase resource.resourceType.asStr = resource.resourceType.asStr :=
      hlower.small _ (by cases resource.resourceType <;> simp [ResourceType.asStr])
    simp only [hcat, MatchCategory.matches, Lib.Text.startsWith, hrem, hchars, htype] at h ⊢
    have hc : c = 'r' := by
      simp only [List.isPrefixOf, reduceToList, Bool.and_eq_true, beq_iff_eq] at h
      exact h.1
    subst hc
    cases resource.resourceType <;> rfl
  · cases h

namespace ListContext

variable {w : ListContext} {maxAge : UInt64} {resourceType : Option ResourceType} {name : String} {remote : Remote}
  {online : Bool}

theorem isEmpty_eq_false_of_isRemotesOnly (hs : filters.Sorted)
    (h : isRemotesOnly txt filters) : filters.isEmpty = false := by
  rcases asksForRemotes_of_isRemotesOnly hs h with ⟨t, ht, -⟩ | ⟨hne, -⟩
  · simp [Search.isEmpty, ne_nil_of_mem ht]
  · simp [Search.isEmpty, hne]

theorem searchAccepts_eq_false (hlower : w.txt.Lowercases) (hs : filters.Sorted)
    (hvalue : ∀ t ∈ filters.requiredTerms ++ filters.optionalTerms, t.HasValue)
    (h : isRemotesOnly w.txt filters) (resource) : w.searchAccepts filters resourceType name resource = false := by
  have hrej : ∀ t ∈ filters.requiredTerms ++ filters.optionalTerms, asksForRemotes w.txt t →
      (resourceMatchesSearchTerm w.txt name resource t).getD true = false := fun t ht hasks => by
    rw [resourceMatchesSearchTerm_of_asksForRemotes hlower (hvalue t ht) hasks]
    rfl
  have hmats : filters.matches (fun t => (resourceMatchesSearchTerm w.txt name resource t).getD true) = false := by
    rw [← Bool.not_eq_true, Search.matches_eq_true]
    rintro ⟨hneeded, hopt⟩
    rcases asksForRemotes_of_isRemotesOnly hs h with ⟨t, ht, hasks⟩ | ⟨hne, hall⟩
    · have hfalse := hrej t (mem_append_left _ ht) hasks
      rw [hneeded t ht] at hfalse
      cases hfalse
    · obtain ⟨t, ht, hmatch⟩ := hopt.resolve_left hne
      have hfalse := hrej t (mem_append_right _ ht) (hall t ht)
      rw [hmatch] at hfalse
      cases hfalse
  rw [searchAccepts, hmats, Bool.and_false]

theorem remoteMatchesSearchTerm_unknown (h : remoteMatchesSearchTerm txt name remote (some online) term) :
    remoteMatchesSearchTerm txt name remote none term := by
  unfold remoteMatchesSearchTerm at h ⊢
  split at h
  · next category _ => cases category <;> first | rfl | exact h
  · cases h
  · exact h

theorem matches_remote_unknown (h : filters.matches (remoteMatchesSearchTerm txt name remote (some online))) :
    filters.matches (remoteMatchesSearchTerm txt name remote none) := by
  rw [Search.matches_eq_true] at h ⊢
  refine ⟨fun t ht => remoteMatchesSearchTerm_unknown (h.1 t ht), h.2.imp_right ?_⟩
  rintro ⟨t, ht, hmatch⟩
  exact ⟨t, ht, remoteMatchesSearchTerm_unknown hmatch⟩

theorem contribution_remotesOnly (hlower : w.txt.Lowercases) (hs : filters.Sorted)
    (hvalue : ∀ t ∈ filters.requiredTerms ++ filters.optionalTerms, t.HasValue)
    (h : isRemotesOnly w.txt filters) (allows) (view) (p) :
    w.contribution maxAge filters resourceType true allows view p =
      w.contribution maxAge filters resourceType false allows view p := by
  obtain ⟨name, remote⟩ := p
  have empty := isEmpty_eq_false_of_isRemotesOnly hs h
  have gather : w.gatherIf maxAge filters resourceType true name remote =
      w.gatherIf maxAge filters resourceType false name remote := by
    simp [gatherIf, empty, searchAccepts_eq_false hlower hs hvalue h]
  by_cases unknown : filters.matches (remoteMatchesSearchTerm w.txt name remote none)
  · simp [contribution, searchConsidersIf, unknown, gather]
  · -- the remote is left out, and without the shortcut its entry is dropped, since it has no resources
    have hkeeps : w.keepsEntry filters (w.gatherIf maxAge filters resourceType false name remote) = false := by
      rw [← gather]
      have hknown : ∀ online, filters.matches (remoteMatchesSearchTerm w.txt name remote (some online)) = false :=
        fun online => Bool.eq_false_iff.mpr fun hm => unknown (matches_remote_unknown hm)
      simp [keepsEntry, gatherIf, empty, hknown]
    simp [contribution, searchConsidersIf, unknown, hkeeps]

end ListContext

def getResourcesImplInFull (w : ListContext) (maxAge : UInt64) (search : Option String)
    (resourceType : Option ResourceType)
    (view : Option String) (rpcenv : Option RpcEnvironment) : Except ApiError (List RemoteWithResources) := do
  let optAuthId ← w.checkCaller view rpcenv
  let filters := searchFilters search
  let view ← w.selectView filters view
  return w.pipeline maxAge filters resourceType false (w.allowsRemote view optAuthId) view

/-- **The shortcut for remotes does not change the result.** -/
theorem getResourcesImpl_eq_inFull {w : ListContext} (hlower : w.txt.Lowercases) (maxAge : UInt64)
    (search : Option String) (resourceType : Option ResourceType) (view : Option String)
    (rpcenv : Option RpcEnvironment) : getResourcesImpl w maxAge search resourceType view rpcenv =
      getResourcesImplInFull w maxAge search resourceType view rpcenv := by
  have hlist : ∀ view optAuthId, w.listing maxAge (searchFilters search) resourceType view optAuthId =
      w.pipeline maxAge (searchFilters search) resourceType false (w.allowsRemote view optAuthId) view := by
    intro view optAuthId
    rw [listing]
    cases honly : isRemotesOnly w.txt (searchFilters search) with
    | false => rfl
    | true =>
      rw [pipeline_eq_filterMap, pipeline_eq_filterMap]
      exact filterMap_congr fun p _ => contribution_remotesOnly hlower (sorted_searchFilters search)
        (hasValue_searchFilters search) honly _ view p
  simp only [getResourcesImpl, getResourcesImplInFull, hlist]

def oneGuest : ListContext where
  userInfo := ⟨fun _ _ => 0, fun _ _ _ => .ok false⟩
  remotes := ⟨⟨[("a", ⟨.pve, "a"⟩)], nodup_singleton "a"⟩, forall_mem_singleton.mpr rfl⟩
  views := .empty
  txt := ⟨Lib.Text.toAsciiLowercase, fun _ => none⟩
  getResourcesForRemote _ _ := .ok [.pveQemu ⟨"remote/a/guest/100", "vm", "n", "", "running", [], false, 100⟩]

theorem lowercases_oneGuest : oneGuest.txt.Lowercases := by
  constructor
  · intro s hs
    have hsame : ∀ c ∈ s.toList, c.toLower = c := by
      intro c hc
      have hsmall : 97 ≤ c.val := (hs c hc).1
      have hupper : ¬ (c.val ≥ 65 ∧ c.val ≤ 90) := fun h => absurd (UInt32.le_trans hsmall h.2) (by decide)
      exact dif_neg hupper
    have hmap : s.toList.map Char.toLower = s.toList := by
      rw [map_congr_left hsame, map_id']
    exact (congrArg ofList hmap).trans ofList_toList
  · intro s hs
    have hnil := congrArg toList hs
    simpa [oneGuest, Lib.Text.toAsciiLowercase] using hnil

theorem getResourcesImpl_eq_inFull_for_remotes : isRemotesOnly oneGuest.txt (searchFilters (some "type:Rem")) ∧
    getResourcesImpl oneGuest 0 (some "type:Rem") none none none = .ok [⟨"a", ⟨.pve, "a"⟩, [], none⟩] ∧
    getResourcesImpl oneGuest 0 (some "type:Rem") none none none =
      getResourcesImplInFull oneGuest 0 (some "type:Rem") none none none :=
  ⟨by decide, rfl, getResourcesImpl_eq_inFull lowercases_oneGuest 0 (some "type:Rem") none none none⟩

/-! ## Remotes that a view can skip -/

variable {view : View} {entry : RemoteWithResources}

theorem View.isRemoteExplicitlyIncluded_eq_false {remote} (h : view.canSkipRemote remote) :
    view.isRemoteExplicitlyIncluded remote = false := by
  simp only [View.canSkipRemote] at h
  split at h
  · next hexcl => simp [View.isRemoteExplicitlyIncluded, hexcl]
  · split at h
    · cases h
    · next hall =>
      -- a rule for the whole remote would include any node of it
      have hrules : view.config.includeRules.any (matchesRemoteRule remote) = false := by
        by_contra hany
        obtain ⟨rule, hrule, hmats⟩ := any_eq_true.mp (Bool.not_eq_false _ ▸ hany)
        have hcheck := View.checkRules_eq_false_of_noIncludeApplies (View.nodeData remote "") h
        rw [checkRules, any_eq_false] at hcheck
        exact hcheck rule hrule (checkRule_of_matchesRemoteRule hmats _)
      simp [View.isRemoteExplicitlyIncluded, hall, hrules]

theorem restrictEntry_eq_none (h : view.canSkipRemote entry.remoteName) : restrictEntry (some view) entry = none := by
  have hnone : ∀ resource, view.resourceMatches entry.remoteName resource = false := fun resource =>
    View.admits_eq_false_of_canSkipRemote h resource.toResourceData
  have hret : view.retains (view.restrict entry) = false := by
    simp [View.retains, View.restrict, hnone, View.isRemoteExplicitlyIncluded_eq_false h]
  simp [restrictEntry, hret]

theorem restrictEntry_remoteName {view entry entry'}
    (h : restrictEntry view entry = some entry') : entry'.remoteName = entry.remoteName := by
  cases view with
  | none => exact congrArg _ (Option.some.inj h).symm
  | some =>
    rw [restrictEntry] at h
    split at h
    · rw [← Option.some.inj h, View.restrict_remoteName]
    · cases h

namespace ListContext

variable {w : ListContext} {maxAge : UInt64} {resourceType : Option ResourceType} {remotesOnly : Bool}
  {allows : String → Bool} {p : String × Remote}

theorem contribution_remoteName
    (h : w.contribution maxAge filters resourceType remotesOnly allows view p = some entry) :
    entry.remoteName = p.1 := by
  unfold contribution at h
  split at h
  · split at h
    · exact restrictEntry_remoteName h
    · cases h
  · cases h

theorem contribution_of_canSkipRemote (h : view.canSkipRemote p.1) :
    w.contribution maxAge filters resourceType remotesOnly allows (some view) p = none := by
  have hnone : restrictEntry (some view) (w.gatherIf maxAge filters resourceType remotesOnly p.1 p.2) = none :=
    restrictEntry_eq_none h
  simp [contribution, hnone]

end ListContext

/-- **A remote that a view can skip adds nothing**, and the list is the same without the skip. -/
theorem listing_eq_without_skip (w : ListContext) (maxAge : UInt64) (filters : Search)
    (resourceType : Option ResourceType) (view : View) (optAuthId : Option Authid) :
    (∀ remotesOnly allows, ∀ entry ∈ w.pipeline maxAge filters resourceType remotesOnly allows (some view),
      view.canSkipRemote entry.remoteName = false) ∧ w.listing maxAge filters resourceType (some view) optAuthId =
      w.pipeline maxAge filters resourceType (isRemotesOnly w.txt filters) (fun _ => true) (some view) := by
  constructor
  · intro remotesOnly allows entry hent
    rw [pipeline_eq_filterMap] at hent
    obtain ⟨p, -, hp⟩ := mem_filterMap.mp hent
    by_contra hskip
    rw [contribution_remoteName hp, Bool.not_eq_false] at hskip
    rw [contribution_of_canSkipRemote hskip] at hp
    cases hp
  · rw [listing, pipeline_eq_filterMap, pipeline_eq_filterMap]
    refine filterMap_congr fun p _ => ?_
    cases hp : view.canSkipRemote p.1 with
    | true => rw [contribution_of_canSkipRemote hp, contribution_of_canSkipRemote hp]
    | false => simp [ListContext.contribution, ListContext.allowsRemote, hp]

end Nexus
