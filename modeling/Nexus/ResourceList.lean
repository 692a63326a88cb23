import Nexus.Search
import Nexus.View

/-!
# The resource list

`get_resources_impl` of `server/src/api/resources.rs`. The privileges on a view are only checked for the `view`
parameter, so a view that the search selects must not let anything through that the caller could not see anyway
(`getResourcesImpl_visible_iff`).
-/

namespace Nexus

open List Bool

/-! ## Search categories -/

inductive MatchCategory
  | type | networkType | name | id | status | template | remote | remoteType | property | view

def MatchCategory.fromStr : String → Except ApiError MatchCategory
  | "type" => .ok .type
  | "network-type" => .ok .networkType
  | "name" => .ok .name
  | "id" => .ok .id
  | "status" => .ok .status
  | "template" => .ok .template
  | "remote" => .ok .remote
  | "remote-type" => .ok .remoteType
  | "property" => .ok .property
  | "view" => .ok .view
  | _ => .error (.other "invalid category")

structure TextFunctions where
  toLowercase : String → String
  parseBoolean : String → Option Bool

variable (txt : TextFunctions)

def MatchCategory.matches (category : MatchCategory) (value searchTerm : String) : Bool :=
  match category with
  | .type | .status | .networkType => Lib.Text.startsWith (txt.toLowercase value) (txt.toLowercase searchTerm)
  | .name | .id | .remote => Lib.Text.contains (txt.toLowercase value) (txt.toLowercase searchTerm)
  | .template => match txt.parseBoolean value, txt.parseBoolean searchTerm with
    | some a, some b => a == b
    | _, _ => false
  | .remoteType => match RemoteType.fromStr value, RemoteType.fromStr searchTerm with
    | some a, some b => a == b
    | _, _ => false
  | .property => (Lib.Text.split ',' (txt.toLowercase value)).any (· == txt.toLowercase searchTerm)
  | .view => true

def resourceMatchesSearchTerm (remoteName : String) (resource : Resource) (term : SearchTerm) : Option Bool :=
  match term.category.map MatchCategory.fromStr with
  | some (.ok category) => match category with
    | .type => some (category.matches txt resource.resourceType.asStr term.value)
    | .name => some (category.matches txt resource.name term.value)
    | .id => some (category.matches txt resource.id term.value)
    | .status => some (category.matches txt resource.status term.value)
    | .property => some (category.matches txt resource.properties term.value)
    | .template => match resource with
      | .pveQemu g | .pveLxc g => some (category.matches txt (toString g.template) term.value)
      | _ => some false
    | .remote => some (category.matches txt remoteName term.value)
    | .remoteType => none
    | .networkType => match resource with
      | .pveNetwork n => some (category.matches txt n.networkType term.value)
      | _ => some false
    | .view => none
  | some (.error _) => some false
  | none => some (MatchCategory.name.matches txt resource.name term.value
      || MatchCategory.id.matches txt resource.id term.value)

def remoteMatchesSearchTerm (remoteName : String) (remote : Remote) (online : Option Bool) (term : SearchTerm) : Bool :=
  match term.category.map MatchCategory.fromStr with
  | some (.ok category) => match category with
    | .type => category.matches txt "remote" term.value
    | .name | .remote | .id => category.matches txt remoteName term.value
    | .status => match online with
      | some true => category.matches txt "online" term.value
      | some false => category.matches txt "offline" term.value
      | none => true
    | .property | .template | .networkType => false
    | .remoteType => category.matches txt remote.ty.toString term.value
    | .view => true
  | some (.error _) => false
  | none => MatchCategory.name.matches txt remoteName term.value || MatchCategory.type.matches txt "remote" term.value

def remoteTypeMatchesSearchTerm (remoteType : RemoteType) (term : SearchTerm) : Bool :=
  match term.category.map MatchCategory.fromStr with
  | some (.ok .remoteType) => MatchCategory.remoteType.matches txt remoteType.toString term.value
  | some (.ok _) => true
  | some (.error _) => false
  | none => true

structure RemotesOnlyCounts where
  isRequired : Bool
  (optionalMatches optionalTerms : Nat)

def countRemotesOnly (term : SearchTerm) (c : RemotesOnlyCounts) : Bool × RemotesOnlyCounts :=
  let c := if term.optional then { c with optionalTerms := c.optionalTerms + 1 } else c
  let c := match term.category.map MatchCategory.fromStr with
    | some (.ok .type) =>
      if MatchCategory.type.matches txt "remote" term.value then
        if !term.optional then { c with isRequired := true } else { c with optionalMatches := c.optionalMatches + 1 }
      else c
    | _ => c
  (!term.optional, c)

def isRemotesOnly (filters : Search) : Bool :=
  let c := (filters.matchesMut (countRemotesOnly txt) ⟨false, 0, 0⟩).2
  c.isRequired || (decide (c.optionalMatches > 0) && c.optionalMatches == c.optionalTerms)

def viewFilterFromSearch (filters : Search) : Option String :=
  (filters.matchesMut (fun term found => (true, if term.category = some "view" then some term.value else found)) none).2

/-! ## The request -/

/-- The ACL, the configurations, and what each remote reports. -/
structure ListContext where
  userInfo : CachedUserInfo
  remotes : RemotesConfig
  views : ViewsConfig
  txt : TextFunctions
  getResourcesForRemote : Remote → UInt64 → Except String (List Resource)

structure RemoteWithResources where
  remoteName : String
  remote : Remote
  resources : List Resource
  error : Option String

namespace ListContext

variable (w : ListContext) (maxAge : UInt64) (filters : Search) (resourceType : Option ResourceType)

def checkCaller (view : Option String) : Option RpcEnvironment → Except ApiError (Option Authid)
  | none => .ok none
  | some rpcenv => do
    let authId ← rpcenv.getAuthId
    match view with
    | some view => w.userInfo.checkPrivs authId ["view", view] privResourceAudit
    | none =>
      if !(← w.userInfo.anyPrivsBelow authId ["resource"] privResourceAudit) then
        throw (.forbidden "user has no access to resources")
    return some authId

def selectView (view : Option String) : Except ApiError (Option View) := do
  let fromParameter ← getOptionalView w.views view
  let fromSearch ← getOptionalView w.views (viewFilterFromSearch filters)
  return fromParameter.or fromSearch

def allowsRemote (view : Option View) (optAuthId : Option Authid) (remoteName : String) : Bool :=
  match view, optAuthId with
  | some view, _ => !view.canSkipRemote remoteName
  | none, some authId => w.userInfo.lookupPrivs authId ["resource", remoteName] &&& privResourceAudit != 0
  | none, none => true

def searchConsidersIf (remotesOnly : Bool) (remoteName : String) (remote : Remote) : Bool :=
  filters.matches (remoteTypeMatchesSearchTerm w.txt remote.ty)
    && (!remotesOnly || filters.matches (remoteMatchesSearchTerm w.txt remoteName remote none))

def searchConsiders : String → Remote → Bool := w.searchConsidersIf filters (isRemotesOnly w.txt filters)

def searchAccepts (remoteName : String) (resource : Resource) : Bool :=
  resourceType.all (resource.resourceType == ·)
    && filters.matches fun term => (resourceMatchesSearchTerm w.txt remoteName resource term).getD true

def gatherIf (remotesOnly : Bool) (remoteName : String) (remote : Remote) : RemoteWithResources :=
  let (resources, error) := match w.getResourcesForRemote remote maxAge with
    | .ok resources => (resources, none)
    | .error error => ([], some error)
  let resources :=
    if remotesOnly then []
    else if resourceType.isSome || !filters.isEmpty then
      resources.filter (w.searchAccepts filters resourceType remoteName)
    else resources
  { remoteName, remote, resources, error }

def gather : String → Remote → RemoteWithResources :=
  w.gatherIf maxAge filters resourceType (isRemotesOnly w.txt filters)

def keepsEntry (entry : RemoteWithResources) : Bool :=
  filters.isEmpty || !entry.resources.isEmpty
    || filters.matches (remoteMatchesSearchTerm w.txt entry.remoteName entry.remote (some entry.error.isNone))

end ListContext

variable (view : View)

def View.restrict (r : RemoteWithResources) : RemoteWithResources :=
  { r with resources := r.resources.filter (view.resourceMatches r.remoteName) }

@[simp] theorem View.restrict_remoteName (r) : (view.restrict r).remoteName = r.remoteName := rfl

@[simp] theorem View.restrict_remote (r) : (view.restrict r).remote = r.remote := rfl

@[simp] theorem View.restrict_error (r) : (view.restrict r).error = r.error := rfl

def View.retains (r : RemoteWithResources) : Bool :=
  !r.resources.isEmpty || (r.error.isSome && view.isRemoteExplicitlyIncluded r.remoteName)

def restrictToView : Option View → List RemoteWithResources → List RemoteWithResources
  | none, entries => entries
  | some view, entries => (entries.map view.restrict).filter view.retains

def searchFilters (search : Option String) : Search := (search.map Search.fromStr).getD Search.default

variable (w : ListContext) (maxAge : UInt64) (filters : Search) (resourceType : Option ResourceType)

/-- The loop, with what it skips as parameters. -/
def ListContext.pipeline (remotesOnly : Bool) (allows : String → Bool) (view : Option View) :
    List RemoteWithResources :=
  let considered := w.remotes.entries.filter fun (name, remote) =>
    allows name && w.searchConsidersIf filters remotesOnly name remote
  let gathered := considered.map fun (name, remote) => w.gatherIf maxAge filters resourceType remotesOnly name remote
  restrictToView view (gathered.filter (w.keepsEntry filters))

def ListContext.listing (view : Option View) (optAuthId : Option Authid) : List RemoteWithResources :=
  w.pipeline maxAge filters resourceType (isRemotesOnly w.txt filters) (w.allowsRemote view optAuthId) view

theorem ListContext.listing_eq (view) (optAuthId) : w.listing maxAge filters resourceType view optAuthId =
    let considered := w.remotes.entries.filter fun (name, remote) =>
      w.allowsRemote view optAuthId name && w.searchConsiders filters name remote
    let gathered := considered.map fun (name, remote) => w.gather maxAge filters resourceType name remote
    restrictToView view (gathered.filter (w.keepsEntry filters)) := rfl

def getResourcesImpl (w : ListContext) (maxAge : UInt64) (search : Option String) (resourceType : Option ResourceType)
    (view : Option String) (rpcenv : Option RpcEnvironment) : Except ApiError (List RemoteWithResources) := do
  let optAuthId ← w.checkCaller view rpcenv
  let filters := searchFilters search
  let view ← w.selectView filters view
  return w.listing maxAge filters resourceType view optAuthId

/-! ## What a caller may see -/

namespace ListContext

variable (auth : Authid)

def AuditsRemote (remoteName : String) : Prop := w.userInfo.Holds auth ["resource", remoteName] privResourceAudit

instance (remoteName : String) : Decidable (w.AuditsRemote auth remoteName) :=
  inferInstanceAs (Decidable (w.userInfo.Holds auth _ _))

def AuditsView (v : View) : Prop :=
  ∃ id, (id, v.config) ∈ w.views.toOrderedMap ∧ w.userInfo.Holds auth ["view", id] privResourceAudit

def ResourceVisible (remoteName : String) (r : Resource) : Prop :=
  w.AuditsRemote auth remoteName ∨ ∃ v, w.AuditsView auth v ∧ v.resourceMatches remoteName r

def reported (maxAge : UInt64) (remote : Remote) : List Resource :=
  match w.getResourcesForRemote remote maxAge with
  | .ok resources => resources
  | .error _ => []

def RemoteVisible (maxAge : UInt64) (remoteName : String) (remote : Remote) : Prop :=
  w.AuditsRemote auth remoteName ∨ ∃ v, w.AuditsView auth v ∧
    (v.isRemoteExplicitlyIncluded remoteName ∨ ∃ r ∈ w.reported maxAge remote, v.resourceMatches remoteName r)

/-- The caller may see all that is listed. -/
def EveryItemVisible (maxAge : UInt64) (out : List RemoteWithResources) : Prop :=
  ∀ e ∈ out, w.RemoteVisible auth maxAge e.remoteName e.remote ∧
    ∀ r ∈ e.resources, w.ResourceVisible auth e.remoteName r

/-- What the view has of the remote, one that the caller may audit has too. -/
structure Harmless (maxAge : UInt64) (filters : Search) (resourceType : Option ResourceType) (view : View)
    (remoteName : String) (remote : Remote) : Prop where
  resources : ∀ r ∈ w.reported maxAge remote, isRemotesOnly w.txt filters = false →
    w.searchAccepts filters resourceType remoteName r → view.resourceMatches remoteName r →
    ∃ v, w.AuditsView auth v ∧ v.resourceMatches remoteName r
  failure : ∀ e, w.getResourcesForRemote remote maxAge = .error e →
    (filters.isEmpty || filters.matches (remoteMatchesSearchTerm w.txt remoteName remote (some false))) →
    view.isRemoteExplicitlyIncluded remoteName →
    ∃ v, w.AuditsView auth v ∧ v.isRemoteExplicitlyIncluded remoteName

end ListContext

/-! ## Entries of a listing -/

theorem Search.matches_of_isEmpty {s : Search} (h : s.isEmpty) (f) : s.matches f := by
  simp [Search.matches, Search.matchesMut, h]

namespace ListContext

variable {w maxAge filters resourceType} {auth : Authid} {name : String} {remote : Remote}

@[simp] theorem gather_remoteName : (w.gather maxAge filters resourceType name remote).remoteName = name := rfl

@[simp] theorem gather_remote : (w.gather maxAge filters resourceType name remote).remote = remote := rfl

theorem gather_resources : (w.gather maxAge filters resourceType name remote).resources =
    if isRemotesOnly w.txt filters then [] else if resourceType.isSome || !filters.isEmpty then
      (w.reported maxAge remote).filter (w.searchAccepts filters resourceType name) else w.reported maxAge remote := by
  unfold gather gatherIf reported
  cases w.getResourcesForRemote remote maxAge <;> rfl

variable {view} {r : Resource} {e : String} {optAuthId : Option Authid}

theorem mem_gather_resources : r ∈ (w.gather maxAge filters resourceType name remote).resources ↔
      r ∈ w.reported maxAge remote ∧ isRemotesOnly w.txt filters = false ∧
        w.searchAccepts filters resourceType name r := by
  rw [gather_resources]
  split
  · next h => simp [h]
  split
  · next h _ => simp [h]
  · next h hnone =>
    have htype : resourceType = none := by simpa using (or_eq_false_iff.mp (eq_false_of_ne_true hnone)).1
    have empty : filters.isEmpty := by simpa using (or_eq_false_iff.mp (eq_false_of_ne_true hnone)).2
    simp [h, searchAccepts, htype, Search.matches_of_isEmpty empty]

theorem gather_error_isSome : (w.gather maxAge filters resourceType name remote).error.isSome ↔
      ∃ e, w.getResourcesForRemote remote maxAge = .error e := by
  cases h : w.getResourcesForRemote remote maxAge <;> simp [gather, gatherIf, h]

theorem gather_of_error (h : w.getResourcesForRemote remote maxAge = .error e) :
    w.gather maxAge filters resourceType name remote = ⟨name, remote, [], some e⟩ := by
  simp [gather, gatherIf, h]

theorem reported_eq_nil_of_error (h : w.getResourcesForRemote remote maxAge = .error e) :
    w.reported maxAge remote = [] := by
  simp [reported, h]

theorem mem_restrict_resources : r ∈ (view.restrict (w.gather maxAge filters resourceType name remote)).resources ↔
      r ∈ (w.gather maxAge filters resourceType name remote).resources ∧ view.resourceMatches name r := by
  simp [View.restrict]

theorem mem_listing_view {e} : e ∈ w.listing maxAge filters resourceType (some view) optAuthId ↔
      ∃ p ∈ w.remotes.toOrderedMap, view.canSkipRemote p.1 = false ∧ w.searchConsiders filters p.1 p.2 ∧
        w.keepsEntry filters (w.gather maxAge filters resourceType p.1 p.2) ∧
        e = view.restrict (w.gather maxAge filters resourceType p.1 p.2) ∧ view.retains e := by
  simp only [listing_eq, restrictToView, mem_filter, mem_map, allowsRemote, Lib.OrderedMap.mem_def]
  constructor
  · rintro ⟨⟨_, ⟨⟨p, ⟨hp, hpass⟩, rfl⟩, hkeep⟩, rfl⟩, hret⟩
    simp only [and_eq_true, not_eq_true'] at hpass
    exact ⟨p, hp, hpass.1, hpass.2, hkeep, rfl, hret⟩
  · rintro ⟨p, hp, hskip, hpass, hkeep, rfl, hret⟩
    exact ⟨⟨_, ⟨⟨p, ⟨hp, by simp [hskip, hpass]⟩, rfl⟩, hkeep⟩, rfl⟩, hret⟩

theorem auditsRemote_of_mem_listing {e}
    (h : e ∈ w.listing maxAge filters resourceType none (some auth)) : w.AuditsRemote auth e.remoteName := by
  simp only [listing_eq, restrictToView, mem_filter, mem_map, allowsRemote] at h
  obtain ⟨⟨p, ⟨_, hpass⟩, rfl⟩, _⟩ := h
  simp only [and_eq_true, bne_iff_ne] at hpass
  exact CachedUserInfo.holds_resourceAudit_iff.mpr hpass.1

theorem everyItemVisible_of_auditsView (hview : w.AuditsView auth view) :
    w.EveryItemVisible auth maxAge (w.listing maxAge filters resourceType (some view) optAuthId) := by
  intro e he
  obtain ⟨p, _, _, _, _, rfl, hret⟩ := mem_listing_view.mp he
  have hres : ∀ r ∈ (view.restrict (w.gather maxAge filters resourceType p.1 p.2)).resources,
      view.resourceMatches p.1 r := fun r hr => (mem_restrict_resources.mp hr).2
  refine ⟨.inr ⟨view, hview, ?_⟩, fun r hr => .inr ⟨view, hview, hres r hr⟩⟩
  rw [View.retains, or_eq_true] at hret
  rcases hret with hne | hfail
  · obtain ⟨r, hr⟩ := exists_mem_of_ne_nil _ (by simpa using hne)
    exact .inr ⟨r, (mem_gather_resources.mp (mem_restrict_resources.mp hr).1).1, hres r hr⟩
  · exact .inl (and_eq_true _ _ ▸ hfail).2

theorem visible_of_harmless (harmless : w.Harmless auth maxAge filters resourceType view name remote)
    (hkeep : w.keepsEntry filters (w.gather maxAge filters resourceType name remote))
    (hret : view.retains (view.restrict (w.gather maxAge filters resourceType name remote))) :
    w.RemoteVisible auth maxAge name remote ∧
      ∀ r ∈ (view.restrict (w.gather maxAge filters resourceType name remote)).resources,
        w.ResourceVisible auth name r := by
  have hres : ∀ r ∈ (view.restrict (w.gather maxAge filters resourceType name remote)).resources,
      ∃ v, w.AuditsView auth v ∧ v.resourceMatches name r := by
    intro r hr
    obtain ⟨gather, hmatch⟩ := mem_restrict_resources.mp hr
    obtain ⟨hrep, honly, hacc⟩ := mem_gather_resources.mp gather
    exact harmless.resources r hrep honly hacc hmatch
  refine ⟨?_, fun r hr => .inr (hres r hr)⟩
  by_cases hnil : (view.restrict (w.gather maxAge filters resourceType name remote)).resources = []
  · -- an entry without resources is the failure of a remote that the view includes as a whole
    simp only [View.retains, hnil, isEmpty_nil, Bool.not_true, Bool.false_or, Bool.and_eq_true,
      View.restrict_error, View.restrict_remoteName, gather_remoteName] at hret
    obtain ⟨err, herr⟩ := gather_error_isSome.mp hret.1
    simp only [gather_of_error herr, keepsEntry, isEmpty_nil, Bool.not_true, Bool.or_false, Option.isNone_some] at hkeep
    obtain ⟨v, hv, hincl⟩ := harmless.failure err herr hkeep hret.2
    exact .inr ⟨v, hv, .inl hincl⟩
  · obtain ⟨r, hr⟩ := exists_mem_of_ne_nil _ hnil
    obtain ⟨v, hv, hmatch⟩ := hres r hr
    exact .inr ⟨v, hv, .inr ⟨r, (mem_gather_resources.mp (mem_restrict_resources.mp hr).1).1, hmatch⟩⟩

theorem everyItemVisible_listing_view_iff :
    w.EveryItemVisible auth maxAge (w.listing maxAge filters resourceType (some view) optAuthId) ↔
      ∀ p ∈ w.remotes.toOrderedMap, ¬ w.AuditsRemote auth p.1 → view.canSkipRemote p.1 = false →
        w.searchConsiders filters p.1 p.2 → w.Harmless auth maxAge filters resourceType view p.1 p.2 := by
  constructor
  · intro hvis p hp priv hskip hpass
    have hlist := fun hkeep hret => hvis (view.restrict (w.gather maxAge filters resourceType p.1 p.2))
      (mem_listing_view.mpr ⟨p, hp, hskip, hpass, hkeep, rfl, hret⟩)
    refine ⟨fun r hrep honly hacc hmatch => ?_, fun err herr hacc hincl => ?_⟩
    · have hr := mem_gather_resources.mpr ⟨hrep, honly, hacc⟩
      have hr' := mem_restrict_resources.mpr ⟨hr, hmatch⟩
      obtain ⟨-, hres⟩ := hlist (by simp [keepsEntry, ne_nil_of_mem hr])
        (by simp [View.retains, ne_nil_of_mem hr'])
      exact (hres r hr').resolve_left priv
    · rw [gather_of_error herr] at hlist
      obtain ⟨remote, -⟩ := hlist (by simpa [keepsEntry] using hacc) (by simp [View.retains, View.restrict, hincl])
      obtain ⟨v, hv, hincl' | ⟨r, hr, -⟩⟩ := remote.resolve_left priv
      · exact ⟨v, hv, hincl'⟩
      · simp [reported_eq_nil_of_error herr] at hr
  · intro harmless e he
    obtain ⟨p, hp, hskip, hpass, hkeep, rfl, hret⟩ := mem_listing_view.mp he
    by_cases priv : w.AuditsRemote auth p.1
    · exact ⟨.inl priv, fun _ _ => .inl priv⟩
    · exact visible_of_harmless (harmless p hp priv hskip hpass) hkeep hret

/-! ## Callers and the choice of the view -/

theorem checkCaller_eq_ok {view r} : w.checkCaller view (some ⟨some (.ok auth)⟩) = .ok r ↔
      r = some auth ∧ (∀ id, view = some id → w.userInfo.Holds auth ["view", id] privResourceAudit) ∧
        (view = none → w.userInfo.anyPrivsBelow auth ["resource"] privResourceAudit = .ok true) := by
  cases view with
  | some id =>
    by_cases h : w.userInfo.Holds auth ["view", id] privResourceAudit
    · simp [checkCaller, RpcEnvironment.getAuthId, CachedUserInfo.checkPrivs, h, bind, Except.bind, pure, Except.pure,
        eq_comm]
    · simp [checkCaller, RpcEnvironment.getAuthId, CachedUserInfo.checkPrivs, h, bind, Except.bind]
  | none =>
    cases h : w.userInfo.anyPrivsBelow auth ["resource"] privResourceAudit with
    | error => simp [checkCaller, RpcEnvironment.getAuthId, h, bind, Except.bind]
    | ok b => cases b <;> simp [checkCaller, RpcEnvironment.getAuthId, h, bind, Except.bind, pure, Except.pure, throw,
        throwThe, MonadExceptOf.throw, eq_comm]

end ListContext

variable {w filters} {v : Option View}

theorem ListContext.selectView_parameter {id}
    (h : w.selectView filters (some id) = .ok v) :
    ∃ config, (id, config) ∈ w.views.toOrderedMap ∧ v = some ⟨config⟩ := by
  simp only [selectView, bind, Except.bind] at h
  split at h
  · cases h
  next v₁ h₁ =>
    obtain ⟨config, hmem, rfl⟩ := getOptionalView_some.mp h₁
    split at h
    · cases h
    · exact ⟨config, hmem, by simpa [pure, Except.pure, eq_comm] using h⟩

theorem ListContext.selectView_search :
    w.selectView filters none = .ok v ↔ getOptionalView w.views (viewFilterFromSearch filters) = .ok v := by
  simp only [selectView, getOptionalView, bind, Except.bind]
  split <;> simp_all [pure, Except.pure]

theorem getResourcesImpl_eq_ok {maxAge search} {resourceType : Option ResourceType} {view rpcenv out} :
    getResourcesImpl w maxAge search resourceType view rpcenv = .ok out ↔
      ∃ optAuthId v, w.checkCaller view rpcenv = .ok optAuthId ∧ w.selectView (searchFilters search) view = .ok v ∧
        out = w.listing maxAge (searchFilters search) resourceType v optAuthId := by
  unfold getResourcesImpl
  cases hc : w.checkCaller view rpcenv <;> cases hs : w.selectView (searchFilters search) view <;>
    simp [hs, bind, Except.bind, pure, Except.pure, eq_comm]

/-! ## Access control of the list -/

open ListContext

/-- **What a caller is shown is open to them exactly if the view that the search selects is one they audit or lets
nothing through that such a view would not.** -/
theorem getResourcesImpl_visible_iff (w : ListContext) (maxAge : UInt64) (search : Option String)
    (resourceType : Option ResourceType) (view : Option String) (auth : Authid) :
    (∀ out, getResourcesImpl w maxAge search resourceType view (some ⟨some (.ok auth)⟩) = .ok out →
        w.EveryItemVisible auth maxAge out) ↔
      (view = none → w.userInfo.anyPrivsBelow auth ["resource"] privResourceAudit = .ok true →
        ∀ id config, viewFilterFromSearch (searchFilters search) = some id → (id, config) ∈ w.views.toOrderedMap →
          w.userInfo.Holds auth ["view", id] privResourceAudit ∨
          ∀ p ∈ w.remotes.toOrderedMap, ¬ w.AuditsRemote auth p.1 → View.canSkipRemote ⟨config⟩ p.1 = false →
            w.searchConsiders (searchFilters search) p.1 p.2 →
            w.Harmless auth maxAge (searchFilters search) resourceType ⟨config⟩ p.1 p.2) := by
  constructor
  · intro hvis hview hany id config select hmem
    refine .inr (everyItemVisible_listing_view_iff.mp (hvis _ (getResourcesImpl_eq_ok.mpr
      ⟨some auth, some ⟨config⟩, checkCaller_eq_ok.mpr ⟨rfl, by simp [hview], fun _ => hany⟩, ?_, rfl⟩)))
    rw [hview, selectView_search, select]
    exact getOptionalView_some.mpr ⟨config, hmem, rfl⟩
  · intro hcond out hout
    obtain ⟨optAuthId, v, hcall, select, rfl⟩ := getResourcesImpl_eq_ok.mp hout
    obtain ⟨rfl, priv, hany⟩ := checkCaller_eq_ok.mp hcall
    cases hview : view with
    | some id =>
      subst hview
      obtain ⟨config, hmem, rfl⟩ := selectView_parameter select
      exact everyItemVisible_of_auditsView ⟨id, hmem, priv id rfl⟩
    | none =>
      subst hview
      rw [selectView_search] at select
      cases hid : viewFilterFromSearch (searchFilters search) with
      | none =>
        rw [hid] at select
        cases select
        intro e he
        have audits := auditsRemote_of_mem_listing he
        exact ⟨.inl audits, fun _ _ => .inl audits⟩
      | some id =>
        rw [hid] at select
        obtain ⟨config, hmem, rfl⟩ := getOptionalView_some.mp select
        rcases hcond rfl (hany rfl) id config hid hmem with priv | harmless
        · exact everyItemVisible_of_auditsView ⟨id, hmem, priv⟩
        · exact everyItemVisible_listing_view_iff.mpr harmless

def leakContext : ListContext where
  userInfo :=
    { lookupPrivs := fun auth path => if auth = "joe@pve" ∧ path = ["resource", "alpha"] then privResourceAudit else 0
      anyPrivsBelow := fun auth path _ => .ok (decide (auth = "joe@pve" ∧ path = ["resource"])) }
  remotes :=
    { entries := [("alpha", ⟨.pve, "alpha"⟩), ("beta", ⟨.pve, "beta"⟩)], keys_nodup := by decide, id_eq := by decide }
  views := { entries := [("secret", ⟨"secret", some true, [], []⟩)], keys_nodup := by decide, id_eq := by decide }
  txt := { toLowercase := fun s => s, parseBoolean := fun _ => none }
  getResourcesForRemote := fun remote _ =>
    if remote.id = "beta" then .ok [.pveNode ⟨"remote/beta/node/n1", "n1", "online"⟩] else .ok []

/-- `view:secret` shows `joe@pve` a node of `beta`. -/
theorem getResourcesImpl_search_view_leaks :
    ¬ ∀ out, getResourcesImpl leakContext 30 (some "view:secret") none none (some ⟨some (.ok "joe@pve")⟩) = .ok out →
      leakContext.EveryItemVisible "joe@pve" 30 out := by
  intro h
  have hout : getResourcesImpl leakContext 30 (some "view:secret") none none (some ⟨some (.ok "joe@pve")⟩) =
      .ok [⟨"beta", ⟨.pve, "beta"⟩, [.pveNode ⟨"remote/beta/node/n1", "n1", "online"⟩], none⟩] := rfl
  have hvis := (h _ hout _ (mem_singleton.mpr rfl)).2 _ (mem_singleton.mpr rfl)
  rcases hvis with hrem | ⟨v, ⟨id, _, hview⟩, _⟩
  · exact absurd hrem (by decide)
  · have hnone : leakContext.userInfo.lookupPrivs "joe@pve" ["view", id] = 0 := by simp [leakContext]
    rw [CachedUserInfo.Holds, hnone] at hview
    exact absurd hview (by decide)

end Nexus
