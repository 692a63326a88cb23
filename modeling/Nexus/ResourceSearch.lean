import Nexus.ResourceList

/-!
# What a search returns

The search is evaluated once per remote for its type, once per resource, and once to find a view. A term that a pass
cannot decide counts as met in it. So of optional terms one pass can count one and the other pass another
(`getResourcesImpl_matches_search_iff`). The pass that finds a view stops at the first optional term;
`getResourcesImpl_perm_iff` says for which terms their order does not matter.
-/

namespace Nexus

open List Search ListContext

/-! ## Terms on one resource -/

variable (txt : TextFunctions)

def termHolds (remoteName : String) (remote : Remote) (resource : Resource) (term : SearchTerm) : Bool :=
  (resourceMatchesSearchTerm txt remoteName resource term).getD (remoteTypeMatchesSearchTerm txt remote.ty term)

def SearchTerm.IsRemoteType (term : SearchTerm) : Prop := term.category = some "remote-type"

instance (term : SearchTerm) : Decidable term.IsRemoteType := inferInstanceAs (Decidable (_ = _))

def SearchTerm.IsOther (term : SearchTerm) : Prop :=
  ∀ category, term.category = some category → category ≠ "remote-type" ∧ (MatchCategory.fromStr category).isOk

/-- Optional terms are on the type of the remote and on something else. -/
def Search.Mixed (s : Search) : Prop :=
  (∃ t ∈ s.optionalTerms, t.IsRemoteType) ∧ ∃ t ∈ s.optionalTerms, t.IsOther

variable {txt} {remoteName : String} {remote : Remote} {resource : Resource} {term : SearchTerm} {category : String}

theorem fromStr_eq_remoteType : MatchCategory.fromStr category = .ok .remoteType ↔ category = "remote-type" := by
  unfold MatchCategory.fromStr
  split <;> simp_all

theorem fromStr_eq_view : MatchCategory.fromStr category = .ok .view ↔ category = "view" := by
  unfold MatchCategory.fromStr
  split <;> simp_all

theorem resourceMatchesSearchTerm_eq_none : resourceMatchesSearchTerm txt remoteName resource term = none ↔
    term.IsRemoteType ∨ term.category = some "view" := by
  unfold resourceMatchesSearchTerm SearchTerm.IsRemoteType
  cases hcat : term.category with
  | none => simp
  | some c =>
    simp only [Option.map_some, Option.some.injEq, ← fromStr_eq_remoteType, ← fromStr_eq_view]
    cases MatchCategory.fromStr c with
    | error => simp
    | ok category => cases category <;> cases resource <;> simp

theorem remoteTypeMatchesSearchTerm_of_other (h : term.IsOther) (type : RemoteType) :
    remoteTypeMatchesSearchTerm txt type term := by
  unfold remoteTypeMatchesSearchTerm
  cases hcat : term.category with
  | none => rfl
  | some c =>
    obtain ⟨hne, hok⟩ := h c hcat
    simp only [Option.map_some]
    rw [ne_eq, ← fromStr_eq_remoteType] at hne
    cases hc : MatchCategory.fromStr c with
    | error => rw [hc] at hok; cases hok
    | ok category =>
      rw [hc] at hne
      cases category <;> first | rfl | exact absurd rfl hne

theorem term_invalid (htype : ¬ term.IsRemoteType) (other : ¬ term.IsOther) (type : RemoteType) :
    remoteTypeMatchesSearchTerm txt type term = false ∧
      resourceMatchesSearchTerm txt remoteName resource term = some false := by
  unfold SearchTerm.IsOther at other
  push Not at other
  obtain ⟨c, hcat, hbad⟩ := other
  have hne : c ≠ "remote-type" := fun h => htype (hcat.trans (congrArg some h))
  have hbad := hbad hne
  unfold remoteTypeMatchesSearchTerm resourceMatchesSearchTerm
  rw [hcat, Option.map_some]
  cases hc : MatchCategory.fromStr c with
  | error => exact ⟨rfl, rfl⟩
  | ok => rw [hc] at hbad; exact absurd rfl hbad

/-- **The pass that a term is for decides it.** -/
theorem term_cases (txt) (remoteName) (remote) (resource) (hview : term.category ≠ some "view") :
    (term.IsRemoteType ∧ (resourceMatchesSearchTerm txt remoteName resource term).getD true ∧
      remoteTypeMatchesSearchTerm txt remote.ty term = termHolds txt remoteName remote resource term) ∨
    (term.IsOther ∧ remoteTypeMatchesSearchTerm txt remote.ty term ∧
      (resourceMatchesSearchTerm txt remoteName resource term).getD true =
        termHolds txt remoteName remote resource term) ∨ (remoteTypeMatchesSearchTerm txt remote.ty term = false ∧
      (resourceMatchesSearchTerm txt remoteName resource term).getD true = false ∧
      termHolds txt remoteName remote resource term = false) := by
  have hnone : resourceMatchesSearchTerm txt remoteName resource term = none ↔ _ := resourceMatchesSearchTerm_eq_none
  unfold termHolds
  by_cases htype : term.IsRemoteType
  · rw [hnone.mpr (.inl htype)]
    exact .inl ⟨htype, rfl, rfl⟩
  · by_cases other : term.IsOther
    · have hsome : resourceMatchesSearchTerm txt remoteName resource term ≠ none := fun h =>
        (hnone.mp h).elim htype hview
      obtain ⟨b, hb⟩ := Option.ne_none_iff_exists'.mp hsome
      rw [hb]
      exact .inr (.inl ⟨other, remoteTypeMatchesSearchTerm_of_other other remote.ty, rfl⟩)
    · obtain ⟨hrem, hres⟩ : _ ∧ resourceMatchesSearchTerm txt remoteName resource term = some false :=
        term_invalid htype other remote.ty
      rw [hres]
      exact .inr (.inr ⟨hrem, rfl, rfl⟩)

theorem passes_iff {s : Search} (hview : ∀ t ∈ s.requiredTerms ++ s.optionalTerms, t.category ≠ some "view") :
    (s.matches (remoteTypeMatchesSearchTerm txt remote.ty) ∧
      s.matches (fun t => (resourceMatchesSearchTerm txt remoteName resource t).getD true)) ↔
    s.matches (termHolds txt remoteName remote resource) ∨
      ((∀ t ∈ s.requiredTerms, termHolds txt remoteName remote resource t) ∧ s.Mixed) := by
  have hcases : ∀ t ∈ s.requiredTerms ++ s.optionalTerms, _ := fun t ht =>
    term_cases txt remoteName remote resource (hview t ht)
  have hboth : ∀ t ∈ s.requiredTerms ++ s.optionalTerms, (remoteTypeMatchesSearchTerm txt remote.ty t ∧
        (resourceMatchesSearchTerm txt remoteName resource t).getD true) ↔
      termHolds txt remoteName remote resource t := by
    intro t ht
    rcases hcases t ht with ⟨-, hres, htype⟩ | ⟨-, htype, hres⟩ | ⟨htype, hres, hholds⟩
    · rw [hres, htype]
      exact and_iff_left rfl
    · rw [hres, htype]
      exact and_iff_right rfl
    · rw [hres, htype, hholds]
      exact and_iff_left_of_imp id
  simp only [matches_eq_true]
  constructor
  · rintro ⟨⟨hreq, hopt⟩, hreq', hopt'⟩
    have hall : ∀ t ∈ s.requiredTerms, termHolds txt remoteName remote resource t := fun t ht =>
      (hboth t (mem_append_left _ ht)).mp ⟨hreq t ht, hreq' t ht⟩
    by_cases hany : s.optionalTerms = [] ∨ ∃ t ∈ s.optionalTerms, termHolds txt remoteName remote resource t
    · exact .inl ⟨hall, hany⟩
    · rw [not_or] at hany
      obtain ⟨t, ht, htype⟩ := hopt.resolve_left hany.1
      obtain ⟨t', ht', hres⟩ := hopt'.resolve_left hany.1
      refine .inr ⟨hall, ⟨t', ht', ?_⟩, t, ht, ?_⟩
      · rcases hcases t' (mem_append_right _ ht') with ⟨hkind, -⟩ | ⟨-, -, heq⟩ | ⟨-, hfalse, -⟩
        · exact hkind
        · exact absurd ⟨t', ht', heq.symm.trans hres⟩ hany.2
        · exact absurd (hres.symm.trans hfalse) (by decide)
      · rcases hcases t (mem_append_right _ ht) with ⟨-, -, heq⟩ | ⟨hkind, -⟩ | ⟨hfalse, -⟩
        · exact absurd ⟨t, ht, heq.symm.trans htype⟩ hany.2
        · exact hkind
        · exact absurd (htype.symm.trans hfalse) (by decide)
  · rintro (⟨hall, hany⟩ | ⟨hall, ⟨t', ht', hkind'⟩, t, ht, hkind⟩)
    · have hreq := fun t ht => (hboth t (mem_append_left _ ht)).mpr (hall t ht)
      refine ⟨⟨fun t ht => (hreq t ht).1, hany.imp_right ?_⟩, fun t ht => (hreq t ht).2, hany.imp_right ?_⟩
      · rintro ⟨t, ht, h⟩
        exact ⟨t, ht, ((hboth t (mem_append_right _ ht)).mpr h).1⟩
      · rintro ⟨t, ht, h⟩
        exact ⟨t, ht, ((hboth t (mem_append_right _ ht)).mpr h).2⟩
    · have hreq := fun t ht => (hboth t (mem_append_left _ ht)).mpr (hall t ht)
      refine ⟨⟨fun t ht => (hreq t ht).1, .inr ⟨t, ht, remoteTypeMatchesSearchTerm_of_other hkind remote.ty⟩⟩,
        fun t ht => (hreq t ht).2, .inr ⟨t', ht', ?_⟩⟩
      rw [resourceMatchesSearchTerm_eq_none.mpr (.inl hkind')]
      rfl

/-! ## Returned resources -/

variable {w : ListContext} {maxAge : UInt64} {filters : Search} {resourceType : Option ResourceType}
  {optAuthId : Option Authid} {name : String} {r : Resource}

theorem mem_listing_resources {view} : (∃ e ∈ w.listing maxAge filters resourceType view optAuthId,
      e.remoteName = name ∧ e.remote = remote ∧ r ∈ e.resources) ↔
      (name, remote) ∈ w.remotes.toOrderedMap ∧ w.allowsRemote view optAuthId name ∧
        w.searchConsiders filters name remote ∧ r ∈ (w.gather maxAge filters resourceType name remote).resources ∧
        view.all (·.resourceMatches name r) := by
  have hkeeps : ∀ e, r ∈ e.resources → w.keepsEntry filters e := fun e hr => by
    simp [ListContext.keepsEntry, ne_nil_of_mem hr]
  cases view with
  | none =>
    simp only [ListContext.listing_eq, restrictToView, mem_filter, mem_map, Bool.and_eq_true, Option.all_none, and_true]
    constructor
    · rintro ⟨_, ⟨⟨p, ⟨hp, hall, hcons⟩, rfl⟩, -⟩, rfl, rfl, hr⟩
      exact ⟨hp, hall, hcons, hr⟩
    · rintro ⟨hp, hall, hcons, hr⟩
      exact ⟨_, ⟨⟨(name, remote), ⟨hp, hall, hcons⟩, rfl⟩, hkeeps _ hr⟩, rfl, rfl, hr⟩
  | some =>
    simp only [mem_listing_view, ListContext.allowsRemote, Bool.not_eq_true', Option.all_some]
    constructor
    · rintro ⟨_, ⟨p, hp, hskip, hcons, -, rfl, -⟩, rfl, rfl, hr⟩
      obtain ⟨gather, hmatch⟩ := mem_restrict_resources.mp hr
      exact ⟨hp, hskip, hcons, gather, hmatch⟩
    · rintro ⟨hp, hskip, hcons, gather, hmatch⟩
      have hr := mem_restrict_resources.mpr ⟨gather, hmatch⟩
      refine ⟨_, ⟨(name, remote), hp, hskip, hcons, hkeeps _ gather, rfl, ?_⟩, rfl, rfl, hr⟩
      simp [View.retains, ne_nil_of_mem hr]

theorem searched_iff (hview : ∀ t ∈ filters.requiredTerms ++ filters.optionalTerms, t.category ≠ some "view") :
    (w.searchConsiders filters name remote ∧ r ∈ (w.gather maxAge filters resourceType name remote).resources) ↔
      r ∈ w.reported maxAge remote ∧ isRemotesOnly w.txt filters = false ∧
        resourceType.all (r.resourceType == ·) ∧ (filters.matches (termHolds w.txt name remote r) ∨
          ((∀ t ∈ filters.requiredTerms, termHolds w.txt name remote r t) ∧ filters.Mixed)) := by
  rw [mem_gather_resources, ← passes_iff hview]
  simp only [ListContext.searchConsiders, ListContext.searchConsidersIf, ListContext.searchAccepts, Bool.and_eq_true]
  constructor
  · rintro ⟨⟨htype, -⟩, hrep, honly, hkind, hacc⟩
    exact ⟨hrep, honly, hkind, htype, hacc⟩
  · rintro ⟨hrep, honly, hkind, htype, hacc⟩
    exact ⟨⟨htype, by simp [honly]⟩, hrep, honly, hkind, hacc⟩

/-- **Every returned resource meets the search exactly if, where there are optional terms on the type of the remote and
on something else, every reported resource that meets the required terms meets an optional one.** -/
theorem getResourcesImpl_matches_search_iff (w : ListContext) (maxAge : UInt64) (search : Option String)
    (resourceType : Option ResourceType) (view : Option String) (rpcenv : Option RpcEnvironment)
    (hview : ∀ t ∈ (searchFilters search).requiredTerms ++ (searchFilters search).optionalTerms,
      t.category ≠ some "view") :
    (∀ out, getResourcesImpl w maxAge search resourceType view rpcenv = .ok out → ∀ e ∈ out, ∀ r ∈ e.resources,
      (searchFilters search).matches (termHolds w.txt e.remoteName e.remote r)) ↔
    ((searchFilters search).Mixed → isRemotesOnly w.txt (searchFilters search) = false →
      ∀ optAuthId v, w.checkCaller view rpcenv = .ok optAuthId → w.selectView (searchFilters search) view = .ok v →
      ∀ p ∈ w.remotes.toOrderedMap, w.allowsRemote v optAuthId p.1 →
      ∀ r ∈ w.reported maxAge p.2, v.all (·.resourceMatches p.1 r) → resourceType.all (r.resourceType == ·) →
        (∀ t ∈ (searchFilters search).requiredTerms, termHolds w.txt p.1 p.2 r t) →
        ∃ t ∈ (searchFilters search).optionalTerms, termHolds w.txt p.1 p.2 r t) := by
  constructor
  · intro hmatch hmixed honly optAuthId v hcall hsel p hp hall r hr hv hkind hreq
    have hsearch := (searched_iff hview).mpr ⟨hr, honly, hkind, .inr ⟨hreq, hmixed⟩⟩
    obtain ⟨e, he, hname, hrem, hres⟩ := mem_listing_resources.mpr ⟨hp, hall, hsearch.1, hsearch.2, hv⟩
    have hmats := hmatch _ (getResourcesImpl_eq_ok.mpr ⟨optAuthId, v, hcall, hsel, rfl⟩) e he r hres
    rw [hname, hrem, matches_eq_true] at hmats
    obtain ⟨t, ht, -⟩ := hmixed.1
    exact hmats.2.resolve_left (ne_nil_of_mem ht)
  · intro hcond out hout e he r hr
    obtain ⟨optAuthId, v, hcall, hsel, rfl⟩ := getResourcesImpl_eq_ok.mp hout
    obtain ⟨hp, hall, hcons, hgath, hv⟩ := mem_listing_resources.mp ⟨e, he, rfl, rfl, hr⟩
    obtain ⟨hrep, honly, hkind, hmatch | ⟨hreq, hmixed⟩⟩ := (searched_iff hview).mp ⟨hcons, hgath⟩
    · exact hmatch
    · rw [matches_eq_true]
      exact ⟨hreq, .inr (hcond hmixed honly optAuthId v hcall hsel _ hp hall r hrep hv hkind hreq)⟩

theorem getResourcesImpl_matches_required_type :
    (∀ t ∈ (searchFilters (some "+remote-type:pve name:n")).requiredTerms ++
      (searchFilters (some "+remote-type:pve name:n")).optionalTerms, t.category ≠ some "view") ∧
    ∀ out, getResourcesImpl leakContext 30 (some "+remote-type:pve name:n") none none none = .ok out →
      ∀ e ∈ out, ∀ r ∈ e.resources, (searchFilters (some "+remote-type:pve name:n")).matches
        (termHolds leakContext.txt e.remoteName e.remote r) := by
  refine ⟨by decide, (getResourcesImpl_matches_search_iff leakContext 30 _ none none none (by decide)).mpr
    fun hmixed => ?_⟩
  have required : ∀ t ∈ (searchFilters (some "+remote-type:pve name:n")).optionalTerms, ¬ t.IsRemoteType := by decide
  obtain ⟨⟨t, ht, htype⟩, -⟩ := hmixed
  exact absurd htype (required t ht)

/-- A search for one type or the name `foo` returns a resource of another name and type. -/
theorem getResourcesImpl_returns_unmatched :
    getResourcesImpl leakContext 30 (some "remote-type:pbs name:foo") none none none =
      .ok [⟨"beta", ⟨.pve, "beta"⟩, [.pveNode ⟨"remote/beta/node/n1", "n1", "online"⟩], none⟩] ∧
    (searchFilters (some "remote-type:pbs name:foo")).matches (termHolds leakContext.txt "beta" ⟨.pve, "beta"⟩
      (.pveNode ⟨"remote/beta/node/n1", "n1", "online"⟩)) = false :=
  ⟨rfl, by decide⟩

/-! ## The order of the terms -/

structure Search.SameTerms (s s' : Search) : Prop where
  required : s.requiredTerms.Perm s'.requiredTerms
  optional : s.optionalTerms.Perm s'.optionalTerms

variable {s s' : Search} {txt : TextFunctions}

theorem Search.SameTerms.isEmpty_eq (h : s.SameTerms s') : s.isEmpty = s'.isEmpty := by
  unfold Search.isEmpty
  rw [h.required.isEmpty_eq, h.optional.isEmpty_eq]

theorem Search.SameTerms.matches_eq (h : s.SameTerms s') (f) : s.matches f = s'.matches f := by
  rw [Bool.eq_iff_iff, matches_eq_true, matches_eq_true]
  have hnil : s.optionalTerms = [] ↔ s'.optionalTerms = [] := by
    rw [← List.isEmpty_iff, ← List.isEmpty_iff, h.optional.isEmpty_eq]
  simp only [h.required.mem_iff, h.optional.mem_iff, hnil]

variable {σ : Type} {f : SearchTerm → σ → Bool × σ} {answer : Bool}

theorem Search.callUntil_of_forall : ∀ ts st, (∀ t ∈ ts, ∀ st, (f t st).1 ≠ answer) →
    Search.callUntil f answer ts st = (false, ts.foldl (fun st t => (f t st).2) st)
  | [], _, _ => rfl
  | t :: ts, st, h => by
    obtain ⟨first, hrest⟩ := forall_mem_cons.mp h
    unfold Search.callUntil
    simp only [if_neg (first st)]
    exact callUntil_of_forall ts (f t st).2 hrest

theorem Search.matchesMut_snd (hrequired : ∀ t ∈ s.requiredTerms, ∀ st, (f t st).1) (st) : (s.matchesMut f st).2 =
      (Search.callUntil f true s.optionalTerms (s.requiredTerms.foldl (fun st t => (f t st).2) st)).2 := by
  have hcalls : Search.callUntil f false s.requiredTerms st = _ :=
    callUntil_of_forall s.requiredTerms st fun t ht st' => by
      rw [hrequired t ht st']
      decide
  unfold Search.matchesMut
  obtain ⟨required, optional⟩ := s
  cases optional with
  | nil =>
    cases required with
    | nil => rfl
    | cons =>
      simp only [Search.isEmpty, isEmpty_cons, Bool.false_and, Bool.false_eq_true, if_false, hcalls]
      rfl
  | cons =>
    simp [Search.isEmpty, hcalls]

def Search.Sorted (s : Search) : Prop :=
  (∀ t ∈ s.requiredTerms, t.optional = false) ∧ ∀ t ∈ s.optionalTerms, t.optional

theorem Search.sorted_fromIter (terms) : (Search.fromIter terms).Sorted := by
  refine ⟨fun t ht => ?_, fun t ht => ?_⟩
  · simpa using (mem_filter.mp ht).2
  · simpa using (mem_filter.mp ht).2

theorem isRemotesOnly_eq (h : s.Sorted) : isRemotesOnly txt s =
    let c := (s.requiredTerms ++ s.optionalTerms).foldl (fun c t => (countRemotesOnly txt t c).2) ⟨false, 0, 0⟩
    c.isRequired || (decide (c.optionalMatches > 0) && c.optionalMatches == c.optionalTerms) := by
  have required : ∀ t ∈ s.requiredTerms, ∀ st, (countRemotesOnly txt t st).1 := fun t ht st => by
    simp [countRemotesOnly, h.1 t ht]
  have hopt : ∀ t ∈ s.optionalTerms, ∀ st, (countRemotesOnly txt t st).1 ≠ true := fun t ht st => by
    simp [countRemotesOnly, h.2 t ht]
  unfold isRemotesOnly
  simp [matchesMut_snd required, callUntil_of_forall _ _ hopt]

def asksForRemotes (txt : TextFunctions) (term : SearchTerm) : Bool :=
  match term.category.map MatchCategory.fromStr with
  | some (.ok .type) => MatchCategory.type.matches txt "remote" term.value
  | _ => false

theorem countRemotesOnly_snd (t) (c) : (countRemotesOnly txt t c).2 =
    ⟨c.isRequired || (asksForRemotes txt t && !t.optional),
      c.optionalMatches + (asksForRemotes txt t && t.optional).toNat, c.optionalTerms + t.optional.toNat⟩ := by
  obtain ⟨isRequired, optionalMatches, optionalTerms⟩ := c
  unfold countRemotesOnly asksForRemotes
  generalize t.category.map MatchCategory.fromStr = category
  cases t.optional <;> simp only <;> split
  · cases MatchCategory.type.matches txt "remote" t.value <;> simp
  · simp
  · cases MatchCategory.type.matches txt "remote" t.value <;> simp
  · simp

theorem Search.SameTerms.isRemotesOnly_eq (h : s.SameTerms s') (hs : s.Sorted) (hs' : s'.Sorted) :
    isRemotesOnly txt s = isRemotesOnly txt s' := by
  rw [Nexus.isRemotesOnly_eq hs, Nexus.isRemotesOnly_eq hs']
  have hperm := h.required.append h.optional
  have hfold := hperm.foldl_eq' (f := fun c t => (countRemotesOnly txt t c).2) (fun t _ t' _ c => by
    simp only [countRemotesOnly_snd, RemotesOnlyCounts.mk.injEq]
    exact ⟨Bool.or_right_comm _ _ _, Nat.add_right_comm _ _ _, Nat.add_right_comm _ _ _⟩) ⟨false, 0, 0⟩
  simp only [hfold]

theorem Search.SameTerms.listing_eq (h : s.SameTerms s') (hs : s.Sorted) (hs' : s'.Sorted) (w : ListContext)
    (maxAge : UInt64) (resourceType : Option ResourceType) (view : Option View) (optAuthId : Option Authid) :
    w.listing maxAge s resourceType view optAuthId = w.listing maxAge s' resourceType view optAuthId := by
  have honly : isRemotesOnly w.txt s = isRemotesOnly w.txt s' := h.isRemotesOnly_eq hs hs'
  have hcons : w.searchConsiders s = w.searchConsiders s' := by
    funext name remote
    simp only [ListContext.searchConsiders, ListContext.searchConsidersIf, h.matches_eq, honly]
  have hacc : w.searchAccepts s resourceType = w.searchAccepts s' resourceType := by
    funext name resource
    simp only [ListContext.searchAccepts, h.matches_eq]
  have gather : w.gather maxAge s resourceType = w.gather maxAge s' resourceType := by
    funext name remote
    simp only [ListContext.gather, ListContext.gatherIf, honly, h.isEmpty_eq, hacc]
  have hkeeps : w.keepsEntry s = w.keepsEntry s' := by
    funext entry
    simp only [ListContext.keepsEntry, h.matches_eq, h.isEmpty_eq]
  simp only [ListContext.listing_eq, hcons, gather, hkeeps]

def noteView (found : Option String) (term : SearchTerm) : Option String :=
  if term.category = some "view" then some term.value else found

theorem viewFilterFromSearch_eq (s) :
    viewFilterFromSearch s = (s.requiredTerms ++ s.optionalTerms.take 1).foldl noteView none := by
  unfold viewFilterFromSearch
  rw [matchesMut_snd fun _ _ _ => rfl, foldl_append]
  cases s.optionalTerms with
  | nil => rfl
  | cons => rfl

theorem foldl_noteView {id} : ∀ (ts : List SearchTerm) (found : Option String),
    (∀ t ∈ ts, t.category = some "view" → t.value = id) →
      ts.foldl noteView found = if ts.any (·.category = some "view") then some id else found
  | [], _, _ => rfl
  | t :: ts, found, h => by
    obtain ⟨first, hrest⟩ := forall_mem_cons.mp h
    rw [foldl_cons, foldl_noteView ts _ hrest, noteView, any_cons]
    by_cases ht : t.category = some "view"
    · simp [ht, first ht]
    · simp [ht]

/-! ## The tokens of a search -/

def termsOf (tokens : List String) : List SearchTerm := (tokens.filter (· ≠ "")).map SearchTerm.fromStr

/-- A view is required, or optional terms do not mix it with something else. -/
def Search.ViewSettled (s : Search) : Prop :=
  (∃ t ∈ s.requiredTerms, t.category = some "view") ∨ (∀ t ∈ s.optionalTerms, t.category ≠ some "view") ∨
    ∀ t ∈ s.optionalTerms, t.category = some "view"

variable {tokens tokens' : List String} {id : String}

theorem searchFilters_tokens (h : ∀ token ∈ tokens, ∀ c ∈ token.toList, Lib.Text.isWhitespace c = false) :
    searchFilters (some (" ".intercalate tokens)) = Search.fromIter (termsOf tokens) := by
  rw [searchFilters, Option.map_some, Option.getD_some, Search.fromStr, Lib.Text.splitWhitespace_intercalate tokens h]
  rfl

theorem sameTerms_of_perm (h : tokens'.Perm tokens) :
    (Search.fromIter (termsOf tokens')).SameTerms (Search.fromIter (termsOf tokens)) := by
  have hterms : (termsOf tokens').Perm (termsOf tokens) := (h.filter _).map _
  exact ⟨hterms.filter _, hterms.filter _⟩

theorem viewFilterFromSearch_tokens (hone : ∀ t ∈ termsOf tokens, t.category = some "view" → t.value = id) :
    viewFilterFromSearch (Search.fromIter (termsOf tokens)) =
      if ((Search.fromIter (termsOf tokens)).requiredTerms ++
        (Search.fromIter (termsOf tokens)).optionalTerms.take 1).any
        (·.category = some "view") then some id else none := by
  rw [viewFilterFromSearch_eq]
  refine foldl_noteView _ none fun t ht => hone t ?_
  rcases mem_append.mp ht with hreq | hopt
  · exact (mem_filter.mp hreq).1
  · exact (mem_filter.mp (mem_of_mem_take hopt)).1

theorem viewFilterFromSearch_perm (h : tokens'.Perm tokens)
    (hone : ∀ t ∈ termsOf tokens, t.category = some "view" → t.value = id)
    (settled : (Search.fromIter (termsOf tokens)).ViewSettled) :
    viewFilterFromSearch (Search.fromIter (termsOf tokens')) =
      viewFilterFromSearch (Search.fromIter (termsOf tokens)) := by
  have hsame := sameTerms_of_perm h
  have hone' : ∀ t ∈ termsOf tokens', t.category = some "view" → t.value = id := fun t ht =>
    hone t (((h.filter _).map _).mem_iff.mp ht)
  rw [viewFilterFromSearch_tokens hone', viewFilterFromSearch_tokens hone]
  generalize Search.fromIter (termsOf tokens') = s' at hsame ⊢
  generalize Search.fromIter (termsOf tokens) = s at hsame settled ⊢
  have required : s'.requiredTerms.any (·.category = some "view") = s.requiredTerms.any (·.category = some "view") :=
    hsame.required.any_eq
  rw [any_append, any_append, required]
  rcases settled with ⟨t, ht, hview⟩ | hnone | hall
  · have hany : s.requiredTerms.any (·.category = some "view") := any_eq_true.mpr ⟨t, ht, by simpa using hview⟩
    rw [hany, Bool.true_or, Bool.true_or]
  · have hfalse : ∀ l : List SearchTerm, (∀ t ∈ l, t.category ≠ some "view") →
        (l.take 1).any (·.category = some "view") = false := fun l hl =>
      any_eq_false.mpr fun t ht => by simpa using hl t (mem_of_mem_take ht)
    rw [hfalse _ hnone, hfalse _ fun t ht => hnone t (hsame.optional.mem_iff.mp ht)]
  · have first : ∀ l : List SearchTerm, (∀ t ∈ l, t.category = some "view") →
        (l.take 1).any (·.category = some "view") = !l.isEmpty := fun l hl => by
      cases l with
      | nil => rfl
      | cons t => simp [hl t mem_cons_self]
    rw [first _ hall, first _ fun t ht => hall t (hsame.optional.mem_iff.mp ht), hsame.optional.isEmpty_eq]

theorem exists_token_first {t} (ht : t ∈ (Search.fromIter (termsOf tokens)).optionalTerms) :
    ∃ tokens', tokens'.Perm tokens ∧ (Search.fromIter (termsOf tokens')).optionalTerms.take 1 = [t] := by
  obtain ⟨hterm, hopt⟩ := mem_filter.mp ht
  obtain ⟨token, htok, rfl⟩ := mem_map.mp hterm
  obtain ⟨hmem, hne⟩ := mem_filter.mp htok
  refine ⟨token :: tokens.erase token, (perm_cons_erase hmem).symm, ?_⟩
  rw [termsOf, filter_cons_of_pos (p := (· ≠ "")) hne, map_cons, Search.fromIter, filter_cons_of_pos hopt,
    take_succ_cons, take_zero]

def emptyContext : ListContext where
  userInfo := ⟨fun _ _ => 0, fun _ _ _ => .ok false⟩
  remotes := { entries := [], keys_nodup := nodup_nil, id_eq := forall_mem_nil _ }
  views := .empty
  txt := ⟨fun s => s, fun _ => none⟩
  getResourcesForRemote _ _ := .ok []

theorem getResourcesImpl_emptyContext {search} :
    (∃ out, getResourcesImpl emptyContext 0 search none none none = .ok out) ↔
      viewFilterFromSearch (searchFilters search) = none := by
  constructor
  · rintro ⟨out, hout⟩
    obtain ⟨optAuthId, v, -, select, -⟩ := getResourcesImpl_eq_ok.mp hout
    rw [selectView_search] at select
    cases hview : viewFilterFromSearch (searchFilters search) with
    | none => rfl
    | some =>
      rw [hview] at select
      obtain ⟨config, hmem, -⟩ := getOptionalView_some.mp select
      exact absurd hmem not_mem_nil
  · intro hview
    refine ⟨_, getResourcesImpl_eq_ok.mpr ⟨none, none, rfl, ?_, rfl⟩⟩
    rw [selectView_search, hview]
    rfl

/-- **The order of the tokens of a search does not matter exactly if a required token names the view, or none of the
optional ones, or all of them.** -/
theorem getResourcesImpl_perm_iff (tokens : List String) (id : String)
    (hfree : ∀ token ∈ tokens, ∀ c ∈ token.toList, Lib.Text.isWhitespace c = false)
    (hone : ∀ t ∈ termsOf tokens, t.category = some "view" → t.value = id) :
    (∀ w maxAge resourceType view rpcenv, ∀ tokens' : List String, tokens'.Perm tokens →
      getResourcesImpl w maxAge (some (" ".intercalate tokens')) resourceType view rpcenv =
        getResourcesImpl w maxAge (some (" ".intercalate tokens)) resourceType view rpcenv) ↔
    (Search.fromIter (termsOf tokens)).ViewSettled := by
  have filter : ∀ tokens' : List String, tokens'.Perm tokens →
      searchFilters (some (" ".intercalate tokens')) = Search.fromIter (termsOf tokens') := fun tokens' hperm =>
    searchFilters_tokens fun token ht => hfree token (hperm.mem_iff.mp ht)
  constructor
  · intro hsame
    by_contra unset
    simp only [Search.ViewSettled, not_or, not_exists, not_and, not_forall, not_not] at unset
    obtain ⟨hreq, ⟨t, ht, hview⟩, u, hu, hplain⟩ := unset
    obtain ⟨first, hfst, htake⟩ := exists_token_first ht
    obtain ⟨other, hoth, hutake⟩ := exists_token_first hu
    have hone' : ∀ tokens' : List String, tokens'.Perm tokens →
        ∀ t ∈ termsOf tokens', t.category = some "view" → t.value = id := fun tokens' hperm t ht =>
      hone t (((hperm.filter _).map _).mem_iff.mp ht)
    have hnone : ∀ tokens' : List String, tokens'.Perm tokens →
        (Search.fromIter (termsOf tokens')).requiredTerms.any (·.category = some "view") = false := fun tokens' hperm =>
      any_eq_false.mpr fun t ht => by
        simpa using hreq t ((sameTerms_of_perm hperm).required.mem_iff.mp ht)
    -- the request that finds no view succeeds, and the one that finds it fails
    have hok : ∃ out, getResourcesImpl emptyContext 0 (some (" ".intercalate other)) none none none = .ok out := by
      rw [getResourcesImpl_emptyContext, filter other hoth, viewFilterFromSearch_tokens (hone' other hoth),
        any_append, hnone other hoth, hutake]
      simp [hplain]
    rw [hsame _ _ _ _ _ other hoth, ← hsame _ _ _ _ _ first hfst, getResourcesImpl_emptyContext,
      filter first hfst, viewFilterFromSearch_tokens (hone' first hfst), any_append, hnone first hfst, htake] at hok
    simp [hview] at hok
  · intro settled w maxAge resourceType view rpcenv tokens' hperm
    have hterms := sameTerms_of_perm hperm
    unfold getResourcesImpl
    rw [filter tokens' hperm, filter tokens (List.Perm.refl _)]
    simp only [ListContext.selectView, viewFilterFromSearch_perm hperm hone settled,
      hterms.listing_eq (sorted_fromIter _) (sorted_fromIter _)]

theorem getResourcesImpl_perm_required_view :
    ((∀ token ∈ ["name:n1", "+view:secret"], ∀ c ∈ token.toList, Lib.Text.isWhitespace c = false) ∧
      ∀ t ∈ termsOf ["name:n1", "+view:secret"], t.category = some "view" → t.value = "secret") ∧
    getResourcesImpl leakContext 30 (some (" ".intercalate ["+view:secret", "name:n1"])) none none none =
      getResourcesImpl leakContext 30 (some (" ".intercalate ["name:n1", "+view:secret"])) none none none := by
  have hfree : ∀ token ∈ ["name:n1", "+view:secret"], ∀ c ∈ token.toList, Lib.Text.isWhitespace c = false := by
    have hall : (["name:n1", "+view:secret"].all (·.toList.all (Lib.Text.isWhitespace · == false))) := by decide
    exact fun token ht c hc => beq_iff_eq.mp (all_eq_true.mp (all_eq_true.mp hall token ht) c hc)
  exact ⟨⟨hfree, by decide⟩, (getResourcesImpl_perm_iff ["name:n1", "+view:secret"] "secret" hfree (by decide)).mpr
    (.inl ⟨⟨false, "secret", some "view"⟩, by decide, rfl⟩) _ _ _ _ _ _ (List.Perm.swap _ _ _)⟩

/-- A view is only found before another optional term. -/
theorem getResourcesImpl_order_matters :
    getResourcesImpl leakContext 30 (some (" ".intercalate ["view:secret", "name:n1"])) none none
        (some ⟨some (.ok "joe@pve")⟩) =
      .ok [⟨"beta", ⟨.pve, "beta"⟩, [.pveNode ⟨"remote/beta/node/n1", "n1", "online"⟩], none⟩] ∧
    getResourcesImpl leakContext 30 (some (" ".intercalate ["name:n1", "view:secret"])) none none
        (some ⟨some (.ok "joe@pve")⟩) = .ok [⟨"alpha", ⟨.pve, "alpha"⟩, [], none⟩] :=
  ⟨rfl, rfl⟩

end Nexus
