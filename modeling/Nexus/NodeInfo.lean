import Nexus.ApiCache
import Nexus.View

/-!
# Subscription state and location of nodes

`get_subscription_status` and `get_location_info` of `server/src/api/resources.rs`. Both choose the remotes of a view by
`can_skip_remote`. Only the first filters the nodes afterwards (`getSubscriptionStatus_inView`); `nodeInfo_inView_iff`
says for which rules the answers of the second stay inside the view.
-/

namespace Nexus

open Lib (OrderedMap)
open Lib.OrderedMap

/-! ## Subscription state -/

inductive SubscriptionLevel
  | none | unknown | community | basic | standard | premium
  deriving DecidableEq

def SubscriptionLevel.rank : SubscriptionLevel → Nat
  | none => 0
  | unknown => 1
  | community => 2
  | basic => 3
  | standard => 4
  | premium => 5

inductive SubscriptionStatus
  | notFound | new | active | invalid | expired | suspended
  deriving DecidableEq

structure NodeSubscriptionInfo where
  status : SubscriptionStatus
  sockets : Option Int
  key : Option String
  level : SubscriptionLevel
  deriving DecidableEq

inductive RemoteSubscriptionState
  | none | unknown | mixed | active

abbrev NodeSubscriptions := OrderedMap String (Option NodeSubscriptionInfo)

def effectiveLevel : Option NodeSubscriptionInfo → SubscriptionLevel
  | some info => match info.status with
    | .new | .active => info.level
    | _ => .none
  | none => .unknown

def mapNodeSubscriptionListToState (infos : NodeSubscriptions) : RemoteSubscriptionState :=
  let levels := infos.entries.map fun e => effectiveLevel e.2
  let minimum := match levels with
    | [] => SubscriptionLevel.unknown
    | l :: ls => ls.foldl (fun a b => if a.rank ≤ b.rank then a else b) l
  let mixed := levels.any (· ≠ minimum)
  match minimum, mixed with
  | .none, _ => .none
  | .unknown, false => .unknown
  | .unknown, true => .active
  | _, true => .mixed
  | _, false => .active

structure RemoteSubscriptions where
  remote : String
  error : Option String
  nodeStatus : Option NodeSubscriptions
  state : RemoteSubscriptionState

structure SubscriptionAccess where
  read : CacheLook NodeSubscriptions
  fetch : Except String NodeSubscriptions
  fetchTime : Int
  update : CacheLook NodeSubscriptions

def getSubscriptionInfoForRemote (a : SubscriptionAccess) (maxAge : UInt64) : Except String NodeSubscriptions := do
  match ← a.read.getWithMaxAge maxAge.toInt64.toInt with
  | some cached => return cached
  | none =>
    let nodeInfo ← a.fetch
    return (← a.update.setIfNewer a.fetchTime).getD nodeInfo

/-! ## Locations -/

structure Location where
  name : Option String
  (latitude longitude : Float)

structure CachedLocationInfo where
  nodeLocations : OrderedMap String Location

structure LocationAccess where
  read : CacheLook CachedLocationInfo
  fetch : Except String (Option CachedLocationInfo)
  fallback : CacheLook CachedLocationInfo
  fetchTime : Int
  update : CacheLook (Option CachedLocationInfo)

def clampMaxAge (maxAge : UInt64) : Int := (min maxAge (Int64.maxValue.toUInt64)).toInt64.toInt

def getLocationInfoForRemote (a : LocationAccess) (maxAge : UInt64) : Except String (Option CachedLocationInfo) := do
  match ← a.read.getWithMaxAge (clampMaxAge maxAge) with
  | some cached => return some cached
  | none =>
    let locationInfo ← match a.fetch with
      | .ok info => pure info
      | .error _ => a.fallback.getWithMaxAge (clampMaxAge (UInt64.ofNat (2 ^ 64 - 1)))
    return (← a.update.setIfNewer a.fetchTime).join.or locationInfo

/-- Nothing is cached, and the fetch finds the locations. -/
def LocationAccess.uncached (info : CachedLocationInfo) : LocationAccess :=
  ⟨⟨.ok none, 0⟩, .ok (some info), ⟨.ok none, 0⟩, 0, ⟨.ok none, 0⟩⟩

theorem getLocationInfoForRemote_uncached (info : CachedLocationInfo) (maxAge : UInt64) :
    getLocationInfoForRemote (.uncached info) maxAge = .ok (some info) := rfl

/-! ## The handlers -/

structure NodeContext where
  userInfo : CachedUserInfo
  remotes : RemotesConfig
  views : ViewsConfig
  subscriptions : Remote → SubscriptionAccess
  locations : Remote → LocationAccess

def checkRemotePriv (u : CachedUserInfo) (authId : Authid) (remote : String) : Bool :=
  (u.checkPrivs authId ["resource", remote] privResourceAudit).isOk

def checkAllRemotesAllowed (u : CachedUserInfo) (authId : Authid) : Option String → Except ApiError Bool
  | some view => do
    u.checkPrivs authId ["view", view] privResourceAudit
    return false
  | none => return (u.checkPrivs authId ["resource"] privResourceAudit).isOk

namespace NodeContext

variable (w : NodeContext)

def selectRemotes (view : Option String) (rpcenv : RpcEnvironment) :
    Except ApiError (Option View × List (String × Remote)) := do
  let authId ← rpcenv.getAuthId
  let allowAll ← checkAllRemotesAllowed w.userInfo authId view
  let view ← getOptionalView w.views view
  return (view, w.remotes.entries.filter fun (name, _) => match view with
    | some view => !view.canSkipRemote name
    | none => allowAll || checkRemotePriv w.userInfo authId name)

def subscriptionsOf (maxAge : UInt64) (verbose : Bool) (view : Option View) (remoteName : String) (remote : Remote) :
    Option RemoteSubscriptions :=
  match getSubscriptionInfoForRemote (w.subscriptions remote) maxAge with
  | .ok nodeStatus =>
    let nodeStatus := nodeStatus.retain fun node _ => view.all (·.isNodeIncluded remote.id node)
    if nodeStatus.entries.isEmpty then none
    else some
      { remote := remoteName
        error := none
        nodeStatus := if verbose then some nodeStatus else none
        state := mapNodeSubscriptionListToState nodeStatus }
  | .error error =>
    if view.any (!·.isRemoteExplicitlyIncluded remote.id) then none
    else some { remote := remoteName, error := some error, nodeStatus := none, state := .unknown }

def getSubscriptionStatus (maxAge : UInt64) (verbose : Bool) (view : Option String) (rpcenv : RpcEnvironment) :
    Except ApiError (List RemoteSubscriptions) := do
  let (view, remotes) ← w.selectRemotes view rpcenv
  return remotes.filterMap fun (name, remote) => w.subscriptionsOf maxAge verbose view name remote

def locationOf (maxAge : UInt64) (remoteName : String) (remote : Remote) : Option (String × CachedLocationInfo) :=
  match getLocationInfoForRemote (w.locations remote) maxAge with
  | .ok (some info) => some (remoteName, info)
  | .ok none => none
  | .error _ => none

def getLocationInfo (maxAge : UInt64) (view : Option String) (rpcenv : RpcEnvironment) :
    Except ApiError (List (String × CachedLocationInfo)) := do
  let (_, remotes) ← w.selectRemotes view rpcenv
  return remotes.filterMap fun (name, remote) => w.locationOf maxAge name remote

/-! ## Staying inside a view -/

end NodeContext

def SubscriptionsInView (v : View) (out : List RemoteSubscriptions) : Prop :=
  ∀ s ∈ out, ∀ nodes, s.nodeStatus = some nodes → ∀ e ∈ nodes, v.isNodeIncluded s.remote e.1

def LocationsInView (v : View) (out : List (String × CachedLocationInfo)) : Prop :=
  ∀ p ∈ out, ∀ e ∈ p.2.nodeLocations, v.isNodeIncluded p.1 e.1

namespace NodeContext

variable {w : NodeContext} {auth : Authid} {maxAge : UInt64} {id : String}

theorem selectRemotes_eq_ok {r} : w.selectRemotes (some id) ⟨some (.ok auth)⟩ = .ok r ↔
      w.userInfo.Holds auth ["view", id] privResourceAudit ∧ ∃ config, (id, config) ∈ w.views.toOrderedMap ∧
        r = (some ⟨config⟩, w.remotes.entries.filter fun p => !View.canSkipRemote ⟨config⟩ p.1) := by
  simp only [selectRemotes, RpcEnvironment.getAuthId, checkAllRemotesAllowed, CachedUserInfo.checkPrivs]
  by_cases priv : w.userInfo.Holds auth ["view", id] privResourceAudit
  · cases hview : getOptionalView w.views (some id) with
    | error =>
      have hnone : ∀ config, (id, config) ∉ w.views.toOrderedMap := fun config hmem => by
        have := getOptionalView_some.mpr ⟨config, hmem, rfl⟩
        rw [hview] at this
        cases this
      simp [priv, hnone, bind, Except.bind, pure, Except.pure]
    | ok =>
      obtain ⟨config, hmem, rfl⟩ := getOptionalView_some.mp hview
      simp only [priv, if_true, bind, Except.bind, pure, Except.pure, Except.ok.injEq, true_and]
      constructor
      · rintro rfl
        exact ⟨config, hmem, rfl⟩
      · rintro ⟨config', hmem', rfl⟩
        rw [value_unique hmem hmem']
  · simp [priv, bind, Except.bind]

variable {verbose : Bool} {v : View} {name : String} {remote : Remote} {q : String × CachedLocationInfo}

theorem isNodeIncluded_of_subscriptionsOf {s nodes e}
    (h : w.subscriptionsOf maxAge verbose (some v) name remote = some s) (hid : remote.id = name)
    (hnodes : s.nodeStatus = some nodes) (he : e ∈ nodes) : v.isNodeIncluded s.remote e.1 := by
  simp only [subscriptionsOf] at h
  split at h
  · split at h
    · cases h
    · cases h
      cases verbose with
      | false => cases hnodes
      | true =>
        cases hnodes
        have := (mem_retain.mp he).2
        simpa [hid] using this
  · split at h
    · cases h
    · cases h
      cases hnodes

theorem getSubscriptionStatus_inView {config out} (hmem : (id, config) ∈ w.views.toOrderedMap)
    (h : w.getSubscriptionStatus maxAge verbose (some id) ⟨some (.ok auth)⟩ = .ok out) :
    SubscriptionsInView ⟨config⟩ out := by
  simp only [getSubscriptionStatus] at h
  cases select : w.selectRemotes (some id) ⟨some (.ok auth)⟩ with
  | error => simp [select, bind, Except.bind] at h
  | ok =>
    obtain ⟨-, config', hmem', rfl⟩ := selectRemotes_eq_ok.mp select
    obtain rfl := value_unique hmem hmem'
    simp only [select, bind, Except.bind, pure, Except.pure, Except.ok.injEq] at h
    subst h
    intro s hs nodes hnodes e he
    obtain ⟨p, hp, hsub⟩ := List.mem_filterMap.mp hs
    exact isNodeIncluded_of_subscriptionsOf hsub (w.remotes.id_eq p (List.mem_filter.mp hp).1) hnodes he

theorem locationOf_eq_some : w.locationOf maxAge name remote = some q ↔
      name = q.1 ∧ getLocationInfoForRemote (w.locations remote) maxAge = .ok (some q.2) := by
  unfold locationOf
  split <;> simp_all [Prod.ext_iff]

theorem getLocationInfo_eq_ok {out} : w.getLocationInfo maxAge (some id) ⟨some (.ok auth)⟩ = .ok out ↔
      w.userInfo.Holds auth ["view", id] privResourceAudit ∧ ∃ config, (id, config) ∈ w.views.toOrderedMap ∧
        out = (w.remotes.entries.filter fun p => !View.canSkipRemote ⟨config⟩ p.1).filterMap fun p =>
          w.locationOf maxAge p.1 p.2 := by
  simp only [getLocationInfo]
  cases select : w.selectRemotes (some id) ⟨some (.ok auth)⟩ with
  | error =>
    simp only [bind, Except.bind, reduceCtorEq, false_iff]
    rintro ⟨priv, config, hmem, -⟩
    have hok := selectRemotes_eq_ok.mpr ⟨priv, config, hmem, rfl⟩
    rw [select] at hok
    cases hok
  | ok =>
    obtain ⟨priv, config, hmem, rfl⟩ := selectRemotes_eq_ok.mp select
    simp only [bind, Except.bind, pure, Except.pure, Except.ok.injEq]
    constructor
    · rintro rfl
      exact ⟨priv, config, hmem, rfl⟩
    · rintro ⟨-, config', hmem', rfl⟩
      rw [value_unique hmem hmem']

theorem mem_locations :
    q ∈ ((w.remotes.entries.filter fun p => !v.canSkipRemote p.1).filterMap fun p => w.locationOf maxAge p.1 p.2) ↔
      ∃ p ∈ w.remotes.toOrderedMap, v.canSkipRemote p.1 = false ∧ p.1 = q.1 ∧
        getLocationInfoForRemote (w.locations p.2) maxAge = .ok (some q.2) := by
  simp [locationOf_eq_some, mem_def, and_assoc]

/-- What both handlers answer to the caller of a view is inside the view. -/
def StaysInView (w : NodeContext) (maxAge : UInt64) (verbose : Bool) (id : String) (auth : Authid) : Prop :=
  ∀ config, (id, config) ∈ w.views.toOrderedMap →
    (∀ out, w.getSubscriptionStatus maxAge verbose (some id) ⟨some (.ok auth)⟩ = .ok out →
      SubscriptionsInView ⟨config⟩ out) ∧
    (∀ out, w.getLocationInfo maxAge (some id) ⟨some (.ok auth)⟩ = .ok out → LocationsInView ⟨config⟩ out)

theorem isNodeIncluded_of_staysInView {config p info e} (h : w.StaysInView maxAge verbose id auth)
    (priv : w.userInfo.Holds auth ["view", id] privResourceAudit) (hmem : (id, config) ∈ w.views.toOrderedMap)
    (hp : p ∈ w.remotes.toOrderedMap) (hskip : View.canSkipRemote ⟨config⟩ p.1 = false)
    (hinfo : getLocationInfoForRemote (w.locations p.2) maxAge = .ok (some info)) (he : e ∈ info.nodeLocations) :
    View.isNodeIncluded ⟨config⟩ p.1 e.1 := by
  have hout := (h config hmem).2 _ (getLocationInfo_eq_ok.mpr ⟨priv, config, hmem, rfl⟩)
  exact hout (p.1, info) (mem_locations.mpr ⟨p, hp, hskip, rfl, hinfo⟩) e he

/-- **Whatever the remotes answer and the caches hold, both handlers stay inside the view, exactly if the rules of the
view admit all nodes of each remote that it does not skip.** -/
theorem nodeInfo_inView_iff (w : NodeContext) (maxAge : UInt64) (verbose : Bool) (id : String) (auth : Authid) :
    (∀ subscriptions locations, { w with subscriptions, locations }.StaysInView maxAge verbose id auth) ↔
      (w.userInfo.Holds auth ["view", id] privResourceAudit → ∀ config, (id, config) ∈ w.views.toOrderedMap →
        ∀ p ∈ w.remotes.toOrderedMap, View.canSkipRemote ⟨config⟩ p.1 = false → View.AdmitsAllNodes ⟨config⟩ p.1) := by
  constructor
  · intro h priv config hmem p hp hskip
    refine View.admitsAllNodes_iff.mpr fun node => ?_
    let info : CachedLocationInfo := ⟨⟨[(node, ⟨none, 0, 0⟩)], List.nodup_singleton _⟩⟩
    have hnode : (node, ⟨none, 0, 0⟩) ∈ info.nodeLocations := List.mem_singleton.mpr rfl
    have hincl := isNodeIncluded_of_staysInView (h w.subscriptions fun _ => .uncached info) priv hmem hp hskip
      (getLocationInfoForRemote_uncached info maxAge) hnode
    exact hincl
  · intro h subscriptions locations config hmem
    refine ⟨fun out hout => getSubscriptionStatus_inView hmem hout, fun out hout => ?_⟩
    obtain ⟨priv, config', hmem', rfl⟩ := getLocationInfo_eq_ok.mp hout
    obtain rfl := value_unique hmem hmem'
    intro q hq e he
    obtain ⟨p, hp, hskip, hname, -⟩ := mem_locations.mp hq
    rw [← hname]
    exact View.admitsAllNodes_iff.mp (h priv config hmem p hp hskip) e.1

def locationLeakContext : NodeContext where
  userInfo :=
    { lookupPrivs := fun auth path => if auth = "joe@pve" ∧ path = ["view", "v"] then privResourceAudit else 0
      anyPrivsBelow := fun _ _ _ => .ok false }
  remotes := { entries := [("alpha", ⟨.pve, "alpha"⟩)], keys_nodup := by decide, id_eq := by decide }
  views :=
    { entries := [("v", ⟨"v", none, [.resourceId (.exact "remote/alpha/node/n1")], []⟩)]
      keys_nodup := by decide
      id_eq := by decide }
  subscriptions := fun _ => ⟨⟨.ok none, 0⟩, .error "unreachable", 0, ⟨.ok none, 0⟩⟩
  locations := fun _ => .uncached ⟨⟨[("n1", ⟨none, 0, 0⟩), ("n2", ⟨none, 1, 1⟩)], by decide⟩⟩

/-- The caller of a view is told about a node that it does not admit. -/
theorem getLocationInfo_leaks_node : ¬ locationLeakContext.StaysInView 60 true "v" "joe@pve" := by
  intro h
  have hmem : ("v", ⟨"v", none, [.resourceId (.exact "remote/alpha/node/n1")], []⟩) ∈
      locationLeakContext.views.toOrderedMap :=
    List.mem_singleton.mpr rfl
  have hout : locationLeakContext.getLocationInfo 60 (some "v") ⟨some (.ok "joe@pve")⟩ =
      .ok [("alpha", ⟨⟨[("n1", ⟨none, 0, 0⟩), ("n2", ⟨none, 1, 1⟩)], by decide⟩⟩)] := rfl
  have hn2 := (h _ hmem).2 _ hout _ (List.mem_singleton.mpr rfl) ("n2", ⟨none, 1, 1⟩)
    (List.mem_cons_of_mem _ (List.mem_singleton.mpr rfl))
  exact absurd hn2 (by decide)

end NodeContext

end Nexus
