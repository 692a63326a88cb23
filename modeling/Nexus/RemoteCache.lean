import Mathlib.Algebra.Group.Int.Defs
import Mathlib.Algebra.Group.Nat.Defs
import Nexus.Connection.Request
import Nexus.Resource

/-!
# The cache of reachable hosts

`RemoteMappingCache` of `server/src/remote_cache/mod.rs`, and the task in `remote_node_mapping.rs`. A host that fails
for long is left alone for a while, and so is a remote all of whose hosts are. When all remotes have failed, one becomes
the canary, to which this does not apply (`exists_open_markHostReachable`, `Tracked.no_lock_out`).
-/

namespace Nexus.RemoteCache

open Lib Lib.OrderedMap
open Connection (ConnectionState)

/-! ## Back-off times -/

def backOffBaseTimeS : Int := 10

def backOffMaxTimeS : Int := 3 * 60

def backOffMinTimeS : Int := 10 * 60

def saturatingSub (a b : Int) : Int := max (-2 ^ 63) (min (a - b) (2 ^ 63 - 1))

structure BackOffState where
  backOffDoublingCount : Nat
  lastError : String
  (firstFailTime nextTry : Int)
  deriving DecidableEq

namespace BackOffState

def new (time : Int) (error : String) : BackOffState := ⟨0, error, time, time⟩

def timeToNextTry (s : BackOffState) (currentTime : Int) : Nat := (max (saturatingSub s.nextTry currentTime) 0).toNat

def retried (s : BackOffState) (time : Int) (error : String) : BackOffState :=
  let s := { s with lastError := error }
  if 0 < s.timeToNextTry time then s
  else if s.backOffDoublingCount = 0 ∧ time - s.firstFailTime < backOffMinTimeS then s
  else
    let backOffTime := min (backOffBaseTimeS * 2 ^ s.backOffDoublingCount) backOffMaxTimeS
    { s with
      backOffDoublingCount :=
        if backOffTime < backOffMaxTimeS then s.backOffDoublingCount + 1 else s.backOffDoublingCount
      nextTry := time + backOffTime }

theorem timeToNextTry_anti (s : BackOffState) {now later} (h : now ≤ later) :
    s.timeToNextTry later ≤ s.timeToNextTry now := by
  unfold timeToNextTry saturatingSub
  omega

end BackOffState

/-! ## The cache -/

structure HostInfo where
  hostname : String
  nodeName : Option String
  backOff : Option BackOffState

namespace HostInfo

def new (hostname : String) : HostInfo := ⟨hostname, none, none⟩

def setReachable (time : Int) (info : HostInfo) : ConnectionState → HostInfo
  | .reachable => { info with backOff := none }
  | .unreachable err =>
    match info.backOff with
    | some backOff => { info with backOff := some (backOff.retried time err) }
    | none => { info with backOff := some (.new time err) }

def isReachable (info : HostInfo) : Bool := info.backOff.isNone

end HostInfo

structure RemoteMapping where
  ty : RemoteType
  hosts : OrderedMap String HostInfo
  nodeToHost : OrderedMap String String

namespace RemoteMapping

def new (ty : RemoteType) : RemoteMapping := ⟨ty, OrderedMap.empty, OrderedMap.empty⟩

def setNodeName (m : RemoteMapping) (hostname : String) (nodeName : Option String) : RemoteMapping :=
  match m.hosts.get? hostname with
  | none => m
  | some info =>
    let nodeToHost := match info.nodeName with
      | some old => m.nodeToHost.remove old
      | none => m.nodeToHost
    { m with
      hosts := m.hosts.insert hostname { info with nodeName := nodeName }
      nodeToHost := match nodeName with
        | some new => nodeToHost.insert new hostname
        | none => nodeToHost }

def isReachable (m : RemoteMapping) : Bool :=
  m.hosts.entries.isEmpty || m.hosts.entries.any (·.2.isReachable)

def resetBackOff (m : RemoteMapping) : RemoteMapping :=
  { m with hosts := m.hosts.mapValues fun _ info => info.setReachable 0 .reachable }

end RemoteMapping

structure RemoteMappingCache where
  remotes : OrderedMap String RemoteMapping
  canaryRemote : Option String

namespace RemoteMappingCache

def empty : RemoteMappingCache := ⟨OrderedMap.empty, none⟩

variable (cache : RemoteMappingCache) (remoteName : String) (hostname : String)

def infoByHostname (remote hostname : String) : Option HostInfo :=
  (cache.remotes.get? remote).bind fun m => m.hosts.get? hostname

def nodeNameToHostname (remote nodeName : String) : Option String :=
  (cache.remotes.get? remote).bind fun m => m.nodeToHost.get? nodeName

def updateInfo (remote hostname : String) (f : HostInfo → HostInfo) : RemoteMappingCache :=
  { cache with remotes := cache.remotes.mapValues fun r m =>
      if r = remote then { m with hosts := m.hosts.mapValues fun h info => if h = hostname then f info else info }
      else m }

def resetAllBackOffStates (cache : RemoteMappingCache) : RemoteMappingCache :=
  ⟨cache.remotes.mapValues fun _ m => m.resetBackOff, none⟩

def allUnreachable (cache : RemoteMappingCache) : Bool := cache.remotes.entries.all (!·.2.isReachable)

def canaryIsNeeded (cache : RemoteMappingCache) : Bool × RemoteMappingCache :=
  match cache.canaryRemote with
  | some canary =>
    if (cache.remotes.get? canary).isSome then (false, cache)
    else (cache.allUnreachable, { cache with canaryRemote := none })
  | none => (cache.allUnreachable, cache)

def setOrResetCanary (unreachable : Bool) : RemoteMappingCache :=
  if unreachable then
    let (needed, cache) := cache.canaryIsNeeded
    if needed then { cache with canaryRemote := some remoteName } else cache
  else if cache.canaryRemote.isSome then cache.resetAllBackOffStates
  else cache

def markHostReachable (state : ConnectionState) (time : Int) : RemoteMappingCache :=
  match cache.infoByHostname remoteName hostname with
  | none => cache
  | some _ =>
    (cache.updateInfo remoteName hostname fun info => info.setReachable time state).setOrResetCanary remoteName
      (state ≠ .reachable)

def markNodeReachable (remoteName nodeName : String) (state : ConnectionState) (time : Int) : RemoteMappingCache :=
  match cache.nodeNameToHostname remoteName nodeName with
  | none => cache
  | some hostname => cache.markHostReachable remoteName hostname state time

def setNodeName (nodeName : Option String) : RemoteMappingCache :=
  { cache with remotes := cache.remotes.mapValues fun r m =>
      if r = remoteName then m.setNodeName hostname nodeName else m }

def hostIsReachable (remote hostname : String) : Bool :=
  (cache.infoByHostname remote hostname).all (·.isReachable)

def hostTimeToNextTry (remote hostname : String) (currentTime : Int) : Option (Nat × String) :=
  if cache.canaryRemote = some remote then none
  else ((cache.infoByHostname remote hostname).bind (·.backOff)).map fun backOff =>
    (backOff.timeToNextTry currentTime, backOff.lastError)

def leastTime (currentTime : Int) : List HostInfo → Nat × String → Option (Nat × String)
  | [], best => if best.1 = 2 ^ 64 - 1 then none else some best
  | info :: infos, best =>
    match info.backOff with
    | none => none
    | some backOff =>
      let nodeTime := backOff.timeToNextTry currentTime
      leastTime currentTime infos (if nodeTime < best.1 then (nodeTime, backOff.lastError) else best)

def remoteTimeToNextTry (remote : String) (currentTime : Int) : Option (Nat × String) :=
  if cache.canaryRemote = some remote then none
  else match cache.remotes.get? remote with
    | some m => leastTime currentTime (m.hosts.entries.map Prod.snd) (2 ^ 64 - 1, "")
    | none => none

end RemoteMappingCache

/-! ## Updates of the configuration -/

structure RemoteNodes where
  ty : RemoteType
  nodes : List String

def pruneRemoteNodes (remote : RemoteNodes) (entry : Option RemoteMapping) : RemoteMapping :=
  let entry := entry.getD (.new remote.ty)
  let entry := if entry.ty ≠ remote.ty then .new remote.ty else entry
  let gone := (entry.hosts.entries.filter fun p => p.1 ∉ remote.nodes).filterMap (·.2.nodeName)
  let hosts := entry.hosts.retain fun hostname _ => hostname ∈ remote.nodes
  { entry with
    hosts := remote.nodes.foldl (fun hosts hostname => hosts.insertNew hostname (.new hostname)) hosts
    nodeToHost := gone.foldl OrderedMap.remove entry.nodeToHost }

def configUpdate (config : OrderedMap String RemoteNodes) (cache : RemoteMappingCache) : RemoteMappingCache :=
  let remotes := cache.remotes.retain fun name _ => (config.get? name).isSome
  { cache with remotes := config.entries.foldl (fun remotes p =>
      remotes.insert p.1 (pruneRemoteNodes p.2 (remotes.get? p.1))) remotes }

/-! ## A remote that may be contacted -/

namespace RemoteMappingCache

def Open (cache : RemoteMappingCache) (remote : String) : Prop :=
  (cache.remotes.get? remote).isSome ∧ ∀ now, cache.remoteTimeToNextTry remote now = none

variable {cache : RemoteMappingCache} {remote hostname : String} {m : RemoteMapping} {info : HostInfo}

theorem leastTime_of_reachable {now} : ∀ {infos} {best},
    infos.any HostInfo.isReachable → leastTime now infos best = none
  | [], _, h => by cases h
  | info :: infos, best, h => by
    unfold leastTime
    cases hb : info.backOff with
    | none => rfl
    | some =>
      simp only [List.any_cons, HostInfo.isReachable, hb, Option.isNone_some, Bool.false_or] at h
      exact leastTime_of_reachable h

theorem open_of_reachable (hm : cache.remotes.get? remote = some m) (hr : m.isReachable) : cache.Open remote := by
  refine ⟨by simp [hm], fun now => ?_⟩
  unfold remoteTimeToNextTry
  split
  · rfl
  · simp only [hm]
    rcases Bool.or_eq_true_iff.mp hr with empty | hany
    · simp [List.isEmpty_iff.mp empty, leastTime]
    · exact leastTime_of_reachable (by simpa [List.any_map, Function.comp_def] using hany)

theorem open_of_canary (hc : cache.canaryRemote = some remote) (hm : (cache.remotes.get? remote).isSome) :
    cache.Open remote :=
  ⟨hm, fun now => by simp [remoteTimeToNextTry, hc]⟩

theorem exists_open_of_not_allUnreachable (h : cache.allUnreachable = false) : ∃ remote, cache.Open remote := by
  obtain ⟨p, hp, hr⟩ := List.all_eq_false.mp h
  exact ⟨p.1, open_of_reachable (get?_eq_some.mpr hp) (by simpa using hr)⟩

theorem isReachable_resetBackOff (m : RemoteMapping) : m.resetBackOff.isReachable := by
  obtain ⟨ty, ⟨entries, hk⟩, nodes⟩ := m
  cases entries <;> simp [RemoteMapping.isReachable, RemoteMapping.resetBackOff, OrderedMap.mapValues,
    HostInfo.setReachable, HostInfo.isReachable]

theorem canaryIsNeeded_cases (cache : RemoteMappingCache) :
    (∃ canary, cache.canaryRemote = some canary ∧ (cache.remotes.get? canary).isSome ∧
      cache.canaryIsNeeded = (false, cache)) ∨
    ∃ c, cache.canaryIsNeeded = (cache.allUnreachable, c) ∧ c.remotes = cache.remotes := by
  unfold canaryIsNeeded
  split
  · next canary hc =>
    split
    · next hk => exact .inl ⟨canary, hc, hk, rfl⟩
    · exact .inr ⟨_, rfl, rfl⟩
  · exact .inr ⟨cache, rfl, rfl⟩

theorem remotes_setOrResetCanary (cache : RemoteMappingCache) (remote : String) (unreachable : Bool) :
    (cache.setOrResetCanary remote unreachable).remotes = cache.remotes ∨
      cache.setOrResetCanary remote unreachable = cache.resetAllBackOffStates := by
  unfold setOrResetCanary
  cases unreachable with
  | true =>
    rcases cache.canaryIsNeeded_cases with ⟨_, -, -, hneed⟩ | ⟨c, hneed, hsame⟩ <;> simp only [hneed, if_true]
    · exact .inl rfl
    · split <;> exact .inl hsame
  | false =>
    simp only [Bool.false_eq_true, if_false]
    split
    · exact .inr rfl
    · exact .inl rfl

theorem exists_open_setOrResetCanary {unreachable} (hm : cache.remotes.get? remote = some m)
    (hr : unreachable = false → m.isReachable) : ∃ r, (cache.setOrResetCanary remote unreachable).Open r := by
  unfold setOrResetCanary
  cases unreachable with
  | true =>
    rcases cache.canaryIsNeeded_cases with ⟨canary, hc, hk, hneed⟩ | ⟨c, hneed, hsame⟩
    · simp only [hneed, if_true, Bool.false_eq_true, if_false]
      exact ⟨canary, open_of_canary hc hk⟩
    · simp only [hneed, if_true]
      split
      · exact ⟨remote, open_of_canary rfl (by simp [hsame, hm])⟩
      · next hn =>
        have hall : c.allUnreachable = cache.allUnreachable := by rw [allUnreachable, hsame, allUnreachable]
        exact exists_open_of_not_allUnreachable (hall.trans (by simpa using hn))
  | false =>
    simp only [Bool.false_eq_true, if_false]
    split
    · refine ⟨remote, open_of_reachable (m := m.resetBackOff) ?_ (isReachable_resetBackOff m)⟩
      simp [resetAllBackOffStates, get?_mapValues, hm]
    · exact ⟨remote, open_of_reachable hm (hr rfl)⟩

theorem isReachable_of_host (hhost : m.hosts.get? hostname = some info) (hr : info.isReachable) : m.isReachable :=
  Bool.or_eq_true_iff.mpr (.inr (List.any_eq_true.mpr ⟨(hostname, info), get?_eq_some.mp hhost, hr⟩))

theorem exists_open_markHostReachable (state) (time : Int) (hknown : (cache.infoByHostname remote hostname).isSome) :
    ∃ r, (cache.markHostReachable remote hostname state time).Open r := by
  obtain ⟨info, hinfo⟩ := Option.isSome_iff_exists.mp hknown
  obtain ⟨m, hm, hhost⟩ := Option.bind_eq_some_iff.mp hinfo
  simp only [markHostReachable, hinfo]
  refine exists_open_setOrResetCanary (m :=
    { m with hosts := m.hosts.mapValues fun h i => if h = hostname then i.setReachable time state else i })
    ?_ fun hst => ?_
  · simp [updateInfo, get?_mapValues, hm]
  · have reachable : state = .reachable := by simpa using hst
    have hset : (m.hosts.mapValues fun h i => if h = hostname then i.setReachable time state else i).get? hostname =
        some (info.setReachable time state) := by simp [get?_mapValues, hhost]
    exact isReachable_of_host hset (by rw [reachable]; rfl)

end RemoteMappingCache

/-! ## Runs -/

structure Tracked where
  cache : RemoteMappingCache
  configured : List String

namespace Tracked

inductive Action
  | configUpdate (config : OrderedMap String RemoteNodes)
  | markHost (remote hostname : String) (state : ConnectionState) (time : Int)
  | markNode (remote nodeName : String) (state : ConnectionState) (time : Int)
  | setNodeName (remote hostname : String) (nodeName : Option String)

def init : Tracked := ⟨.empty, []⟩

def step (s : Tracked) : Action → Tracked
  | .configUpdate config => ⟨RemoteCache.configUpdate config s.cache, config.entries.map Prod.fst⟩
  | .markHost remote hostname state time => { s with cache := s.cache.markHostReachable remote hostname state time }
  | .markNode remote nodeName state time => { s with cache := s.cache.markNodeReachable remote nodeName state time }
  | .setNodeName remote hostname nodeName => { s with cache := s.cache.setNodeName remote hostname nodeName }

def run (actions : List Action) : Tracked := actions.foldl step init

/-- The host that is marked is known. -/
def Hits (cache : RemoteMappingCache) : Action → Prop
  | .markHost remote hostname _ _ => (cache.infoByHostname remote hostname).isSome
  | .markNode remote nodeName _ _ => ∃ hostname, cache.nodeNameToHostname remote nodeName = some hostname ∧
      (cache.infoByHostname remote hostname).isSome
  | _ => False

def Known (s : Tracked) : Prop := ∀ remote, (s.cache.remotes.get? remote).isSome → remote ∈ s.configured

variable {s : Tracked} {cache : RemoteMappingCache} {remote hostname : String}

theorem isSome_get?_setOrResetCanary (unreachable : Bool) (r : String) :
    ((cache.setOrResetCanary remote unreachable).remotes.get? r).isSome = (cache.remotes.get? r).isSome := by
  rcases cache.remotes_setOrResetCanary remote unreachable with h | h
  · rw [h]
  · rw [h]
    exact isSome_get?_mapValues ..

theorem isSome_get?_markHostReachable (state) (time : Int) (r) :
    ((cache.markHostReachable remote hostname state time).remotes.get? r).isSome = (cache.remotes.get? r).isSome := by
  unfold RemoteMappingCache.markHostReachable
  split
  · rfl
  · rw [isSome_get?_setOrResetCanary]
    exact isSome_get?_mapValues ..

theorem mem_of_configUpdate {config r}
    (h : ((configUpdate config cache).remotes.get? r).isSome) : r ∈ config.entries.map Prod.fst := by
  obtain ⟨m, hm⟩ := Option.isSome_iff_exists.mp h
  rcases of_get?_foldl_insert config.entries _ hm with ⟨p, hp, hr, -⟩ | ⟨hm, -⟩
  · exact hr ▸ List.mem_map_of_mem hp
  · obtain ⟨-, hkept⟩ := mem_retain.mp (get?_eq_some.mp hm)
    obtain ⟨nodes, hnodes⟩ := Option.isSome_iff_exists.mp hkept
    exact List.mem_map.mpr ⟨(r, nodes), get?_eq_some.mp hnodes, rfl⟩

theorem known_step (h : s.Known) (a) : (s.step a).Known := by
  intro r hr
  cases a with
  | configUpdate => exact mem_of_configUpdate hr
  | markHost _ _ state time => exact h r (isSome_get?_markHostReachable state time r ▸ hr)
  | markNode _ _ state time =>
    refine h r ?_
    simp only [step, RemoteMappingCache.markNodeReachable] at hr
    split at hr
    · exact hr
    · exact isSome_get?_markHostReachable state time r ▸ hr
  | setNodeName =>
    simp only [step, RemoteMappingCache.setNodeName, isSome_get?_mapValues] at hr
    exact h r hr

theorem known_run (actions) : (run actions).Known :=
  List.foldlRecOn actions step (fun r hr => by simp [init, RemoteMappingCache.empty, OrderedMap.empty,
    OrderedMap.get?] at hr)
    fun _ h a _ => known_step h a

/-- **No total lock-out**: after a mark that hits, a configured remote may be contacted at any time. -/
theorem no_lock_out (actions : List Action) (a : Action) (ha : Hits (run actions).cache a) :
    ∃ remote ∈ ((run actions).step a).configured,
      ∀ now, ((run actions).step a).cache.remoteTimeToNextTry remote now = none := by
  have hopen : ∃ r, ((run actions).step a).cache.Open r := by
    cases a with
    | configUpdate config => exact absurd ha id
    | markHost remote hostname state time => exact RemoteMappingCache.exists_open_markHostReachable state time ha
    | markNode remote nodeName state time =>
      obtain ⟨hostname, hnode, hknown⟩ := ha
      simp only [step, RemoteMappingCache.markNodeReachable, hnode]
      exact RemoteMappingCache.exists_open_markHostReachable state time hknown
    | setNodeName remote hostname nodeName => exact absurd ha id
  obtain ⟨r, hr, htime⟩ := hopen
  exact ⟨r, known_step (known_run actions) a r hr, htime⟩

def twoRemotes : OrderedMap String RemoteNodes := ⟨[("pve-a", ⟨.pve, ["a"]⟩), ("pve-b", ⟨.pve, ["b"]⟩)], by decide⟩

theorem no_lock_out_all_failed : ∃ remote ∈ ["pve-a", "pve-b"], ∀ now,
    ((run [.configUpdate twoRemotes, .markHost "pve-a" "a" (.unreachable "timeout") 0,
      .markHost "pve-a" "a" (.unreachable "timeout") 1000]).step
      (.markHost "pve-b" "b" (.unreachable "timeout") 1000)).cache.remoteTimeToNextTry remote now = none :=
  no_lock_out [.configUpdate twoRemotes, .markHost "pve-a" "a" (.unreachable "timeout") 0,
    .markHost "pve-a" "a" (.unreachable "timeout") 1000] (.markHost "pve-b" "b" (.unreachable "timeout") 1000)
    (by unfold Hits; decide)

end Tracked

end Nexus.RemoteCache
