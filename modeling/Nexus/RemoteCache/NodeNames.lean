import Nexus.Lib.ReverseIndex
import Nexus.Lib.Run
import Nexus.RemoteCache

/-!
# The names of nodes

A host that gets another name or is removed takes its old one out of `node_to_host`, even if another host has the name
by then. `complete_run_iff`: the runs that keep a host for every known name are those in which nothing is taken out that
is still in use. Two hosts that exchange their names are not among them (`lost_name_of_exchanged_hosts`).
-/

namespace Nexus.RemoteCache

open Lib Lib.OrderedMap
open Connection (ConnectionState)

open RemoteMappingCache RemoteMapping

/-! ## Names of one remote -/

namespace RemoteMapping

def nodeNameOf (m : RemoteMapping) (hostname : String) : Option String := (m.hosts.get? hostname).bind (·.nodeName)

def names (m : RemoteMapping) : ReverseIndex String String := ⟨m.nodeNameOf, m.nodeToHost.get?⟩

def Complete (m : RemoteMapping) : Prop :=
  ∀ hostname name, m.nodeNameOf hostname = some name →
    ∃ host, m.nodeToHost.get? name = some host ∧ m.nodeNameOf host = some name

variable {m : RemoteMapping} {hostname : String} {nodeName : Option String} {remote : RemoteNodes}

theorem complete_iff_names : m.Complete ↔ m.names.Complete := Iff.rfl

theorem setNodeName_of_none (h : m.hosts.get? hostname = none) : m.setNodeName hostname nodeName = m := by
  simp [setNodeName, h]

theorem names_setNodeName {info} (h : m.hosts.get? hostname = some info) :
    (m.setNodeName hostname nodeName).names = m.names.assign hostname nodeName := by
  have hold : m.nodeNameOf hostname = info.nodeName := by simp [nodeNameOf, h]
  refine ReverseIndex.ext (funext fun host => ?_) (funext fun name => ?_)
  · change ((m.setNodeName hostname nodeName).hosts.get? host).bind _ = _
    by_cases hhost : host = hostname
    · subst hhost
      simp [setNodeName, h, ReverseIndex.assign, get?_insert]
    · simp [setNodeName, h, ReverseIndex.assign, get?_insert, hhost, names, nodeNameOf]
  · change (m.setNodeName hostname nodeName).nodeToHost.get? name = if nodeName = some name then some hostname
      else if m.nodeNameOf hostname = some name then none else m.nodeToHost.get? name
    rw [hold]
    simp only [setNodeName, h]
    cases hnew : nodeName <;> cases hname : info.nodeName <;>
      simp [get?_insert, get?_remove, eq_comm]

def MayRename (m : RemoteMapping) (hostname : String) (nodeName : Option String) : Prop :=
  ∀ old, m.nodeNameOf hostname = some old → nodeName ≠ some old →
    ∀ other, other ≠ hostname → m.nodeNameOf other ≠ some old

theorem complete_setNodeName_iff (hm : m.Complete) :
    (m.setNodeName hostname nodeName).Complete ↔ m.MayRename hostname nodeName := by
  cases h : m.hosts.get? hostname with
  | none =>
    rw [setNodeName_of_none h]
    refine iff_of_true hm fun old hold => ?_
    simp [nodeNameOf, h] at hold
  | some =>
    rw [complete_iff_names, names_setNodeName h]
    exact ReverseIndex.complete_assign_iff (complete_iff_names.mp hm) hostname nodeName

def MayPrune (m : RemoteMapping) (nodes : List String) : Prop :=
  ∀ gone kept name, gone ∉ nodes → kept ∈ nodes → m.nodeNameOf gone = some name → m.nodeNameOf kept ≠ some name

theorem get?_foldl_insertNew_hosts (nodes : List String) (hosts : OrderedMap String HostInfo) (host : String) :
    ((nodes.foldl (fun hosts hostname => hosts.insertNew hostname (.new hostname)) hosts).get? host).bind
      HostInfo.nodeName = (hosts.get? host).bind HostInfo.nodeName := by
  have hfold := get?_foldl_insertNew (fun hostname => hostname) HostInfo.new host nodes hosts
  rw [hfold]
  cases hosts.get? host with
  | some => rfl
  | none => cases nodes.find? fun hostname => hostname = host <;> rfl

theorem keeps_pruneRemoteNodes (hty : m.ty = remote.ty) :
    ReverseIndex.Keeps m.names (pruneRemoteNodes remote (some m)).names (· ∈ remote.nodes) := by
  have hent : (if m.ty ≠ remote.ty then RemoteMapping.new remote.ty else m) = m := if_neg (not_not.mpr hty)
  have hname : ∀ host, (pruneRemoteNodes remote (some m)).nodeNameOf host =
      if host ∈ remote.nodes then m.nodeNameOf host else none := by
    intro host
    simp only [nodeNameOf, pruneRemoteNodes, Option.getD_some, hent]
    rw [get?_foldl_insertNew_hosts, get?_retain_key _ fun hostname => decide (hostname ∈ remote.nodes)]
    by_cases hhost : host ∈ remote.nodes <;> simp [hhost]
  set gone := (m.hosts.entries.filter fun p => p.1 ∉ remote.nodes).filterMap (·.2.nodeName) with hgone
  have hfind : ∀ name, (pruneRemoteNodes remote (some m)).nodeToHost.get? name =
      if name ∈ gone then none else m.nodeToHost.get? name := by
    intro name
    simp only [pruneRemoteNodes, Option.getD_some, hent]
    exact get?_foldl_remove ..
  have hmem : ∀ name, name ∈ gone ↔ ∃ host, host ∉ remote.nodes ∧ m.nodeNameOf host = some name := by
    intro name
    simp only [hgone, List.mem_filterMap, List.mem_filter, decide_eq_true_eq, nodeNameOf, Option.bind_eq_some_iff,
      get?_eq_some, mem_def]
    constructor
    · rintro ⟨p, ⟨hp, hnot⟩, hinfo⟩
      exact ⟨p.1, hnot, p.2, hp, hinfo⟩
    · rintro ⟨host, hnot, info, hp, hinfo⟩
      exact ⟨(host, info), ⟨hp, hnot⟩, hinfo⟩
  constructor
  · exact fun host hhost => (hname host).trans (if_pos hhost)
  · exact fun host hhost => (hname host).trans (if_neg hhost)
  · exact fun host name hhost hb => (hfind name).trans (if_pos ((hmem name).mpr ⟨host, hhost, hb⟩))
  · intro name hfree
    refine (hfind name).trans (if_neg fun hin => ?_)
    obtain ⟨host, hhost, hb⟩ := (hmem name).mp hin
    exact hfree host hhost hb

theorem complete_pruneRemoteNodes_of_ne (hty : m.ty ≠ remote.ty) : (pruneRemoteNodes remote (some m)).Complete := by
  intro host name h
  simp only [nodeNameOf, pruneRemoteNodes, Option.getD_some, if_pos hty] at h
  rw [get?_foldl_insertNew_hosts] at h
  cases h

theorem complete_pruneRemoteNodes_none : (pruneRemoteNodes remote none).Complete := by
  intro host name h
  simp only [nodeNameOf, pruneRemoteNodes, Option.getD_none, ite_self] at h
  rw [get?_foldl_insertNew_hosts] at h
  cases h

theorem complete_pruneRemoteNodes_iff (hm : m.Complete) :
    (pruneRemoteNodes remote (some m)).Complete ↔ (m.ty = remote.ty → m.MayPrune remote.nodes) := by
  by_cases hty : m.ty = remote.ty
  · rw [complete_iff_names, (keeps_pruneRemoteNodes hty).complete_iff (complete_iff_names.mp hm)]
    exact ⟨fun h _ => h, fun h => h hty⟩
  · exact iff_of_true (complete_pruneRemoteNodes_of_ne hty) fun h => absurd h hty

end RemoteMapping

/-! ## Names of all remotes -/

namespace RemoteMappingCache

def Complete (cache : RemoteMappingCache) : Prop :=
  ∀ remote m, cache.remotes.get? remote = some m → m.Complete

variable {cache cache' : RemoteMappingCache}

def names (cache : RemoteMappingCache) (remote : String) : Option (ReverseIndex String String) :=
  (cache.remotes.get? remote).map RemoteMapping.names

theorem complete_iff_names : cache.Complete ↔ ∀ remote x, cache.names remote = some x → x.Complete := by
  constructor
  · intro h remote x hx
    obtain ⟨m, hm, rfl⟩ := Option.map_eq_some_iff.mp hx
    exact h remote m hm
  · intro h remote m hm
    exact h remote m.names (by simp [names, hm])

theorem complete_congr (h : cache'.names = cache.names) : cache'.Complete ↔ cache.Complete := by
  rw [complete_iff_names, complete_iff_names, h]

theorem names_mapValues {f} (canary)
    (hf : ∀ remote m, (f remote m).names = m.names) : names ⟨cache.remotes.mapValues f, canary⟩ = cache.names := by
  funext remote
  rw [names, names, get?_mapValues]
  cases cache.remotes.get? remote with
  | none => rfl
  | some m => exact congrArg some (hf remote m)

theorem names_mapHosts (m : RemoteMapping) {f} (hf : ∀ host info, (f host info).nodeName = info.nodeName) :
    RemoteMapping.names { m with hosts := m.hosts.mapValues f } = m.names := by
  refine ReverseIndex.ext (funext fun host => ?_) rfl
  change ((m.hosts.mapValues f).get? host).bind _ = (m.hosts.get? host).bind _
  rw [get?_mapValues]
  cases m.hosts.get? host with
  | none => rfl
  | some info => exact hf host info

theorem nodeName_setReachable (time : Int) (info : HostInfo) (state : ConnectionState) :
    (info.setReachable time state).nodeName = info.nodeName := by
  cases state with
  | reachable => rfl
  | unreachable => cases h : info.backOff <;> simp [HostInfo.setReachable, h]

theorem names_setOrResetCanary (remote : String) (unreachable : Bool) :
    (cache.setOrResetCanary remote unreachable).names = cache.names := by
  rcases cache.remotes_setOrResetCanary remote unreachable with h | h
  · funext r
    simp only [names, h]
  · rw [h]
    exact names_mapValues _ fun _ m => names_mapHosts m fun _ info => nodeName_setReachable 0 info .reachable

theorem names_markHostReachable (remote hostname : String) (state : ConnectionState) (time : Int) :
    (cache.markHostReachable remote hostname state time).names = cache.names := by
  unfold markHostReachable
  split
  · rfl
  · rw [names_setOrResetCanary]
    refine names_mapValues _ fun r m => ?_
    split
    · refine names_mapHosts m fun host info => ?_
      split
      · exact nodeName_setReachable time info state
      · rfl
    · rfl

theorem get?_configUpdate (config) (r) : (configUpdate config cache).remotes.get? r =
      (config.get? r).map fun nodes => pruneRemoteNodes nodes (cache.remotes.get? r) := by
  have hfold := get?_foldl_change pruneRemoteNodes r config.keys_nodup
    (cache.remotes.retain fun name _ => (config.get? name).isSome)
  refine hfold.trans ?_
  rw [get?_retain_key cache.remotes fun name => (config.get? name).isSome]
  change ((config.get? r).map _).or _ = _
  cases config.get? r <;> simp

end RemoteMappingCache

/-! ## Runs -/

namespace Tracked

/-- No host loses the name that another one has too. -/
def Careful (cache : RemoteMappingCache) : Action → Prop
  | .configUpdate config => ∀ remote nodes m, config.get? remote = some nodes → cache.remotes.get? remote = some m →
      m.ty = nodes.ty → m.MayPrune nodes.nodes
  | .setNodeName remote hostname nodeName => ∀ m, cache.remotes.get? remote = some m → m.MayRename hostname nodeName
  | .markHost _ _ _ _ => True
  | .markNode _ _ _ _ => True

theorem complete_step_iff (s : Tracked) (a : Action) (hs : s.cache.Complete) :
    (s.step a).cache.Complete ↔ Careful s.cache a := by
  cases a with
  | configUpdate =>
    simp only [step, RemoteMappingCache.Complete, get?_configUpdate]
    constructor
    · intro h remote nodes m hnodes hm hty
      exact (complete_pruneRemoteNodes_iff (hs remote m hm)).mp
        (h remote _ (by rw [hnodes, hm]; rfl)) hty
    · intro h remote m' hm'
      obtain ⟨nodes, hnodes, rfl⟩ := Option.map_eq_some_iff.mp hm'
      cases hm : s.cache.remotes.get? remote with
      | none => exact complete_pruneRemoteNodes_none
      | some m => exact (complete_pruneRemoteNodes_iff (hs remote m hm)).mpr (h remote nodes m hnodes hm)
  | setNodeName remote =>
    simp only [step, RemoteMappingCache.Complete, RemoteMappingCache.setNodeName, get?_mapValues]
    constructor
    · intro h m hm
      exact (complete_setNodeName_iff (hs remote m hm)).mp (h remote _ (by rw [hm]; simp))
    · intro h r m' hm'
      obtain ⟨m, hm, rfl⟩ := Option.map_eq_some_iff.mp hm'
      split
      · next hr =>
        subst hr
        exact (complete_setNodeName_iff (hs r m hm)).mpr (h m hm)
      · exact hs r m hm
  | markHost =>
    refine iff_of_true ?_ trivial
    exact (complete_congr (names_markHostReachable ..)).mpr hs
  | markNode =>
    refine iff_of_true ?_ trivial
    simp only [step, RemoteMappingCache.markNodeReachable]
    split
    · exact hs
    · exact (complete_congr (names_markHostReachable ..)).mpr hs

/-- **Every mapping that a run reaches has a host for each known node name exactly if no step takes a name out that
another host has.** -/
theorem complete_run_iff (actions : List Action) : (∀ before, before <+: actions → (run before).cache.Complete) ↔
      ∀ before a, before ++ [a] <+: actions → Careful (run before).cache a := by
  have hinit : init.cache.Complete := fun _ _ h => by cases h
  exact always_iff complete_step_iff hinit actions

def twoHosts : OrderedMap String RemoteNodes := ⟨[("pve", ⟨.pve, ["a", "b"]⟩)], List.nodup_singleton "pve"⟩

/-- The name of the first host is lost. -/
theorem lost_name_of_exchanged_hosts :
    let final := run [.configUpdate twoHosts, .setNodeName "pve" "a" (some "n1"), .setNodeName "pve" "b" (some "n2"),
      .setNodeName "pve" "a" (some "n2"), .setNodeName "pve" "b" (some "n1")]
    ((final.cache.infoByHostname "pve" "a").bind HostInfo.nodeName) = some "n2" ∧
      final.cache.nodeNameToHostname "pve" "n2" = none ∧ ¬ final.cache.Complete := by
  intro final
  have hname : ((final.cache.infoByHostname "pve" "a").bind HostInfo.nodeName) = some "n2" := by decide
  have hlost : final.cache.nodeNameToHostname "pve" "n2" = none := by decide
  refine ⟨hname, hlost, fun hcomp => ?_⟩
  obtain ⟨info, hinfo, hnode⟩ := Option.bind_eq_some_iff.mp hname
  obtain ⟨m, hm, hhost⟩ := Option.bind_eq_some_iff.mp hinfo
  obtain ⟨host, hfind, -⟩ := hcomp "pve" m hm "a" "n2" (Option.bind_eq_some_iff.mpr ⟨info, hhost, hnode⟩)
  rw [RemoteMappingCache.nodeNameToHostname, hm, Option.bind_some, hfind] at hlost
  cases hlost

end Tracked

end Nexus.RemoteCache
