import Nexus.Ceph
import Nexus.ResourceList

/-!
# Access to a Ceph cluster

`check_cluster_access` of `server/src/ceph/registry.rs` next to the resource list. Both go by the remotes behind the
members of a cluster, but the registry asks for privileges anywhere below a remote, and the list for the privileges on
the remote itself. `clusterAccess_shown_iff` says when the first does not open more than the second shows.
-/

namespace Nexus.Ceph

open List Except

def checkClusterAccess (userInfo : CachedUserInfo) (auth : Authid) (config : CephClustersConfig) (clusterId : String)
    (privs : UInt64) : Except ApiError Unit := do
  if (config.clusters.get? clusterId).isNone then
    throw (.http .notFound ("no such ceph cluster " ++ clusterId.quote))
  if !(← clusterAccessible userInfo auth config clusterId privs) then
    throw (.forbidden ("no access to ceph cluster " ++ clusterId.quote))

/-! ## What the registry asks for -/

variable {userInfo : CachedUserInfo} {auth : Authid} {config : CephClustersConfig} {clusterId : String} {privs : UInt64}

theorem checkClusterAccess_eq_ok : checkClusterAccess userInfo auth config clusterId privs = .ok () ↔
    (config.clusters.get? clusterId).isSome ∧
      clusterAccessible userInfo auth config clusterId privs = .ok true := by
  unfold checkClusterAccess
  cases config.clusters.get? clusterId with
  | none => simp [throw, throwThe, MonadExceptOf.throw, bind, Except.bind]
  | some =>
    cases clusterAccessible userInfo auth config clusterId privs with
    | error => simp [bind, Except.bind]
    | ok b => cases b <;> simp [throw, throwThe, MonadExceptOf.throw, bind, Except.bind, pure, Except.pure]

theorem anyAccessible_eq_true : ∀ members, anyAccessible userInfo auth privs members = .ok true ↔
      ∃ before member after, members = before ++ member :: after ∧
        (∀ m ∈ before, memberAccessible userInfo auth m privs = .ok false) ∧
        memberAccessible userInfo auth member privs = .ok true
  | [] => by simp [anyAccessible]
  | m :: members => by
    have ih := anyAccessible_eq_true members
    cases hm : memberAccessible userInfo auth m privs with
    | error =>
      simp only [anyAccessible, hm, bind, Except.bind, reduceCtorEq, false_iff]
      rintro ⟨before, member, after, heq, hbef, hmember⟩
      rcases cons_eq_append_iff.mp heq with ⟨rfl, hcons⟩ | ⟨before', rfl, -⟩
      · cases (List.cons.inj hcons).1
        rw [hm] at hmember
        cases hmember
      · rw [hbef m (mem_cons_self)] at hm
        cases hm
    | ok b =>
      cases b with
      | true =>
        simp only [anyAccessible, hm, bind, Except.bind, pure, Except.pure, if_true, true_iff]
        exact ⟨[], m, members, rfl, fun _ h => absurd h not_mem_nil, hm⟩
      | false =>
        simp only [anyAccessible, hm, bind, Except.bind, Bool.false_eq_true, if_false, ih]
        constructor
        · rintro ⟨before, member, after, rfl, hbef, hmember⟩
          exact ⟨m :: before, member, after, rfl, forall_mem_cons.mpr ⟨hm, hbef⟩, hmember⟩
        · rintro ⟨before, member, after, heq, hbef, hmember⟩
          rcases cons_eq_append_iff.mp heq with ⟨rfl, hcons⟩ | ⟨before', rfl, rfl⟩
          · cases (List.cons.inj hcons).1
            rw [hm] at hmember
            cases hmember
          · exact ⟨before', member, after, rfl, (forall_mem_cons.mp hbef).2, hmember⟩

/-- The privileges that open a cluster, if no lookup before fails. -/
def Opens (userInfo : CachedUserInfo) (auth : Authid) (config : CephClustersConfig) (clusterId : String) : Prop :=
  ∃ before member after remote, config.membersOf clusterId = before ++ member :: after ∧
    (∀ m ∈ before, memberAccessible userInfo auth m privResourceAudit = .ok false) ∧
    Backs clusterId remote member ∧ userInfo.anyPrivsBelow auth ["resource", remote] privResourceAudit = .ok true

theorem mem_membersOf {member} : member ∈ config.membersOf clusterId ↔
    (∃ p ∈ config.members, p.2 = member) ∧ member.cluster = clusterId := by
  simp [CephClustersConfig.membersOf, Lib.OrderedMap.mem_def]

theorem clusterAccessible_eq_true : clusterAccessible userInfo auth config clusterId privResourceAudit = .ok true ↔
      Opens userInfo auth config clusterId := by
  rw [clusterAccessible, anyAccessible_eq_true]
  constructor
  · rintro ⟨before, member, after, heq, hbef, hmember⟩
    obtain ⟨remote, hkind, hrem, priv⟩ := pve_of_memberAccessible hmember
    have hmem : member ∈ config.membersOf clusterId := by simp [heq]
    exact ⟨before, member, after, remote, heq, hbef, ⟨(mem_membersOf.mp hmem).2, hkind, hrem⟩, priv⟩
  · rintro ⟨before, member, after, remote, heq, hbef, ⟨-, hkind, hrem⟩, priv⟩
    exact ⟨before, member, after, heq, hbef, (memberAccessible_of_pve hkind hrem).trans priv⟩

/-! ## What the list shows -/

variable {w : ListContext} {maxAge : UInt64} {remote : String}

def callOf (auth : Authid) : RpcEnvironment := ⟨some (.ok auth)⟩

/-- The caller's resource list has the remote. -/
def Shown (w : ListContext) (maxAge : UInt64) (auth : Authid) (remote : String) : Prop :=
  ∃ out, getResourcesImpl w maxAge none none none (some (callOf auth)) = .ok out ∧ ∃ e ∈ out, e.remoteName = remote

theorem mem_plain_listing (maxAge) :
    (∃ e ∈ w.listing maxAge (searchFilters none) none none (some auth), e.remoteName = remote) ↔
    (∃ r, (remote, r) ∈ w.remotes.toOrderedMap) ∧ w.AuditsRemote auth remote := by
  have empty : (searchFilters none).isEmpty := rfl
  have hkeeps : ∀ e, w.keepsEntry (searchFilters none) e := fun e => by simp [ListContext.keepsEntry, empty]
  have hcons : ∀ name r, w.searchConsiders (searchFilters none) name r := fun name r => by
    simp [ListContext.searchConsiders, ListContext.searchConsidersIf, Search.matches_of_isEmpty empty]
  have audits : ∀ name, w.allowsRemote none (some auth) name ↔ w.AuditsRemote auth name := fun name => by
    rw [ListContext.allowsRemote, bne_iff_ne]
    exact CachedUserInfo.holds_resourceAudit_iff.symm
  simp only [ListContext.listing_eq, restrictToView, mem_filter, mem_map, hkeeps, hcons, and_true,
    Bool.and_true, audits]
  constructor
  · rintro ⟨_, ⟨p, ⟨hp, priv⟩, rfl⟩, rfl⟩
    exact ⟨⟨p.2, hp⟩, priv⟩
  · rintro ⟨⟨r, hr⟩, priv⟩
    exact ⟨_, ⟨(remote, r), ⟨hr, priv⟩, rfl⟩, rfl⟩

theorem shown_iff : Shown w maxAge auth remote ↔
    (∃ r, (remote, r) ∈ w.remotes.toOrderedMap) ∧ w.AuditsRemote auth remote ∧
      w.userInfo.anyPrivsBelow auth ["resource"] privResourceAudit = .ok true := by
  have hview : w.selectView (searchFilters none) none = .ok none := rfl
  have hcall : ∀ opt, w.checkCaller none (some (callOf auth)) = .ok opt ↔
      opt = some auth ∧ w.userInfo.anyPrivsBelow auth ["resource"] privResourceAudit = .ok true := by
    intro opt
    simp only [ListContext.checkCaller, callOf, RpcEnvironment.getAuthId, bind, Except.bind]
    cases w.userInfo.anyPrivsBelow auth ["resource"] privResourceAudit with
    | error => simp
    | ok b => cases b <;> simp [throw, throwThe, MonadExceptOf.throw, pure, Except.pure, eq_comm]
  simp only [Shown, getResourcesImpl_eq_ok, hview, hcall]
  rw [← and_assoc, ← mem_plain_listing maxAge]
  constructor
  · rintro ⟨_, ⟨_, _, ⟨rfl, priv⟩, hnone, rfl⟩, e, he, hname⟩
    cases hnone
    exact ⟨⟨e, he, hname⟩, priv⟩
  · rintro ⟨hlist, priv⟩
    exact ⟨_, ⟨_, _, ⟨rfl, priv⟩, rfl, rfl⟩, hlist⟩

/-- **Access to a cluster goes no further than the list shows its remotes exactly if privileges that open the cluster
come with the privilege to audit one of its remotes itself.** -/
theorem clusterAccess_shown_iff (w : ListContext) (maxAge : UInt64) (auth : Authid) (config : CephClustersConfig)
    (clusterId : String) : (checkClusterAccess w.userInfo auth config clusterId privResourceAudit = .ok () →
      ∃ p ∈ config.members, ∃ remote, Backs clusterId remote p.2 ∧ Shown w maxAge auth remote) ↔
    ((config.clusters.get? clusterId).isSome → Opens w.userInfo auth config clusterId →
      ∃ p ∈ config.members, ∃ remote, Backs clusterId remote p.2 ∧ (∃ r, (remote, r) ∈ w.remotes.toOrderedMap) ∧
        w.AuditsRemote auth remote ∧ w.userInfo.anyPrivsBelow auth ["resource"] privResourceAudit = .ok true) := by
  simp [checkClusterAccess_eq_ok, clusterAccessible_eq_true, shown_iff]

def Sample.auditsFrom (path : List String) : CachedUserInfo where
  lookupPrivs _ p := if path.isPrefixOf p then privResourceAudit else 0
  anyPrivsBelow _ p privs := .ok (privs &&& privResourceAudit != 0 && (path.isPrefixOf p || p.isPrefixOf path))

def Sample.oneRemote : CephClustersConfig :=
  ⟨Lib.OrderedMap.empty.insert "4b4f7f8e" ⟨"4b4f7f8e", some .detected, none, none⟩,
    Lib.OrderedMap.empty.insert (memberId "4b4f7f8e" "node1") (newMember "4b4f7f8e" ("pve-a", "node1"))⟩

def Sample.listOf (userInfo : CachedUserInfo) : ListContext where
  userInfo
  remotes :=
    { entries := [("pve-a", ⟨.pve, "pve-a"⟩)], keys_nodup := nodup_singleton _,
      id_eq := forall_mem_singleton.mpr rfl }
  views := .empty
  txt := { toLowercase := fun s => s, parseBoolean := fun _ => none }
  getResourcesForRemote _ _ := .ok []

/-- Who may audit one guest has access to the cluster, and does not see the remote. -/
theorem guest_privilege_opens_cluster : let w := Sample.listOf (Sample.auditsFrom ["resource", "pve-a", "guest", "100"])
    checkClusterAccess w.userInfo "joe@pve" Sample.oneRemote "4b4f7f8e" privResourceAudit = .ok () ∧
      ¬ ∃ p ∈ Sample.oneRemote.members, ∃ remote, Backs "4b4f7f8e" remote p.2 ∧ Shown w 30 "joe@pve" remote := by
  intro w
  refine ⟨by decide, ?_⟩
  rintro ⟨p, -, remote, -, hshown⟩
  obtain ⟨⟨r, hr⟩, audits, -⟩ := shown_iff.mp hshown
  obtain rfl : remote = "pve-a" := (Prod.mk.inj (mem_singleton.mp hr)).1
  exact absurd audits (by decide)

end Nexus.Ceph
