import Nexus.Ceph

/-!
# Tombstones of the registry

The registry of Ceph clusters changes by the sweep, by the detection on a new remote, and by the cleanup after a remote
was removed. Finding a cluster leaves a forgotten one alone (`isForgotten_upsertAll`), but the cleanup drops every
cluster without rows, and the mark of the operator with it. `staysForgotten_iff` says what keeps the mark: a row that no
removal of a remote drops.
-/

namespace Nexus.Ceph

open Lib Lib.OrderedMap List

/-! ## Detection and cleanup -/

def detectAndUpsert (config : CephClustersConfig) (reports : List (String × ProbeOutcome)) : CephClustersConfig :=
  let found := (probeAll reports).2
  if found.isEmpty then config
  else
    let (changed, updated) := upsertAll found config
    if changed then updated else config

def CephMember.isPveOf (remoteId : String) (m : CephMember) : Bool := m.kind = .pve ∧ m.remote = some remoteId

namespace CephClustersConfig

def dropPveMembersForRemote (config : CephClustersConfig) (remoteId : String) : Bool × CephClustersConfig :=
  let members := config.members.retain fun _ m => !m.isPveOf remoteId
  (members.entries.length != config.members.entries.length, { config with members })

def dropClustersWithoutMembers (config : CephClustersConfig) : List String × CephClustersConfig :=
  let alive := config.members.entries.map (·.2.cluster)
  let dropped := (config.clusters.entries.map Prod.fst).filter (· ∉ alive)
  (dropped, { config with clusters := dropped.foldl OrderedMap.remove config.clusters })

end CephClustersConfig

def onRemoteRemoved (config : CephClustersConfig) (remoteId : String) : CephClustersConfig :=
  let (droppedMembers, updated) := config.dropPveMembersForRemote remoteId
  let (droppedClusters, updated) := updated.dropClustersWithoutMembers
  if droppedMembers || !droppedClusters.isEmpty then updated else config

inductive RegistryAction
  | sweep (reports : List (String × ProbeOutcome)) (now : Int)
  | detectAndUpsert (reports : List (String × ProbeOutcome))
  | onRemoteRemoved (remoteId : String)

def CephClustersConfig.act (config : CephClustersConfig) : RegistryAction → CephClustersConfig
  | .sweep reports now => sweep config reports now
  | .detectAndUpsert reports => detectAndUpsert config reports
  | .onRemoteRemoved remoteId => onRemoteRemoved config remoteId

/-! ## Finding clusters -/

variable {config : CephClustersConfig} {f : String}

theorem isForgotten_upsertAll (found) (config) : (upsertAll found config).2.isForgotten f = config.isForgotten f := by
  have start : (false, config).2.isForgotten f = config.isForgotten f := rfl
  refine List.foldlRecOn (motive := fun acc => acc.2.isForgotten f = config.isForgotten f) found upsertFound start ?_
  intro acc hacc p _
  exact ((upsertCluster_spec acc.2 p.1 p.2).2.1 f).trans hacc

variable {p : String × CephMember} {reports : List (String × ProbeOutcome)}

theorem mem_members_upsertAll {found} (h : p ∈ config.members) : p ∈ (upsertAll found config).2.members := by
  rw [← get?_eq_some] at h ⊢
  rw [get?_members_upsertAll, h, Option.some_or]

theorem forgotten_demote (now : Int) (cluster : CephCluster) (state : CephClusterState) :
    (cluster.demote now state).forgotten = cluster.forgotten := by
  cases state <;> rfl

theorem isForgotten_reconcileUnfound (found : Found) (outcomes : OrderedMap String ProbeOutcome) (now : Int)
    (config : CephClustersConfig) :
    (reconcileUnfound found outcomes now config).isForgotten f = config.isForgotten f := by
  unfold CephClustersConfig.isForgotten reconcileUnfound
  rw [get?_mapValues]
  cases config.clusters.get? f with
  | none => rfl
  | some =>
    simp only [Option.map_some, Option.any_some]
    split
    · rfl
    · split
      · rfl
      · rw [forgotten_demote]

theorem isForgotten_detectAndUpsert (reports) :
    (detectAndUpsert config reports).isForgotten f = config.isForgotten f := by
  unfold detectAndUpsert
  simp only
  split
  · rfl
  · split
    · exact isForgotten_upsertAll _ config
    · rfl

theorem isForgotten_sweep (reports) (now : Int) : (sweep config reports now).isForgotten f = config.isForgotten f := by
  unfold sweep
  simp only
  split
  · rw [isForgotten_reconcileUnfound, isForgotten_upsertAll]
  · rfl

theorem mem_members_detectAndUpsert (h : p ∈ config.members) : p ∈ (detectAndUpsert config reports).members := by
  unfold detectAndUpsert
  simp only
  split
  · exact h
  · split
    · exact mem_members_upsertAll h
    · exact h

theorem mem_members_sweep {now} (h : p ∈ config.members) : p ∈ (sweep config reports now).members := by
  rw [← get?_eq_some] at h ⊢
  rw [members_sweep, h, Option.some_or]

/-! ## Dropping clusters -/

variable {remoteId : String}

theorem mem_members_onRemoteRemoved :
    p ∈ (onRemoteRemoved config remoteId).members ↔ p ∈ config.members ∧ p.2.isPveOf remoteId = false := by
  unfold onRemoteRemoved CephClustersConfig.dropPveMembersForRemote CephClustersConfig.dropClustersWithoutMembers
  simp only
  split
  · simp [mem_retain]
  · next hkept =>
    simp only [Bool.or_eq_true, bne_iff_ne, not_or, not_not] at hkept
    have hall := length_filter_eq_length_iff.mp hkept.1
    exact ⟨fun hp => ⟨hp, by simpa using hall p hp⟩, And.left⟩

theorem get?_clusters_onRemoteRemoved {cluster} : (onRemoteRemoved config remoteId).clusters.get? f = some cluster ↔
      config.clusters.get? f = some cluster ∧ ∃ p ∈ (onRemoteRemoved config remoteId).members, p.2.cluster = f := by
  simp only [mem_members_onRemoteRemoved]
  set members := config.members.retain fun _ m => !m.isPveOf remoteId with hmembers
  have hrow : (∃ p, (p ∈ config.members ∧ p.2.isPveOf remoteId = false) ∧ p.2.cluster = f) ↔
      f ∈ members.entries.map (·.2.cluster) := by
    simp [← mem_def, hmembers, mem_retain]
  rw [hrow]
  unfold onRemoteRemoved CephClustersConfig.dropPveMembersForRemote CephClustersConfig.dropClustersWithoutMembers
  simp only [← hmembers]
  have hkey : config.clusters.get? f = some cluster → f ∈ config.clusters.entries.map Prod.fst := fun h =>
    mem_map.mpr ⟨(f, cluster), get?_eq_some.mp h, rfl⟩
  split
  · rw [get?_foldl_remove]
    by_cases halive : f ∈ members.entries.map (·.2.cluster)
    · simp [halive]
    · simp only [mem_filter, halive, not_false_eq_true, decide_true, and_true, and_false, iff_false]
      split
      · exact Option.some_ne_none _ ∘ Eq.symm
      · next hno => exact fun h => hno (hkey h)
  · next hkept =>
    -- nothing was dropped, so every cluster has a row
    simp only [Bool.or_eq_true, not_or, Bool.not_eq_true'] at hkept
    have hall := filter_eq_nil_iff.mp (isEmpty_iff.mp (eq_true_of_ne_false hkept.2))
    exact ⟨fun h => ⟨h, by simpa using hall f (hkey h)⟩, And.left⟩

/-! ## The mark of the operator -/

/-- Whatever happens, the cluster is forgotten or not there. -/
def StaysForgotten (config : CephClustersConfig) (f : String) : Prop :=
  ∀ (actions : List RegistryAction) (cluster : CephCluster),
    (actions.foldl CephClustersConfig.act config).clusters.get? f = some cluster → cluster.forgotten.isSome

def Anchored (config : CephClustersConfig) (f : String) : Prop :=
  ∃ p ∈ config.members, p.2.cluster = f ∧ ∀ remoteId, p.2.isPveOf remoteId = false

theorem isForgotten_iff : config.isForgotten f ↔
    ∃ cluster, config.clusters.get? f = some cluster ∧ cluster.forgotten.isSome := by
  simp [CephClustersConfig.isForgotten, Option.any_eq_true]

theorem anchored_act (action) (h : Anchored config f ∧ config.isForgotten f) :
    Anchored (config.act action) f ∧ (config.act action).isForgotten f := by
  obtain ⟨⟨p, hp, hclus, anchored⟩, hforg⟩ := h
  cases action with
  | sweep reports now =>
    exact ⟨⟨p, mem_members_sweep hp, hclus, anchored⟩, (isForgotten_sweep reports now).trans hforg⟩
  | detectAndUpsert reports =>
    exact ⟨⟨p, mem_members_detectAndUpsert hp, hclus, anchored⟩, (isForgotten_detectAndUpsert reports).trans hforg⟩
  | onRemoteRemoved remoteId =>
    have hstays : p ∈ (onRemoteRemoved config remoteId).members :=
      mem_members_onRemoteRemoved.mpr ⟨hp, anchored remoteId⟩
    obtain ⟨cluster, hget, hmark⟩ := isForgotten_iff.mp hforg
    refine ⟨⟨p, hstays, hclus, anchored⟩, isForgotten_iff.mpr ⟨cluster, ?_, hmark⟩⟩
    exact get?_clusters_onRemoteRemoved.mpr ⟨hget, p, hstays, hclus⟩

theorem mem_members_removals : ∀ (remotes : List String) (config : CephClustersConfig),
    p ∈ ((remotes.map RegistryAction.onRemoteRemoved).foldl CephClustersConfig.act config).members ↔
      p ∈ config.members ∧ ∀ remoteId ∈ remotes, p.2.isPveOf remoteId = false
  | [], config => by simp
  | remoteId :: remotes, config => by
    rw [map_cons, foldl_cons, mem_members_removals remotes, forall_mem_cons, ← and_assoc]
    exact and_congr_left' mem_members_onRemoteRemoved

theorem detectAndUpsert_of_none (hnone : config.clusters.get? f = none) (remoteId) :
    (detectAndUpsert config [(remoteId, .found f [])]).clusters.get? f = some ⟨f, some .detected, none, none⟩ := by
  have found : (probeAll [(remoteId, .found f [])]).2 = [(f, [])] := rfl
  have hforg : config.isForgotten f = false := by simp [CephClustersConfig.isForgotten, hnone]
  simp [detectAndUpsert, found, upsertAll, upsertFound, upsertCluster, hforg, hnone, CephCluster.detect, get?_insert]

/-- **A forgotten cluster stays forgotten exactly if it has a row that no removal of a remote drops.** Otherwise the
mark goes with the entry, and the next remote that reports the cluster enters it anew. -/
theorem staysForgotten_iff (hforgotten : config.isForgotten f) : StaysForgotten config f ↔
      ∃ p ∈ config.members, p.2.cluster = f ∧ ¬ (p.2.kind = .pve ∧ p.2.remote.isSome) := by
  have anchored : Anchored config f ↔
      ∃ p ∈ config.members, p.2.cluster = f ∧ ¬ (p.2.kind = .pve ∧ p.2.remote.isSome) := by
    simp only [Anchored, CephMember.isPveOf, decide_eq_false_iff_not, Option.isSome_iff_exists, not_and, not_exists,
      forall_comm (α := String)]
  rw [← anchored]
  constructor
  · intro h
    by_contra hloose
    -- remove the remotes of all rows of the cluster and one more, then let a remote report it
    let remotes := (config.membersOf f).filterMap (·.remote)
    let emptied := (remotes.map RegistryAction.onRemoteRemoved).foldl CephClustersConfig.act config
    have hrows : ∀ p ∈ emptied.members, p.2.cluster ≠ f := by
      intro p hp hclus
      obtain ⟨hmem, hkept⟩ := (mem_members_removals remotes config).mp hp
      refine hloose ⟨p, hmem, hclus, fun remoteId => ?_⟩
      by_contra hpve
      have hrem : p.2.remote = some remoteId := by
        simp only [CephMember.isPveOf, decide_eq_false_iff_not, not_not] at hpve
        exact hpve.2
      refine hpve (hkept remoteId (mem_filterMap.mpr ⟨p.2, ?_, hrem⟩))
      simp only [CephClustersConfig.membersOf, mem_filter, mem_map, decide_eq_true_eq]
      exact ⟨⟨p, hmem, rfl⟩, hclus⟩
    have hnone : (onRemoteRemoved emptied "").clusters.get? f = none := by
      rw [Option.eq_none_iff_forall_ne_some]
      intro cluster hget
      obtain ⟨-, p, hp, hclus⟩ := get?_clusters_onRemoteRemoved.mp hget
      exact hrows p (mem_members_onRemoteRemoved.mp hp).1 hclus
    have hback := h (remotes.map RegistryAction.onRemoteRemoved ++
      [.onRemoteRemoved "", .detectAndUpsert [("", .found f [])]]) ⟨f, some .detected, none, none⟩
    simp only [foldl_append, foldl_cons, foldl_nil, CephClustersConfig.act] at hback
    exact Bool.noConfusion (hback (detectAndUpsert_of_none hnone ""))
  · intro hrow actions cluster hget
    have hrun := List.foldlRecOn (motive := fun config => Anchored config f ∧ config.isForgotten f) actions
      CephClustersConfig.act ⟨hrow, hforgotten⟩ fun config h action _ => anchored_act action h
    obtain ⟨cluster', hget', hmark⟩ := isForgotten_iff.mp hrun.2
    rwa [Option.some.inj (hget.symm.trans hget')]

def Sample.forgotten (row : CephMember) : CephClustersConfig :=
  ⟨OrderedMap.empty.insert "4b4f7f8e" ⟨"4b4f7f8e", some .detected, none, some 1700000000⟩,
    OrderedMap.empty.insert row.id row⟩

/-- A standalone member keeps the mark of its cluster. -/
theorem staysForgotten_standalone :
    (Sample.forgotten ⟨"mon-a", "4b4f7f8e", .standalone, none, none⟩).isForgotten "4b4f7f8e" ∧
      StaysForgotten (Sample.forgotten ⟨"mon-a", "4b4f7f8e", .standalone, none, none⟩) "4b4f7f8e" :=
  ⟨by decide, (staysForgotten_iff (by decide)).mpr
    ⟨("mon-a", ⟨"mon-a", "4b4f7f8e", .standalone, none, none⟩), get?_eq_some.mp (by decide), rfl, by decide⟩⟩

/-- Its only remote is removed, and another remote reports the cluster. -/
theorem forgotten_cluster_returns : let config := Sample.forgotten (newMember "4b4f7f8e" ("pve-east", "node1"))
    let actions := [.onRemoteRemoved "pve-east", .detectAndUpsert [("pve-west", .found "4b4f7f8e" ["node2"])]]
    config.isForgotten "4b4f7f8e" ∧ (actions.foldl CephClustersConfig.act config).clusters.get? "4b4f7f8e" =
        some ⟨"4b4f7f8e", some .detected, none, none⟩ ∧ ¬ StaysForgotten config "4b4f7f8e" := by
  intro config actions
  have hback : (actions.foldl CephClustersConfig.act config).clusters.get? "4b4f7f8e" =
      some ⟨"4b4f7f8e", some .detected, none, none⟩ := by decide
  exact ⟨by decide, hback, fun h => Bool.noConfusion (h actions _ hback)⟩

end Nexus.Ceph
