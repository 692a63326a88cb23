import Nexus.Access
import Nexus.Lib.OrderedMap
import Nexus.Lib.Run

/-!
# The registry of Ceph clusters

The sweep of `server/src/ceph/sweep.rs` and the access checks of `server/src/ceph/registry.rs`. The first remote to
claim a member row keeps it (`members_sweep`), so a remote that reports a cluster is not always found behind a row of it
(`sweep_visible_iff`).
-/

namespace Nexus.Ceph

open Lib Lib.OrderedMap List

/-! ## The registry -/

inductive CephMemberKind
  | pve
  | standalone
  deriving DecidableEq

inductive CephClusterState
  | detected | unreachable | gone | tombstoned
  deriving DecidableEq

structure CephCluster where
  id : String
  state : Option CephClusterState
  (lastSeenMissing forgotten : Option Int)
  deriving DecidableEq

structure CephMember where
  (id cluster : String)
  kind : CephMemberKind
  (remote node : Option String)
  deriving DecidableEq

structure CephClustersConfig where
  clusters : OrderedMap String CephCluster
  members : OrderedMap String CephMember

namespace CephClustersConfig

def membersOf (config : CephClustersConfig) (clusterId : String) : List CephMember :=
  (config.members.entries.map Prod.snd).filter (·.cluster = clusterId)

def isForgotten (config : CephClustersConfig) (fsid : String) : Bool :=
  (config.clusters.get? fsid).any (·.forgotten.isSome)

end CephClustersConfig

/-! ## Probing -/

inductive ProbeOutcome
  | found (fsid : String) (nodes : List String)
  | reachable
  | unreachable
  deriving DecidableEq

abbrev Found := List (String × List (String × String))

variable (userInfo : CachedUserInfo) (auth : Authid) (config : CephClustersConfig) (fsid : String)

def Found.push (fsid : String) (members : List (String × String)) : Found → Found
  | [] => [(fsid, members)]
  | (f, ms) :: rest =>
    if fsid = f then (f, ms ++ members) :: rest
    else if fsid < f then (fsid, members) :: (f, ms) :: rest
    else (f, ms) :: Found.push fsid members rest

def probe (acc : OrderedMap String ProbeOutcome × Found) (report : String × ProbeOutcome) :
    OrderedMap String ProbeOutcome × Found :=
  let found := match report.2 with
    | .found fsid nodes => Found.push fsid (nodes.map fun node => (report.1, node)) acc.2
    | _ => acc.2
  (acc.1.insert report.1 report.2, found)

def probeAll (reports : List (String × ProbeOutcome)) : OrderedMap String ProbeOutcome × Found :=
  reports.foldl probe (OrderedMap.empty, [])

/-! ## The sweep -/

def memberId (fsid node : String) : String := fsid ++ "-" ++ node

def newMember (member : String × String) : CephMember :=
  ⟨memberId fsid member.2, fsid, .pve, some member.1, some member.2⟩

def upsertMember (acc : Bool × OrderedMap String CephMember) (member : String × String) :
    Bool × OrderedMap String CephMember :=
  (acc.1 || (acc.2.get? (memberId fsid member.2)).isNone,
    acc.2.insertNew (memberId fsid member.2) (newMember fsid member))

def CephCluster.detect (cluster : CephCluster) : Bool × CephCluster :=
  if cluster.state ≠ some .detected ∨ cluster.lastSeenMissing.isSome then
    (true, { cluster with state := some .detected, lastSeenMissing := none })
  else (false, cluster)

def upsertCluster (members : List (String × String)) : Bool × CephClustersConfig :=
  if config.isForgotten fsid then (false, config)
  else
    let (created, cluster) := match config.clusters.get? fsid with
      | some cluster => (false, cluster)
      | none => (true, ⟨fsid, none, none, none⟩)
    let (changed, cluster) := cluster.detect
    let (added, rows) := members.foldl (upsertMember fsid) (false, config.members)
    (created || changed || added, ⟨config.clusters.insert fsid cluster, rows⟩)

def unfoundState (outcomes : OrderedMap String ProbeOutcome) (fsid : String) : Option CephClusterState :=
  let remotes := (config.membersOf fsid).filterMap fun m => if m.kind = .pve then m.remote else none
  let probed := remotes.filterMap outcomes.get?
  if probed.isEmpty then none
  else if .unreachable ∈ probed then some .unreachable else some .gone

def CephCluster.demote (now : Int) (cluster : CephCluster) : CephClusterState → CephCluster
  | .gone => { cluster with state := some .gone, lastSeenMissing := some (cluster.lastSeenMissing.getD now) }
  | .unreachable => { cluster with state := some .unreachable }
  | _ => cluster

def reconcileUnfound (found : Found) (outcomes : OrderedMap String ProbeOutcome) (now : Int)
    (config : CephClustersConfig) : CephClustersConfig :=
  { config with clusters := config.clusters.mapValues fun fsid cluster =>
      if fsid ∈ found.map Prod.fst ∨ cluster.forgotten.isSome then cluster
      else match unfoundState config outcomes fsid with
        | none => cluster
        | some state => cluster.demote now state }

def upsertFound (acc : Bool × CephClustersConfig) (p : String × List (String × String)) : Bool × CephClustersConfig :=
  let (changed, config) := upsertCluster acc.2 p.1 p.2
  (acc.1 || changed, config)

def upsertAll (found : Found) (config : CephClustersConfig) : Bool × CephClustersConfig :=
  found.foldl upsertFound (false, config)

def sweep (reports : List (String × ProbeOutcome)) (now : Int) : CephClustersConfig :=
  let (outcomes, found) := probeAll reports
  let (changed, updated) := upsertAll found config
  let reconciled := reconcileUnfound found outcomes now updated
  if changed || reconciled.clusters.entries ≠ updated.clusters.entries then reconciled else config

/-! ## Access -/

def memberAccessible (member : CephMember) (privs : UInt64) : Except ApiError Bool :=
  match member.kind, member.remote with
  | .pve, some remote => userInfo.anyPrivsBelow auth ["resource", remote] privs
  | _, _ => .ok false

def anyAccessible (userInfo : CachedUserInfo) (auth : Authid) (privs : UInt64) : List CephMember → Except ApiError Bool
  | [] => .ok false
  | member :: members => do
    if ← memberAccessible userInfo auth member privs then return true
    else anyAccessible userInfo auth privs members

def clusterAccessible (clusterId : String) (privs : UInt64) : Except ApiError Bool :=
  anyAccessible userInfo auth privs (config.membersOf clusterId)

/-! ## The rows after a sweep -/

structure Claim where
  (fsid remote node : String)

def Claim.id (c : Claim) : String := memberId c.fsid c.node

def Claim.row (c : Claim) : CephMember := newMember c.fsid (c.remote, c.node)

def claimsOf (found : Found) : List Claim :=
  (found.filter fun p => !config.isForgotten p.1).flatMap fun p => p.2.map fun m => ⟨p.1, m.1, m.2⟩

def claim (rows : OrderedMap String CephMember) (c : Claim) : OrderedMap String CephMember := rows.insertNew c.id c.row

variable {config fsid} {members : List (String × String)}

theorem foldl_upsertMember (fsid : String) (members : List (String × String))
    (acc : Bool × OrderedMap String CephMember) :
    (members.foldl (upsertMember fsid) acc).2 = (members.map fun m => (⟨fsid, m.1, m.2⟩ : Claim)).foldl claim acc.2 ∧
      ((members.foldl (upsertMember fsid) acc).1 = false → acc.1 = false ∧
        (members.foldl (upsertMember fsid) acc).2 = acc.2) := by
  constructor
  · induction members generalizing acc with
    | nil => rfl
    | cons m _ ih => exact ih (upsertMember fsid acc m)
  · refine eq_of_foldl_flagged (f := fun (rows : OrderedMap String CephMember) m =>
      ((rows.get? (memberId fsid m.2)).isNone, rows.insertNew (memberId fsid m.2) (newMember fsid m))) ?_ members
    intro rows m hold
    simp only [Option.isNone_eq_false_iff] at hold
    simp [OrderedMap.insertNew, hold]

theorem detect_forgotten (cluster : CephCluster) : cluster.detect.2.forgotten = cluster.forgotten := by
  unfold CephCluster.detect
  split <;> rfl

theorem detect_unchanged {cluster : CephCluster} (h : cluster.detect.1 = false) : cluster.detect.2 = cluster := by
  unfold CephCluster.detect at h ⊢
  split at h
  · cases h
  · next hn => rw [if_neg hn]

theorem upsertCluster_spec (config : CephClustersConfig) (fsid : String) (members : List (String × String)) :
    (upsertCluster config fsid members).2.members = (claimsOf config [(fsid, members)]).foldl claim config.members ∧
      (∀ f, (upsertCluster config fsid members).2.isForgotten f = config.isForgotten f) ∧
      ((upsertCluster config fsid members).1 = false → (upsertCluster config fsid members).2 = config) := by
  unfold upsertCluster
  cases hf : config.isForgotten fsid with
  | true => simp [claimsOf, hf]
  | false =>
    obtain ⟨hrows, hkept⟩ := foldl_upsertMember fsid members (false, config.members)
    simp only [Bool.false_eq_true, if_false]
    refine ⟨by simpa [claimsOf, hf] using hrows, fun f => ?_, fun h => ?_⟩
    · unfold CephClustersConfig.isForgotten
      rw [get?_insert]
      split
      · next hfsid => cases hget : config.clusters.get? fsid <;> simp [hfsid, hget, detect_forgotten]
      · rfl
    · cases hget : config.clusters.get? fsid with
      | none => simp [hget] at h
      | some =>
        simp only [hget, Bool.false_or, Bool.or_eq_false_iff] at h
        obtain ⟨-, hmembers⟩ := hkept h.2
        simp only [detect_unchanged h.1, insert_self hget, hmembers]

theorem claimsOf_congr {config'} (h : ∀ f, config'.isForgotten f = config.isForgotten f)
    (found) : claimsOf config' found = claimsOf config found := by
  simp only [claimsOf, h]

theorem foldl_upsertFound (found) (acc) :
    (found.foldl upsertFound acc).2.members = (claimsOf acc.2 found).foldl claim acc.2.members ∧
      ((found.foldl upsertFound acc).1 = false → acc.1 = false ∧ (found.foldl upsertFound acc).2 = acc.2) := by
  constructor
  · induction found generalizing acc with
    | nil => rfl
    | cons p found ih =>
      obtain ⟨hrows, hforg, -⟩ := upsertCluster_spec acc.2 p.1 p.2
      have parts : claimsOf acc.2 (p :: found) = claimsOf acc.2 [p] ++ claimsOf acc.2 found := by
        cases hf : acc.2.isForgotten p.1 <;> simp [claimsOf, hf]
      rw [foldl_cons, ih, parts, foldl_append, ← hrows]
      exact congrArg (foldl claim _) (claimsOf_congr hforg found)
  · exact eq_of_foldl_flagged (f := fun config p => upsertCluster config p.1 p.2)
      (fun config p => (upsertCluster_spec config p.1 p.2).2.2) found

theorem get?_members_upsertAll (found) (config) (id) : (upsertAll found config).2.members.get? id =
      (config.members.get? id).or (((claimsOf config found).find? fun c => c.id = id).map Claim.row) := by
  rw [← get?_foldl_insertNew]
  exact congrArg (OrderedMap.get? · id) (foldl_upsertFound found (false, config)).1

theorem upsertAll_unchanged {found} (h : (upsertAll found config).1 = false) : (upsertAll found config).2 = config :=
  ((foldl_upsertFound found (false, config)).2 h).2

def claims (config : CephClustersConfig) (reports : List (String × ProbeOutcome)) : List Claim :=
  claimsOf config (probeAll reports).2

theorem members_sweep (config) (reports) (now : Int) (id) : (sweep config reports now).members.get? id =
      (config.members.get? id).or (((claims config reports).find? fun c => c.id = id).map Claim.row) := by
  rw [claims, ← get?_members_upsertAll]
  unfold sweep
  simp only
  split
  · rfl
  · next hsame =>
    simp only [Bool.or_eq_true, not_or, Bool.not_eq_true] at hsame
    rw [upsertAll_unchanged hsame.1]

/-! ## Who sees a cluster -/

variable {userInfo auth} {privs : UInt64} {config : CephClustersConfig} {fsid remote : String} {member : CephMember}

/-- The row has the remote behind the cluster. -/
def Backs (fsid remote : String) (member : CephMember) : Prop :=
  member.cluster = fsid ∧ member.kind = .pve ∧ member.remote = some remote

theorem memberAccessible_of_pve (hkind : member.kind = .pve) (hrem : member.remote = some remote) :
    memberAccessible userInfo auth member privs = userInfo.anyPrivsBelow auth ["resource", remote] privs := by
  simp [memberAccessible, hkind, hrem]

theorem pve_of_memberAccessible (h : memberAccessible userInfo auth member privs = .ok true) :
    ∃ remote, member.kind = .pve ∧ member.remote = some remote ∧
      userInfo.anyPrivsBelow auth ["resource", remote] privs = .ok true := by
  unfold memberAccessible at h
  split at h
  · next remote hkind hrem => exact ⟨remote, hkind, hrem, h⟩
  · cases h

theorem memberAccessible_total (total : ∀ path, ∃ b, userInfo.anyPrivsBelow auth path privs = .ok b)
    (member) : ∃ b, memberAccessible userInfo auth member privs = .ok b := by
  unfold memberAccessible
  split
  · exact total _
  · exact ⟨false, rfl⟩

theorem anyAccessible_iff (total : ∀ path, ∃ b, userInfo.anyPrivsBelow auth path privs = .ok b) :
    ∀ members, anyAccessible userInfo auth privs members = .ok true ↔
      ∃ member ∈ members, memberAccessible userInfo auth member privs = .ok true
  | [] => by simp [anyAccessible]
  | member :: members => by
    obtain ⟨b, hb⟩ := memberAccessible_total total member
    have ih := anyAccessible_iff total members
    cases b with
    | true => simp [anyAccessible, hb, bind, Except.bind, pure, Except.pure]
    | false => simpa [anyAccessible, hb, bind, Except.bind] using ih

theorem clusterAccessible_iff (total : ∀ path, ∃ b, userInfo.anyPrivsBelow auth path privs = .ok b) :
    clusterAccessible userInfo auth config fsid privs = .ok true ↔
      ∃ p ∈ config.members, ∃ remote, Backs fsid remote p.2 ∧
        userInfo.anyPrivsBelow auth ["resource", remote] privs = .ok true := by
  rw [clusterAccessible, anyAccessible_iff total]
  simp only [CephClustersConfig.membersOf, mem_filter, mem_map, decide_eq_true_eq]
  constructor
  · rintro ⟨_, ⟨⟨p, hp, rfl⟩, cluster⟩, h⟩
    obtain ⟨remote, hkind, hrem, hprv⟩ := pve_of_memberAccessible h
    exact ⟨p, hp, remote, ⟨cluster, hkind, hrem⟩, hprv⟩
  · rintro ⟨p, hp, remote, ⟨cluster, hkind, hrem⟩, hprv⟩
    exact ⟨p.2, ⟨⟨p, hp, rfl⟩, cluster⟩, (memberAccessible_of_pve hkind hrem).trans hprv⟩

/-- The remote has a row, and whoever may audit it gets to the cluster. -/
def Visible (config : CephClustersConfig) (fsid remote : String) : Prop :=
  (∃ p ∈ config.members, p.2.cluster = fsid ∧ p.2.remote = some remote) ∧ ∀ (userInfo : CachedUserInfo) (auth : Authid),
      (∀ path, ∃ b, userInfo.anyPrivsBelow auth path privResourceAudit = .ok b) →
      userInfo.anyPrivsBelow auth ["resource", remote] privResourceAudit = .ok true →
      clusterAccessible userInfo auth config fsid privResourceAudit = .ok true

theorem visible_iff : Visible config fsid remote ↔ ∃ p ∈ config.members, Backs fsid remote p.2 := by
  constructor
  · rintro ⟨-, hacc⟩
    let sole : CachedUserInfo := ⟨fun _ _ => 0, fun _ path _ => .ok (path = ["resource", remote])⟩
    have hsole : ∀ path, ∃ b, sole.anyPrivsBelow "" path privResourceAudit = .ok b := fun path => ⟨_, rfl⟩
    obtain ⟨p, hp, remote', hbacks, priv⟩ := (clusterAccessible_iff hsole).mp (hacc sole "" hsole (by simp [sole]))
    obtain rfl : remote' = remote := by simpa [sole] using priv
    exact ⟨p, hp, hbacks⟩
  · rintro ⟨p, hp, hbacks⟩
    refine ⟨⟨p, hp, hbacks.1, hbacks.2.2⟩, fun userInfo auth total priv => ?_⟩
    exact (clusterAccessible_iff total).mpr ⟨p, hp, remote, hbacks, priv⟩

/-- **A sweep makes a cluster visible through a remote that has reported it exactly if the remote has a row for it
already, or is the first to report one of its monitors.** -/
theorem sweep_visible_iff (config : CephClustersConfig) (reports : List (String × ProbeOutcome)) (now : Int) :
    (∀ remote fsid nodes, (remote, .found fsid nodes) ∈ reports → config.isForgotten fsid = false → nodes ≠ [] →
      Visible (sweep config reports now) fsid remote) ↔
    ∀ remote fsid nodes, (remote, .found fsid nodes) ∈ reports → config.isForgotten fsid = false → nodes ≠ [] →
      (∃ p ∈ config.members, Backs fsid remote p.2) ∨ ∃ node, config.members.get? (memberId fsid node) = none ∧
          (claims config reports).find? (fun c => c.id = memberId fsid node) = some ⟨fsid, remote, node⟩ := by
  have rows : ∀ remote fsid, Visible (sweep config reports now) fsid remote ↔
      (∃ p ∈ config.members, Backs fsid remote p.2) ∨ ∃ node, config.members.get? (memberId fsid node) = none ∧
          (claims config reports).find? (fun c => c.id = memberId fsid node) = some ⟨fsid, remote, node⟩ := by
    intro remote fsid
    rw [visible_iff]
    constructor
    · rintro ⟨p, hp, hbacks⟩
      have hget := get?_eq_some.mpr hp
      rw [members_sweep, Option.or_eq_some_iff] at hget
      rcases hget with hold | ⟨hnew, hclaim⟩
      · exact .inl ⟨p, get?_eq_some.mp hold, hbacks⟩
      · obtain ⟨⟨fsid', remote', node⟩, hfind, hrow⟩ := Option.map_eq_some_iff.mp hclaim
        have hid : Claim.id ⟨fsid', remote', node⟩ = p.1 := by simpa using find?_some hfind
        obtain ⟨cluster, -, hrem⟩ := hbacks
        rw [← hrow] at cluster hrem
        obtain rfl : fsid' = fsid := cluster
        obtain rfl : remote' = remote := Option.some.inj hrem
        rw [← hid] at hnew hfind
        exact .inr ⟨node, hnew, hfind⟩
    · rintro (⟨p, hp, hbacks⟩ | ⟨node, hnew, hfind⟩)
      · refine ⟨p, get?_eq_some.mp ?_, hbacks⟩
        rw [members_sweep, get?_eq_some.mpr hp, Option.some_or]
      · refine ⟨(memberId fsid node, Claim.row ⟨fsid, remote, node⟩), get?_eq_some.mp ?_, rfl, rfl, rfl⟩
        rw [members_sweep, hnew, hfind]
        rfl
  simp only [rows]

/-- Two remotes with the same monitors: nobody sees the cluster through the second one. -/
theorem sweep_hides_second_remote :
    let reports := [("pve-a", .found "4b4f7f8e" ["n1"]), ("pve-b", .found "4b4f7f8e" ["n1"])]
    ("pve-b", .found "4b4f7f8e" ["n1"]) ∈ reports ∧
      ¬ Visible (sweep ⟨OrderedMap.empty, OrderedMap.empty⟩ reports 0) "4b4f7f8e" "pve-b" := by
  refine ⟨by decide, fun h => ?_⟩
  obtain ⟨p, hp, -, -, remote⟩ := visible_iff.mp h
  have hrows : (sweep ⟨OrderedMap.empty, OrderedMap.empty⟩ [("pve-a", .found "4b4f7f8e" ["n1"]),
      ("pve-b", .found "4b4f7f8e" ["n1"])] 0).members.entries.map (·.2.remote) = [some "pve-a"] := by decide
  have hmem := mem_map_of_mem (f := fun q => q.2.remote) hp
  rw [hrows, remote] at hmem
  revert hmem
  decide

end Nexus.Ceph
