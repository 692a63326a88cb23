import Nexus.Lib.CheckedSum
import Nexus.ResourceList

/-!
# The amounts of the resource status

`get_status` of `server/src/api/resources.rs` counts what `get_resources_impl` has listed and adds up memory and storage
as `u64`: here a sum fails where the source panics or takes the remainder. The four sums come out exactly if every
counted resource uses at most what it has, and each sum is a `u64` (`getStatus_exact_iff`).
-/

namespace Nexus

open Lib (Share Totals)
open List Option

/-! ## What is counted -/

inductive UsageResource
  | pveStorage (r : PveStorageResource) (shared : Bool) (disk : Share)
  | pveQemu (r : PveGuestResource) (maxcpu : Float)
  | pveLxc (r : PveGuestResource) (maxcpu : Float)
  | pveNode (r : PveNodeResource) (cpu maxcpu : Float) (mem : Share)
  | pveNetwork (r : PveNetworkResource)
  | pbsNode (r : PbsNodeResource) (cpu maxcpu : Float) (mem : Share)
  | pbsDatastore (r : PbsDatastoreResource) (disk : Share)

structure RemoteWithUsage where
  remoteName : String
  remote : Remote
  resources : List UsageResource
  error : Option String

structure GuestStatusCount where
  running : Nat := 0
  stopped : Nat := 0
  template : Nat := 0
  unknown : Nat := 0

structure NodeStatusCount where
  online : Nat := 0
  offline : Nat := 0
  unknown : Nat := 0

structure StorageStatusCount where
  available : Nat := 0
  unknown : Nat := 0

structure PbsDatastoreStatusCount where
  online : Nat := 0
  underMaintenance : Option Nat := none
  highUsage : Option Nat := none
  unknown : Option Nat := none
  removable : Option Nat := none
  s3Backend : Option Nat := none

structure SdnZoneCount where
  available : Nat := 0
  pending : Nat := 0
  error : Nat := 0
  unknown : Nat := 0

structure CpuStatistics where
  used : Float := 0
  max : Float := 0
  allocated : Option Float := none

inductive RemoteStatus
  | good | warning | error | unknown
  deriving DecidableEq

structure RemoteInfo where
  name : String
  ty : RemoteType
  status : RemoteStatus
  messages : List String

structure FailedRemote where
  (name error : String)
  remoteType : RemoteType

structure ResourcesStatus where
  remotes : Nat := 0
  failedRemotes : Nat := 0
  pveNodes : NodeStatusCount := {}
  qemu : GuestStatusCount := {}
  lxc : GuestStatusCount := {}
  storages : StorageStatusCount := {}
  sdnZones : SdnZoneCount := {}
  pbsNodes : NodeStatusCount := {}
  pbsDatastores : PbsDatastoreStatusCount := {}
  pveCpuStats : CpuStatistics := {}
  pbsCpuStats : CpuStatistics := {}
  pveMemoryStats : Totals := .zero
  pbsMemoryStats : Totals := .zero
  pveStorageStats : Totals := .zero
  pbsStorageStats : Totals := .zero
  failedRemotesList : List FailedRemote := []
  remoteList : List RemoteInfo := []

/-! ## The loops -/

def StorageStatusCount.count (c : StorageStatusCount) (status : String) : StorageStatusCount :=
  if status = "available" then { c with available := c.available + 1 } else { c with unknown := c.unknown + 1 }

def GuestStatusCount.count (c : GuestStatusCount) (r : PveGuestResource) : GuestStatusCount :=
  if r.template then { c with template := c.template + 1 }
  else if r.status = "running" then { c with running := c.running + 1 }
  else if r.status = "stopped" then { c with stopped := c.stopped + 1 }
  else { c with unknown := c.unknown + 1 }

def NodeStatusCount.count (c : NodeStatusCount) (status : String) : NodeStatusCount :=
  if status = "online" then { c with online := c.online + 1 }
  else if status = "offline" then { c with offline := c.offline + 1 }
  else { c with unknown := c.unknown + 1 }

def SdnZoneCount.count (c : SdnZoneCount) : SdnStatus → SdnZoneCount
  | .available => { c with available := c.available + 1 }
  | .error => { c with error := c.error + 1 }
  | .pending => { c with pending := c.pending + 1 }
  | .unknown => { c with unknown := c.unknown + 1 }

def countIf (condition : Bool) (n : Option Nat) : Option Nat := if condition then some (n.getD 0 + 1) else n

def pbsDatastoreHighUsageThreshold : Float := 0.80

def PbsDatastoreStatusCount.count (c : PbsDatastoreStatusCount) (r : PbsDatastoreResource) :
    PbsDatastoreStatusCount where
  online := if r.maintenance.isNone then c.online + 1 else c.online
  underMaintenance := countIf r.maintenance.isSome c.underMaintenance
  highUsage := countIf (r.usage > pbsDatastoreHighUsageThreshold) c.highUsage
  removable := countIf r.backingDevice.isSome c.removable
  s3Backend := countIf (r.backendType = some "s3") c.s3Backend
  unknown := countIf (r.backendType = some "unknown") c.unknown

def CpuStatistics.count (c : CpuStatistics) (cpu maxcpu : Float) : CpuStatistics :=
  { c with used := c.used + cpu * maxcpu, max := c.max + maxcpu }

structure StatusLoop where
  counts : ResourcesStatus
  pveCpuAllocated : Float
  remoteStatus : RemoteStatus
  (remoteMessages seenStorages : List String)

def StatusLoop.warn (st : StatusLoop) (message : String) : StatusLoop :=
  { st with
    remoteStatus := if st.remoteStatus = .good then .warning else st.remoteStatus
    remoteMessages := st.remoteMessages ++ [message] }

def StatusLoop.allocate (st : StatusLoop) (r : PveGuestResource) (maxcpu : Float) : StatusLoop :=
  if !r.template && r.status = "running" then { st with pveCpuAllocated := st.pveCpuAllocated + maxcpu } else st

def countResource (st : StatusLoop) : UsageResource → Option StatusLoop
  | .pveStorage r shared disk =>
    let counts := { st.counts with storages := st.counts.storages.count r.status }
    if !shared || r.storage ∉ st.seenStorages then do
      let stats ← counts.pveStorageStats.add disk
      return { st with
        counts := { counts with pveStorageStats := stats }
        seenStorages := r.storage :: st.seenStorages }
    else return { st with counts := counts }
  | .pveQemu r maxcpu =>
    return { st.allocate r maxcpu with counts := { st.counts with qemu := st.counts.qemu.count r } }
  | .pveLxc r maxcpu =>
    return { st.allocate r maxcpu with counts := { st.counts with lxc := st.counts.lxc.count r } }
  | .pveNode r cpu maxcpu mem => do
    let st := if r.status = "offline" then st.warn ("Node '" ++ r.node ++ "' is offline") else st
    let stats ← st.counts.pveMemoryStats.add mem
    return { st with counts := { st.counts with
      pveNodes := st.counts.pveNodes.count r.status
      pveCpuStats := st.counts.pveCpuStats.count cpu maxcpu
      pveMemoryStats := stats } }
  | .pveNetwork (.zone zone) =>
    let st := if zone.status = .error then st.warn ("SDN zone '" ++ zone.network ++ "' has an error") else st
    return { st with counts := { st.counts with sdnZones := st.counts.sdnZones.count zone.status } }
  | .pveNetwork (.fabric _) => return st
  | .pbsNode _ cpu maxcpu mem => do
    let stats ← st.counts.pbsMemoryStats.add mem
    return { st with counts := { st.counts with
      pbsNodes := { st.counts.pbsNodes with online := st.counts.pbsNodes.online + 1 }
      pbsCpuStats := st.counts.pbsCpuStats.count cpu maxcpu
      pbsMemoryStats := stats } }
  | .pbsDatastore r disk => do
    let stats ← st.counts.pbsStorageStats.add disk
    return { st with counts := { st.counts with
      pbsDatastores := st.counts.pbsDatastores.count r
      pbsStorageStats := stats } }

def startRemote (acc : ResourcesStatus × Float) (e : RemoteWithUsage) : StatusLoop where
  counts := match e.error with
    | some error => { acc.1 with
      failedRemotes := acc.1.failedRemotes + 1
      failedRemotesList := acc.1.failedRemotesList ++ [⟨e.remoteName, error, e.remote.ty⟩] }
    | none => { acc.1 with remotes := acc.1.remotes + 1 }
  pveCpuAllocated := acc.2
  remoteStatus := if e.error.isSome then .error else .good
  remoteMessages := e.error.toList
  seenStorages := []

def countRemote (acc : ResourcesStatus × Float) (e : RemoteWithUsage) : Option (ResourcesStatus × Float) := do
  let st ← e.resources.foldlM countResource (startRemote acc e)
  return ({ st.counts with
    remoteList := st.counts.remoteList ++ [⟨e.remoteName, e.remote.ty, st.remoteStatus, st.remoteMessages⟩] },
    st.pveCpuAllocated)

def getStatus (entries : List RemoteWithUsage) : Option ResourcesStatus := do
  let (counts, pveCpuAllocated) ← entries.foldlM countRemote ({}, 0)
  return { counts with pveCpuStats := { counts.pveCpuStats with allocated := some pveCpuAllocated } }

/-! ## The sums -/

inductive StatKind
  | pveMemory | pbsMemory | pveStorage | pbsStorage
  deriving DecidableEq

def ResourcesStatus.totals (c : ResourcesStatus) : StatKind → Totals
  | .pveMemory => c.pveMemoryStats
  | .pbsMemory => c.pbsMemoryStats
  | .pveStorage => c.pveStorageStats
  | .pbsStorage => c.pbsStorageStats

def UsageResource.storageName : UsageResource → Option String
  | .pveStorage r _ _ => some r.storage
  | _ => none

def countedUsage (before : List UsageResource) : UsageResource → List (StatKind × Share)
  | .pveStorage r shared disk =>
    if shared && r.storage ∈ before.filterMap UsageResource.storageName then [] else [(.pveStorage, disk)]
  | .pveNode _ _ _ mem => [(.pveMemory, mem)]
  | .pbsNode _ _ _ mem => [(.pbsMemory, mem)]
  | .pbsDatastore _ disk => [(.pbsStorage, disk)]
  | .pveQemu _ _ | .pveLxc _ _ | .pveNetwork _ => []

def countedUsages : List UsageResource → List UsageResource → List (StatKind × Share)
  | _, [] => []
  | before, r :: rs => countedUsage before r ++ countedUsages (before ++ [r]) rs

def counted (entries : List RemoteWithUsage) (kind : StatKind) : List Share :=
  Lib.sharesOf kind (entries.flatMap fun e => countedUsages [] e.resources)

variable {st st' : StatusLoop} {before : List UsageResource}

def StatusLoop.HasSeen (st : StatusLoop) (before : List UsageResource) : Prop :=
  ∀ name, name ∈ st.seenStorages ↔ name ∈ before.filterMap UsageResource.storageName

theorem StatusLoop.seenStorages_allocate (st : StatusLoop) (r : PveGuestResource) (maxcpu : Float) :
    (st.allocate r maxcpu).seenStorages = st.seenStorages := by
  unfold allocate
  split <;> rfl

def ResourcesStatus.setTotals (c : ResourcesStatus) : StatKind → Totals → ResourcesStatus
  | .pveMemory, t => { c with pveMemoryStats := t }
  | .pbsMemory, t => { c with pbsMemoryStats := t }
  | .pveStorage, t => { c with pveStorageStats := t }
  | .pbsStorage, t => { c with pbsStorageStats := t }

theorem ResourcesStatus.totals_setTotals (c : ResourcesStatus) (kind : StatKind) (t : Totals) :
    (c.setTotals kind t).totals = Function.update c.totals kind t := by
  funext k
  cases kind <;> cases k <;> rfl

theorem bind_add_totals (kind : StatKind) (u : Share) {round : Totals → Option StatusLoop}
    (hround : ∀ t, (round t).map (fun st' => st'.counts.totals) = some (st.counts.setTotals kind t).totals) :
    (((st.counts.totals kind).add u).bind round).map (fun st' => st'.counts.totals) =
      [(kind, u)].foldlM Lib.addAt st.counts.totals := by
  rw [foldlM_cons, Lib.addAt]
  cases (st.counts.totals kind).add u with
  | none => rfl
  | some =>
    rw [bind_some, hround, ResourcesStatus.totals_setTotals]
    rfl

theorem countResource_totals (hseen : st.HasSeen before) (r) : (countResource st r).map (fun st' => st'.counts.totals) =
      (countedUsage before r).foldlM Lib.addAt st.counts.totals := by
  cases r with
  | pveStorage r shared disk =>
    simp only [countResource, countedUsage]
    by_cases counted : shared ∧ r.storage ∈ st.seenStorages
    · have hbef := (hseen r.storage).mp counted.2
      simp only [counted.1, counted.2, hbef]
      rfl
    · have hbef : ¬ (shared ∧ r.storage ∈ before.filterMap UsageResource.storageName) := by
        rwa [← hseen r.storage]
      rw [if_pos (by simpa [imp_iff_not_or] using counted), if_neg (by simpa using hbef)]
      exact bind_add_totals .pveStorage disk fun _ => rfl
  | pveQemu => rfl
  | pveLxc => rfl
  | pveNode _ _ _ mem =>
    simp only [countResource]
    split <;> exact bind_add_totals .pveMemory mem fun _ => rfl
  | pveNetwork r =>
    cases r with
    | zone =>
      simp only [countResource]
      split <;> rfl
    | fabric => rfl
  | pbsNode _ _ _ mem => exact bind_add_totals .pbsMemory mem fun _ => rfl
  | pbsDatastore _ disk => exact bind_add_totals .pbsStorage disk fun _ => rfl

theorem countResource_hasSeen {r} (hseen : st.HasSeen before) (h : countResource st r = some st') :
    st'.HasSeen (before ++ [r]) := by
  have other : r.storageName = none → st'.seenStorages = st.seenStorages → st'.HasSeen (before ++ [r]) := by
    intro hname hsame name
    rw [hsame, hseen name, filterMap_append]
    simp [hname]
  cases r with
  | pveStorage r shared disk =>
    have names : (before ++ [UsageResource.pveStorage r shared disk]).filterMap UsageResource.storageName =
        before.filterMap UsageResource.storageName ++ [r.storage] := by simp [UsageResource.storageName]
    intro name
    rw [names, mem_append, mem_singleton, ← hseen name]
    simp only [countResource] at h
    split at h
    · obtain ⟨stats, -, hst⟩ := bind_eq_some_iff.mp h
      rw [← some.inj hst, mem_cons, or_comm]
    · next hskip =>
      rw [← some.inj h]
      refine (or_iff_left_of_imp fun hname => ?_).symm
      simp only [Bool.or_eq_true, Bool.not_eq_true', decide_eq_true_eq, not_or, not_not] at hskip
      exact hname ▸ hskip.2
  | pveQemu r maxcpu =>
    exact other rfl (some.inj h ▸ st.seenStorages_allocate r maxcpu)
  | pveLxc r maxcpu =>
    exact other rfl (some.inj h ▸ st.seenStorages_allocate r maxcpu)
  | pveNode =>
    obtain ⟨stats, -, hst⟩ := bind_eq_some_iff.mp h
    refine other rfl ?_
    rw [← some.inj hst]
    simp only
    split <;> rfl
  | pveNetwork r =>
    refine other rfl ?_
    cases r with
    | zone =>
      rw [← some.inj h]
      simp only
      split <;> rfl
    | fabric => rw [← some.inj h]
  | pbsNode =>
    obtain ⟨stats, -, hst⟩ := bind_eq_some_iff.mp h
    exact other rfl (by rw [← some.inj hst])
  | pbsDatastore =>
    obtain ⟨stats, -, hst⟩ := bind_eq_some_iff.mp h
    exact other rfl (by rw [← some.inj hst])

theorem foldlM_countResource_totals : ∀ rs before st, st.HasSeen before →
    (rs.foldlM countResource st).map (fun st' => st'.counts.totals) =
      (countedUsages before rs).foldlM Lib.addAt st.counts.totals
  | [], _, _, _ => rfl
  | r :: rs, before, st, hseen => by
    have hstep := countResource_totals hseen r
    rw [foldlM_cons, countedUsages, foldlM_append, ← hstep]
    cases hr : countResource st r with
    | none => rfl
    | some st' => exact foldlM_countResource_totals rs (before ++ [r]) st' (countResource_hasSeen hseen hr)

theorem foldlM_countRemote_totals : ∀ (entries : List RemoteWithUsage) (acc : ResourcesStatus × Float),
    (entries.foldlM countRemote acc).map (fun acc' => acc'.1.totals) =
      (entries.flatMap fun e => countedUsages [] e.resources).foldlM Lib.addAt acc.1.totals
  | [], _ => rfl
  | e :: entries, acc => by
    have hstep : (countRemote acc e).map (fun acc' => acc'.1.totals) =
        (countedUsages [] e.resources).foldlM Lib.addAt acc.1.totals := by
      have start : (startRemote acc e).counts.totals = acc.1.totals := by
        unfold startRemote
        cases e.error <;> rfl
      rw [← start, ← foldlM_countResource_totals e.resources [] (startRemote acc e) fun _ => Iff.rfl, countRemote]
      cases e.resources.foldlM countResource (startRemote acc e) <;> rfl
    rw [foldlM_cons, flatMap_cons, foldlM_append, ← hstep]
    cases countRemote acc e with
    | none => rfl
    | some acc' => exact foldlM_countRemote_totals entries acc'

theorem getStatus_totals (entries) : (getStatus entries).map ResourcesStatus.totals =
    (entries.flatMap fun e => countedUsages [] e.resources).foldlM Lib.addAt fun _ => Totals.zero := by
  have hzero : ({} : ResourcesStatus).totals = fun _ => Totals.zero := by
    funext kind
    cases kind <;> rfl
  rw [← hzero, ← foldlM_countRemote_totals entries ({}, 0), getStatus]
  cases entries.foldlM countRemote ({}, 0) <;> rfl

/-- **The sums of memory and storage are exact** if and only if each counted resource uses at most what it has, and the
total is a `u64`. -/
theorem getStatus_exact_iff (entries : List RemoteWithUsage) : (∃ status, getStatus entries = some status ∧ ∀ kind,
      (status.totals kind).avail.toNat + (status.totals kind).used.toNat = (status.totals kind).total.toNat ∧
      (status.totals kind).total.toNat = ((counted entries kind).map fun u => u.whole.toNat).sum ∧
      (status.totals kind).used.toNat = ((counted entries kind).map fun u => u.part.toNat).sum) ↔
    ∀ kind, Lib.Representable 0 (counted entries kind) := by
  have hzero : ∀ _ : StatKind, Totals.zero.Balanced := fun _ => Totals.balanced_zero
  have hiff := Lib.isSome_foldlM_addAt_iff (entries.flatMap fun e => countedUsages [] e.resources) hzero
  rw [← getStatus_totals] at hiff
  refine Iff.trans ?_ hiff
  rw [isSome_map, isSome_iff_exists]
  refine exists_congr fun status => and_iff_left_of_imp fun hstat kind => ?_
  have htotal := getStatus_totals entries
  rw [hstat] at htotal
  obtain ⟨hbal, total, hused⟩ := Lib.foldlM_addAt_exact _ hzero htotal.symm kind
  exact ⟨hbal, total.trans (Nat.zero_add _), hused.trans (Nat.zero_add _)⟩

/-- A node that uses more memory than it has. -/
theorem getStatus_fails_for_overcommitted_node :
    getStatus [⟨"a", ⟨.pve, "a"⟩, [.pveNode ⟨"remote/a/node/n", "n", "online"⟩ 0 1 ⟨1, 2⟩], none⟩] = none := rfl

end Nexus
