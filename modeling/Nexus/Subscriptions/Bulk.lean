import Mathlib.Data.List.Sort
import Nexus.Subscriptions.Handlers

/-!
# Handlers that work on many nodes

The handlers that first ask all remotes for the subscriptions of their nodes (`collectNodeStatus`) and then go through a
list under the lock: `adopt_all`, `bulk_assign` and `clear_pending`. Every round of such a loop works on the pool that
the rounds before have left, so the invariant is carried through the loop (`Changes.foldl`).
-/

namespace Nexus.Subscriptions

open Lib

/-! ## The status of all nodes -/

structure RemoteNodeStatus where
  remote : String
  ty : RemoteType
  node : String
  sockets : Option Int
  status : SubscriptionStatus
  level : SubscriptionLevel
  (assignedKey currentKey : Option String)
  pendingClear : Bool

def nodeStatus (remote : String) (ty : RemoteType) (node : String) : Option NodeSubscriptionInfo → RemoteNodeStatus
  | some info => ⟨remote, ty, node, info.sockets, info.status, info.level, none, info.key, false⟩
  | none => ⟨remote, ty, node, none, .notFound, .none, none, none, false⟩

def collectStatusUncached (remotes : List (String × Remote)) (live : Live) : List RemoteNodeStatus :=
  remotes.flatMap fun (name, remote) =>
    match live name with
    | .error _ => []
    | .ok infos => infos.entries.map fun (node, info) => nodeStatus name remote.ty node info

def RemoteNodeStatus.withPool (config : KeyConfig) (n : RemoteNodeStatus) : RemoteNodeStatus :=
  match config.boundEntry n.remote n.node with
  | some (_, entry) => { n with assignedKey := some entry.key, pendingClear := entry.pendingClear }
  | none => n

def World.visibleRemotes (world : World) (auth : Authid) : List (String × Remote) :=
  world.remotes.entries.filter fun p => world.userInfo.lookupPrivs auth ["resource", p.1] &&& privResourceAudit != 0

def nodeLe (a b : String × String) : Bool := a.1 < b.1 || (a.1 = b.1 && a.2 ≤ b.2)

def collectNodeStatus (world : World) (live : Live) (auth : Authid) (config : KeyConfig) : List RemoteNodeStatus :=
  let out := (collectStatusUncached (world.visibleRemotes auth) live).map (·.withPool config)
  out.insertionSort fun a b => nodeLe (a.remote, a.node) (b.remote, b.node)

def statusTuple (n : RemoteNodeStatus) : String × String × SubscriptionStatus × Option Int × Bool :=
  (n.remote, n.node, n.status, n.sockets, n.assignedKey.isSome)

def statusTuples (statuses : List RemoteNodeStatus) : List (String × String × SubscriptionStatus × Option Int × Bool) :=
  (statuses.map statusTuple).insertionSort fun a b => nodeLe (a.1, a.2.1) (b.1, b.2.1)

variable {δ : Type} (ext : External δ)

def hashNodeStatus (statuses : List RemoteNodeStatus) : String := ext.statusHash (statusTuples statuses)

/-! ## Adopting all keys -/

structure AdoptedEntry where
  (remote node key : String)

variable (world : World) (auth : Authid) (statuses : List RemoteNodeStatus)

def adoptAllStep (acc : KeyConfig × List AdoptedEntry) (n : RemoteNodeStatus) : KeyConfig × List AdoptedEntry :=
  match n.currentKey with
  | none => acc
  | some currentKey =>
    if n.assignedKey.isSome || !world.mayModify auth n.remote || !ext.nodeSchema n.node then acc
    else
      match adopt ext currentKey n.remote n.node acc.1 with
      | .error _ => acc
      | .ok config => (config, acc.2 ++ [⟨n.remote, n.node, currentKey⟩])

def adoptAllLocked (digest : Option δ) (statuses : List RemoteNodeStatus)
    (config : KeyConfig) : Except ApiError (KeyConfig × List AdoptedEntry) := do
  ext.detectModification (ext.digest config) digest
  let (updated, adopted) := statuses.foldl (adoptAllStep ext world auth) (config, [])
  return (if adopted.isEmpty then config else updated, adopted)

/-! ## Assigning keys by a proposal -/

structure ProposedAssignment where
  (key remote node : String)
  keySockets : Option UInt32
  nodeSockets : Option Int
  deriving DecidableEq

structure AutoAssignProposal (δ : Type) where
  assignments : List ProposedAssignment
  keysDigest : δ
  nodeStatusDigest : String

def bulkAssignPre (proposal : AutoAssignProposal δ) : Except ApiError Unit :=
  require (hashNodeStatus ext statuses = proposal.nodeStatusDigest)
    (.http .conflict "node status changed since proposal; refresh and try again")

def bulkAssignStep (acc : KeyConfig × List ProposedAssignment)
    (p : ProposedAssignment) : KeyConfig × List ProposedAssignment :=
  if !world.mayModify auth p.remote || !ext.nodeSchema p.node then acc
  else
    match world.remotes.get? p.remote, acc.1.get? p.key with
    | some remoteEntry, some poolEntry =>
      if !poolEntry.productType.matchesRemoteType remoteEntry.ty || (acc.1.otherOn p.key p.remote p.node).isSome ||
        poolEntry.remote.isSome then acc
      else (acc.1.insert p.key ((poolEntry.bind p.remote p.node).withPendingClear false), acc.2 ++ [p])
    | _, _ => acc

def bulkAssignLocked (proposal : AutoAssignProposal δ) (config : KeyConfig) :
    Except ApiError (KeyConfig × List ProposedAssignment) := do
  ext.detectModification (ext.digest config) (some proposal.keysDigest)
  let (updated, applied) := proposal.assignments.foldl (bulkAssignStep ext world auth) (config, [])
  return (if applied.isEmpty then config else updated, applied)

/-! ## Pending changes -/

inductive PendingOp
  | push
  | clear
  deriving DecidableEq

structure PendingEntry where
  (key remote node : String)
  op : PendingOp
  deriving DecidableEq

def isPending (key remote node : String) : Bool :=
  match statuses.find? fun n => n.remote = remote && n.node = node with
  | some n => n.currentKey ≠ some key
  | none => true

def pendingFor (entry : SubscriptionKeyEntry) : Option PendingEntry :=
  match entry.binding with
  | none => none
  | some (remote, node) =>
    if !world.mayModify auth remote then none
    else if entry.pendingClear then some ⟨entry.key, remote, node, .clear⟩
    else if isPending statuses entry.key remote node then some ⟨entry.key, remote, node, .push⟩
    else none

def computePending (config : KeyConfig) : List PendingEntry :=
  config.entries.filterMap fun p => pendingFor world auth statuses p.2

def clearPendingStep (acc : KeyConfig × Nat) (entry : PendingEntry) : KeyConfig × Nat :=
  match acc.1.get? entry.key with
  | none => acc
  | some stored =>
    if stored.boundTo entry.remote entry.node then
      match entry.op with
      | .clear => (acc.1.insert entry.key (stored.withPendingClear false), acc.2 + 1)
      | .push => (acc.1.insert entry.key stored.unbind, acc.2 + 1)
    else acc

def clearPendingLocked (digest : Option δ) (pending : List PendingEntry) (config : KeyConfig) :
    Except ApiError (KeyConfig × Nat) := do
  ext.detectModification (ext.digest config) digest
  let (updated, cleared) := pending.foldl clearPendingStep (config, 0)
  return (if cleared = 0 then config else updated, cleared)

/-! ## What the loops change -/

variable {ext world auth} {config : KeyConfig} {P : KeyConfig → Prop}

theorem adoptAllStep_rule {acc n} (h : P acc.1)
    (adopted : ∀ {key config}, n.currentKey = some key → world.mayModify auth n.remote →
      adopt ext key n.remote n.node acc.1 = .ok config → P config) : P (adoptAllStep ext world auth acc n).1 := by
  unfold adoptAllStep
  split
  · exact h
  · next hkey =>
    split
    · exact h
    · next hskip =>
      simp only [Bool.or_eq_true, Bool.not_eq_true', not_or, Bool.not_eq_false] at hskip
      split
      · exact h
      · next hok => exact adopted hkey hskip.1.2 hok

theorem adoptAllStep_changes (acc) (n) : Changes acc.1 (adoptAllStep ext world auth acc n).1 :=
  adoptAllStep_rule (.refl acc.1) fun _ _ adopted => adopt_changes adopted

theorem bulkAssignStep_rule {acc : KeyConfig × List ProposedAssignment} {p : ProposedAssignment}
    (h : P acc.1) (hass : ∀ {r stored}, world.mayModify auth p.remote → world.remotes.get? p.remote = some r →
      acc.1.get? p.key = some stored → stored.productType.matchesRemoteType r.ty →
      acc.1.otherOn p.key p.remote p.node = none → stored.remote = none →
      P (acc.1.insert p.key ((stored.bind p.remote p.node).withPendingClear false))) :
    P (bulkAssignStep ext world auth acc p).1 := by
  unfold bulkAssignStep
  split
  · exact h
  · next may =>
    simp only [Bool.or_eq_true, Bool.not_eq_true', not_or, Bool.not_eq_false] at may
    split
    · next remote hstored =>
      split
      · exact h
      · next hskip =>
        simp only [Bool.or_eq_true, not_or, Bool.not_eq_true', Bool.not_eq_false,
          Option.not_isSome_iff_eq_none] at hskip
        exact hass may.1 remote hstored hskip.1.1 hskip.1.2 hskip.2
    · exact h

theorem bulkAssignStep_changes (acc : KeyConfig × List ProposedAssignment) (p : ProposedAssignment)
    (hok : PoolOk acc.1) : Changes acc.1 (bulkAssignStep ext world auth acc p).1 :=
  bulkAssignStep_rule (.refl acc.1) fun _ _ stored _ other _ =>
    .single (.bind stored (freeFor_of_otherOn hok other) false)

theorem clearPendingStep_changes (acc) (entry) : Changes acc.1 (clearPendingStep acc entry).1 := by
  unfold clearPendingStep
  split
  · exact .refl _
  · next stored hstored =>
    split
    · split
      · exact .single (.setPendingClear hstored nofun)
      · exact .single (.unbind hstored)
    · exact .refl _

end Nexus.Subscriptions
