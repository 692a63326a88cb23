import Nexus.Subscriptions.Bulk

/-!
# The worker that applies pending changes

`run_apply_pending` makes a plan once and then goes through it. Every round reads the pool again without the lock and
skips an entry that has changed (`Worker.next`). Only the last part of a clear, which drops the binding, takes the lock
(`Worker.drop`).
-/

namespace Nexus.Subscriptions

open Lib

/-! ## Calls to the remote -/

def pushKeyToRemote (answer : Except String Unit) (key : String) : Except String Unit :=
  match ProductType.fromKey key with
  | none => .error ("unrecognised key format: " ++ key)
  | some .pve | some .pbs => answer
  | some productType => .error ("PDM cannot push '" ++ productType.asSectionType ++ "' keys: no remote support yet")

def deleteSubscriptionOnRemote (answer : Except String Unit) : ProductType → Except String Unit
  | .pve | .pbs => answer
  | productType => .error ("PDM cannot clear '" ++ productType.asSectionType ++ "' keys: no remote support yet")

/-! ## The loop -/

structure Worker where
  remotes : RemotesConfig
  total : Nat
  pending : List PendingEntry
  dropping : Option PendingEntry
  ok : Nat
  failures : List String

namespace Worker

def plan (world : World) (live : Live) (auth : Authid) (config : KeyConfig) : Worker :=
  let statuses := collectStatusUncached world.remotes.entries live
  let pending := computePending world auth statuses config
  ⟨world.remotes, pending.length, pending, none, 0, []⟩

variable (w : Worker) (entry : PendingEntry) (config : KeyConfig)

def fail (failure : String) : Worker := { w with failures := w.failures ++ [failure] }

def succeed : Worker := { w with ok := w.ok + 1 }

def poolAssignmentStillValid (entry : PendingEntry) : Bool :=
  (config.get? entry.key).any (·.boundTo entry.remote entry.node)

def opConsistent (entry : PendingEntry) : Bool :=
  let currentPendingClear := ((config.get? entry.key).map (·.pendingClear)).getD false
  match entry.op with
  | .push => !currentPendingClear
  | .clear => currentPendingClear

def execute (answer : Except String Unit) : Worker :=
  let place := entry.remote ++ "/" ++ entry.node
  match entry.op with
  | .push =>
    match w.remotes.get? entry.remote with
    | none => w.fail (place ++ ": remote vanished")
    | some _ =>
      match pushKeyToRemote answer entry.key with
      | .error err => w.fail ("push to " ++ place ++ ": " ++ err)
      | .ok () => w.succeed
  | .clear =>
    match ProductType.fromKey entry.key with
    | none => w.fail ("clear on " ++ place ++ ": unrecognised key format")
    | some productType =>
      match w.remotes.get? entry.remote with
      -- there is nothing to delete on a remote that is gone, but its binding is dropped all the same
      | none => { w with dropping := some entry }
      | some _ =>
        match deleteSubscriptionOnRemote answer productType with
        | .error err => w.fail ("clear on " ++ place ++ ": " ++ err)
        | .ok () => { w with dropping := some entry }

def next (answer : Except String Unit) : Worker :=
  match w.dropping, w.pending with
  | none, entry :: pending =>
    let w := { w with pending := pending }
    if poolAssignmentStillValid config entry && opConsistent config entry then w.execute entry answer else w
  | _, _ => w

def dropBinding (entry : PendingEntry) (config : KeyConfig) : KeyConfig :=
  match config.get? entry.key with
  | none => config
  | some stored => if stored.boundTo entry.remote entry.node then config.insert entry.key stored.unbind else config

def drop (saved : Except String Unit) : KeyConfig × Worker :=
  match w.dropping with
  | none => (config, w)
  | some entry =>
    let w := { w with dropping := none }
    match saved with
    | .error err =>
      (config, w.fail ("clear on " ++ entry.remote ++ "/" ++ entry.node ++ ": pool update failed: " ++ err))
    | .ok () => (dropBinding entry config, w.succeed)

def result : Except String Unit :=
  if w.failures.isEmpty then .ok ()
  else
    let more := w.failures.length - 5
    let suffix := if 0 < more then " (and " ++ toString more ++ " more)" else ""
    .error ("apply-pending: " ++ toString w.ok ++ "/" ++ toString w.total ++ " succeeded, " ++
      toString w.failures.length ++ " failed: " ++ "; ".intercalate (w.failures.take 5) ++ suffix)

theorem dropBinding_eq : dropBinding entry config = (clearPendingStep (config, 0) { entry with op := .push }).1 := by
  unfold dropBinding clearPendingStep
  cases config.get? entry.key with
  | none => rfl
  | some =>
    simp only
    split <;> rfl

theorem dropBinding_changes : Changes config (dropBinding entry config) :=
  dropBinding_eq entry config ▸ clearPendingStep_changes (config, 0) _

theorem drop_changes (saved) : Changes config (w.drop config saved).1 := by
  unfold drop
  split
  · exact .refl config
  · next entry _ =>
    cases saved with
    | error => exact .refl config
    | ok => exact dropBinding_changes entry config

end Worker

end Nexus.Subscriptions
