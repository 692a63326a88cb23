import Mathlib.Logic.Function.Basic
import Nexus.Subscriptions.Worker

/-!
# The key pool under all requests

The pool with the requests in flight and the workers. A request reads the pool without the lock, at up to three moments;
its locked part is one step. `Request.Commits` says once what each request does to the pool. Every step makes changes
only (`step_changes`), so the invariant of the pool holds at any time (`poolOk_of_run`).
-/

namespace Nexus.Subscriptions

open Lib Function

/-! ## Requests -/

inductive Request (δ : Type)
  | addKeys (keys : List String) (digest : Option δ)
  | deleteKey (key : String) (digest : Option δ)
  | setAssignment (key remote node : String) (digest : Option δ)
  | clearAssignment (key : String) (digest : Option δ)
  | queueClear (remote node : String) (digest : Option δ)
  | revertPendingClear (remote node : String) (digest : Option δ)
  | adoptKey (remote node : String) (digest : Option δ)
  | adoptAll (digest : Option δ)
  | bulkAssign (proposal : AutoAssignProposal δ)
  | clearPending (digest : Option δ)
  | applyPending (digest : Option δ)

inductive Response
  | done
  | added (result : AddKeysResult)
  | adopted (entries : List AdoptedEntry)
  | assigned (applied : List ProposedAssignment)
  | cleared (count : Nat)
  | worker (auth : Option Authid)

/-- What a request meets at its moments. -/
structure Env where
  rpcenv : RpcEnvironment
  (start fetch locked : World)
  live : Live

/-- The pools that a request has read without the lock. -/
structure Snapshots where
  (start status pending : KeyConfig)

variable {δ : Type} (ext : External δ) {request : Request δ}

def pendingChanges (env : Env) (snapshots : Snapshots) (digest : Option δ) (auth : Authid) :
    Except ApiError (List PendingEntry) := do
  ext.detectModification (ext.digest snapshots.start) digest
  let statuses := collectNodeStatus env.fetch env.live auth snapshots.status
  return computePending env.start auth statuses snapshots.pending

def Request.run (env : Env) (snapshots : Snapshots) (pool : KeyConfig) :
    Request δ → Except ApiError (KeyConfig × Response)
  | .addKeys keys digest => do
    let (entries, result) ← addKeysPre keys
    let config ← addKeysLocked ext entries digest pool
    return (config, .added result)
  | .deleteKey key digest => do
    let auth ← env.rpcenv.getAuthId
    let pre ← deleteKeyPre ext env.start env.fetch env.live auth key snapshots.start
    let config ← deleteKeyLocked ext env.locked auth key digest pre pool
    return (config, .done)
  | .setAssignment key remote node digest => do
    let auth ← env.rpcenv.getAuthId
    let pre ← setAssignmentPre ext env.start env.fetch env.live auth key remote node snapshots.start
    let config ← setAssignmentLocked ext env.locked auth key remote node digest pre pool
    return (config, .done)
  | .clearAssignment key digest => do
    let auth ← env.rpcenv.getAuthId
    let pre ← clearAssignmentPre ext env.start env.fetch env.live auth key snapshots.start
    let config ← clearAssignmentLocked ext env.locked auth key digest pre pool
    return (config, .done)
  | .queueClear remote node digest => do
    let auth ← env.rpcenv.getAuthId
    env.start.checkModify auth remote
    let config ← queueClearLocked ext remote node digest pool
    return (config, .done)
  | .revertPendingClear remote node digest => do
    let auth ← env.rpcenv.getAuthId
    env.start.checkModify auth remote
    let config ← revertPendingClearLocked ext remote node digest pool
    return (config, .done)
  | .adoptKey remote node digest => do
    let auth ← env.rpcenv.getAuthId
    let pre ← adoptKeyPre ext env.start env.fetch env.live auth remote node snapshots.start
    let config ← adoptKeyLocked ext remote node digest pre pool
    return (config, .done)
  | .adoptAll digest => do
    let auth ← env.rpcenv.getAuthId
    let statuses := collectNodeStatus env.fetch env.live auth snapshots.status
    let (config, adopted) ← adoptAllLocked ext env.locked auth digest statuses pool
    return (config, .adopted adopted)
  | .bulkAssign proposal => do
    let auth ← env.rpcenv.getAuthId
    bulkAssignPre ext (collectNodeStatus env.fetch env.live auth snapshots.status) proposal
    let (config, applied) ← bulkAssignLocked ext env.locked auth proposal pool
    return (config, .assigned applied)
  | .clearPending digest => do
    let auth ← env.rpcenv.getAuthId
    let pending ← pendingChanges ext env snapshots digest auth
    if pending.isEmpty then return (pool, .cleared 0)
    else
      let (config, cleared) ← clearPendingLocked ext digest pending pool
      return (config, .cleared cleared)
  | .applyPending digest => do
    let auth ← env.rpcenv.getAuthId
    let pending ← pendingChanges ext env snapshots digest auth
    return (pool, .worker (if pending.isEmpty then none else some auth))

/-- **What a request that succeeds has done to the pool.** -/
inductive Request.Commits (env : Env) (snapshots : Snapshots) (pool : KeyConfig) : Request δ → KeyConfig → Prop
  | addKeys {keys digest made config}
      (hmade : addKeysEntries [] keys = .ok made) (hlocked : insertAll made.1 pool = .ok config) :
      Commits env snapshots pool (.addKeys keys digest) config
  | deleteKey {key digest auth pre config}
      (hauth : env.rpcenv.getAuthId = .ok auth)
      (hpre : deleteKeyPre ext env.start env.fetch env.live auth key snapshots.start = .ok pre)
      (hlocked : deleteKeyLocked ext env.locked auth key digest pre pool = .ok config) :
      Commits env snapshots pool (.deleteKey key digest) config
  | setAssignment {key remote node digest auth pre config}
      (hauth : env.rpcenv.getAuthId = .ok auth)
      (hpre : setAssignmentPre ext env.start env.fetch env.live auth key remote node snapshots.start = .ok pre)
      (hlocked : setAssignmentLocked ext env.locked auth key remote node digest pre pool = .ok config) :
      Commits env snapshots pool (.setAssignment key remote node digest) config
  | clearAssignment {key digest auth pre config}
      (hauth : env.rpcenv.getAuthId = .ok auth)
      (hpre : clearAssignmentPre ext env.start env.fetch env.live auth key snapshots.start = .ok pre)
      (hlocked : clearAssignmentLocked ext env.locked auth key digest pre pool = .ok config) :
      Commits env snapshots pool (.clearAssignment key digest) config
  | queueClear {remote node digest auth config}
      (hauth : env.rpcenv.getAuthId = .ok auth) (priv : env.start.checkModify auth remote = .ok ())
      (hlocked : queueClearLocked ext remote node digest pool = .ok config) :
      Commits env snapshots pool (.queueClear remote node digest) config
  | revertPendingClear {remote node digest auth config}
      (hauth : env.rpcenv.getAuthId = .ok auth) (priv : env.start.checkModify auth remote = .ok ())
      (hlocked : revertPendingClearLocked ext remote node digest pool = .ok config) :
      Commits env snapshots pool (.revertPendingClear remote node digest) config
  | adoptKey {remote node digest auth pre config}
      (hauth : env.rpcenv.getAuthId = .ok auth)
      (hpre : adoptKeyPre ext env.start env.fetch env.live auth remote node snapshots.start = .ok pre)
      (hadopt : adopt ext pre.2 remote node pool = .ok config) :
      Commits env snapshots pool (.adoptKey remote node digest) config
  | adoptAll {digest auth result}
      (hauth : env.rpcenv.getAuthId = .ok auth)
      (hloop : (collectNodeStatus env.fetch env.live auth snapshots.status).foldl (adoptAllStep ext env.locked auth)
        (pool, []) = result) :
      Commits env snapshots pool (.adoptAll digest) (if result.2.isEmpty then pool else result.1)
  | bulkAssign {proposal auth} {result : KeyConfig × List ProposedAssignment}
      (hauth : env.rpcenv.getAuthId = .ok auth)
      (hloop : proposal.assignments.foldl (bulkAssignStep ext env.locked auth) (pool, []) = result) :
      Commits env snapshots pool (.bulkAssign proposal) (if result.2.isEmpty then pool else result.1)
  | clearPending {digest auth result}
      (hauth : env.rpcenv.getAuthId = .ok auth)
      (hloop : (computePending env.start auth (collectNodeStatus env.fetch env.live auth snapshots.status)
        snapshots.pending).foldl clearPendingStep (pool, 0) = result) :
      Commits env snapshots pool (.clearPending digest) (if result.2 = 0 then pool else result.1)
  | applyPending {digest} : Commits env snapshots pool (.applyPending digest) pool

variable {ext} {env : Env} {snapshots : Snapshots} {pool : KeyConfig}

theorem Request.commits_of_run {config response} (h : request.run ext env snapshots pool = .ok (config, response)) :
    request.Commits ext env snapshots pool config := by
  cases request <;> simp only [Request.run, bind_eq_ok, pure_eq_ok, Prod.mk.injEq] at h
  case addKeys keys digest =>
    obtain ⟨made, hpre, _, hlock, rfl, -⟩ := h
    simp only [addKeysPre, bind_eq_ok, pure_eq_ok] at hpre
    obtain ⟨_, -, _, hmade, rfl⟩ := hpre
    obtain ⟨_, -, hlock⟩ := bind_eq_ok.mp hlock
    exact .addKeys hmade hlock
  case deleteKey key digest =>
    obtain ⟨auth, hauth, pre, hpre, _, hlock, rfl, -⟩ := h
    exact .deleteKey hauth hpre hlock
  case setAssignment key remote node digest =>
    obtain ⟨auth, hauth, pre, hpre, _, hlock, rfl, -⟩ := h
    exact .setAssignment hauth hpre hlock
  case clearAssignment key digest =>
    obtain ⟨auth, hauth, pre, hpre, _, hlock, rfl, -⟩ := h
    exact .clearAssignment hauth hpre hlock
  case queueClear remote node digest =>
    obtain ⟨auth, hauth, _, priv, _, hlock, rfl, -⟩ := h
    exact .queueClear hauth priv hlock
  case revertPendingClear remote node digest =>
    obtain ⟨auth, hauth, _, priv, _, hlock, rfl, -⟩ := h
    exact .revertPendingClear hauth priv hlock
  case adoptKey remote node digest =>
    obtain ⟨auth, hauth, pre, hpre, _, hlock, rfl, -⟩ := h
    simp only [adoptKeyLocked, bind_eq_ok] at hlock
    obtain ⟨_, -, _, -, adopted⟩ := hlock
    exact .adoptKey hauth hpre adopted
  case adoptAll digest =>
    obtain ⟨auth, hauth, _, hlock, rfl, -⟩ := h
    obtain ⟨_, -, hlock⟩ := bind_eq_ok.mp hlock
    obtain rfl := pure_eq_ok.mp hlock
    exact .adoptAll hauth rfl
  case bulkAssign proposal =>
    obtain ⟨auth, hauth, _, -, _, hlock, rfl, -⟩ := h
    obtain ⟨_, -, hlock⟩ := bind_eq_ok.mp hlock
    obtain rfl := pure_eq_ok.mp hlock
    exact .bulkAssign hauth rfl
  case clearPending digest =>
    obtain ⟨auth, hauth, _, hpend, h⟩ := h
    obtain ⟨_, -, hpend⟩ := bind_eq_ok.mp hpend
    obtain rfl := pure_eq_ok.mp hpend
    split at h
    · next hnil =>
      obtain ⟨rfl, -⟩ := Prod.mk.inj (pure_eq_ok.mp h)
      -- the loop would run over nothing
      have hloop : (computePending env.start auth (collectNodeStatus env.fetch env.live auth snapshots.status)
          snapshots.pending).foldl clearPendingStep (pool, 0) = (pool, 0) := by
        rw [List.isEmpty_iff.mp hnil]
        rfl
      exact .clearPending hauth hloop
    · obtain ⟨_, hlock, h⟩ := bind_eq_ok.mp h
      obtain ⟨rfl, -⟩ := Prod.mk.inj (pure_eq_ok.mp h)
      obtain ⟨_, -, hlock⟩ := bind_eq_ok.mp hlock
      obtain rfl := pure_eq_ok.mp hlock
      exact .clearPending hauth rfl
  case applyPending digest =>
    obtain ⟨auth, -, pending, -, rfl, -⟩ := h
    exact .applyPending

theorem Request.run_changes {result} (hok : PoolOk pool)
    (h : request.run ext env snapshots pool = .ok result) : Changes pool result.1 := by
  obtain ⟨config, response⟩ := result
  cases Request.commits_of_run h with
  | addKeys hmade hlock => exact insertAll_changes (fresh_of_addKeysEntries hmade) hlock
  | deleteKey _ _ hlock => exact deleteKeyLocked_changes hlock
  | setAssignment _ _ hlock => exact setAssignmentLocked_changes hok hlock
  | clearAssignment _ _ hlock => exact clearAssignmentLocked_changes hlock
  | queueClear _ _ hlock => exact flipPendingClear_changes hlock
  | revertPendingClear _ _ hlock => exact flipPendingClear_changes hlock
  | adoptKey _ _ adopted => exact adopt_changes adopted
  | adoptAll _ hloop =>
    subst hloop
    exact (Changes.foldl (π := Prod.fst) (fun acc n _ => adoptAllStep_changes acc n) _ (pool, []) hok).ite _
  | bulkAssign _ hloop =>
    subst hloop
    exact (Changes.foldl (π := Prod.fst) bulkAssignStep_changes _ (pool, []) hok).ite _
  | clearPending _ hloop =>
    subst hloop
    exact (Changes.foldl (π := Prod.fst) (fun acc e _ => clearPendingStep_changes acc e) _ (pool, 0) hok).ite _
  | applyPending => exact .refl pool

/-! ## Runs -/

inductive Task
  | scheduled (auth : Authid)
  | running (worker : Worker)

structure System where
  pool : KeyConfig
  snapshots : Nat → Snapshots
  tasks : Nat → Option Task

inductive Moment
  | start | status | pending

inductive Action (δ : Type)
  | look (id : Nat) (moment : Moment)
  | commit (id : Nat) (request : Request δ) (env : Env) (saved : Bool)
  | plan (id : Nat) (world : World) (live : Live)
  | next (id : Nat) (answer : Except String Unit)
  | drop (id : Nat) (saved : Except String Unit)

def Snapshots.look (snapshots : Snapshots) (pool : KeyConfig) : Moment → Snapshots
  | .start => ⟨pool, pool, pool⟩
  | .status => ⟨snapshots.start, pool, pool⟩
  | .pending => ⟨snapshots.start, snapshots.status, pool⟩

namespace System

def init : System where
  pool := OrderedMap.empty
  snapshots := fun _ => ⟨OrderedMap.empty, OrderedMap.empty, OrderedMap.empty⟩
  tasks := fun _ => none

variable (ext : External δ)

def step (s : System) : Action δ → System
  | .look id moment =>
    { s with snapshots := update s.snapshots id ((s.snapshots id).look s.pool moment) }
  | .commit id request env saved =>
    match request.run ext env (s.snapshots id) s.pool, saved with
    | .ok (_, .worker (some auth)), _ => { s with tasks := update s.tasks id (some (.scheduled auth)) }
    | .ok (config, _), true => { s with pool := config }
    | _, _ => s
  | .plan id world live =>
    match s.tasks id with
    | some (.scheduled auth) =>
      { s with tasks := update s.tasks id (some (.running (.plan world live auth s.pool))) }
    | _ => s
  | .next id answer =>
    match s.tasks id with
    | some (.running worker) =>
      { s with tasks := update s.tasks id (some (.running (worker.next s.pool answer))) }
    | _ => s
  | .drop id saved =>
    match s.tasks id with
    | some (.running worker) =>
      let (pool, worker) := worker.drop s.pool saved
      { s with pool := pool, tasks := update s.tasks id (some (.running worker)) }
    | _ => s

theorem step_commit_cases (s : System) (id : Nat) (request : Request δ) (env : Env) (saved : Bool) :
    (∃ config auth, request.run ext env (s.snapshots id) s.pool = .ok (config, .worker (some auth)) ∧
      s.step ext (.commit id request env saved) = { s with tasks := update s.tasks id (some (.scheduled auth)) }) ∨
    (∀ config auth, request.run ext env (s.snapshots id) s.pool ≠ .ok (config, .worker (some auth))) ∧
      (s.step ext (.commit id request env saved) = s ∨
        ∃ config response, request.run ext env (s.snapshots id) s.pool = .ok (config, response) ∧
          s.step ext (.commit id request env saved) = { s with pool := config }) := by
  cases hrun : request.run ext env (s.snapshots id) s.pool with
  | error => exact .inr ⟨nofun, .inl (by simp only [step, hrun])⟩
  | ok result =>
    obtain ⟨config, response⟩ := result
    by_cases hw : ∃ auth, response = .worker (some auth)
    · obtain ⟨auth, rfl⟩ := hw
      exact .inl ⟨config, auth, rfl, by simp only [step, hrun]⟩
    · refine .inr ⟨fun c auth h => hw ⟨auth, (Prod.mk.inj (Except.ok.inj h)).2⟩, ?_⟩
      have hsave : s.step ext (.commit id request env saved) = if saved then { s with pool := config } else s := by
        simp only [step, hrun]
        cases saved <;> split <;> simp_all
      rw [hsave]
      cases saved with
      | false => exact .inl rfl
      | true => exact .inr ⟨config, response, rfl, rfl⟩

def run (actions : List (Action δ)) : System := actions.foldl (step ext) init

variable {ext}

theorem step_changes (s : System) (a : Action δ) (hok : PoolOk s.pool) : Changes s.pool (s.step ext a).pool := by
  cases a with
  | look => exact .refl s.pool
  | commit =>
    simp only [step]
    split
    · exact .refl s.pool
    · next hrun => exact Request.run_changes hok hrun
    · exact .refl s.pool
  | plan =>
    simp only [step]
    split <;> exact .refl s.pool
  | next =>
    simp only [step]
    split <;> exact .refl s.pool
  | drop _ saved =>
    simp only [step]
    split
    · next worker _ => exact worker.drop_changes s.pool saved
    · exact .refl s.pool

theorem run_changes (actions : List (Action δ)) : Changes OrderedMap.empty (run ext actions).pool :=
  Changes.foldl (π := System.pool) step_changes actions init poolOk_empty

/-- **The pool keeps its invariant** under any interleaving of requests and workers. -/
theorem poolOk_of_run (ext : External δ) (actions : List (Action δ)) : PoolOk (run ext actions).pool :=
  (run_changes actions).poolOk poolOk_empty

end System

end Nexus.Subscriptions
