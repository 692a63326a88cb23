import Nexus.Subscriptions.Unbinding

/-!
# Orphaned subscriptions

A key that is dropped from its node while the node runs it leaves a subscription that nobody manages. `Fleet` is the
pool with what the nodes run. No step leaves an orphan if what it was told is still true
(`Fleet.no_orphan_of_informed`), and a push between the query and the lock is enough to get one
(`Fleet.push_before_unassign_orphans`).
-/

namespace Nexus.Subscriptions

open Lib Function

/-! ## The pool and the nodes -/

/-- The pool, the nodes, and what requests and workers were told. -/
structure Fleet where
  sys : System
  nodes : String → NodeSubscriptions
  told : Nat → String → NodeSubscriptions
  waiting : Nat → Option PendingEntry
  strays : List PendingEntry

namespace Fleet

inductive Action (δ : Type)
  | look (id : Nat) (moment : Moment)
  /-- A request asks a remote for the subscriptions of its nodes. -/
  | ask (id : Nat) (remote : String)
  | commit (id : Nat) (request : Request δ) (rpcenv : RpcEnvironment) (start fetch locked : World) (saved : Bool)
  | plan (id : Nat) (world : World)
  | next (id : Nat) (answer : Except String Unit)
  /-- The call of a worker is carried out by the node, before the worker has its answer. -/
  | land (id : Nat) (info : NodeSubscriptionInfo)
  /-- A call that has failed by a timeout is carried out all the same. -/
  | stray (entry : PendingEntry) (info : NodeSubscriptionInfo)
  | drop (id : Nat) (saved : Except String Unit)

def init (pool : KeyConfig) (nodes : String → NodeSubscriptions) : Fleet where
  sys := { System.init with pool := pool }
  nodes := nodes
  told := fun _ => nodes
  waiting := fun _ => none
  strays := []

def landed (e : PendingEntry) (info : NodeSubscriptionInfo) : NodeSubscriptionInfo :=
  match e.op with
  | .push => { info with key := some e.key }
  | .clear => { info with key := none }

def after (s : Fleet) (e : PendingEntry) (info : NodeSubscriptionInfo) : String → NodeSubscriptions :=
  update s.nodes e.remote ((s.nodes e.remote).insert e.node (some (landed e info)))

def called (s : Fleet) (id : Nat) : Option PendingEntry :=
  match s.sys.tasks id with
  | some (.running w) => w.call s.sys.pool
  | _ => none

def live (s : Fleet) (id : Nat) : Live := fun remote => .ok (s.told id remote)

section

variable {δ : Type} (ext : External δ) {id : Nat}

def step (s : Fleet) : Action δ → Fleet
  | .look id moment => { s with sys := s.sys.step ext (.look id moment) }
  | .ask id remote =>
    match s.sys.tasks id with
    -- a worker asks before it has its plan, and never again
    | some (.running _) => s
    | _ => { s with told := update s.told id (update (s.told id) remote (s.nodes remote)) }
  | .commit id request rpcenv start fetch locked saved =>
    { s with sys := s.sys.step ext (.commit id request ⟨rpcenv, start, fetch, locked, s.live id⟩ saved) }
  | .plan id world => { s with sys := s.sys.step ext (.plan id world (s.live id)) }
  | .next id answer =>
    match s.waiting id with
    | some _ => s
    | none =>
      let s' := { s with sys := s.sys.step ext (.next id answer) }
      match s.called id, answer with
      | none, _ => s'
      | some e, .ok () => { s' with waiting := update s.waiting id (some e) }
      | some e, .error _ => { s' with strays := e :: s.strays }
  | .land id info =>
    match s.waiting id with
    | none => s
    | some e =>
      { s with
        nodes := s.after e info
        told := update s.told id (update (s.told id) e.remote (s.after e info e.remote))
        waiting := update s.waiting id none }
  | .stray e info => if e ∈ s.strays then { s with nodes := s.after e info, strays := s.strays.erase e } else s
  | .drop id saved =>
    match s.waiting id with
    | some _ => s
    | none => { s with sys := s.sys.step ext (.drop id saved) }

def run (pool : KeyConfig) (nodes : String → NodeSubscriptions) (actions : List (Action δ)) : Fleet :=
  actions.foldl (step ext) (init pool nodes)

/-- The node runs the key. -/
def Runs (s : Fleet) (key remote node : String) : Prop := Active (s.nodes remote) node key

def UpToDate (s : Fleet) (id : Nat) (remote : String) : Prop := s.told id remote = s.nodes remote

/-- Whoever drops or moves bindings knows what the nodes run. -/
def Informed (s : Fleet) : Action δ → Prop
  | .commit id request rpcenv start fetch _ _ =>
    match request with
    | .deleteKey key _ | .clearAssignment key _ | .setAssignment key _ _ _ =>
      ∀ remote node, s.sys.pool.bindingOf key = some (remote, node) →
        (fetch.remotes.get? remote).isSome ∧ s.UpToDate id remote
    | .clearPending _ =>
      ∀ auth key remote node, rpcenv.getAuthId = .ok auth → s.sys.pool.bindingOf key = some (remote, node) →
        start.mayModify auth remote →
        remote ∈ (fetch.visibleRemotes auth).map Prod.fst ∧ s.UpToDate id remote
    | _ => True
  | .drop id _ =>
    ∀ w e, s.sys.tasks id = some (.running w) → w.dropping = some e →
      (w.remotes.get? e.remote).isSome ∧ s.UpToDate id e.remote
  | _ => True

/-! ## What a worker knows -/

def Deleted (s : Fleet) (id : Nat) (w : Worker) (e : PendingEntry) : Prop :=
  e.op = .clear ∧ (s.waiting id = some e ∨ (s.waiting id = none ∧
    ((w.remotes.get? e.remote).isSome → ∀ key, ¬ Active (s.told id e.remote) e.node key)))

def WorkersKnow (s : Fleet) : Prop :=
  ∀ id w e, s.sys.tasks id = some (.running w) → w.dropping = some e → s.Deleted id w e

variable {ext} {s : Fleet}

theorem WorkersKnow.set (h : s.WorkersKnow) {task pool}
    (hidle : ∀ w, task = .running w → w.dropping = none) : WorkersKnow { s with
      sys := { s.sys with pool := pool, tasks := update s.sys.tasks id (some task) } } := by
  intro id' w e ht hd
  by_cases hid : id' = id
  · subst hid
    rw [hidle w (by simpa using ht)] at hd
    cases hd
  · exact h id' w e (by simpa [update_of_ne hid] using ht) hd

theorem workersKnow_plan (h : s.WorkersKnow) (id : Nat) (world) (live) :
    WorkersKnow { s with sys := s.sys.step ext (.plan id world live) } := by
  simp only [System.step]
  split
  · refine h.set ?_
    rintro _ ⟨⟩
    rfl
  · exact h

theorem workersKnow_drop (h : s.WorkersKnow) (id : Nat) (saved) :
    WorkersKnow { s with sys := s.sys.step ext (.drop id saved) } := by
  simp only [System.step]
  split
  · refine h.set ?_
    rintro _ ⟨⟩
    unfold Worker.drop
    split
    · assumption
    · cases saved <;> rfl
  · exact h

theorem step_next (ext : External δ) (answer : Except String Unit) (hw : s.waiting id = none) :
    (s.step ext (.next id answer)).sys = s.sys.step ext (.next id answer) ∧
    (s.step ext (.next id answer)).told = s.told ∧
    (s.step ext (.next id answer)).waiting = update s.waiting id (if answer = .ok () then s.called id else none) := by
  have hkept : update s.waiting id none = s.waiting := hw ▸ update_eq_self id s.waiting
  simp only [step, hw]
  cases hcall : s.called id with
  | none => simp [hkept]
  | some =>
    cases answer with
    | error => simp [hkept]
    | ok => exact ⟨rfl, rfl, rfl⟩

theorem workersKnow_next (h : s.WorkersKnow) (id : Nat) (answer : Except String Unit) :
    WorkersKnow (s.step ext (.next id answer)) := by
  cases hw : s.waiting id with
  | some =>
    have blocked : s.step ext (.next id answer) = s := by simp only [step, hw]
    rw [blocked]
    exact h
  | none =>
    obtain ⟨hsys, htold, hwait⟩ := step_next ext answer hw
    intro id' w e ht hd
    rw [Deleted, htold, hwait]
    rw [hsys] at ht
    simp only [System.step] at ht
    split at ht
    · next worker htask =>
      by_cases hid : id' = id
      · subst hid
        simp only [update_self, Option.some.injEq, Task.running.injEq] at ht ⊢
        subst ht
        have remotes : (worker.next s.sys.pool answer).remotes = worker.remotes := (worker.step_plan (.next _ _)).1
        have hcal : s.called id' = worker.call s.sys.pool := by simp [called, htask]
        rw [remotes, hcal]
        rcases Worker.next_dropping hd with ⟨hd, hcall⟩ | ⟨hop, ⟨hcall, rfl⟩ | ⟨hcall, remote⟩⟩
        · obtain ⟨hop, before⟩ := h id' worker e htask hd
          simp only [hw, reduceCtorEq, true_and, false_or] at before
          exact ⟨hop, .inr ⟨by simp [hcall], before⟩⟩
        · exact ⟨hop, .inl (by simp [hcall])⟩
        · exact ⟨hop, .inr ⟨by simp [hcall], by simp [remote]⟩⟩
      · rw [update_of_ne hid]
        exact h id' w e (by simpa [update_of_ne hid] using ht) hd
    · next hidle =>
      have hid : id' ≠ id := fun hid => hidle w (hid ▸ ht)
      rw [update_of_ne hid]
      exact h id' w e ht hd

theorem workersKnow_land (h : s.WorkersKnow) (id : Nat) (info) : WorkersKnow (s.step ext (.land id info)) := by
  simp only [step]
  split
  · exact h
  · next sent hsent =>
    intro id' w e ht hd
    obtain ⟨hop, before⟩ := h id' w e ht hd
    by_cases hid : id' = id
    · subst hid
      simp only [hsent, Option.some.injEq, reduceCtorEq, false_and, or_false] at before
      subst before
      refine ⟨hop, .inr ⟨by simp, fun _ key active => ?_⟩⟩
      simp only [update_self] at active
      obtain ⟨found, hfnd, -, hkey⟩ := active
      simp only [after, update_self, OrderedMap.get?_insert, if_true, Option.some.injEq] at hfnd
      simp [← hfnd, landed, hop] at hkey
    · refine ⟨hop, ?_⟩
      simpa [update_of_ne hid] using before

theorem workersKnow_step (h : s.WorkersKnow) (a) : WorkersKnow (s.step ext a) := by
  cases a with
  | look => exact h
  | ask id =>
    simp only [step]
    split
    · exact h
    · next hidle =>
      intro id' w e ht hd
      have hid : id' ≠ id := fun hid => hidle w (hid ▸ ht)
      simpa [Deleted, update_of_ne hid] using h id' w e ht hd
  | commit id request rpcenv start fetch locked saved =>
    simp only [step]
    rcases s.sys.step_commit_cases ext id request ⟨rpcenv, start, fetch, locked, s.live id⟩ saved with
      ⟨_, auth, -, hstep⟩ | ⟨-, hstep | ⟨_, _, -, hstep⟩⟩ <;> rw [hstep]
    · refine h.set fun w hw => ?_
      cases hw
    · exact h
    · exact h
  | plan id world => exact workersKnow_plan h id world _
  | next id answer => exact workersKnow_next h id answer
  | land id info => exact workersKnow_land h id info
  | stray =>
    simp only [step]
    split <;> exact h
  | drop id saved =>
    simp only [step]
    split
    · exact h
    · exact workersKnow_drop h id saved

theorem workersKnow_run (pool) (nodes) (actions) : WorkersKnow (run ext pool nodes actions) :=
  List.foldlRecOn actions (step ext) (fun _ _ _ ht => by cases ht) fun _ h a _ => workersKnow_step h a

/-! ## No orphans -/

theorem keepsRunning_request (digest : Function.Injective ext.digest) {request rpcenv start fetch locked saved result}
    (hinf : s.Informed (.commit id request rpcenv start fetch locked saved))
    (h : request.run ext ⟨rpcenv, start, fetch, locked, s.live id⟩ (s.sys.snapshots id) s.sys.pool = .ok result) :
    KeepsRunning s.Runs s.sys.pool result.1 := by
  have synced : ∀ key, (∀ remote node, s.sys.pool.bindingOf key = some (remote, node) →
      (fetch.remotes.get? remote).isSome ∧ s.UpToDate id remote) →
      ToldOf s.Runs fetch (s.live id) key (s.sys.pool.bindingOf key) := by
    intro key htold remote node hr hb
    obtain ⟨hknown, hnow⟩ := htold remote node hb
    obtain ⟨r, hget⟩ := Option.isSome_iff_exists.mp hknown
    obtain ⟨info, hinfo, status, hkey⟩ : Active (s.told id remote) node key := hnow ▸ hr
    simp [checkSyncedAssignmentForUnassign, live, hget, hinfo, status, hkey]
  cases hunb : request.unbinds with
  | false => exact Request.run_keeps hunb h
  | true =>
    obtain ⟨config, response⟩ := result
    cases Request.commits_of_run h with
    | deleteKey _ hpre hlock => exact deleteKey_keeps digest (synced _ hinf) hpre hlock
    | setAssignment _ hpre hlock => exact setAssignment_keeps digest (synced _ hinf) hpre hlock
    | clearAssignment _ hpre hlock => exact clearAssignment_keeps digest (synced _ hinf) hpre hlock
    | @clearPending _ auth _ hauth _ =>
      refine clearPending_keeps hauth (fun key remote node hr hb may => ?_) h
      obtain ⟨hvis, hnow⟩ := hinf auth key remote node hauth hb may
      obtain ⟨info, hinfo, -, hkey⟩ := hr
      refine ⟨hvis, ?_⟩
      simp [nodeKey, live, hnow.symm ▸ hinfo, hkey]
    | _ => cases hunb

theorem keepsRunning_drop (ext : External δ) (hknow : s.WorkersKnow) {saved}
    (hw : s.waiting id = none) (hinf : s.Informed (.drop id saved : Action δ)) :
    KeepsRunning s.Runs s.sys.pool (s.sys.step ext (.drop id saved)).pool := by
  simp only [System.step]
  split
  · next w htask =>
    simp only [Worker.drop]
    split
    · exact .refl _
    · next e hdrop =>
      cases saved with
      | error => exact .refl _
      | ok =>
        obtain ⟨hknown, hnow⟩ := hinf w e htask hdrop
        obtain ⟨-, hdel⟩ := hknow id w e htask hdrop
        simp only [hw, reduceCtorEq, true_and, false_or] at hdel
        simp only [Worker.dropBinding]
        split
        · exact .refl _
        · next stored hstored =>
          split
          · next hto =>
            refine .insert fun remote node hr hb => ?_
            rw [KeyConfig.bindingOf, hstored] at hb
            obtain ⟨rfl, rfl⟩ := Prod.mk.inj (Option.some.inj ((boundTo_iff.mp hto).symm.trans hb))
            exact absurd (hnow ▸ hr) (hdel hknown e.key)
          · exact .refl _
  · exact .refl _

/-- **No step drops or moves the binding of a key that its node runs, if what the step was told is still so.** -/
theorem no_orphan_of_informed (ext : External δ) (hdigest : Function.Injective ext.digest) (pool : KeyConfig)
    (nodes : String → NodeSubscriptions) (actions : List (Action δ)) (a : Action δ)
    (hinformed : (run ext pool nodes actions).Informed a) :
    KeepsRunning (run ext pool nodes actions).Runs (run ext pool nodes actions).sys.pool
      ((run ext pool nodes actions).step ext a).sys.pool := by
  have hknow : WorkersKnow (run ext pool nodes actions) := workersKnow_run pool nodes actions
  generalize run ext pool nodes actions = s at *
  cases a with
  | look id moment => exact .refl _
  | ask id remote =>
    simp only [step]
    split <;> exact .refl _
  | commit id request rpcenv start fetch locked saved =>
    simp only [step]
    rcases s.sys.step_commit_cases ext id request ⟨rpcenv, start, fetch, locked, s.live id⟩ saved with
      ⟨_, _, -, hstep⟩ | ⟨-, hstep | ⟨config, response, hrun, hstep⟩⟩ <;> rw [hstep]
    · exact .refl _
    · exact .refl _
    · exact keepsRunning_request hdigest hinformed hrun
  | plan id world =>
    simp only [step, System.step]
    split <;> exact .refl _
  | next id answer =>
    simp only [step, System.step]
    repeat' split
    all_goals exact .refl _
  | land id info =>
    simp only [step]
    split <;> exact .refl _
  | stray e info =>
    simp only [step]
    split <;> exact .refl _
  | drop id saved =>
    simp only [step]
    split
    · exact .refl _
    · next hw => exact keepsRunning_drop ext hknow hw hinformed

end

/-! ## A push between the query and the lock -/

namespace Sample

open Subscriptions.Sample (key world pool)

def ext : External (List (String × SubscriptionKeyEntry)) :=
  ⟨Sample.digestCheck, OrderedMap.entries, fun _ => true, id, fun _ => ""⟩

def nodes (info : NodeSubscriptionInfo) : String → NodeSubscriptions := fun _ => ⟨[("n", some info)], by simp⟩

def asked : List (Action (List (String × SubscriptionKeyEntry))) := [.look 0 .start, .ask 0 "pve-a"]

def unassign : Action (List (String × SubscriptionKeyEntry)) :=
  .commit 0 (.clearAssignment key none) ⟨some (.ok "root@pam")⟩ world world world true

def pushed : List (Action (List (String × SubscriptionKeyEntry))) :=
  [.look 1 .start, .ask 1 "pve-a", .commit 1 (.applyPending none) ⟨some (.ok "root@pam")⟩ world world world true,
    .plan 1 world, .next 1 (.ok ()), .land 1 ⟨.active, none, none, .basic⟩]

end Sample

theorem no_orphan_asked : ((run Sample.ext (Subscriptions.Sample.pool false)
    (Sample.nodes ⟨.active, none, some Subscriptions.Sample.key, .basic⟩) Sample.asked).step Sample.ext
      Sample.unassign).sys.pool.bindingOf Subscriptions.Sample.key = some ("pve-a", "n") := by
  refine no_orphan_of_informed Sample.ext (fun _ _ h => OrderedMap.ext_entries h) _ _ Sample.asked Sample.unassign ?_ _
    "pve-a" "n" ⟨⟨.active, none, some Subscriptions.Sample.key, .basic⟩, by decide, rfl, rfl⟩
      (by decide)
  intro remote node hb
  have hbound : (run Sample.ext (Subscriptions.Sample.pool false)
      (Sample.nodes ⟨.active, none, some Subscriptions.Sample.key, .basic⟩) Sample.asked).sys.pool.bindingOf
      Subscriptions.Sample.key = some ("pve-a", "n") := by decide
  obtain ⟨rfl, rfl⟩ := Prod.mk.inj (Option.some.inj (hb.symm.trans hbound))
  exact ⟨by decide, rfl⟩

/-- The request is told that the node has no key; a worker pushes it, and the request drops the binding. -/
theorem push_before_unassign_orphans : ¬ KeepsRunning
    (run Sample.ext (Subscriptions.Sample.pool false) (Sample.nodes ⟨.notFound, none, none, .none⟩)
      (Sample.asked ++ Sample.pushed)).Runs
    (run Sample.ext (Subscriptions.Sample.pool false) (Sample.nodes ⟨.notFound, none, none, .none⟩)
      (Sample.asked ++ Sample.pushed)).sys.pool
    ((run Sample.ext (Subscriptions.Sample.pool false) (Sample.nodes ⟨.notFound, none, none, .none⟩)
      (Sample.asked ++ Sample.pushed)).step Sample.ext Sample.unassign).sys.pool := by
  intro h
  have hkept := h Subscriptions.Sample.key "pve-a" "n"
    ⟨⟨.active, none, some Subscriptions.Sample.key, .basic⟩, by decide, rfl, rfl⟩ (by decide)
  revert hkept
  decide

end Fleet

end Nexus.Subscriptions
