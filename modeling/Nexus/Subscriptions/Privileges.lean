import Nexus.Subscriptions.Pending

/-!
# Who changes which entry

Whoever changes an entry of the pool may modify the remotes it was and is bound to (`Request.run_confined`). A worker
changes entries in the name of the caller that started it (`Attributed`), and `confined_of_run` is about all
interleavings.
-/

namespace Nexus.Subscriptions

open Lib Function World Option KeyConfig Env

/-! ## Confined changes -/

def Held (u : CachedUserInfo) (caller : Option Authid) (entry : Option SubscriptionKeyEntry) : Prop :=
  ∀ e ∈ entry, ∀ remote ∈ e.remote, ∃ auth ∈ caller, u.Holds auth ["resource", remote] privResourceModify

def Confined (u : CachedUserInfo) (caller : Option Authid) (before after : KeyConfig) : Prop :=
  ∀ key, before.get? key = after.get? key ∨ (Held u caller (before.get? key) ∧ Held u caller (after.get? key))

section

variable {u : CachedUserInfo} {caller : Option Authid} {auth : Authid} {config config' config'' : KeyConfig}
  {key remote : String} {entry entry' : SubscriptionKeyEntry}

theorem held_none : Held u caller none := fun _ he => by cases he

theorem held_of_unbound (h : entry.remote = none) : Held u caller (some entry) := by
  intro e he remote hr
  obtain rfl : entry = e := some.inj he
  rw [h] at hr
  cases hr

theorem held_of_remote (hu : u.Holds auth ["resource", remote] privResourceModify) (h : entry.remote = some remote) :
    Held u (some auth) (some entry) := by
  intro e he remote' hr
  obtain rfl : entry = e := some.inj he
  obtain rfl : remote = remote' := some.inj (h.symm.trans hr)
  exact ⟨auth, rfl, hu⟩

theorem Confined.refl (config) : Confined u caller config config := fun _ => .inl rfl

theorem Confined.trans (h : Confined u caller config config') (h' : Confined u caller config' config'') :
    Confined u caller config config'' := by
  intro key
  rcases h key with he | ⟨ho, hn⟩ <;> rcases h' key with he' | ⟨ho', hn'⟩
  · exact .inl (he.trans he')
  · exact .inr ⟨he ▸ ho', hn'⟩
  · exact .inr ⟨ho, he' ▸ hn⟩
  · exact .inr ⟨ho, hn'⟩

theorem Confined.insert (ho : Held u caller (config.get? key)) (hn : Held u caller (some entry)) :
    Confined u caller config (config.insert key entry) := by
  intro key'
  rw [OrderedMap.get?_insert]
  by_cases hk : key' = key
  · rw [if_pos hk, hk]
    exact .inr ⟨ho, hn⟩
  · exact .inl (if_neg hk).symm

theorem Confined.replace (hold : config.get? key = some entry) (ho : Held u caller (some entry))
    (hrem : entry'.remote = entry.remote ∨ entry'.remote = none) :
    Confined u caller config (config.insert key entry') := by
  refine .insert (hold ▸ ho) ?_
  rcases hrem with hr | hr
  · intro e he remote hr'
    obtain rfl : entry' = e := some.inj he
    exact ho entry rfl remote (hr ▸ hr')
  · exact held_of_unbound hr

theorem Confined.remove (ho : Held u caller (config.get? key)) : Confined u caller config (config.remove key) := by
  intro key'
  rw [OrderedMap.get?_remove]
  by_cases hk : key' = key
  · rw [if_pos hk, hk]
    exact .inr ⟨ho, held_none⟩
  · exact .inl (if_neg hk).symm

theorem Confined.foldl {τ β : Type} {π : τ → KeyConfig} {f : τ → β → τ} {l : List β}
    (body : ∀ x, ∀ b ∈ l, Confined u caller (π x) (π (f x b))) (x) : Confined u caller (π x) (π (l.foldl f x)) :=
  foldl_related .refl (fun _ _ _ => .trans) body x

theorem Confined.ite (h : Confined u caller config config') (p : Prop) [Decidable p] :
    Confined u caller config (if p then config else config') :=
  ite_related .refl h p

end

/-! ## Checks -/

section

variable {world : World} {auth : Authid} {remote : String}

theorem World.checkModify_eq_ok :
    world.checkModify auth remote = .ok () ↔ world.userInfo.Holds auth ["resource", remote] privResourceModify :=
  CachedUserInfo.checkPrivs_eq_ok

theorem World.mayModify_iff :
    world.mayModify auth remote ↔ world.userInfo.Holds auth ["resource", remote] privResourceModify := by
  rw [privResourceModify, CachedUserInfo.holds_privBit_iff (by omega)]
  simp [World.mayModify, privResourceModify]

theorem World.held_of_checkModifyBound {entry}
    (h : world.checkModifyBound auth entry.remote = .ok ()) : Held world.userInfo (some auth) (some entry) := by
  cases hr : entry.remote with
  | none => exact held_of_unbound hr
  | some =>
    rw [hr] at h
    exact held_of_remote (checkModify_eq_ok.mp h) hr

end

/-! ## The handlers -/

section

variable {δ : Type} {ext : External δ} {world : World} {u : CachedUserInfo} {auth : Authid}
  {key remote node : String} {digest : Option δ} {pre : PreRead δ} {config config' : KeyConfig}

theorem deleteKeyLocked_confined (h : deleteKeyLocked ext world auth key digest pre config = .ok config') :
    Confined world.userInfo (some auth) config config' := by
  simp only [deleteKeyLocked, bind_eq_ok, pure_eq_ok, find_eq_ok] at h
  obtain ⟨_, -, entry, stored, _, priv, _, -, rfl⟩ := h
  exact .remove (stored ▸ held_of_checkModifyBound priv)

theorem setAssignmentLocked_confined (hrem : world.userInfo.Holds auth ["resource", remote] privResourceModify)
    (h : setAssignmentLocked ext world auth key remote node digest pre config = .ok config') :
    Confined world.userInfo (some auth) config config' := by
  simp only [setAssignmentLocked, bind_eq_ok, find_eq_ok] at h
  obtain ⟨_, -, stored, hstored, _, priv, _, -, _, -, _, -, h⟩ := h
  split at h
  · cases h
  · obtain rfl := Except.ok.inj h
    refine .insert ?_ (held_of_remote hrem rfl)
    rw [hstored]
    intro e he prev hprev
    obtain rfl : stored = e := some.inj he
    by_cases hr : prev = remote
    · exact ⟨auth, rfl, hr ▸ hrem⟩
    · have hprev : stored.remote = some prev := hprev
      have filter : stored.remote.filter (· ≠ remote) = some prev := by simp [hprev, Option.filter, hr]
      rw [filter] at priv
      exact ⟨auth, rfl, checkModify_eq_ok.mp priv⟩

theorem clearAssignmentLocked_confined (h : clearAssignmentLocked ext world auth key digest pre config = .ok config') :
    Confined world.userInfo (some auth) config config' := by
  simp only [clearAssignmentLocked, bind_eq_ok, pure_eq_ok, find_eq_ok] at h
  obtain ⟨_, -, stored, hstored, _, priv, _, -, rfl⟩ := h
  exact .replace hstored (held_of_checkModifyBound priv) (.inr rfl)

theorem flipPendingClear_confined {pendingClear unbound already}
    (hrem : u.Holds auth ["resource", remote] privResourceModify)
    (h : flipPendingClear ext remote node pendingClear unbound already digest config = .ok config') :
    Confined u (some auth) config config' := by
  obtain ⟨id, entry, stored, hbound, rfl⟩ := flipPendingClear_eq_ok h
  exact .replace stored (held_of_remote hrem hbound) (.inl rfl)

theorem adopt_confined (hrem : u.Holds auth ["resource", remote] privResourceModify)
    (h : adopt ext key remote node config = .ok config') : Confined u (some auth) config config' := by
  rcases (adopt_eq_ok h).2 with ⟨existing, stored, hunb, rfl⟩ | ⟨productType, hnew, -, rfl⟩
  · exact .insert (stored ▸ held_of_unbound hunb) (held_of_remote hrem rfl)
  · exact .insert (hnew ▸ held_none) (held_of_remote hrem rfl)

theorem adoptAllStep_confined (acc) (n) :
    Confined world.userInfo (some auth) acc.1 (adoptAllStep ext world auth acc n).1 :=
  adoptAllStep_rule (.refl acc.1) fun _ may adopted => adopt_confined (mayModify_iff.mp may) adopted

theorem clearPendingStep_confined {caller e}
    (remote : ∃ auth ∈ caller, u.Holds auth ["resource", e.remote] privResourceModify) (acc) :
    Confined u caller acc.1 (clearPendingStep acc e).1 := by
  unfold clearPendingStep
  split
  · exact .refl _
  · next stored hstored =>
    split
    · next hto =>
      simp only [SubscriptionKeyEntry.boundTo, Bool.and_eq_true, decide_eq_true_eq] at hto
      obtain ⟨auth, rfl, hu⟩ := remote
      have ho := held_of_remote hu hto.1
      cases e.op with
      | clear => exact .replace hstored ho (.inl rfl)
      | push => exact .replace hstored ho (.inr rfl)
    · exact .refl _

end

/-! ## Fixed privileges -/

def World.withAcl (u : CachedUserInfo) (world : World) : World := { world with userInfo := u }

def Env.withAcl (u : CachedUserInfo) (env : Env) : Env :=
  { env with start := env.start.withAcl u, fetch := env.fetch.withAcl u, locked := env.locked.withAcl u }

def Env.caller (env : Env) : Option Authid := env.rpcenv.getAuthId.toOption

section

variable {δ : Type} {ext : External δ} {u : CachedUserInfo} {env : Env} {snapshots : Snapshots}
  {pool : KeyConfig} {auth : Authid}

theorem Env.caller_of_ok (h : env.rpcenv.getAuthId = .ok auth) : env.caller = some auth := by
  rw [Env.caller, h]
  rfl

theorem holds_of_mem_computePending {world statuses e} (h : e ∈ computePending world auth statuses pool) :
    world.userInfo.Holds auth ["resource", e.remote] privResourceModify := by
  obtain ⟨p, -, hfor⟩ := mem_computePending.mp h
  exact mayModify_iff.mp (pendingFor_spec hfor).2.2.1

theorem Request.run_confined {request : Request δ} {result : KeyConfig × Response}
    (h : request.run ext (env.withAcl u) snapshots pool = .ok result) : Confined u env.caller pool result.1 := by
  obtain ⟨config, response⟩ := result
  cases Request.commits_of_run h with
  | addKeys hmade hlock =>
    exact insertAll_related .refl .trans (fun entry he _ hnew => .insert (hnew ▸ held_none)
      (held_of_unbound (fresh_of_addKeysEntries hmade entry he).1)) hlock
  | deleteKey hauth _ hlock => exact caller_of_ok hauth ▸ deleteKeyLocked_confined hlock
  | setAssignment hauth hpre hlock =>
    obtain ⟨_, priv, -⟩ := bind_eq_ok.mp hpre
    have hu : u.Holds _ ["resource", _] privResourceModify := checkModify_eq_ok.mp priv
    exact caller_of_ok hauth ▸ setAssignmentLocked_confined hu hlock
  | clearAssignment hauth _ hlock => exact caller_of_ok hauth ▸ clearAssignmentLocked_confined hlock
  | queueClear hauth priv hlock =>
    exact caller_of_ok hauth ▸ flipPendingClear_confined (checkModify_eq_ok.mp priv) hlock
  | revertPendingClear hauth priv hlock =>
    exact caller_of_ok hauth ▸ flipPendingClear_confined (checkModify_eq_ok.mp priv) hlock
  | adoptKey hauth hpre adopted =>
    obtain ⟨_, priv, -⟩ := bind_eq_ok.mp hpre
    exact caller_of_ok hauth ▸ adopt_confined (checkModify_eq_ok.mp priv) adopted
  | adoptAll hauth hloop =>
    subst hloop
    rw [show env.caller = some _ from caller_of_ok hauth]
    exact (Confined.foldl (π := Prod.fst) (fun acc n _ => adoptAllStep_confined acc n) (pool, [])).ite _
  | bulkAssign hauth hloop =>
    subst hloop
    rw [show env.caller = some _ from caller_of_ok hauth]
    refine (Confined.foldl (π := Prod.fst) (fun acc p _ => ?_) (pool, [])).ite _
    exact bulkAssignStep_rule (.refl acc.1) fun may _ stored _ _ hunb =>
      .insert (stored ▸ held_of_unbound hunb) (held_of_remote (mayModify_iff.mp may) rfl)
  | clearPending hauth hloop =>
    subst hloop
    rw [show env.caller = some _ from caller_of_ok hauth]
    refine (Confined.foldl (π := Prod.fst) (fun acc e he => ?_) (pool, 0)).ite _
    exact clearPendingStep_confined ⟨_, rfl, holds_of_mem_computePending he⟩ acc
  | applyPending => exact .refl pool

end

/-! ## Workers and their callers -/

def Worker.Todo (w : Worker) (e : PendingEntry) : Prop := e ∈ w.pending ∨ w.dropping = some e

namespace Worker

variable {w : Worker} {e : PendingEntry} {config : KeyConfig} {answer : Except String Unit}

theorem todo_execute {entry} (h : (w.execute entry answer).Todo e) : w.Todo e ∨ e = entry := by
  have pending : (w.execute entry answer).pending = w.pending := by
    unfold execute fail succeed
    repeat' split
    all_goals rfl
  have hdrop : (w.execute entry answer).dropping = w.dropping ∨ (w.execute entry answer).dropping = some entry := by
    unfold execute fail succeed
    repeat' split
    all_goals simp
  rcases h with h | h
  · exact .inl (.inl (pending ▸ h))
  · rcases hdrop with hd | hd
    · exact .inl (.inr (hd ▸ h))
    · exact .inr (some.inj (h.symm.trans hd))

theorem todo_next (h : (w.next config answer).Todo e) : w.Todo e := by
  unfold next at h
  split at h
  · next entry pending hd hp =>
    have rest : Todo { w with pending := pending } e → w.Todo e := by
      rintro (h | h)
      · exact .inl (hp ▸ List.mem_cons_of_mem entry h)
      · exact .inr h
    simp only at h
    split at h
    · rcases todo_execute h with h | rfl
      · exact rest h
      · exact .inl (hp ▸ List.mem_cons_self)
    · exact rest h
  · exact h

theorem todo_drop {saved} (h : (w.drop config saved).2.Todo e) : w.Todo e := by
  unfold drop fail succeed at h
  split at h
  · exact h
  · rcases h with h | h
    · exact .inl (by cases saved <;> exact h)
    · cases saved <;> cases h

theorem drop_pool (w : Worker) (config : KeyConfig) (saved : Except String Unit) :
    (w.drop config saved).1 = config ∨ ∃ e, w.dropping = some e ∧ (w.drop config saved).1 = dropBinding e config := by
  unfold drop
  split
  · exact .inl rfl
  · next entry hd =>
    cases saved with
    | error => exact .inl rfl
    | ok => exact .inr ⟨entry, hd, rfl⟩

end Worker

structure Attributed where
  sys : System
  owner : Nat → Option Authid

def Action.withAcl {δ : Type} (u : CachedUserInfo) : Action δ → Action δ
  | .commit id request env saved => .commit id request (env.withAcl u) saved
  | .plan id world live => .plan id (world.withAcl u) live
  | action => action

namespace Attributed

def init : Attributed := ⟨System.init, fun _ => none⟩

section

variable {δ : Type} (ext : External δ)

def step (s : Attributed) (action : Action δ) : Attributed where
  sys := s.sys.step ext action
  owner := match action with
    | .commit id request env _ =>
      match request.run ext env (s.sys.snapshots id) s.sys.pool with
      | .ok (_, .worker (some auth)) => update s.owner id (some auth)
      | _ => s.owner
    | _ => s.owner

def run (actions : List (Action δ)) : Attributed := actions.foldl (step ext) init

def caller (s : Attributed) : Action δ → Option Authid
  | .commit _ _ env _ => env.caller
  | .plan id _ _ | .next id _ | .drop id _ => s.owner id
  | .look _ _ => none

structure Authorized (u : CachedUserInfo) (s : Attributed) : Prop where
  scheduled : ∀ id auth, s.sys.tasks id = some (.scheduled auth) → s.owner id = some auth
  running : ∀ id w, s.sys.tasks id = some (.running w) → ∀ e, w.Todo e →
    ∃ auth ∈ s.owner id, u.Holds auth ["resource", e.remote] privResourceModify

variable {ext} {u : CachedUserInfo} {s : Attributed}

theorem authorized_init : Authorized u init := ⟨nofun, nofun⟩

theorem Authorized.set (h : Authorized u s) {id task pool owner}
    (hown : ∀ id', id' ≠ id → owner id' = s.owner id') (hsch : ∀ auth, task = .scheduled auth → owner id = some auth)
    (running : ∀ w, task = .running w → ∀ e, w.Todo e →
      ∃ auth ∈ owner id, u.Holds auth ["resource", e.remote] privResourceModify) :
    Authorized u ⟨{ s.sys with pool := pool, tasks := update s.sys.tasks id (some task) }, owner⟩ := by
  constructor
  · intro id' auth htask
    by_cases hid : id' = id
    · subst hid
      exact hsch auth (by simpa using htask)
    · exact (hown id' hid).trans (h.scheduled id' auth (by simpa [hid] using htask))
  · intro id' w htask e he
    by_cases hid : id' = id
    · subst hid
      exact running w (by simpa using htask) e he
    · simp only [hown id' hid]
      exact h.running id' w (by simpa [hid] using htask) e he

theorem Authorized.update (h : Authorized u s) {id w w' pool}
    (hw : s.sys.tasks id = some (.running w)) (htodo : ∀ e, w'.Todo e → w.Todo e) :
    Authorized u ⟨{ s.sys with pool := pool, tasks := update s.sys.tasks id (some (.running w')) }, s.owner⟩ := by
  refine h.set (fun _ _ => rfl) nofun ?_
  rintro _ ⟨⟩ e he
  exact h.running id w hw e (htodo e he)

theorem authorized_step (action : Action δ) (h : Authorized u s) : Authorized u (s.step ext (action.withAcl u)) := by
  cases action with
  | look => exact ⟨h.scheduled, h.running⟩
  | commit id request env saved =>
    simp only [step, Action.withAcl]
    rcases s.sys.step_commit_cases ext id request (env.withAcl u) saved with
      ⟨config, auth, hrun, hstep⟩ | ⟨hno, hstep⟩
    · rw [hstep, hrun]
      refine h.set (fun id' hid => update_of_ne hid _ _) (fun auth' htask => ?_) fun w htask => ?_
      · cases htask
        exact update_self ..
      · cases htask
    · have hown : (match request.run ext (env.withAcl u) (s.sys.snapshots id) s.sys.pool with
          | .ok (_, .worker (some auth)) => update s.owner id (some auth)
          | _ => s.owner) = s.owner := by
        split
        · next hrun => exact absurd hrun (hno _ _)
        · rfl
      rw [hown]
      rcases hstep with hstep | ⟨config, response, -, hstep⟩ <;> rw [hstep] <;> exact ⟨h.scheduled, h.running⟩
  | plan id =>
    simp only [step, System.step, Action.withAcl]
    split
    · next auth htask =>
      refine h.set (fun _ _ => rfl) (fun auth' hplan => ?_) fun w hplan e he => ?_
      · cases hplan
      · cases hplan
        rcases he with he | he
        · exact ⟨auth, h.scheduled id auth htask, holds_of_mem_computePending he⟩
        · cases he
    · exact ⟨h.scheduled, h.running⟩
  | next =>
    simp only [step, System.step, Action.withAcl]
    split
    · next w hw => exact h.update hw fun e he => Worker.todo_next he
    · exact ⟨h.scheduled, h.running⟩
  | drop =>
    simp only [step, System.step, Action.withAcl]
    split
    · next w hw => exact h.update hw fun e he => Worker.todo_drop he
    · exact ⟨h.scheduled, h.running⟩

theorem confined_step (action : Action δ) (h : Authorized u s) :
    Confined u (s.caller (action.withAcl u)) s.sys.pool (s.step ext (action.withAcl u)).sys.pool := by
  cases action with
  | look => exact .refl _
  | commit id request env saved =>
    simp only [step, Action.withAcl]
    rcases s.sys.step_commit_cases ext id request (env.withAcl u) saved with
      ⟨config, auth, -, hstep⟩ | ⟨-, hstep | ⟨config, response, hrun, hstep⟩⟩ <;> rw [hstep]
    · exact .refl _
    · exact .refl _
    · exact Request.run_confined hrun
  | plan =>
    simp only [step, System.step, Action.withAcl]
    split <;> exact .refl _
  | next =>
    simp only [step, System.step, Action.withAcl]
    split <;> exact .refl _
  | drop id saved =>
    simp only [step, System.step, Action.withAcl]
    split
    · next w hw =>
      rcases w.drop_pool s.sys.pool saved with hp | ⟨e, hd, hp⟩
      · simp only [hp]
        exact .refl _
      · simp only [hp]
        rw [Worker.dropBinding_eq]
        exact clearPendingStep_confined (e := { e with op := .push }) (h.running id w hw e (.inr hd)) (s.sys.pool, 0)
    · exact .refl _

theorem authorized_run (actions : List (Action δ)) : Authorized u (run ext (actions.map (·.withAcl u))) := by
  rw [run, List.foldl_map]
  exact List.foldlRecOn (motive := fun s => Authorized u s) actions _ authorized_init
    fun s hs action _ => authorized_step action hs

/-- **Whoever changes or removes an entry may modify the remote it was bound to, and the one it is bound to then.** -/
theorem confined_of_run (ext : External δ) (u : CachedUserInfo) (actions : List (Action δ)) (action : Action δ)
    (key : String) (old : SubscriptionKeyEntry) : let s := run ext (actions.map (·.withAcl u))
    let new := (s.step ext (action.withAcl u)).sys.pool.get? key
    s.sys.pool.get? key = some old →
    new.map (fun e => (e.remote, e.node, e.pendingClear)) ≠ some (old.remote, old.node, old.pendingClear) →
    ∀ remote, old.remote = some remote ∨ new.bind (·.remote) = some remote →
      ∃ auth, s.caller (action.withAcl u) = some auth ∧ u.Holds auth ["resource", remote] privResourceModify := by
  intro s new hold changed remote hrem
  rcases confined_step action (authorized_run actions) key with hsame | ⟨ho, hn⟩
  · have hnew : new = some old := hsame.symm.trans hold
    exact absurd (by rw [hnew]; rfl) changed
  · rcases hrem with hr | hr
    · exact ho old hold remote hr
    · obtain ⟨e, he, hr⟩ := bind_eq_some_iff.mp hr
      exact hn e he remote hr

end

open Sample

def assignment : List (Action Nat) :=
  [.commit 0 (.addKeys [key] none) (env none) true, .commit 1 (.setAssignment key "pve-a" "n" none) (env none) true]

def queueing : Action Nat := .commit 2 (.queueClear "pve-a" "n" none) (env none) true

theorem confined_of_run_queueClear : ∃ auth, (run ext (assignment.map (·.withAcl world.userInfo))).caller
      (queueing.withAcl world.userInfo) = some auth ∧
    world.userInfo.Holds auth ["resource", "pve-a"] privResourceModify :=
  confined_of_run ext world.userInfo assignment queueing key
    ⟨key, .pve, .basic, .manual, some "pve-a", some "n", false⟩ (by decide) (by decide) "pve-a"
    (.inl rfl)

end Attributed

end Nexus.Subscriptions
