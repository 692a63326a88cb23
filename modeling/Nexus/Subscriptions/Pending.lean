import Nexus.Subscriptions.System

/-!
# Pending changes and what discarding them leaves

`clear_pending` drops the binding of a pending push, and a pending clear loses its mark (`clearPending_run`). An entry
that has lost its mark keeps its binding, so it can be pending again, as a push (`clearPending_leaves_nothing_iff`).
-/

namespace Nexus.Subscriptions

open Lib Lib.OrderedMap List Prod

/-! ## What is pending -/

def reportedKey (statuses : List RemoteNodeStatus) (remote node : String) : Option (Option String) :=
  (statuses.find? fun n => n.remote = remote && n.node = node).map (·.currentKey)

section

variable {world : World} {auth : Authid} {statuses : List RemoteNodeStatus} {key remote node : String}
  {entry : SubscriptionKeyEntry} {e : PendingEntry}

theorem isPending_iff : isPending statuses key remote node ↔ reportedKey statuses remote node ≠ some (some key) := by
  unfold isPending reportedKey
  cases statuses.find? fun n => n.remote = remote && n.node = node <;> simp

theorem pendingFor_spec (h : pendingFor world auth statuses entry = some e) :
    e.key = entry.key ∧ entry.binding = some (e.remote, e.node) ∧ world.mayModify auth e.remote ∧
      (e.op = .clear ↔ entry.pendingClear) := by
  unfold pendingFor at h
  split at h
  · cases h
  · next remote node hb =>
    split at h
    · cases h
    · next may =>
      have may : world.mayModify auth remote := by simpa using may
      split at h
      · next clear =>
        obtain rfl := Option.some.inj h
        exact ⟨rfl, hb, may, by simp [clear]⟩
      · next clear =>
        split at h
        · obtain rfl := Option.some.inj h
          exact ⟨rfl, hb, may, by simp [clear]⟩
        · cases h

theorem pendingFor_of_binding (hb : entry.binding = some (remote, node)) (may : world.mayModify auth remote) :
    pendingFor world auth statuses entry = if entry.pendingClear then some ⟨entry.key, remote, node, .clear⟩
      else if isPending statuses entry.key remote node then some ⟨entry.key, remote, node, .push⟩ else none := by
  simp [pendingFor, hb, may]

theorem pendingFor_of_unbound (hb : entry.binding = none) : pendingFor world auth statuses entry = none := by
  simp [pendingFor, hb]

theorem pendingFor_of_not_mayModify (hb : entry.binding = some (remote, node))
    (may : world.mayModify auth remote = false) : pendingFor world auth statuses entry = none := by
  simp [pendingFor, hb, may]

theorem isPending_of_push (h : pendingFor world auth statuses entry = some e) (hpush : e.op ≠ .clear) :
    isPending statuses e.key e.remote e.node := by
  obtain ⟨hkey, hb, may, hop⟩ := pendingFor_spec h
  have hnot : entry.pendingClear = false := Bool.eq_false_iff.mpr fun hc => hpush (hop.mpr hc)
  by_contra hp
  rw [pendingFor_of_binding hb may, hnot, ← hkey] at h
  simp [hp] at h

theorem mem_computePending {config} :
    e ∈ computePending world auth statuses config ↔ ∃ p ∈ config, pendingFor world auth statuses p.2 = some e :=
  mem_filterMap

theorem computePending_eq_nil {config} :
    computePending world auth statuses config = [] ↔ ∀ p ∈ config, pendingFor world auth statuses p.2 = none :=
  filterMap_eq_nil_iff

end

/-! ## What nodes report -/

def nodeKey (live : Live) (remote node : String) : Option (Option String) :=
  match live remote with
  | .error _ => none
  | .ok infos => (infos.get? node).map fun info => info.bind (·.key)

section

variable {live : Live} {remotes : List (String × Remote)} {statuses : List RemoteNodeStatus} {remote node : String}
  {config : KeyConfig} {n : RemoteNodeStatus}

@[simp] theorem RemoteNodeStatus.withPool_remote : (n.withPool config).remote = n.remote := by
  unfold RemoteNodeStatus.withPool; split <;> rfl

@[simp] theorem RemoteNodeStatus.withPool_ty : (n.withPool config).ty = n.ty := by
  unfold RemoteNodeStatus.withPool; split <;> rfl

@[simp] theorem RemoteNodeStatus.withPool_node : (n.withPool config).node = n.node := by
  unfold RemoteNodeStatus.withPool; split <;> rfl

@[simp] theorem RemoteNodeStatus.withPool_currentKey : (n.withPool config).currentKey = n.currentKey := by
  unfold RemoteNodeStatus.withPool; split <;> rfl

def Tells (live : Live) (remotes : List (String × Remote)) (statuses : List RemoteNodeStatus) : Prop :=
  ∀ remote node key, (∃ n ∈ statuses, n.remote = remote ∧ n.node = node ∧ n.currentKey = key) ↔
    remote ∈ remotes.map fst ∧ nodeKey live remote node = some key

theorem mem_collectStatusUncached : n ∈ collectStatusUncached remotes live ↔
    ∃ p ∈ remotes, ∃ infos, live p.1 = .ok infos ∧ ∃ q ∈ infos, n = nodeStatus p.1 p.2.ty q.1 q.2 := by
  simp only [collectStatusUncached, mem_flatMap]
  constructor
  · rintro ⟨p, hp, hn⟩
    split at hn
    · cases hn
    · next infos hlive =>
      obtain ⟨q, hq, rfl⟩ := mem_map.mp hn
      exact ⟨p, hp, infos, hlive, q, hq, rfl⟩
  · rintro ⟨p, hp, infos, hlive, q, hq, rfl⟩
    refine ⟨p, hp, ?_⟩
    rw [hlive]
    exact mem_map.mpr ⟨q, hq, rfl⟩

@[simp] theorem nodeStatus_remote (remote) (ty : RemoteType) (node) (info) :
    (nodeStatus remote ty node info).remote = remote := by cases info <;> rfl

@[simp] theorem nodeStatus_ty (remote) (ty : RemoteType) (node) (info) :
    (nodeStatus remote ty node info).ty = ty := by cases info <;> rfl

@[simp] theorem nodeStatus_node (remote) (ty : RemoteType) (node) (info) :
    (nodeStatus remote ty node info).node = node := by cases info <;> rfl

@[simp] theorem nodeStatus_currentKey (remote) (ty : RemoteType) (node)
    (info) : (nodeStatus remote ty node info).currentKey = info.bind (·.key) := by
  cases info <;> rfl

theorem tells_collectStatusUncached (live) (remotes) : Tells live remotes (collectStatusUncached remotes live) := by
  intro remote node key
  simp only [mem_collectStatusUncached]
  constructor
  · rintro ⟨_, ⟨p, hp, infos, hlive, q, hq, rfl⟩, rfl, rfl, rfl⟩
    refine ⟨mem_map.mpr ⟨p, hp, (nodeStatus_remote ..).symm⟩, ?_⟩
    simp [nodeKey, hlive, get?_eq_some.mpr hq]
  · rintro ⟨hrem, hkey⟩
    obtain ⟨p, hp, rfl⟩ := mem_map.mp hrem
    unfold nodeKey at hkey
    split at hkey
    · cases hkey
    · next infos hlive =>
      obtain ⟨info, hinfo, rfl⟩ := Option.map_eq_some_iff.mp hkey
      exact ⟨nodeStatus p.1 p.2.ty node info, ⟨p, hp, infos, hlive, (node, info), get?_eq_some.mp hinfo, rfl⟩,
        by simp, by simp, by simp⟩

theorem tells_collectNodeStatus (world) (live) (auth) (config) :
    Tells live (world.visibleRemotes auth) (collectNodeStatus world live auth config) := by
  intro remote node key
  rw [← tells_collectStatusUncached]
  simp [collectNodeStatus]

theorem Tells.reportedKey_eq (h : Tells live remotes statuses) :
    reportedKey statuses remote node = if remote ∈ remotes.map fst then nodeKey live remote node else none := by
  have found : ∀ key, reportedKey statuses remote node = some key →
      remote ∈ remotes.map fst ∧ nodeKey live remote node = some key := by
    intro key hkey
    obtain ⟨n, hfind, rfl⟩ := Option.map_eq_some_iff.mp hkey
    have hn := find?_some hfind
    simp only [Bool.and_eq_true, decide_eq_true_eq] at hn
    exact (h remote node n.currentKey).mp ⟨n, mem_of_find?_eq_some hfind, hn.1, hn.2, rfl⟩
  cases hrep : reportedKey statuses remote node with
  | some key =>
    obtain ⟨hrem, hkey⟩ := found key hrep
    rw [if_pos hrem, hkey]
  | none =>
    split
    · next hrem =>
      cases hkey : nodeKey live remote node with
      | none => rfl
      | some key =>
        obtain ⟨n, hn, hr, hnode, -⟩ := (h remote node key).mpr ⟨hrem, hkey⟩
        have hnone := find?_eq_none.mp (Option.map_eq_none_iff.mp hrep) n hn
        simp [hr, hnode] at hnone
    · rfl

end

/-! ## Discarding -/

def discard (e : PendingEntry) (stored : SubscriptionKeyEntry) : SubscriptionKeyEntry :=
  if stored.boundTo e.remote e.node then
    match e.op with
    | .clear => stored.withPendingClear false
    | .push => stored.unbind
  else stored

theorem clearPendingStep_fst (acc) (e) :
    (clearPendingStep acc e).1 = acc.1.mapValues fun k stored => if k = e.key then discard e stored else stored := by
  rw [mapValues_at]
  unfold clearPendingStep discard
  cases h : acc.1.get? e.key with
  | none => rfl
  | some =>
    simp only
    split
    · cases e.op <;> rfl
    · exact (insert_self h).symm

theorem foldl_clearPendingStep_fst (pending : List PendingEntry) (acc : KeyConfig × Nat) :
    (pending.foldl clearPendingStep acc).1 =
      acc.1.mapValues fun k stored => pending.foldl (fun st e => if k = e.key then discard e st else st) stored :=
  (foldl_hom fst fun acc e => (clearPendingStep_fst acc e).symm).symm.trans
    (foldl_mapValues _ pending acc.1)

section

variable {world : World} {auth : Authid} {statuses : List RemoteNodeStatus} {config : KeyConfig}

theorem foldl_computePending (hok : PoolOk config) {γ : Type} (g : PendingEntry → γ → γ) {p} (hp : p ∈ config) (x : γ) :
    (computePending world auth statuses config).foldl (fun x e => if p.1 = e.key then g e x else x) x =
      (pendingFor world auth statuses p.2).elim x fun e => g e x :=
  foldl_filterMap_at PendingEntry.key config.keys_nodup
    (fun q hq _ he => (pendingFor_spec he).1.trans (hok.stored q hq)) hp x

def discarded (world : World) (auth : Authid) (statuses : List RemoteNodeStatus) (entry : SubscriptionKeyEntry) :
    SubscriptionKeyEntry :=
  (pendingFor world auth statuses entry).elim entry fun e => discard e entry

theorem foldl_clearPendingStep (hok : PoolOk config) :
    ((computePending world auth statuses config).foldl clearPendingStep (config, 0)).1 =
      config.mapValues fun _ entry => discarded world auth statuses entry := by
  rw [foldl_clearPendingStep_fst]
  exact mapValues_congr fun p hp => foldl_computePending hok discard hp p.2

theorem clearPendingStep_cases (acc) (e) : clearPendingStep acc e = acc ∨ (clearPendingStep acc e).2 = acc.2 + 1 := by
  unfold clearPendingStep
  split
  · exact .inl rfl
  · split
    · cases e.op <;> exact .inr rfl
    · exact .inl rfl

theorem foldl_clearPendingStep_count : ∀ (pending : List PendingEntry) (acc : KeyConfig × Nat),
    acc.2 ≤ (pending.foldl clearPendingStep acc).2 ∧
      ((pending.foldl clearPendingStep acc).2 = acc.2 → pending.foldl clearPendingStep acc = acc)
  | [], acc => ⟨Nat.le_refl _, fun _ => rfl⟩
  | e :: pending, acc => by
    obtain ⟨hle, heq⟩ := foldl_clearPendingStep_count pending (clearPendingStep acc e)
    rw [foldl_cons]
    rcases clearPendingStep_cases acc e with h | h
    · rw [h] at hle heq ⊢
      exact ⟨hle, heq⟩
    · exact ⟨by omega, fun hc => by omega⟩

def Snapshots.alone (pool : KeyConfig) : Snapshots := ⟨pool, pool, pool⟩

variable {δ : Type} {ext : External δ} {env : Env} {pool : KeyConfig} {digest : Option δ}
  {result : KeyConfig × Response}

theorem clearPending_run (hok : PoolOk pool) (hauth : env.rpcenv.getAuthId = .ok auth)
    (h : (Request.clearPending digest).run ext env (.alone pool) pool = .ok result) :
    result.1 = pool.mapValues fun _ entry =>
      discarded env.start auth (collectNodeStatus env.fetch env.live auth pool) entry := by
  obtain ⟨config, response⟩ := result
  cases Request.commits_of_run h with
  | @clearPending _ caller _ hcall hloop =>
    obtain rfl : caller = auth := Except.ok.inj (hcall.symm.trans hauth)
    subst hloop
    rw [← foldl_clearPendingStep hok]
    refine ite_eq_right_iff.mpr fun hzero => ?_
    exact congrArg fst ((foldl_clearPendingStep_count _ (pool, 0)).2 hzero).symm

end

/-! ## What is left -/

section

variable {world : World} {auth : Authid} {statuses statuses' : List RemoteNodeStatus} {entry : SubscriptionKeyEntry}

theorem pendingFor_congr (h : ∀ remote node, reportedKey statuses remote node = reportedKey statuses' remote node) :
    pendingFor world auth statuses entry = pendingFor world auth statuses' entry := by
  have hp : ∀ key remote node, isPending statuses key remote node = isPending statuses' key remote node := by
    intro key remote node
    rw [Bool.eq_iff_iff, isPending_iff, isPending_iff, h]
  simp only [pendingFor, hp]

theorem pendingFor_discarded_eq_none : pendingFor world auth statuses (discarded world auth statuses entry) = none ↔
      ∀ remote node, entry.binding = some (remote, node) → entry.pendingClear →
        world.mayModify auth remote → reportedKey statuses remote node = some (some entry.key) := by
  cases hb : entry.binding with
  | none => simp [discarded, pendingFor_of_unbound hb]
  | some b =>
    obtain ⟨remote, node⟩ := b
    have hto := boundTo_iff.mpr hb
    cases may : world.mayModify auth remote with
    | false =>
      have hnone : pendingFor world auth statuses entry = none := pendingFor_of_not_mayModify hb may
      constructor
      · intro _ r n he _ hr
        obtain ⟨rfl, rfl⟩ := Prod.mk.inj (Option.some.inj he)
        simp [may] at hr
      · intro _
        simp [discarded, hnone]
    | true =>
      have hfor : pendingFor world auth statuses entry = _ := pendingFor_of_binding hb may
      cases clear : entry.pendingClear with
      | true =>
        have hleft : discarded world auth statuses entry = entry.withPendingClear false := by
          simp [discarded, hfor, clear, discard, hto]
        have hb' : (entry.withPendingClear false).binding = some (remote, node) := hb
        rw [hleft, pendingFor_of_binding hb' may]
        simp only [SubscriptionKeyEntry.withPendingClear, Bool.false_eq_true, if_false]
        constructor
        · intro h r n he _ _
          obtain ⟨rfl, rfl⟩ := Prod.mk.inj (Option.some.inj he)
          by_contra hne
          simp [isPending_iff.mpr hne] at h
        · intro h
          have hrep := h remote node rfl trivial may
          have hnot : ¬ isPending statuses entry.key remote node := fun hp => isPending_iff.mp hp hrep
          simp [hnot]
      | false =>
        simp only [Bool.false_eq_true, false_imp_iff, implies_true, iff_true]
        by_cases hp : isPending statuses entry.key remote node
        · have hleft : discarded world auth statuses entry = entry.unbind := by
            simp [discarded, hfor, clear, hp, discard, hto]
          rw [hleft]
          exact pendingFor_of_unbound rfl
        · have hnone : pendingFor world auth statuses entry = none := by simp [hfor, clear, hp]
          simp [discarded, hnone]

/-- **Discarding leaves nothing pending exactly if every queued clear is for a node that runs the key**: the others turn
into pushes. -/
theorem clearPending_leaves_nothing_iff {δ : Type} {ext : External δ} {env : Env} {pool : KeyConfig}
    {digest : Option δ} {result : KeyConfig × Response} (hok : PoolOk pool) (hauth : env.rpcenv.getAuthId = .ok auth)
    (h : (Request.clearPending digest).run ext env (.alone pool) pool = .ok result) :
    computePending env.start auth (collectNodeStatus env.fetch env.live auth result.1) result.1 = [] ↔
      ∀ p ∈ pool, ∀ remote node, p.2.binding = some (remote, node) → p.2.pendingClear →
        env.start.mayModify auth remote →
        remote ∈ (env.fetch.visibleRemotes auth).map fst ∧ nodeKey env.live remote node = some (some p.2.key) := by
  have same : ∀ config remote node, reportedKey (collectNodeStatus env.fetch env.live auth config) remote node =
      reportedKey (collectNodeStatus env.fetch env.live auth pool) remote node := by
    intro config remote node
    rw [(tells_collectNodeStatus env.fetch env.live auth config).reportedKey_eq,
      (tells_collectNodeStatus env.fetch env.live auth pool).reportedKey_eq]
  have runs : ∀ remote node key, reportedKey (collectNodeStatus env.fetch env.live auth pool) remote node =
      some (some key) ↔
        remote ∈ (env.fetch.visibleRemotes auth).map fst ∧ nodeKey env.live remote node = some (some key) := by
    intro remote node key
    rw [(tells_collectNodeStatus env.fetch env.live auth pool).reportedKey_eq]
    split <;> simp_all
  rw [computePending_eq_nil, clearPending_run hok hauth h]
  simp only [pendingFor_congr (same _)]
  constructor
  · intro hnone p hp remote node hb clear may
    have hleft := hnone _ (mem_mapValues_of_mem hp)
    exact (runs remote node p.2.key).mp (pendingFor_discarded_eq_none.mp hleft remote node hb clear may)
  · intro hrun p hp
    obtain ⟨entry, hent, he⟩ := mem_mapValues.mp hp
    rw [he]
    refine pendingFor_discarded_eq_none.mpr fun remote node hb clear may => ?_
    exact (runs remote node entry.key).mpr (hrun (p.1, entry) hent remote node hb clear may)

end

/-! ## A pool with one key -/

theorem exists_ok_of_isOk {ε α : Type} {x : Except ε α} (h : x.isOk) : ∃ a, x = .ok a := by
  cases x with
  | error => cases h
  | ok a => exact ⟨a, rfl⟩

namespace Sample

theorem id_eq_sole : ∀ p ∈ [("pve-a", (⟨.pve, "pve-a"⟩ : Remote))], p.2.id = p.1 := by
  decide

def world : World where
  userInfo := ⟨fun _ _ => 0xffff, fun _ _ _ => .ok true⟩
  remotes := ⟨⟨[("pve-a", ⟨.pve, "pve-a"⟩)], nodup_singleton "pve-a"⟩, id_eq_sole⟩

def live (key : Option String) : Live := fun _ => .ok ⟨[("n", some ⟨.active, none, key, .basic⟩)], by simp⟩

def env (key : Option String) : Env := ⟨⟨some (.ok "root@pam")⟩, world, world, world, live key⟩

def ext : External Nat := ⟨Sample.digestCheck, fun config => config.entries.length, fun _ => true, id, fun _ => ""⟩

def key : String := "pve4b-1234567890"

def pool (pendingClear : Bool) : KeyConfig :=
  ⟨[(key, ⟨key, .pve, .basic, .manual, some "pve-a", some "n", pendingClear⟩)], by simp⟩

theorem poolOk (pendingClear : Bool) : PoolOk (pool pendingClear) := by
  constructor
  · simp [pool, mem_def]
  · simp [pool, mem_def]
  · simp [pool, mem_def]
  · intro p hp q hq b _ _
    simp only [pool, mem_def, mem_singleton] at hp hq
    rw [hp, hq]

end Sample

open Sample

theorem clearPending_leaves_nothing_running : ∃ result,
    (Request.clearPending none).run ext (env (some key)) (.alone (pool true)) (pool true) = .ok result ∧
    computePending world "root@pam" (collectNodeStatus world (live (some key)) "root@pam" result.1) result.1 = [] := by
  obtain ⟨result, hrun⟩ := exists_ok_of_isOk (x := (Request.clearPending none).run ext
    (env (some key)) (.alone (pool true)) (pool true)) (by decide)
  refine ⟨result, hrun, (clearPending_leaves_nothing_iff (poolOk true) rfl hrun).mpr ?_⟩
  intro p hp remote node hb _ _
  simp only [pool, mem_def, mem_singleton] at hp
  subst hp
  obtain ⟨rfl, rfl⟩ := Prod.mk.inj (Option.some.inj hb)
  exact ⟨by decide, by decide⟩

/-- A clear that was queued before the key ever got to its node becomes a push. -/
theorem discarded_clear_becomes_push : PoolOk (pool true) ∧
    ((Request.clearPending none).run ext (env none) (.alone (pool true))
      (pool true)).toOption.map (fun result => computePending world "root@pam"
        (collectNodeStatus world (live none) "root@pam" result.1) result.1) = some [⟨key, "pve-a", "n", .push⟩] :=
  ⟨poolOk true, by decide⟩

end Nexus.Subscriptions
