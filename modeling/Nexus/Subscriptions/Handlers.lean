import Nexus.Lib.Effect
import Nexus.Subscriptions.Pool

/-!
# The handlers of the key pool

The handlers of `server/src/api/subscriptions/mod.rs` that work on one key or one node. `…Pre` checks the caller, reads
the pool without the lock and asks remotes; `…Locked` runs under the lock of the pool and checks again. Whatever the
first part has found, the second only makes changes (`…_changes`).
-/

namespace Nexus.Subscriptions

open Lib Except

/-! ## Surroundings -/

/-- What the handlers use of other crates. -/
structure External (δ : Type) extends DigestCheck δ where
  digest : KeyConfig → δ
  nodeSchema : String → Bool
  keySchemaError : String → String
  statusHash : List (String × String × SubscriptionStatus × Option Int × Bool) → String

structure World where
  userInfo : CachedUserInfo
  remotes : RemotesConfig

abbrev Live := String → Except String NodeSubscriptions

def require (ok : Bool) (e : ApiError) : Except ApiError Unit := if ok then .ok () else .error e

@[simp] theorem require_eq_ok {ok e} : require ok e = .ok () ↔ ok := by
  cases ok <;> simp [require]

def keyNotFound (key : String) : ApiError := .http .notFound ("key '" ++ key ++ "' not found in pool")

variable (config : KeyConfig) (world : World) (auth : Authid)

def KeyConfig.find (key : String) : Except ApiError SubscriptionKeyEntry :=
  match config.get? key with
  | none => .error (keyNotFound key)
  | some entry => .ok entry

@[simp] theorem KeyConfig.find_eq_ok {config : KeyConfig} {key : String} {entry : SubscriptionKeyEntry} :
    config.find key = .ok entry ↔ config.get? key = some entry := by
  unfold KeyConfig.find
  cases config.get? key <;> simp

def World.checkModify (remote : String) : Except ApiError Unit :=
  world.userInfo.checkPrivs auth ["resource", remote] privResourceModify

def World.checkModifyBound : Option String → Except ApiError Unit
  | none => .ok ()
  | some remote => world.checkModify auth remote

def World.mayModify (remote : String) : Bool :=
  world.userInfo.lookupPrivs auth ["resource", remote] &&& privResourceModify != 0

def World.findRemote (remote : String) : Except ApiError Remote :=
  match world.remotes.get? remote with
  | none => .error (.http .notFound ("remote '" ++ remote ++ "' not found"))
  | some entry => .ok entry

def KeyConfig.otherOn (key remote node : String) : Option SubscriptionKeyEntry :=
  (config.entries.find? fun p => p.2.key ≠ key && p.2.boundTo remote node).map Prod.snd

def KeyConfig.boundEntry (remote node : String) : Option (String × SubscriptionKeyEntry) :=
  config.entries.find? fun p => p.2.boundTo remote node

variable {config} {key remote node : String} {entry : SubscriptionKeyEntry}

theorem boundTo_iff : entry.boundTo remote node ↔ entry.binding = some (remote, node) := by
  obtain ⟨_, _, _, _, r, n, _⟩ := entry
  cases r <;> cases n <;> simp [SubscriptionKeyEntry.boundTo, SubscriptionKeyEntry.binding]

theorem freeFor_of_otherOn (h : PoolOk config) (hn : config.otherOn key remote node = none) :
    FreeFor config key (remote, node) := by
  intro p hp hb
  have hfind := List.find?_eq_none.mp (Option.map_eq_none_iff.mp hn) p hp
  by_contra hk
  exact hfind (by simp [boundTo_iff.mpr hb, h.stored p hp, hk])

theorem freeFor_of_boundEntry (hn : config.boundEntry remote node = none) : FreeFor config key (remote, node) :=
  fun p hp hb => absurd (boundTo_iff.mpr hb) (List.find?_eq_none.mp hn p hp)

theorem boundEntry_eq_some (hb : config.boundEntry remote node = some (key, entry)) :
    config.get? key = some entry ∧ entry.boundTo remote node := by
  have hbound := List.find?_some hb
  exact ⟨OrderedMap.get?_eq_some.mpr (List.mem_of_find?_eq_some hb), hbound⟩

/-! ## Adding and deleting keys -/

variable {δ : Type} (ext : External δ)

def newEntry (key : String) (productType : ProductType) (source : SubscriptionKeySource) : SubscriptionKeyEntry where
  key := key
  productType := productType
  level := (SubscriptionLevel.fromKey (some key)).getD .unknown
  source := source
  remote := none
  node := none
  pendingClear := false

def addKeysEntries (seen : List String) : List String → Except ApiError (List SubscriptionKeyEntry × Nat)
  | [] => .ok ([], 0)
  | key :: keys =>
    if key ∈ seen then do
      let (entries, deduplicated) ← addKeysEntries seen keys
      return (entries, deduplicated + 1)
    else
      match ProductType.fromKey key with
      | none => .error (.http .badRequest ("unrecognised key format: " ++ redactKey key))
      | some productType => do
        let (entries, deduplicated) ← addKeysEntries (key :: seen) keys
        return (newEntry key productType .manual :: entries, deduplicated)

structure AddKeysResult where
  (added deduplicated : Nat)

def addKeysPre (keys : List String) : Except ApiError (List SubscriptionKeyEntry × AddKeysResult) := do
  require (keys ≠ []) (.http .badRequest "no keys provided")
  let (entries, deduplicated) ← addKeysEntries [] keys
  return (entries, ⟨entries.length, deduplicated⟩)

def insertAll : List SubscriptionKeyEntry → KeyConfig → Except ApiError KeyConfig
  | [], config => .ok config
  | entry :: entries, config =>
    match config.get? entry.key with
    | some existing => .error (.http .conflict ("key '" ++ existing.key ++ "' already exists in pool"))
    | none => insertAll entries (config.insert entry.key entry)

def addKeysLocked (entries : List SubscriptionKeyEntry) (digest : Option δ) (config : KeyConfig) :
    Except ApiError KeyConfig := do
  ext.detectModification (ext.digest config) digest
  insertAll entries config

/-- What is known of the pool when the lock is asked for. -/
structure PreRead (δ : Type) where
  preDigest : δ
  preHadBinding : Bool
  syncedBlock : Option (String × String)

variable (start : World) (fetch : World) (pre : PreRead δ) (world : World) (live : Live) (auth : Authid)

def checkSyncedAssignmentForUnassign (key : String) : Option (String × String) → Option (String × String)
  | none => none
  | some (prevRemote, prevNode) =>
    match world.remotes.get? prevRemote with
    | none => none
    | some _ =>
      match live prevRemote with
      | .error _ => none
      | .ok infos =>
        match infos.get? prevNode with
        | some (some info) =>
          if info.status = .active ∧ info.key = some key then some (prevRemote, prevNode) else none
        | _ => none

def PreRead.stillSynced (entry : SubscriptionKeyEntry) : Bool :=
  pre.syncedBlock.any fun b => entry.boundTo b.1 b.2

def PreRead.raced (config : KeyConfig) : Bool := !ext.sameDigest (ext.digest config) pre.preDigest

def PreRead.refuses (config : KeyConfig) (entry : SubscriptionKeyEntry) : Bool :=
  pre.stillSynced entry || (pre.raced ext config && entry.remote.isSome) || (!pre.preHadBinding && entry.remote.isSome)

def liveOnNode (key before : String) : ApiError :=
  .http .badRequest ("key '" ++ key ++ "' is currently bound to a remote node with a live active subscription; run " ++
    "Clear Key on the Node Subscription Status panel " ++ before)

def deleteKeyPre (key : String) (config : KeyConfig) : Except ApiError (PreRead δ) := do
  let entry ← config.find key
  start.checkModifyBound auth entry.remote
  return ⟨ext.digest config, entry.binding.isSome, checkSyncedAssignmentForUnassign fetch live key entry.binding⟩

def deleteKeyLocked (key : String) (digest : Option δ) (pre : PreRead δ)
    (config : KeyConfig) : Except ApiError KeyConfig := do
  ext.detectModification (ext.digest config) digest
  let entry ← config.find key
  world.checkModifyBound auth entry.remote
  require (!pre.refuses ext config entry) (liveOnNode key "first")
  return config.remove key

/-! ## Assignments -/

def movesFrom (remote node : String) : Option (String × String) → Bool
  | some (r, n) => r ≠ remote || n ≠ node
  | none => false

def setAssignmentPre (key remote node : String) (config : KeyConfig) : Except ApiError (PreRead δ) := do
  start.checkModify auth remote
  let preBinding := (config.get? key).bind (·.binding)
  let rebindMovesBinding := movesFrom remote node preBinding
  start.checkModifyBound auth (if rebindMovesBinding then preBinding.map Prod.fst else none)
  let syncedBlock :=
    if rebindMovesBinding then checkSyncedAssignmentForUnassign fetch live key preBinding else none
  return ⟨ext.digest config, preBinding.isSome, syncedBlock⟩

def setAssignmentLocked (key remote node : String) (digest : Option δ)
    (pre : PreRead δ) (config : KeyConfig) : Except ApiError KeyConfig := do
  ext.detectModification (ext.digest config) digest
  let storedEntry ← config.find key
  world.checkModifyBound auth (storedEntry.remote.filter (· ≠ remote))
  -- every part of the orphan guard asks that the binding moves
  let postMoves := movesFrom remote node storedEntry.binding
  require (!(postMoves && pre.refuses ext config storedEntry)) (liveOnNode key "before rebinding")
  let remoteEntry ← world.findRemote remote
  require (storedEntry.productType.matchesRemoteType remoteEntry.ty)
    (.http .badRequest ("key type '" ++ storedEntry.productType.asSectionType ++ "' does not match remote type '" ++
      remoteEntry.ty.toString ++ "'"))
  match config.otherOn key remote node with
  | some other =>
    .error (.http .conflict ("key '" ++ other.key ++ "' is already assigned to " ++ remote ++ "/" ++ node))
  | none =>
    return config.insert key
      ((storedEntry.bind remote node).withPendingClear (!postMoves && storedEntry.pendingClear))

def clearAssignmentPre (key : String) (config : KeyConfig) : Except ApiError (PreRead δ) := do
  start.checkModifyBound auth ((config.get? key).bind (·.remote))
  let preBinding := (config.get? key).bind (·.binding)
  return ⟨ext.digest config, preBinding.isSome, checkSyncedAssignmentForUnassign fetch live key preBinding⟩

def clearAssignmentLocked (key : String) (digest : Option δ) (pre : PreRead δ)
    (config : KeyConfig) : Except ApiError KeyConfig := do
  ext.detectModification (ext.digest config) digest
  let storedEntry ← config.find key
  world.checkModifyBound auth storedEntry.remote
  require (!pre.refuses ext config storedEntry) (liveOnNode key "first")
  return config.insert key storedEntry.unbind

/-! ## Queued clears -/

def flipPendingClear (remote node : String) (pendingClear : Bool) (unbound already : ApiError) (digest : Option δ)
    (config : KeyConfig) : Except ApiError KeyConfig := do
  ext.detectModification (ext.digest config) digest
  match config.boundEntry remote node with
  | none => .error unbound
  | some (id, entry) =>
    require (entry.pendingClear ≠ pendingClear) already
    return config.insert id (entry.withPendingClear pendingClear)

def queueClearLocked (remote node : String) : Option δ → KeyConfig → Except ApiError KeyConfig :=
  flipPendingClear ext remote node true
    (.http .badRequest ("no pool-managed assignment on " ++ remote ++ "/" ++ node ++
      "; run Adopt Key first to import a foreign subscription into the pool"))
    (.http .badRequest ("clear already queued for " ++ remote ++ "/" ++ node))

def revertPendingClearLocked (remote node : String) : Option δ → KeyConfig → Except ApiError KeyConfig :=
  flipPendingClear ext remote node false
    (.http .badRequest ("no pool-managed assignment on " ++ remote ++ "/" ++ node))
    (.http .badRequest ("no pending clear queued on " ++ remote ++ "/" ++ node))

/-! ## Adopting a key -/

def adoptKeyPre (remote node : String) (config : KeyConfig) : Except ApiError (δ × String) := do
  start.checkModify auth remote
  let _ ← fetch.findRemote remote
  match live remote with
  | .error err =>
    .error (.http .badRequest ("could not read subscription on " ++ remote ++ "/" ++ node ++ ": " ++ err))
  | .ok infos =>
    match ((infos.get? node).bind id).bind (·.key) with
    | none => .error (.http .notFound ("no live subscription on " ++ remote ++ "/" ++ node ++ " to adopt"))
    | some liveCurrentKey => return (ext.digest config, liveCurrentKey)

def adopt (key remote node : String) (config : KeyConfig) : Except ApiError KeyConfig := do
  require (config.boundEntry remote node).isNone
    (.http .badRequest (remote ++ "/" ++ node ++
      " is already pool-managed; adopt only applies to foreign subscriptions"))
  match config.get? key with
  | some existing =>
    require (existing.remote.isNone && existing.node.isNone)
      (.http .conflict ("key '" ++ redactKey key ++ "' is in the pool but bound elsewhere; resolve manually first"))
    return config.insert key (existing.bind remote node)
  | none =>
    require (isSubscriptionKey key)
      (.http .badRequest ("key '" ++ redactKey key ++ "' rejected: " ++ ext.keySchemaError key))
    match ProductType.fromKey key with
    | none => .error (.http .badRequest ("unrecognised key prefix: " ++ redactKey key))
    | some productType => return config.insert key ((newEntry key productType .adopted).bind remote node)

def adoptKeyLocked (remote node : String) (digest : Option δ) (pre : δ × String) (config : KeyConfig) :
    Except ApiError KeyConfig := do
  ext.detectModification (ext.digest config) digest
  require (ext.sameDigest (ext.digest config) pre.1)
    (.http .conflict ("pool config changed during live fetch; refresh and retry adopt of " ++ remote ++ "/" ++ node))
  adopt ext pre.2 remote node config

/-! ## What the handlers change -/

variable {ext : External δ} {world : World} {auth : Authid} {digest : Option δ} {pre : PreRead δ}
  {config config' : KeyConfig} {unbound already : ApiError} {pendingClear : Bool}

def SubscriptionKeyEntry.Fresh (entry : SubscriptionKeyEntry) : Prop :=
  entry.remote = none ∧ entry.node = none ∧ entry.pendingClear = false

theorem fresh_newEntry (productType : ProductType) (source) : (newEntry key productType source).Fresh := ⟨rfl, rfl, rfl⟩

theorem fresh_of_addKeysEntries : ∀ {keys seen} {result},
    addKeysEntries seen keys = .ok result → ∀ entry ∈ result.1, entry.Fresh
  | [], seen, result, h => by
    obtain rfl : ([], 0) = result := ok.inj h
    simp
  | key :: keys, seen, result, h => by
    unfold addKeysEntries at h
    split at h
    · obtain ⟨r, hr, h⟩ := bind_eq_ok.mp h
      obtain rfl := ok.inj h
      have ih := fresh_of_addKeysEntries hr
      exact ih
    · split at h
      · cases h
      · obtain ⟨r, hr, h⟩ := bind_eq_ok.mp h
        obtain rfl := ok.inj h
        exact List.forall_mem_cons.mpr ⟨fresh_newEntry _ _, fresh_of_addKeysEntries hr⟩

theorem insertAll_related {R : KeyConfig → KeyConfig → Prop} (refl : ∀ config, R config config)
    (htrans : ∀ {a b c}, R a b → R b c → R a c) : ∀ {entries} {config},
    (∀ entry ∈ entries, ∀ {config}, config.get? entry.key = none → R config (config.insert entry.key entry)) →
    insertAll entries config = .ok config' → R config config'
  | [], config, _, h => by
    obtain rfl := ok.inj h
    exact refl config
  | entry :: entries, config, hadd, h => by
    obtain ⟨hent, hents⟩ := List.forall_mem_cons.mp hadd
    unfold insertAll at h
    split at h
    · cases h
    · next hnew => exact htrans (hent hnew) (insertAll_related refl htrans hents h)

theorem insertAll_changes {entries} (hf : ∀ entry ∈ entries, entry.Fresh)
    (h : insertAll entries config = .ok config') : Changes config config' := by
  refine insertAll_related .refl .trans (fun entry he _ hnew => ?_) h
  obtain ⟨remote, hnode, clear⟩ := hf entry he
  refine .single (.add hnew (by rw [remote, hnode]) clear fun b hb => ?_)
  simp [SubscriptionKeyEntry.binding, remote] at hb

theorem deleteKeyLocked_changes (h : deleteKeyLocked ext world auth key digest pre config = .ok config') :
    Changes config config' := by
  simp only [deleteKeyLocked, bind_eq_ok, pure_eq_ok] at h
  obtain ⟨_, -, entry, -, _, -, _, -, rfl⟩ := h
  exact .single (.remove config key)

theorem setAssignmentLocked_changes (hok : PoolOk config)
    (h : setAssignmentLocked ext world auth key remote node digest pre config = .ok config') :
    Changes config config' := by
  simp only [setAssignmentLocked, bind_eq_ok, KeyConfig.find_eq_ok] at h
  obtain ⟨_, -, storedEntry, stored, _, -, _, -, _, -, _, -, h⟩ := h
  split at h
  · cases h
  · next other =>
    obtain rfl := ok.inj h
    exact .single (.bind stored (freeFor_of_otherOn hok other) _)

theorem clearAssignmentLocked_changes (h : clearAssignmentLocked ext world auth key digest pre config = .ok config') :
    Changes config config' := by
  simp only [clearAssignmentLocked, bind_eq_ok, pure_eq_ok, KeyConfig.find_eq_ok] at h
  obtain ⟨_, -, storedEntry, stored, _, -, _, -, rfl⟩ := h
  exact .single (.unbind stored)

theorem flipPendingClear_eq_ok
    (h : flipPendingClear ext remote node pendingClear unbound already digest config = .ok config') :
    ∃ id entry, config.get? id = some entry ∧ entry.remote = some remote ∧
      config' = config.insert id (entry.withPendingClear pendingClear) := by
  obtain ⟨_, -, h⟩ := bind_eq_ok.mp h
  split at h
  · cases h
  · next id entry hbound =>
    obtain ⟨_, -, h⟩ := bind_eq_ok.mp h
    obtain ⟨stored, hto⟩ := boundEntry_eq_some hbound
    simp only [SubscriptionKeyEntry.boundTo, Bool.and_eq_true, decide_eq_true_eq] at hto
    exact ⟨id, entry, stored, hto.1, (ok.inj h).symm⟩

theorem flipPendingClear_changes
    (h : flipPendingClear ext remote node pendingClear unbound already digest config = .ok config') :
    Changes config config' := by
  obtain ⟨id, entry, stored, hrem, rfl⟩ := flipPendingClear_eq_ok h
  refine .single (.setPendingClear stored fun _ => ?_)
  simp [hrem]

theorem adopt_eq_ok (h : adopt ext key remote node config = .ok config') : config.boundEntry remote node = none ∧
      ((∃ existing, config.get? key = some existing ∧ existing.remote = none ∧
          config' = config.insert key (existing.bind remote node)) ∨
        ∃ productType, config.get? key = none ∧ ProductType.fromKey key = some productType ∧
          config' = config.insert key ((newEntry key productType .adopted).bind remote node)) := by
  obtain ⟨_, hfree, h⟩ := bind_eq_ok.mp h
  refine ⟨Option.isNone_iff_eq_none.mp (require_eq_ok.mp hfree), ?_⟩
  split at h
  · next existing stored =>
    obtain ⟨_, hunb, h⟩ := bind_eq_ok.mp h
    have hunb := (Bool.and_eq_true_iff.mp (require_eq_ok.mp hunb)).1
    exact .inl ⟨existing, stored, Option.isNone_iff_eq_none.mp hunb, (ok.inj h).symm⟩
  · next hnew =>
    obtain ⟨_, -, h⟩ := bind_eq_ok.mp h
    split at h
    · cases h
    · next productType product => exact .inr ⟨productType, hnew, product, (ok.inj h).symm⟩

theorem adopt_changes (h : adopt ext key remote node config = .ok config') : Changes config config' := by
  obtain ⟨hnone, h⟩ := adopt_eq_ok h
  have hfree : FreeFor config key (remote, node) := freeFor_of_boundEntry hnone
  rcases h with ⟨existing, stored, -, rfl⟩ | ⟨productType, hnew, -, rfl⟩
  · exact .single (.bind stored hfree true)
  · have hadd : ChangeStep config (.add ((newEntry key productType .adopted).bind remote node)) _ :=
      .add hnew rfl rfl fun b hb => by
        obtain rfl : (remote, node) = b := Option.some.inj hb
        exact hfree
    exact .single hadd

end Nexus.Subscriptions
