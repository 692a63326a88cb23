import Mathlib.Data.List.MinMax
import Nexus.Subscriptions.Product

/-!
# Proposals and their commitment

`auto_assign` plans an assignment of free keys to nodes without a key, and `bulk_assign` commits it entry by entry, with
checks of its own. A proposal that is committed while nothing has changed is committed as it is
(`assignable_computeProposals`, `bulkAssign_commits_proposal`).
-/

namespace Nexus.Subscriptions

open Lib Lib.OrderedMap List RemoteNodeStatus

/-! ## The planner -/

def socketCountFromKey (key : String) : Option UInt32 :=
  match Text.splitOnce '-' key with
  | none => none
  | some (keyPrefix, _) =>
    if Text.startsWith keyPrefix "pve" then
      let digits := (keyPrefix.toList.drop 3).takeWhile Char.isDigit
      let count := digits.foldl (fun n c => 10 * n + (c.toNat - '0'.toNat)) 0
      -- parsing as `u32` fails for an empty text, and for a number that is too large
      if digits ≠ [] ∧ count < 2 ^ 32 then some (UInt32.ofNat count) else none
    else none

def minByCount : List (String × UInt32) → Option (String × UInt32)
  | [] => none
  | c :: cs => some (cs.foldl (fun best c => if c.2 < best.2 then c else best) c)

def pickBestPveSocketKey (nodeSockets : UInt32) (candidates : List (String × String)) : Option String :=
  let counted := candidates.filterMap fun c => (socketCountFromKey c.2).map fun s => (c.1, s)
  (minByCount (counted.filter fun c => nodeSockets ≤ c.2)).map Prod.fst

variable (config : KeyConfig)

def keyCandidates (taken : List String) (ty : RemoteType) : List (String × SubscriptionKeyEntry) :=
  config.entries.filter fun p => p.2.remote.isNone && p.1 ∉ taken && p.2.productType.matchesRemoteType ty

def bestKey (taken : List String) (n : RemoteNodeStatus) : Option String :=
  let candidates := keyCandidates config taken n.ty
  if n.ty = .pve then
    -- `as u32` keeps the lower half of the number
    let nodeSockets := UInt32.ofNat ((n.sockets.getD 1) % 2 ^ 32).toNat
    pickBestPveSocketKey nodeSockets (candidates.map fun p => (p.1, p.2.key))
  else candidates.head?.map Prod.fst

def proposalStep (acc : List ProposedAssignment × List String) (n : RemoteNodeStatus) :
    List ProposedAssignment × List String :=
  match bestKey config acc.2 n with
  | none => acc
  | some keyId =>
    let keySockets := (config.get? keyId).bind fun e => socketCountFromKey e.key
    (acc.1 ++ [⟨keyId, n.remote, n.node, keySockets, n.sockets⟩], acc.2 ++ [keyId])

def targetNodes (statuses : List RemoteNodeStatus) : List RemoteNodeStatus :=
  (statuses.filter fun n => n.assignedKey.isNone && n.status ≠ .active).insertionSort
    fun a b => b.sockets.getD 0 ≤ a.sockets.getD 0

def computeProposals (statuses : List RemoteNodeStatus) : List ProposedAssignment :=
  ((targetNodes statuses).foldl (proposalStep config) ([], [])).1

def autoAssign {δ : Type} (ext : External δ) (world : World) (live : Live) (auth : Authid)
    (statusPool pool : KeyConfig) : AutoAssignProposal δ :=
  let statuses := collectNodeStatus world live auth statusPool
  ⟨computeProposals pool statuses, ext.digest pool, hashNodeStatus ext statuses⟩

/-! ## What the planner guarantees -/

structure Assignable (remotes : RemotesConfig) (config : KeyConfig) (ps : List ProposedAssignment) : Prop where
  keys : (ps.map ProposedAssignment.key).Nodup
  nodes : (ps.map fun p => (p.remote, p.node)).Nodup
  free : ∀ p ∈ ps, ∀ q ∈ config, q.2.binding ≠ some (p.remote, p.node)
  entry : ∀ p ∈ ps, ∃ e, config.get? p.key = some e ∧ e.remote = none ∧ e.pendingClear = false ∧
    Fits remotes e.productType p.remote

section

variable {config} {taken : List String} {n : RemoteNodeStatus} {key : String}

theorem minByCount_eq_argmin (cs) : minByCount cs = cs.argmin (·.2.toNat) := by
  cases cs with
  | nil => rfl
  | cons c cs =>
    refine (foldl_hom some fun best c => ?_).symm
    simp only [argAux, ← UInt32.lt_iff_toNat_lt]
    split <;> rfl

theorem minByCount_mem {cs c} (h : minByCount cs = some c) : c ∈ cs :=
  argmin_mem (minByCount_eq_argmin cs ▸ h)

theorem pickBestPveSocketKey_mem {nodeSockets candidates}
    (h : pickBestPveSocketKey nodeSockets candidates = some key) : key ∈ candidates.map Prod.fst := by
  obtain ⟨c, hc, rfl⟩ := Option.map_eq_some_iff.mp h
  obtain ⟨d, hd, count⟩ := mem_filterMap.mp (mem_of_mem_filter (minByCount_mem hc))
  obtain ⟨_, -, rfl⟩ := Option.map_eq_some_iff.mp count
  exact mem_map_of_mem hd

theorem bestKey_spec (h : bestKey config taken n = some key) : key ∉ taken ∧ ∃ e, config.get? key = some e ∧
    e.remote = none ∧ e.productType.matchesRemoteType n.ty := by
  have hmem : key ∈ (keyCandidates config taken n.ty).map Prod.fst := by
    unfold bestKey at h
    simp only at h
    split at h
    · simpa [map_map, Function.comp_def] using pickBestPveSocketKey_mem h
    · obtain ⟨p, hp, rfl⟩ := Option.map_eq_some_iff.mp h
      exact mem_map_of_mem (mem_of_head? hp)
  obtain ⟨p, hp, rfl⟩ := mem_map.mp hmem
  obtain ⟨hp, hfree⟩ := mem_filter.mp hp
  simp only [Bool.and_eq_true, Option.isNone_iff_eq_none, decide_eq_true_eq] at hfree
  exact ⟨hfree.1.2, p.2, get?_eq_some.mpr hp, hfree.1.1, hfree.2⟩

structure Target (remotes : RemotesConfig) (config : KeyConfig) (n : RemoteNodeStatus) : Prop where
  known : ∃ r, remotes.get? n.remote = some r ∧ r.ty = n.ty
  free : ∀ q ∈ config, q.2.binding ≠ some (n.remote, n.node)

variable {remotes : RemotesConfig} {acc : List ProposedAssignment × List String}

theorem Assignable.concat {ps : List ProposedAssignment} {p : ProposedAssignment}
    (hok : PoolOk config) (h : Assignable remotes config ps) (hn : Target remotes config n)
    (remote : p.remote = n.remote) (hnode : p.node = n.node) (hkey : p.key ∉ ps.map ProposedAssignment.key)
    (hnew : (n.remote, n.node) ∉ ps.map fun p => (p.remote, p.node))
    (entry : ∃ e, config.get? p.key = some e ∧ e.remote = none ∧ e.productType.matchesRemoteType n.ty) :
    Assignable remotes config (ps ++ [p]) := by
  obtain ⟨e, he, hunb, hmatch⟩ := entry
  obtain ⟨r, hr, hty⟩ := hn.known
  have clear : e.pendingClear = false := by
    by_contra hc
    have hbound := hok.bound_of_pendingClear _ (get?_eq_some.mp he) (by simpa using hc)
    rw [hunb] at hbound
    cases hbound
  constructor
  · rw [map_append]
    exact h.keys.append (by simp) (by simpa [disjoint_singleton] using hkey)
  · rw [map_append]
    exact h.nodes.append (by simp) (by simpa [disjoint_singleton, remote, hnode] using hnew)
  · intro p' hp'
    rcases mem_append.mp hp' with hp' | hp'
    · exact h.free p' hp'
    · obtain rfl := mem_singleton.mp hp'
      rw [remote, hnode]
      exact hn.free
  · intro p' hp'
    rcases mem_append.mp hp' with hp' | hp'
    · exact h.entry p' hp'
    · obtain rfl := mem_singleton.mp hp'
      exact ⟨e, he, hunb, clear, r, remote ▸ hr, hty ▸ hmatch⟩

theorem proposalStep_of_none (h : bestKey config acc.2 n = none) : proposalStep config acc n = acc := by
  simp only [proposalStep, h]

theorem proposalStep_of_some
    (h : bestKey config acc.2 n = some key) : proposalStep config acc n = (acc.1 ++ [⟨key, n.remote, n.node,
      (config.get? key).bind fun e => socketCountFromKey e.key, n.sockets⟩], acc.2 ++ [key]) := by
  simp only [proposalStep, h]

theorem foldl_proposalStep (hok : PoolOk config) : ∀ (ns : List RemoteNodeStatus)
    (acc : List ProposedAssignment × List String), (∀ n ∈ ns, Target remotes config n) →
    (ns.map fun n => (n.remote, n.node)).Nodup →
    (∀ n ∈ ns, (n.remote, n.node) ∉ acc.1.map fun p => (p.remote, p.node)) →
    acc.2 = acc.1.map ProposedAssignment.key → Assignable remotes config acc.1 →
    Assignable remotes config (ns.foldl (proposalStep config) acc).1
  | [], _, _, _, _, _, h => h
  | n :: ns, acc, target, hnd, hnew, htaken, h => by
    obtain ⟨hn, hns⟩ := forall_mem_cons.mp target
    obtain ⟨hnewn, hnewns⟩ := forall_mem_cons.mp hnew
    simp only [map_cons, nodup_cons] at hnd
    rw [foldl_cons]
    cases hbest : bestKey config acc.2 n with
    | none =>
      rw [proposalStep_of_none hbest]
      exact foldl_proposalStep hok ns acc hns hnd.2 hnewns htaken h
    | some =>
      obtain ⟨hfree, entry⟩ := bestKey_spec hbest
      rw [proposalStep_of_some hbest]
      refine foldl_proposalStep hok ns _ hns hnd.2 (fun n' hn' => ?_) (by simp [htaken]) ?_
      · have hne : (n'.remote, n'.node) ≠ (n.remote, n.node) := fun he =>
          hnd.1 (he ▸ mem_map.mpr ⟨n', hn', rfl⟩)
        simp only [map_append, mem_append, not_or]
        exact ⟨hnewns n' hn', by simpa using hne⟩
      · exact h.concat hok hn rfl rfl (htaken ▸ hfree) hnewn entry

end

/-! ## The nodes that are planned for -/

section

variable {config} {world : World} {live : Live} {auth : Authid} {n : RemoteNodeStatus}

theorem mem_collectNodeStatus : n ∈ collectNodeStatus world live auth config ↔
    ∃ m ∈ collectStatusUncached (world.visibleRemotes auth) live, m.withPool config = n := by
  simp [collectNodeStatus]

def nodeNames (live : Live) (remote : String) : List String :=
  match live remote with
  | .error _ => []
  | .ok infos => infos.entries.map Prod.fst

theorem nodup_nodeNames (live) (remote) : (nodeNames live remote).Nodup := by
  unfold nodeNames
  split
  · exact nodup_nil
  · next infos _ => exact infos.keys_nodup

theorem map_collectStatusUncached (remotes) (live) :
    (collectStatusUncached remotes live).map (fun n => (n.remote, n.node)) =
      (remotes.map Prod.fst).flatMap fun remote => (nodeNames live remote).map (Prod.mk remote) := by
  rw [collectStatusUncached, map_flatMap, flatMap_map]
  refine flatMap_congr fun p _ => ?_
  cases h : live p.1 <;> simp [nodeNames, h]

theorem nodup_collectNodeStatus (world) (live) (auth) (config) :
    ((collectNodeStatus world live auth config).map fun n => (n.remote, n.node)).Nodup := by
  have hsort : ((collectNodeStatus world live auth config).map fun n => (n.remote, n.node)).Perm
      ((collectStatusUncached (world.visibleRemotes auth) live).map fun n => (n.remote, n.node)) := by
    refine ((perm_insertionSort _ _).map _).trans (.of_eq ?_)
    simp [map_map, Function.comp_def]
  have remotes : ((world.visibleRemotes auth).map Prod.fst).Nodup :=
    world.remotes.keys_nodup.sublist (filter_sublist.map _)
  rw [hsort.nodup_iff, map_collectStatusUncached, nodup_flatMap]
  constructor
  · intro remote _
    exact (nodup_nodeNames live remote).map (Prod.mk_right_injective remote)
  · refine remotes.imp fun {r r'} hne b hb hb' => ?_
    obtain ⟨_, -, rfl⟩ := mem_map.mp hb
    obtain ⟨_, -, he⟩ := mem_map.mp hb'
    exact hne (Prod.mk.inj he).1.symm

theorem target_of_mem (hn : n ∈ collectNodeStatus world live auth config) (hfree : n.assignedKey = none) :
    Target world.remotes config n := by
  obtain ⟨m, hm, rfl⟩ := mem_collectNodeStatus.mp hn
  obtain ⟨p, hp, infos, -, q, -, rfl⟩ := mem_collectStatusUncached.mp hm
  constructor
  · refine ⟨p.2, ?_, ?_⟩
    · rw [withPool_remote, nodeStatus_remote]
      exact get?_eq_some.mpr (mem_of_mem_filter hp)
    · rw [withPool_ty, nodeStatus_ty]
  · intro p' hp' hb
    rw [withPool_remote, withPool_node] at hb
    unfold RemoteNodeStatus.withPool at hfree
    split at hfree
    · cases hfree
    · next hnone => exact absurd (boundTo_iff.mpr hb) (find?_eq_none.mp hnone p' hp')

/-- **What the planner proposes can be done.** -/
theorem assignable_computeProposals (hok : PoolOk config) : Assignable world.remotes config
    (computeProposals config (collectNodeStatus world live auth config)) := by
  refine foldl_proposalStep hok _ ([], []) (fun n hn => ?_) ?_ (by simp) rfl ⟨by simp, by simp, by simp, by simp⟩
  · obtain ⟨hmem, filter⟩ := mem_filter.mp ((mem_insertionSort _).mp hn)
    simp only [Bool.and_eq_true, Option.isNone_iff_eq_none] at filter
    exact target_of_mem hmem filter.1
  · refine ((perm_insertionSort _ _).map _).nodup_iff.mpr ?_
    exact (nodup_collectNodeStatus world live auth config).sublist (filter_sublist.map _)

end

/-! ## The commitment -/

def KeyConfig.assigned (config : KeyConfig) (ps : List ProposedAssignment) : KeyConfig :=
  config.mapValues fun key entry =>
    match ps.find? (·.key = key) with
    | some p => entry.bind p.remote p.node
    | none => entry

@[simp] theorem KeyConfig.assigned_nil (config : KeyConfig) : config.assigned [] = config :=
  mapValues_eq_self fun _ _ => rfl

section

variable {config} {δ : Type} {ext : External δ} {world : World} {auth : Authid} {p : ProposedAssignment}
  {ps : List ProposedAssignment}

def Admitted (ext : External δ) (world : World) (auth : Authid) (p : ProposedAssignment) : Prop :=
  world.mayModify auth p.remote ∧ ext.nodeSchema p.node

theorem bulkAssignStep_of_assignable (h : Assignable world.remotes config (p :: ps)) (hp : Admitted ext world auth p)
    (out : List ProposedAssignment) :
    bulkAssignStep ext world auth (config, out) p = (config.assigned [p], out ++ [p]) := by
  obtain ⟨e, he, hunb, clear, r, hr, hfits⟩ := h.entry p mem_cons_self
  have other : config.otherOn p.key p.remote p.node = none := by
    refine Option.map_eq_none_iff.mpr (find?_eq_none.mpr fun q hq hto => ?_)
    simp only [Bool.and_eq_true] at hto
    exact h.free p mem_cons_self q hq (boundTo_iff.mp hto.2)
  have hbind : (e.bind p.remote p.node).withPendingClear false = e.bind p.remote p.node := by
    simp [SubscriptionKeyEntry.bind, SubscriptionKeyEntry.withPendingClear, clear]
  have hset : config.insert p.key (e.bind p.remote p.node) = config.assigned [p] := by
    rw [insert_eq_mapValues (·.bind p.remote p.node) he, KeyConfig.assigned]
    refine mapValues_congr fun q _ => ?_
    by_cases hk : q.1 = p.key
    · simp [hk]
    · simp [hk, Ne.symm hk]
  simp [bulkAssignStep, hp.1, hp.2, hr, he, hfits, other, hunb, hbind, hset]

theorem Assignable.tail {remotes} (h : Assignable remotes config (p :: ps)) :
    Assignable remotes (config.assigned [p]) ps := by
  have hkeys := nodup_cons.mp h.keys
  have nodes := nodup_cons.mp h.nodes
  constructor
  · exact hkeys.2
  · exact nodes.2
  · intro p' hp' q hq hb
    obtain ⟨v, hv, he⟩ := mem_mapValues.mp hq
    rw [he] at hb
    by_cases hk : p.key = q.1
    · simp only [find?_cons, hk, decide_true] at hb
      exact nodes.1 (mem_map.mpr ⟨p', hp', (Option.some.inj hb).symm⟩)
    · simp only [find?_cons, hk, decide_false, find?_nil] at hb
      exact h.free p' (mem_cons_of_mem p hp') (q.1, v) hv hb
  · intro p' hp'
    obtain ⟨e, he, hrest⟩ := h.entry p' (mem_cons_of_mem p hp')
    have hk : p.key ≠ p'.key := fun hk => hkeys.1 (hk ▸ mem_map_of_mem hp')
    refine ⟨e, get?_eq_some.mpr (mem_mapValues.mpr ⟨e, get?_eq_some.mp he, ?_⟩), hrest⟩
    simp [hk]

theorem foldl_bulkAssignStep_of_assignable : ∀ (ps : List ProposedAssignment) (config : KeyConfig)
    (out : List ProposedAssignment), Assignable world.remotes config ps → (∀ p ∈ ps, Admitted ext world auth p) →
    ps.foldl (bulkAssignStep ext world auth) (config, out) = (config.assigned ps, out ++ ps)
  | [], config, out, _, _ => by simp
  | p :: ps, config, out, h, hps => by
    obtain ⟨hp, hps⟩ := forall_mem_cons.mp hps
    have hboth : (config.assigned [p]).assigned ps = config.assigned (p :: ps) := by
      rw [KeyConfig.assigned, KeyConfig.assigned, mapValues_mapValues]
      refine mapValues_congr fun q _ => ?_
      by_cases hk : p.key = q.1
      · -- the key of the first assignment is not that of another one
        have hnone : ps.find? (·.key = q.1) = none := find?_eq_none.mpr fun p' hp' hk' =>
          (nodup_cons.mp h.keys).1 (mem_map.mpr ⟨p', hp', (of_decide_eq_true hk').trans hk.symm⟩)
        simp [hk, hnone]
      · simp [hk]
    rw [foldl_cons, bulkAssignStep_of_assignable h hp, foldl_bulkAssignStep_of_assignable ps _ _ h.tail hps, hboth]
    simp

variable {env : Env} {pool : KeyConfig} {planner : World} {live : Live} {caller : Authid}

theorem mem_computeProposals {statuses} (hp : p ∈ computeProposals config statuses) :
    ∃ n ∈ statuses, p.remote = n.remote ∧ p.node = n.node := by
  refine List.foldlRecOn (motive := fun acc => ∀ p ∈ acc.1, ∃ n ∈ statuses, p.remote = n.remote ∧ p.node = n.node)
    (targetNodes statuses) (proposalStep config) (by simp) (fun acc hacc n hn => ?_) p hp
  have hmem : n ∈ statuses := mem_of_mem_filter ((mem_insertionSort _).mp hn)
  unfold proposalStep
  split
  · exact hacc
  · intro p' hp'
    rcases mem_append.mp hp' with hp' | hp'
    · exact hacc p' hp'
    · obtain rfl := mem_singleton.mp hp'
      exact ⟨n, hmem, rfl, rfl⟩

/-- **A proposal that is committed while nothing has changed is committed as it is.** -/
theorem bulkAssign_commits_proposal (hok : PoolOk pool) (hauth : env.rpcenv.getAuthId = .ok auth)
    (hremotes : env.locked.remotes = env.fetch.remotes)
    (hmodify : ∀ r ∈ env.locked.remotes.entries, env.locked.mayModify auth r.1)
    (hstatus : collectNodeStatus planner live caller pool = collectNodeStatus env.fetch env.live auth pool)
    (hnames : ∀ n ∈ collectNodeStatus env.fetch env.live auth pool, ext.nodeSchema n.node) :
    (Request.bulkAssign (autoAssign ext planner live caller pool pool)).run ext env (.alone pool) pool =
      .ok (pool.assigned (autoAssign ext planner live caller pool pool).assignments,
        .assigned (autoAssign ext planner live caller pool pool).assignments) := by
  have assigned : Assignable env.locked.remotes pool (autoAssign ext planner live caller pool pool).assignments := by
    rw [autoAssign, hstatus, hremotes]
    exact assignable_computeProposals hok
  have hadm : ∀ p ∈ (autoAssign ext planner live caller pool pool).assignments, Admitted ext env.locked auth p := by
    intro p hp
    obtain ⟨_, _, _, _, r, hr, _⟩ := assigned.entry p hp
    obtain ⟨n, hn, -, hnode⟩ := mem_computeProposals hp
    exact ⟨hmodify (p.remote, r) (get?_eq_some.mp hr), hnode ▸ hnames n (hstatus ▸ hn)⟩
  have hloop := foldl_bulkAssignStep_of_assignable _ pool [] assigned hadm
  have hpre : bulkAssignPre ext (collectNodeStatus env.fetch env.live auth pool)
      (autoAssign ext planner live caller pool pool) = .ok () :=
    require_eq_ok.mpr (by simp [autoAssign, hstatus])
  have digest : ext.detectModification (ext.digest pool)
      (some (autoAssign ext planner live caller pool pool).keysDigest) = .ok () := ext.detectModification_self _
  generalize autoAssign ext planner live caller pool pool = proposal at *
  have hlock : bulkAssignLocked ext env.locked auth proposal pool =
      .ok (pool.assigned proposal.assignments, proposal.assignments) := by
    refine bind_eq_ok.mpr ⟨(), digest, ?_⟩
    simp only [hloop, nil_append]
    split
    · next hnil =>
      rw [isEmpty_iff.mp hnil, KeyConfig.assigned_nil]
      rfl
    · rfl
  refine bind_eq_ok.mpr ⟨auth, hauth, bind_eq_ok.mpr ⟨(), hpre, bind_eq_ok.mpr ⟨_, hlock, rfl⟩⟩⟩

end

open Sample

def Sample.small : String := "pve2b-1234567890"

def Sample.freePool : KeyConfig :=
  ⟨[(key, ⟨key, .pve, .basic, .manual, none, none, false⟩), (small, ⟨small, .pve, .basic, .manual, none, none, false⟩)],
    by decide⟩

theorem poolOk_free : PoolOk freePool := by
  constructor
  · simp [freePool, mem_def]
  · simp [freePool, mem_def]
  · simp [freePool, mem_def]
  · simp [freePool, mem_def, SubscriptionKeyEntry.binding]

def Sample.idle : Live := fun _ =>
  .ok ⟨[("m", some ⟨.notFound, some 3, none, .none⟩), ("n", some ⟨.notFound, some 2, none, .none⟩)], by simp⟩

theorem bulkAssign_commits_two_keys : let proposal := autoAssign ext world idle "root@pam" freePool freePool
    let assignments := [⟨key, "pve-a", "m", some 4, some 3⟩, ⟨small, "pve-a", "n", some 2, some 2⟩]
    proposal.assignments = assignments ∧
      (Request.bulkAssign proposal).run ext ⟨⟨some (.ok "root@pam")⟩, world, world, world, idle⟩
        (.alone freePool) freePool =
        .ok (freePool.assigned assignments, .assigned assignments) := by
  intro proposal assignments
  have hplan : proposal.assignments = assignments := by decide
  refine ⟨hplan, ?_⟩
  rw [← hplan]
  refine bulkAssign_commits_proposal poolOk_free rfl rfl ?_ rfl ?_
  · decide
  · decide

end Nexus.Subscriptions
