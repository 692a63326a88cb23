import Mathlib.Data.Prod.Lex
import Mathlib.Data.String.Basic
import Nexus.Lib.Greedy
import Nexus.Subscriptions.Proposal

/-!
# The planner is as good as it can be

For every node the planner takes a key that is of the least use to all other nodes (`bestKey_least`), so its loop is a
greedy matching (`exists_greedy_foldl`), and no other plan covers more nodes of Proxmox VE (`computeProposals_maximum`).
The hash of the node status covers what the planner reads except for the type of the remote
(`computeProposals_eq_iff_types`).
-/

namespace Nexus.Subscriptions

open Lib Lib.OrderedMap List

/-! ## The best key -/

def neededSockets (n : RemoteNodeStatus) : UInt32 := UInt32.ofNat ((n.sockets.getD 1) % 2 ^ 32).toNat

structure SuitableEntry (config : KeyConfig) (n : RemoteNodeStatus) (key : String)
    (e : SubscriptionKeyEntry) : Prop where
  stored : config.get? key = some e
  unbound : e.remote = none
  product : e.productType.matchesRemoteType n.ty
  sockets : n.ty = .pve → ∃ count, socketCountFromKey e.key = some count ∧ neededSockets n ≤ count

def Suits (config : KeyConfig) (n : RemoteNodeStatus) (key : String) : Prop := ∃ e, SuitableEntry config n key e

theorem ProductType.eq_of_matchesRemoteType {product : ProductType} {ty ty' : RemoteType}
    (h : product.matchesRemoteType ty) (h' : product.matchesRemoteType ty') : ty = ty' := by
  cases product <;> cases ty <;> cases ty' <;> simp [matchesRemoteType] at h h' ⊢

variable {config : KeyConfig} {taken : List String} {n m : RemoteNodeStatus} {key key' : String}
  {cs : List (String × UInt32)}

theorem minByCount_le {c d} (h : minByCount cs = some c) (hd : d ∈ cs) : c.2 ≤ d.2 := by
  rw [minByCount_eq_argmin] at h
  exact UInt32.le_iff_toNat_le.mpr (le_of_mem_argmin (f := fun c => c.2.toNat) hd h)

theorem minByCount_eq_none : minByCount cs = none ↔ cs = [] := by
  cases cs <;> simp [minByCount]

theorem mem_keyCandidates {ty : RemoteType} {e} : (key, e) ∈ keyCandidates config taken ty ↔
    config.get? key = some e ∧ e.remote = none ∧ key ∉ taken ∧ e.productType.matchesRemoteType ty := by
  simp [keyCandidates, mem_filter, get?_eq_some, mem_def, and_assoc]

def coveringCandidates (config : KeyConfig) (taken : List String) (n : RemoteNodeStatus) : List (String × UInt32) :=
  (((keyCandidates config taken n.ty).map fun p => (p.1, p.2.key)).filterMap fun c =>
    (socketCountFromKey c.2).map fun s => (c.1, s)).filter fun c => neededSockets n ≤ c.2

theorem mem_coveringCandidates {count} : (key, count) ∈ coveringCandidates config taken n ↔
    ∃ e, (key, e) ∈ keyCandidates config taken n.ty ∧ socketCountFromKey e.key = some count ∧
      neededSockets n ≤ count := by
  simp only [coveringCandidates, mem_filter, filterMap_map, mem_filterMap, Function.comp_apply,
    Option.map_eq_some_iff, Prod.mk.injEq, decide_eq_true_eq]
  constructor
  · rintro ⟨⟨⟨k, e⟩, hmem, c, hcount, rfl, rfl⟩, hle⟩
    exact ⟨e, hmem, hcount, hle⟩
  · rintro ⟨e, hmem, hcount, hle⟩
    exact ⟨⟨(key, e), hmem, count, hcount, rfl, rfl⟩, hle⟩

theorem bestKey_pve (hty : n.ty = .pve) :
    bestKey config taken n = (minByCount (coveringCandidates config taken n)).map Prod.fst := by
  simp only [bestKey, if_pos hty]
  rfl

theorem bestKey_pbs (hty : n.ty = .pbs) :
    bestKey config taken n = (keyCandidates config taken n.ty).head?.map Prod.fst := by
  simp [bestKey, hty]

theorem suits_iff (hkey : key ∉ taken) : Suits config n key ↔ ∃ e, (key, e) ∈ keyCandidates config taken n.ty ∧
    (n.ty = .pve → ∃ count, socketCountFromKey e.key = some count ∧ neededSockets n ≤ count) := by
  constructor
  · rintro ⟨e, he⟩
    exact ⟨e, mem_keyCandidates.mpr ⟨he.stored, he.unbound, hkey, he.product⟩, he.sockets⟩
  · rintro ⟨e, hcand, hsockets⟩
    obtain ⟨hget, hunb, -, product⟩ := mem_keyCandidates.mp hcand
    exact ⟨e, hget, hunb, product, hsockets⟩

theorem suits_pve_iff (hty : n.ty = .pve) (hkey : key ∉ taken) :
    Suits config n key ↔ ∃ count, (key, count) ∈ coveringCandidates config taken n := by
  simp only [suits_iff hkey, mem_coveringCandidates, hty, true_imp_iff, ← exists_and_left]
  exact exists_comm

theorem suits_pbs_iff (hty : n.ty = .pbs) (hkey : key ∉ taken) :
    Suits config n key ↔ ∃ e, (key, e) ∈ keyCandidates config taken n.ty := by
  simp [suits_iff hkey, hty]

theorem bestKey_suits (h : bestKey config taken n = some key) : key ∉ taken ∧ Suits config n key := by
  have hfree := (bestKey_spec h).1
  refine ⟨hfree, ?_⟩
  cases hty : n.ty with
  | pve =>
    rw [bestKey_pve hty] at h
    obtain ⟨c, hc, rfl⟩ := Option.map_eq_some_iff.mp h
    exact (suits_pve_iff hty hfree).mpr ⟨c.2, minByCount_mem hc⟩
  | pbs =>
    rw [bestKey_pbs hty] at h
    obtain ⟨p, hp, rfl⟩ := Option.map_eq_some_iff.mp h
    exact (suits_pbs_iff hty hfree).mpr ⟨p.2, mem_of_head? hp⟩

theorem not_suits_of_bestKey_eq_none (h : bestKey config taken n = none) (hkey : key ∉ taken) :
    ¬ Suits config n key := by
  cases hty : n.ty with
  | pve =>
    rw [bestKey_pve hty, Option.map_eq_none_iff, minByCount_eq_none] at h
    rw [suits_pve_iff hty hkey, h]
    simp
  | pbs =>
    rw [bestKey_pbs hty, Option.map_eq_none_iff, head?_eq_none_iff] at h
    rw [suits_pbs_iff hty hkey, h]
    simp

theorem bestKey_least (h : bestKey config taken n = some key) (hkey' : key' ∉ taken) (hsuits : Suits config n key')
    (hm : Suits config m key) : Suits config m key' := by
  obtain ⟨e, he⟩ := (bestKey_suits h).2
  obtain ⟨e', he'⟩ := hsuits
  obtain ⟨e₀, hme⟩ := hm
  obtain rfl : e₀ = e := Option.some.inj (hme.stored.symm.trans he.stored)
  have hsame : m.ty = n.ty := ProductType.eq_of_matchesRemoteType hme.product he.product
  refine ⟨e', he'.stored, he'.unbound, hsame ▸ he'.product, fun hpve => ?_⟩
  -- of two keys that cover the node the one with the lower count was taken
  have hty : n.ty = .pve := hsame ▸ hpve
  obtain ⟨count', hcount', hle'⟩ := he'.sockets hty
  obtain ⟨count, hcount, hle⟩ := hme.sockets hpve
  have hmem' : (key', count') ∈ coveringCandidates config taken n := mem_coveringCandidates.mpr
    ⟨e', mem_keyCandidates.mpr ⟨he'.stored, he'.unbound, hkey', he'.product⟩, hcount', hle'⟩
  rw [bestKey_pve hty] at h
  obtain ⟨c, hc, rfl⟩ := Option.map_eq_some_iff.mp h
  obtain ⟨e₁, hcand, hcount₁, -⟩ := mem_coveringCandidates.mp (minByCount_mem hc)
  obtain rfl : e₁ = e₀ := Option.some.inj ((mem_keyCandidates.mp hcand).1.symm.trans he.stored)
  obtain rfl : c.2 = count := Option.some.inj (hcount₁.symm.trans hcount)
  exact ⟨count', hcount', UInt32.le_trans hle (minByCount_le hc hmem')⟩

/-! ## Plans -/

def RemoteNodeStatus.id (n : RemoteNodeStatus) : String × String := (n.remote, n.node)

structure CanHave (config : KeyConfig) (n : RemoteNodeStatus) (key : String) : Prop where
  unassigned : n.assignedKey = none
  inactive : n.status ≠ .active
  entry : ∃ e, config.get? key = some e ∧ e.binding = none ∧ e.productType.matchesRemoteType n.ty ∧
    (n.ty = .pve → ∃ count, socketCountFromKey e.key = some count ∧ n.sockets.getD 1 ≤ count.toNat)

def Covers (config : KeyConfig) (statuses : List RemoteNodeStatus) (b : String × String) (key : String) : Prop :=
  ∃ n ∈ statuses, n.id = b ∧ CanHave config n key

/-- **What can be planned.** -/
structure ValidPlan (config : KeyConfig) (statuses : List RemoteNodeStatus) (ps : List ProposedAssignment) : Prop where
  keys : (ps.map ProposedAssignment.key).Nodup
  nodes : (ps.map fun p => (p.remote, p.node)).Nodup
  covers : ∀ p ∈ ps, Covers config statuses (p.remote, p.node) p.key

def isPve (statuses : List RemoteNodeStatus) (b : String × String) : Bool :=
  statuses.any fun n => n.ty = .pve && n.id = b

def coveredPveNodes (statuses : List RemoteNodeStatus) (ps : List ProposedAssignment) : Nat :=
  ps.countP fun p => isPve statuses (p.remote, p.node)

variable {statuses : List RemoteNodeStatus}

theorem mem_targetNodes : n ∈ targetNodes statuses ↔ n ∈ statuses ∧ n.assignedKey = none ∧ n.status ≠ .active := by
  simp [targetNodes, mem_insertionSort, mem_filter]

theorem neededSockets_le_iff (hn : ∀ s, n.sockets = some s → 0 ≤ s ∧ s < 2 ^ 32) (count) :
    neededSockets n ≤ count ↔ n.sockets.getD 1 ≤ count.toNat := by
  have hrange : 0 ≤ n.sockets.getD 1 ∧ n.sockets.getD 1 < 2 ^ 32 := by
    cases hs : n.sockets with
    | none => simp
    | some s => exact hn s hs
  have hneed : (neededSockets n).toNat = (n.sockets.getD 1).toNat := by
    rw [neededSockets, UInt32.toNat_ofNat']
    omega
  rw [UInt32.le_iff_toNat_le, hneed]
  omega

theorem canHave_iff (hok : PoolOk config) (hn : ∀ s, n.sockets = some s → 0 ≤ s ∧ s < 2 ^ 32)
    (target : n.assignedKey = none ∧ n.status ≠ .active) : CanHave config n key ↔ Suits config n key := by
  have hbind : ∀ e, config.get? key = some e → (e.binding = none ↔ e.remote = none) := by
    intro e he
    have hboth := hok.both _ (get?_eq_some.mp he)
    cases hr : e.remote <;> cases hd : e.node <;> simp_all [SubscriptionKeyEntry.binding]
  constructor
  · rintro ⟨-, -, e, hget, hunb, product, sockets⟩
    refine ⟨e, hget, (hbind e hget).mp hunb, product, fun hty => ?_⟩
    obtain ⟨count, hcount, hle⟩ := sockets hty
    exact ⟨count, hcount, (neededSockets_le_iff hn count).mpr hle⟩
  · rintro ⟨e, he⟩
    refine ⟨target.1, target.2, e, he.stored, (hbind e he.stored).mpr he.unbound, he.product, fun hty => ?_⟩
    obtain ⟨count, hcount, hle⟩ := he.sockets hty
    exact ⟨count, hcount, (neededSockets_le_iff hn count).mp hle⟩

def ProposedAssignment.pair (p : ProposedAssignment) : (String × String) × String := ((p.remote, p.node), p.key)

/-- **The loop of the planner is a greedy matching.** -/
theorem exists_greedy_foldl (hok : PoolOk config) (nodes : (statuses.map RemoteNodeStatus.id).Nodup)
    (sockets : ∀ n ∈ statuses, ∀ s, n.sockets = some s → 0 ≤ s ∧ s < 2 ^ 32) :
    ∀ (ns : List RemoteNodeStatus) (acc : List ProposedAssignment × List String), (∀ n ∈ ns, n ∈ targetNodes statuses) →
    ∃ pairs, Greedy (Covers config statuses) (ns.map RemoteNodeStatus.id) {key | key ∉ acc.2} pairs ∧
      (ns.foldl (proposalStep config) acc).1.map ProposedAssignment.pair = acc.1.map ProposedAssignment.pair ++ pairs
  | [], acc, _ => ⟨[], .nil _, by simp⟩
  | n :: ns, acc, target => by
    obtain ⟨hn, hns⟩ := forall_mem_cons.mp target
    obtain ⟨hmem, htgt⟩ := mem_targetNodes.mp hn
    -- the name of the node stands for its status
    have covers : ∀ key, Covers config statuses n.id key ↔ Suits config n key := by
      intro key
      rw [← canHave_iff hok (sockets n hmem) htgt]
      constructor
      · rintro ⟨n', hn', hid, hhave⟩
        exact inj_on_of_nodup_map nodes hn' hmem hid ▸ hhave
      · exact fun hhave => ⟨n, hmem, rfl, hhave⟩
    rw [foldl_cons, map_cons]
    cases hbest : bestKey config acc.2 n with
    | none =>
      obtain ⟨pairs, greedy, hpairs⟩ := exists_greedy_foldl hok nodes sockets ns acc hns
      rw [proposalStep_of_none hbest]
      exact ⟨pairs, .skip (fun key hkey hc => not_suits_of_bestKey_eq_none hbest hkey ((covers key).mp hc))
        greedy, hpairs⟩
    | some key =>
      have hstep := proposalStep_of_some hbest
      obtain ⟨pairs, greedy, hpairs⟩ := exists_greedy_foldl hok nodes sockets ns (proposalStep config acc n) hns
      have hfree : {k | k ∉ (proposalStep config acc n).2} = {k | k ∉ acc.2} \ {key} := by
        simp [hstep, Set.ext_iff]
      obtain ⟨hkey, hsuits⟩ := bestKey_suits hbest
      refine ⟨(n.id, key) :: pairs, .take hkey ((covers key).mpr hsuits) ?_ (hfree ▸ greedy), ?_⟩
      · rintro key' hkey' hc b ⟨m, hm, hid, hhave⟩
        have hiff : ∀ k, CanHave config m k ↔ Suits config m k := fun k =>
          canHave_iff hok (sockets m hm) ⟨hhave.unassigned, hhave.inactive⟩
        refine ⟨m, hm, hid, (hiff key').mpr ?_⟩
        exact bestKey_least hbest hkey' ((covers key').mp hc) ((hiff key).mp hhave)
      · rw [hpairs, hstep]
        simp [ProposedAssignment.pair, RemoteNodeStatus.id]

theorem isPve_eq_of_covers (nodes : (statuses.map RemoteNodeStatus.id).Nodup) {b b'}
    (h : Covers config statuses b key) (h' : Covers config statuses b' key) : isPve statuses b = isPve statuses b' := by
  have hisPve : ∀ n ∈ statuses, isPve statuses n.id = decide (n.ty = .pve) := by
    intro n hn
    rw [isPve, Bool.eq_iff_iff, any_eq_true, decide_eq_true_eq]
    constructor
    · rintro ⟨n', hn', hpve⟩
      rw [Bool.and_eq_true, decide_eq_true_eq, decide_eq_true_eq] at hpve
      exact inj_on_of_nodup_map nodes hn' hn hpve.2 ▸ hpve.1
    · exact fun hty => ⟨n, hn, by simp [hty]⟩
  obtain ⟨n, hn, rfl, -, -, e, he, -, product, -⟩ := h
  obtain ⟨n', hn', rfl, -, -, e', he', -, product', -⟩ := h'
  obtain rfl : e = e' := Option.some.inj (he.symm.trans he')
  rw [hisPve n hn, hisPve n' hn', ProductType.eq_of_matchesRemoteType product product']

/-- **The planner returns a plan, and no plan covers more nodes of Proxmox VE.** -/
theorem computeProposals_maximum (hok : PoolOk config)
    (hnodes : (statuses.map RemoteNodeStatus.id).Nodup)
    (hsockets : ∀ n ∈ statuses, ∀ s, n.sockets = some s → 0 ≤ s ∧ s < 2 ^ 32) :
    ValidPlan config statuses (computeProposals config statuses) ∧ ∀ ps, ValidPlan config statuses ps →
        coveredPveNodes statuses ps ≤ coveredPveNodes statuses (computeProposals config statuses) := by
  obtain ⟨pairs, hgreedy, hpairs⟩ := exists_greedy_foldl hok hnodes hsockets (targetNodes statuses)
    ([], []) fun _ hn => hn
  have hplan : (computeProposals config statuses).map ProposedAssignment.pair = pairs := hpairs
  have targets : ((targetNodes statuses).map RemoteNodeStatus.id).Nodup := by
    refine (((perm_insertionSort _ _).map _).nodup_iff).mpr ?_
    exact hnodes.sublist (filter_sublist.map _)
  have hmatching := hgreedy.matching targets
  have hcov : ∀ ps, coveredPveNodes statuses ps =
      (ps.map ProposedAssignment.pair).countP fun q => isPve statuses q.1 := fun ps => by
    rw [coveredPveNodes, countP_map]
    rfl
  constructor
  · rw [← hplan] at hmatching
    constructor
    · simpa [map_map, Function.comp_def, ProposedAssignment.pair] using hmatching.items
    · simpa [map_map, Function.comp_def, ProposedAssignment.pair] using hmatching.places
    · exact fun p hp => hmatching.fit p.pair (mem_map_of_mem hp)
  · intro ps hps
    -- the part of the other plan that is for nodes of Proxmox VE
    have hsub : (ps.filter fun p => isPve statuses (p.remote, p.node)).Sublist ps := filter_sublist
    have hoth : Matching (Covers config statuses) ((targetNodes statuses).map RemoteNodeStatus.id) {key | key ∉ []}
        ((ps.filter fun p => isPve statuses (p.remote, p.node)).map ProposedAssignment.pair) := by
      constructor
      · simpa [map_map, Function.comp_def, ProposedAssignment.pair] using hps.nodes.sublist (hsub.map _)
      · simpa [map_map, Function.comp_def, ProposedAssignment.pair] using hps.keys.sublist (hsub.map _)
      · refine forall_mem_map.mpr fun p hp => ?_
        obtain ⟨n, hn, hid, hhave⟩ := hps.covers p (hsub.subset hp)
        exact mem_map.mpr ⟨n, mem_targetNodes.mpr ⟨hn, hhave.unassigned, hhave.inactive⟩, hid⟩
      · simp
      · exact forall_mem_map.mpr fun p hp => hps.covers p (hsub.subset hp)
    have hkind : ∀ b b' key, Covers config statuses b key → Covers config statuses b' key →
        isPve statuses b = isPve statuses b' := fun _ _ _ => isPve_eq_of_covers hnodes
    have hle := Greedy.length_le_countP hkind hgreedy hoth
      (forall_mem_map.mpr fun p hp => (mem_filter.mp hp).2)
    rw [hcov (computeProposals config statuses), hplan, coveredPveNodes, countP_eq_length_filter]
    simpa using hle

open Sample

def Sample.mixedPool : KeyConfig :=
  ⟨[("pve1b-0123456789", ⟨"pve1b-0123456789", .pve, .basic, .manual, none, none, false⟩),
    ("pve4b-0123456789", ⟨"pve4b-0123456789", .pve, .basic, .manual, none, none, false⟩),
    ("pbsb-0123456789", ⟨"pbsb-0123456789", .pbs, .basic, .manual, none, none, false⟩)], by decide⟩

def Sample.bareNode (remote : String) (ty : RemoteType) (node : String) (sockets : Option Int) : RemoteNodeStatus :=
  ⟨remote, ty, node, sockets, .notFound, .none, none, none, false⟩

def Sample.bareNodes : List RemoteNodeStatus :=
  [bareNode "a" .pve "n" none, bareNode "a" .pve "o" (some 2), bareNode "b" .pbs "localhost" none]

theorem computeProposals_maximum_mixed : computeProposals mixedPool bareNodes =
      [⟨"pve4b-0123456789", "a", "o", some 4, some 2⟩, ⟨"pve1b-0123456789", "a", "n", some 1, none⟩,
        ⟨"pbsb-0123456789", "b", "localhost", none, none⟩] ∧
    ValidPlan mixedPool bareNodes (computeProposals mixedPool bareNodes) ∧
    ∀ ps, ValidPlan mixedPool bareNodes ps → coveredPveNodes bareNodes ps ≤
      coveredPveNodes bareNodes (computeProposals mixedPool bareNodes) := by
  refine ⟨by decide, computeProposals_maximum ?_ (by decide) ?_⟩
  · constructor
    · simp [mixedPool, mem_def]
    · simp [mixedPool, mem_def]
    · simp [mixedPool, mem_def]
    · simp [mixedPool, mem_def, SubscriptionKeyEntry.binding]
  · simp [bareNodes, bareNode]

/-! ## The digest of the node status -/

def SortedByNode (statuses : List RemoteNodeStatus) : Prop := statuses.Pairwise fun a b => nodeLe a.id b.id

theorem nodeLe_iff {a b : String × String} : nodeLe a b ↔ toLex a ≤ toLex b := by
  simp [nodeLe, Prod.Lex.toLex_le_toLex]

theorem sortedByNode_collectNodeStatus (world) (live) (auth) (config) :
    SortedByNode (collectNodeStatus world live auth config) := by
  let r : RemoteNodeStatus → RemoteNodeStatus → Prop := fun a b => nodeLe a.id b.id
  have : Std.Total r := ⟨fun _ _ => by simpa only [r, nodeLe_iff] using le_total _ _⟩
  have : IsTrans RemoteNodeStatus r := ⟨fun _ _ _ => by simpa only [r, nodeLe_iff] using le_trans⟩
  exact pairwise_insertionSort r _

theorem statusTuples_of_sorted (h : SortedByNode statuses) : statusTuples statuses = statuses.map statusTuple := by
  have hsort : (statuses.map statusTuple).Pairwise fun a b => nodeLe (a.1, a.2.1) (b.1, b.2.1) :=
    pairwise_map.mpr h
  exact hsort.insertionSort_eq

/-! ### What the planner reads -/

def readBack (t : (String × String × SubscriptionStatus × Option Int × Bool) × RemoteType) : RemoteNodeStatus :=
  ⟨t.1.1, t.2, t.1.2.1, t.1.2.2.2.1, t.1.2.2.1, .none, none, none, false⟩

theorem foldl_proposalStep_readBack (ns : List RemoteNodeStatus) (acc : List ProposedAssignment × List String) :
    ns.foldl (proposalStep config) acc =
      (ns.map fun n => readBack (statusTuple n, n.ty)).foldl (proposalStep config) acc := by
  rw [foldl_map]
  rfl

theorem map_statusTuple_targetNodes (statuses) : (targetNodes statuses).map statusTuple =
    ((statuses.map statusTuple).filter fun t => !t.2.2.2.2 && t.2.2.1 ≠ .active).insertionSort
      fun a b => b.2.2.2.1.getD 0 ≤ a.2.2.2.1.getD 0 := by
  have filter : (statuses.filter fun n => n.assignedKey.isNone && n.status ≠ .active).map statusTuple =
      (statuses.map statusTuple).filter fun t => !t.2.2.2.2 && t.2.2.1 ≠ .active := by
    rw [filter_map]
    refine congrArg _ (filter_congr fun n _ => ?_)
    cases hkey : n.assignedKey <;> simp [statusTuple, hkey]
  rw [← filter]
  exact map_insertionSort _ _ statusTuple _ fun a _ b _ => Iff.rfl

/-! ### A pool for all nodes -/

def keyType (config : KeyConfig) (key : String) : Option RemoteType :=
  (config.get? key).bind fun e => [RemoteType.pve, .pbs].find? e.productType.matchesRemoteType

theorem keyType_of_bestKey (h : bestKey config taken n = some key) : keyType config key = some n.ty := by
  obtain ⟨-, e, he, -, product⟩ := bestKey_spec h
  rw [keyType, he]
  cases hp : e.productType <;> cases hty : n.ty <;> simp_all [ProductType.matchesRemoteType]

theorem map_keyType_foldl {size} (hrich : ∀ taken n, taken.length < size → bestKey config taken n ≠ none) :
    ∀ (ns : List RemoteNodeStatus) (acc : List ProposedAssignment × List String), acc.2.length + ns.length ≤ size →
    (ns.foldl (proposalStep config) acc).1.map (fun p => keyType config p.key) =
      acc.1.map (fun p => keyType config p.key) ++ ns.map fun n => some n.ty
  | [], acc, _ => by simp
  | n :: ns, acc, hsize => by
    rw [length_cons] at hsize
    obtain ⟨key, hbest⟩ := Option.ne_none_iff_exists'.mp (hrich acc.2 n (by omega))
    have hstep := proposalStep_of_some hbest
    have ih := map_keyType_foldl hrich ns (proposalStep config acc n) (by rw [hstep]; simp; omega)
    rw [foldl_cons, ih, hstep]
    simp [keyType_of_bestKey hbest]

def numberedKey : RemoteType → Nat → String
  | .pve, i => "pve4294967295b-" ++ String.ofList (List.replicate i 'x')
  | .pbs, i => "pbsb-" ++ String.ofList (List.replicate i 'x')

theorem numberedKey_pve (i : Nat) :
    numberedKey .pve i = "pve4294967295b-" ++ String.ofList (List.replicate i 'x') := rfl

theorem numberedKey_pbs (i : Nat) : numberedKey .pbs i = "pbsb-" ++ String.ofList (List.replicate i 'x') := rfl

def numberedEntry (ty : RemoteType) (i : Nat) : String × SubscriptionKeyEntry :=
  (numberedKey ty i, ⟨numberedKey ty i, (match ty with | .pve => .pve | .pbs => .pbs), .basic, .manual,
    none, none, false⟩)

theorem numberedKey_injective (ty : RemoteType) : Function.Injective (numberedKey ty) := by
  intro i j h
  have hlen := congrArg String.length h
  cases ty <;> simpa [numberedKey_pve, numberedKey_pbs] using hlen

theorem numberedKey_ne (i j : Nat) : numberedKey .pve i ≠ numberedKey .pbs j := by
  intro h
  have hlist := congrArg String.toList h
  simp [numberedKey_pve, numberedKey_pbs] at hlist

theorem socketCountFromKey_numberedKey (i : Nat) : socketCountFromKey (numberedKey .pve i) = some 4294967295 := by
  have parts : Text.splitOnce '-' (numberedKey .pve i) =
      some ("pve4294967295b", String.ofList (List.replicate i 'x')) := by
    simp [Text.splitOnce, numberedKey_pve]
  rw [socketCountFromKey, parts]
  exact (by decide : socketCountFromKey "pve4294967295b-" = some 4294967295)

def numberedPool (size : Nat) : KeyConfig :=
  ⟨(List.range size).map (numberedEntry .pve) ++ (List.range size).map (numberedEntry .pbs), by
    rw [map_append, map_map, map_map]
    refine (nodup_range.map (numberedKey_injective .pve)).append (nodup_range.map (numberedKey_injective .pbs)) ?_
    intro key hpve hpbs
    obtain ⟨i, -, rfl⟩ := mem_map.mp hpve
    obtain ⟨j, -, he⟩ := mem_map.mp hpbs
    exact numberedKey_ne i j he.symm⟩

theorem suits_numberedKey {size i} (hi : i < size) (n) : Suits (numberedPool size) n (numberedKey n.ty i) := by
  refine ⟨(numberedEntry n.ty i).2, get?_eq_some.mpr ?_, rfl, ?_, fun hty => ?_⟩
  · cases hty : n.ty with
    | pve => exact mem_append_left _ (mem_map_of_mem (mem_range.mpr hi))
    | pbs => exact mem_append_right _ (mem_map_of_mem (mem_range.mpr hi))
  · cases n.ty <;> rfl
  · rw [hty]
    refine ⟨_, socketCountFromKey_numberedKey i, UInt32.le_iff_toNat_le.mpr ?_⟩
    exact Nat.le_of_lt_succ (neededSockets n).toNat_lt

theorem bestKey_numberedPool {size} (taken) (n) (h : taken.length < size) :
    bestKey (numberedPool size) taken n ≠ none := by
  intro hnone
  have hall : (List.range size).map (numberedKey n.ty) ⊆ taken := by
    intro key hkey
    obtain ⟨i, hi, rfl⟩ := mem_map.mp hkey
    by_contra hfree
    exact not_suits_of_bestKey_eq_none hnone hfree (suits_numberedKey (mem_range.mp hi) n)
  have hle := (subperm_of_subset (nodup_range.map (numberedKey_injective n.ty)) hall).length_le
  rw [length_map, length_range] at hle
  omega

/-- **The digest covers what the planner reads, except for the types**: nodes with one hash get the same proposals,
whatever the pool is, if and only if those that are planned for are of the same types. -/
theorem computeProposals_eq_iff_types {l₁ l₂ : List RemoteNodeStatus} (h₁ : SortedByNode l₁) (h₂ : SortedByNode l₂)
    (hhash : statusTuples l₁ = statusTuples l₂) : (∀ config, computeProposals config l₁ = computeProposals config l₂) ↔
    (targetNodes l₁).map RemoteNodeStatus.ty = (targetNodes l₂).map RemoteNodeStatus.ty := by
  constructor
  · intro h
    -- with a key for every node the proposals tell the types
    have htypes : ∀ l size, (targetNodes l).length ≤ size →
        (computeProposals (numberedPool size) l).map (fun p => keyType (numberedPool size) p.key) =
          ((targetNodes l).map RemoteNodeStatus.ty).map some := by
      intro l size hsize
      have hfold := map_keyType_foldl bestKey_numberedPool (targetNodes l) ([], []) (by simpa using hsize)
      rw [computeProposals, hfold, map_map]
      rfl
    have hle₁ := Nat.le_max_left (targetNodes l₁).length (targetNodes l₂).length
    have hle₂ := Nat.le_max_right (targetNodes l₁).length (targetNodes l₂).length
    have hsome := (htypes l₁ _ hle₁).symm.trans ((congrArg _ (h _)).trans (htypes l₂ _ hle₂))
    exact map_injective_iff.mpr (Option.some_injective _) hsome
  · intro htypes config
    rw [statusTuples_of_sorted h₁, statusTuples_of_sorted h₂] at hhash
    have tuples : (targetNodes l₁).map statusTuple = (targetNodes l₂).map statusTuple := by
      rw [map_statusTuple_targetNodes, map_statusTuple_targetNodes, hhash]
    have hzip : ∀ l : List RemoteNodeStatus,
        l.map (fun n => (statusTuple n, n.ty)) = (l.map statusTuple).zip (l.map RemoteNodeStatus.ty) :=
      fun _ => zip_map'.symm
    have hread : (targetNodes l₁).map (fun n => (statusTuple n, n.ty)) =
        (targetNodes l₂).map fun n => (statusTuple n, n.ty) := by
      rw [hzip, hzip, tuples, htypes]
    have hback := congrArg (List.map readBack) hread
    rw [map_map, map_map] at hback
    rw [computeProposals, computeProposals, foldl_proposalStep_readBack, foldl_proposalStep_readBack (targetNodes l₂)]
    exact congrArg (fun ns => (ns.foldl (proposalStep config) ([], [])).1) hback

/-- The key that a node has installed is not read. -/
theorem computeProposals_eq_of_currentKey : statusTuples bareNodes =
      statusTuples (bareNodes.map fun n => { n with currentKey := some "pbsc-0123456789" }) ∧
    ∀ config, computeProposals config bareNodes =
      computeProposals config (bareNodes.map fun n => { n with currentKey := some "pbsc-0123456789" }) := by
  have h₁ : SortedByNode bareNodes := by unfold SortedByNode; decide
  have h₂ : SortedByNode (bareNodes.map fun n => { n with currentKey := some "pbsc-0123456789" }) := by
    unfold SortedByNode
    decide
  have hhash : statusTuples bareNodes =
      statusTuples (bareNodes.map fun n => { n with currentKey := some "pbsc-0123456789" }) := by decide
  exact ⟨hhash, (computeProposals_eq_iff_types h₁ h₂ hhash).mpr (by decide)⟩

/-- A node `localhost` of Proxmox VE and a backup server that has taken the name of its remote: the hash is the same,
but a key of another product is planned. -/
theorem computeProposals_depends_on_type :
    SortedByNode [bareNode "a" .pve "localhost" none] ∧ SortedByNode [bareNode "a" .pbs "localhost" none] ∧
    statusTuples [bareNode "a" .pve "localhost" none] = statusTuples [bareNode "a" .pbs "localhost" none] ∧
    computeProposals mixedPool [bareNode "a" .pve "localhost" none] =
      [⟨"pve1b-0123456789", "a", "localhost", some 1, none⟩] ∧
    computeProposals mixedPool [bareNode "a" .pbs "localhost" none] =
      [⟨"pbsb-0123456789", "a", "localhost", none, none⟩] := by
  refine ⟨pairwise_singleton _ _, pairwise_singleton _ _, rfl, ?_, ?_⟩ <;> decide

end Nexus.Subscriptions
