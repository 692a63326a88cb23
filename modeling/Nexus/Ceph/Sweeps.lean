import Nexus.Ceph.Tombstone

/-!
# One sweep after the other

The sweep of `server/src/ceph/sweep.rs` saves the registry if a helper has reported a change. The flag is exact, and the
same outcomes change nothing the second time (`sweepUpdate_idempotent`), since an entry stays in line with an outcome
(`Settled`). A cluster that is gone carries the time at which it was missed first; `always_tied_iff` says which sweeps
keep the two together.
-/

namespace Nexus.Ceph

open Lib Lib.OrderedMap List Option Prod

/-! ## The flag of the sweep -/

def CephCluster.enterState (now : Int) (cluster : CephCluster) : CephClusterState → Bool × CephCluster
  | .gone =>
    let (moved, cluster) :=
      if cluster.state ≠ some .gone then (true, { cluster with state := some .gone }) else (false, cluster)
    if cluster.lastSeenMissing.isNone then (true, { cluster with lastSeenMissing := some now }) else (moved, cluster)
  | .unreachable =>
    if cluster.state ≠ some .unreachable then (true, { cluster with state := some .unreachable }) else (false, cluster)
  | _ => (false, cluster)

def updates (found : Found) (outcomes : OrderedMap String ProbeOutcome) (config : CephClustersConfig) :
    List (String × CephClusterState) :=
  config.clusters.entries.filterMap fun p =>
    if p.1 ∈ found.map fst ∨ p.2.forgotten.isSome then none
    else (unfoundState config outcomes p.1).map fun state => (p.1, state)

def applyUpdate (now : Int) (clusters : OrderedMap String CephCluster) (update : String × CephClusterState) :
    Bool × OrderedMap String CephCluster :=
  match clusters.get? update.1 with
  | some cluster =>
    let (changed, cluster) := cluster.enterState now update.2
    (changed, clusters.insert update.1 cluster)
  | none => (false, clusters)

def reconcile (found : Found) (outcomes : OrderedMap String ProbeOutcome) (now : Int) (config : CephClustersConfig) :
    Bool × CephClustersConfig :=
  let (changed, clusters) := (updates found outcomes config).foldl (flagged (applyUpdate now)) (false, config.clusters)
  (changed, { config with clusters := clusters })

def sweepUpdate (config : CephClustersConfig) (reports : List (String × ProbeOutcome)) (now : Int) :
    Bool × CephClustersConfig :=
  let (outcomes, found) := probeAll reports
  let (upserted, config) := upsertAll found config
  let (reconciled, config) := reconcile found outcomes now config
  (upserted || reconciled, config)

variable {found : Found} {outcomes : OrderedMap String ProbeOutcome} {now : Int} {config : CephClustersConfig}

theorem enterState_eq (cluster : CephCluster) (state : CephClusterState) :
    cluster.enterState now state = (decide (cluster.demote now state ≠ cluster), cluster.demote now state) := by
  obtain ⟨id, old, missing, forgotten⟩ := cluster
  cases state with
  | gone =>
    by_cases hold : old = some .gone
    · cases missing <;> simp [CephCluster.enterState, CephCluster.demote, hold]
    · cases missing <;> simp [CephCluster.enterState, CephCluster.demote, hold, Ne.symm hold]
  | unreachable =>
    by_cases hold : old = some .unreachable
    · simp [CephCluster.enterState, CephCluster.demote, hold]
    · simp [CephCluster.enterState, CephCluster.demote, hold, Ne.symm hold]
  | detected => simp [CephCluster.enterState, CephCluster.demote]
  | tombstoned => simp [CephCluster.enterState, CephCluster.demote]

theorem applyUpdate_snd (clusters : OrderedMap String CephCluster) (update : String × CephClusterState) :
    (applyUpdate now clusters update).2 =
      clusters.mapValues fun fsid cluster => if fsid = update.1 then cluster.demote now update.2 else cluster := by
  rw [mapValues_at, applyUpdate]
  cases clusters.get? update.1 with
  | none => rfl
  | some => simp only [enterState_eq]

theorem applyUpdate_unchanged (clusters : OrderedMap String CephCluster) (update : String × CephClusterState)
    (h : (applyUpdate now clusters update).1 = false) : (applyUpdate now clusters update).2 = clusters := by
  unfold applyUpdate at h ⊢
  cases hget : clusters.get? update.1 with
  | none => rfl
  | some cluster =>
    rw [hget] at h
    have hsame : cluster.demote now update.2 = cluster := by simpa [enterState_eq] using h
    simp only [enterState_eq, hsame]
    exact insert_self hget

theorem reconcile_snd : (reconcile found outcomes now config).2 = reconcileUnfound found outcomes now config := by
  have hloop : ∀ (us : List (String × CephClusterState)) (acc : Bool × OrderedMap String CephCluster),
      (us.foldl (flagged (applyUpdate now)) acc).2 = us.foldl (fun m u => m.mapValues fun fsid cluster =>
        if fsid = u.1 then cluster.demote now u.2 else cluster) acc.2 := by
    intro us
    induction us with
    | nil => exact fun _ => rfl
    | cons u us ih =>
      intro acc
      rw [foldl_cons, ih, foldl_cons]
      exact congrArg (us.foldl _) (applyUpdate_snd acc.2 u)
  have hclus : (reconcile found outcomes now config).2.clusters =
      (reconcileUnfound found outcomes now config).clusters := by
    change ((updates found outcomes config).foldl (flagged (applyUpdate now)) (false, config.clusters)).2 = _
    rw [hloop, foldl_mapValues]
    simp only [reconcileUnfound]
    refine mapValues_congr fun p hp => ?_
    -- the update of a cluster is the only one with its name
    have hkeys : ((config.clusters.entries.map fun q => (q.1, q)).map fst).Nodup := by
      simpa [Function.comp_def] using config.clusters.keys_nodup
    have hupds : updates found outcomes config = (config.clusters.entries.map fun q => (q.1, q)).filterMap fun q =>
        if q.2.1 ∈ found.map fst ∨ q.2.2.forgotten.isSome then none
        else (unfoundState config outcomes q.2.1).map fun state => (q.2.1, state) := by
      rw [filterMap_map]
      rfl
    rw [hupds]
    have hone := foldl_filterMap_at fst hkeys (f := fun q : String × CephCluster =>
        if q.1 ∈ found.map fst ∨ q.2.forgotten.isSome then none
        else (unfoundState config outcomes q.1).map fun state => (q.1, state))
      (g := fun u cluster => CephCluster.demote now cluster u.2) ?_ (mem_map_of_mem hp) p.2
    · refine hone.trans ?_
      simp only
      split
      · rfl
      · cases unfoundState config outcomes p.1 <;> rfl
    · intro q hq u hu
      obtain ⟨q, -, rfl⟩ := mem_map.mp hq
      simp only at hu
      split at hu
      · cases hu
      · obtain ⟨state, -, rfl⟩ := map_eq_some_iff.mp hu
        rfl
  exact congrArg (CephClustersConfig.mk · config.members) hclus

theorem reconcile_unchanged (h : (reconcile found outcomes now config).1 = false) :
    (reconcile found outcomes now config).2 = config :=
  congrArg (CephClustersConfig.mk · config.members) (eq_of_foldl_flagged applyUpdate_unchanged _ h).2

theorem sweepUpdate_unchanged {reports} (h : (sweepUpdate config reports now).1 = false) :
    (sweepUpdate config reports now).2 = config := by
  obtain ⟨upsert, hrec⟩ := Bool.or_eq_false_iff.mp h
  exact (reconcile_unchanged hrec).trans (upsertAll_unchanged upsert)

theorem sweep_eq (reports) : sweep config reports now = (sweepUpdate config reports now).2 := by
  have stored : (sweepUpdate config reports now).2 = reconcileUnfound (probeAll reports).2 (probeAll reports).1 now
      (upsertAll (probeAll reports).2 config).2 := reconcile_snd
  unfold sweep
  simp only
  split
  · exact stored.symm
  · next hsame =>
    simp only [Bool.or_eq_true, not_or, Bool.not_eq_true, decide_eq_true_eq, ne_eq, not_not] at hsame
    have hback := upsertAll_unchanged hsame.1
    have cluster := ext_entries hsame.2
    rw [hback] at cluster stored
    rw [stored]
    exact (congrArg (CephClustersConfig.mk · config.members) cluster).symm

/-! ## The same outcomes again -/

structure Settled (found : Found) (outcomes : OrderedMap String ProbeOutcome) (config : CephClustersConfig) : Prop where
  detected : ∀ p ∈ found, config.isForgotten p.1 = false → ∃ c, config.clusters.get? p.1 = some c ∧
    c.detect = (false, c)
  rows : ∀ p ∈ found, config.isForgotten p.1 = false → ∀ m ∈ p.2, (config.members.get? (memberId p.1 m.2)).isSome
  demoted : ∀ f c state, config.clusters.get? f = some c → f ∉ found.map fst → c.forgotten = none →
    unfoundState config outcomes f = some state → ∀ now, c.demote now state = c

variable {p : String × List (String × String)}

theorem detect_detect (cluster : CephCluster) : cluster.detect.2.detect = (false, cluster.detect.2) := by
  unfold CephCluster.detect
  split
  · rfl
  · rfl

theorem demote_demote (cluster : CephCluster) (state : CephClusterState) (later : Int) :
    (cluster.demote now state).demote later state = cluster.demote now state := by
  cases state <;> rfl

theorem upsertCluster_eq_self
    (hdet : config.isForgotten p.1 = false → ∃ c, config.clusters.get? p.1 = some c ∧ c.detect = (false, c))
    (hrows : config.isForgotten p.1 = false → ∀ m ∈ p.2, (config.members.get? (memberId p.1 m.2)).isSome) :
    upsertCluster config p.1 p.2 = (false, config) := by
  unfold upsertCluster
  cases hf : config.isForgotten p.1 with
  | true => rfl
  | false =>
    obtain ⟨c, hget, hc⟩ := hdet hf
    have hloop : p.2.foldl (upsertMember p.1) (false, config.members) = (false, config.members) := by
      refine foldl_flagged_eq_self (f := fun (rows : OrderedMap String CephMember) m =>
        ((rows.get? (memberId p.1 m.2)).isNone, rows.insertNew (memberId p.1 m.2) (newMember p.1 m))) false
          fun m hm => ?_
      have hrow := hrows hf m hm
      simp [OrderedMap.insertNew, hrow]
    simp [hget, hc, hloop, insert_self hget]

theorem Settled.upsertAll_eq (h : Settled found outcomes config) : upsertAll found config = (false, config) :=
  foldl_flagged_eq_self (f := fun config (p : String × List (String × String)) => upsertCluster config p.1 p.2) false
    fun p hp => upsertCluster_eq_self (h.detected p hp) (h.rows p hp)

theorem Settled.reconcile_eq (h : Settled found outcomes config) (now : Int) :
    reconcile found outcomes now config = (false, config) := by
  have hloop : (updates found outcomes config).foldl (flagged (applyUpdate now)) (false, config.clusters) =
      (false, config.clusters) := by
    refine foldl_flagged_eq_self false fun u hu => ?_
    obtain ⟨⟨f, c⟩, hp, hu⟩ := mem_filterMap.mp hu
    simp only at hu
    split at hu
    · cases hu
    · next hleft =>
      obtain ⟨state, hst, rfl⟩ := map_eq_some_iff.mp hu
      rw [not_or, Bool.not_eq_true, isSome_eq_false_iff, isNone_iff_eq_none] at hleft
      have hget := get?_eq_some.mpr hp
      have hsame := h.demoted f c state hget hleft.1 hleft.2 hst now
      simp [applyUpdate, hget, enterState_eq, hsame, insert_self hget]
  simp only [reconcile, hloop]

theorem Settled.sweepUpdate_eq {reports} (h : Settled (probeAll reports).2 (probeAll reports).1 config) (now : Int) :
    sweepUpdate config reports now = (false, config) := by
  unfold sweepUpdate
  simp [h.upsertAll_eq, h.reconcile_eq]

theorem get?_clusters_upsertCluster (config) (fsid) (f) (members) :
    (upsertCluster config fsid members).2.clusters.get? f = if f = fsid ∧ config.isForgotten fsid = false then
        some ((config.clusters.get? fsid).getD ⟨fsid, none, none, none⟩).detect.2 else config.clusters.get? f := by
  unfold upsertCluster
  cases hf : config.isForgotten fsid with
  | true => simp
  | false =>
    simp only [Bool.false_eq_true, if_false, get?_insert, and_true]
    cases config.clusters.get? fsid <;> rfl

theorem detected_upsertCluster (config : CephClustersConfig) (fsid : String) (members : List (String × String)) {f}
    (h : (∃ c, config.clusters.get? f = some c ∧ c.detect = (false, c)) ∨ f = fsid ∧ config.isForgotten f = false) :
    ∃ c, (upsertCluster config fsid members).2.clusters.get? f = some c ∧ c.detect = (false, c) := by
  rw [get?_clusters_upsertCluster]
  split
  · next hf => exact ⟨_, rfl, detect_detect _⟩
  · next hf =>
    obtain h | ⟨rfl, hforg⟩ := h
    · exact h
    · exact absurd ⟨rfl, hforg⟩ hf

theorem detected_foldl {f} : ∀ (found : Found) (acc : Bool × CephClustersConfig), acc.2.isForgotten f = false →
    ((∃ c, acc.2.clusters.get? f = some c ∧ c.detect = (false, c)) ∨ f ∈ found.map fst) →
    ∃ c, (found.foldl upsertFound acc).2.clusters.get? f = some c ∧ c.detect = (false, c)
  | [], _, _, h => h.resolve_right (by simp)
  | p :: found, acc, hforg, h => by
    have hnext := ((upsertCluster_spec acc.2 p.1 p.2).2.1 f).trans hforg
    refine detected_foldl found (upsertFound acc p) hnext ?_
    obtain h | h := h
    · exact .inl (detected_upsertCluster acc.2 p.1 p.2 (.inl h))
    · obtain rfl | h := mem_cons.mp h
      · exact .inl (detected_upsertCluster acc.2 p.1 p.2 (.inr ⟨rfl, hforg⟩))
      · exact .inr h

theorem rows_upsertAll (config) (hp : p ∈ found) (hforg : config.isForgotten p.1 = false) {m} (hm : m ∈ p.2) :
    ((upsertAll found config).2.members.get? (memberId p.1 m.2)).isSome := by
  have hclaim : (⟨p.1, m.1, m.2⟩ : Claim) ∈ claimsOf config found := by
    refine mem_flatMap.mpr ⟨p, mem_filter.mpr ⟨hp, by simp [hforg]⟩, ?_⟩
    exact mem_map.mpr ⟨m, hm, rfl⟩
  rw [get?_members_upsertAll, isSome_or, isSome_map, Bool.or_eq_true, find?_isSome]
  exact .inr ⟨_, hclaim, decide_eq_true rfl⟩

theorem get?_clusters_reconcileUnfound (found) (outcomes) (now : Int)
    (config) (f) : (reconcileUnfound found outcomes now config).clusters.get? f =
    (config.clusters.get? f).map fun cluster =>
      if f ∈ found.map fst ∨ cluster.forgotten.isSome then cluster else match unfoundState config outcomes f with
        | none => cluster
        | some state => cluster.demote now state :=
  get?_mapValues ..

theorem settled_sweepUpdate (config : CephClustersConfig) (reports : List (String × ProbeOutcome)) (now : Int) :
    Settled (probeAll reports).2 (probeAll reports).1 (sweepUpdate config reports now).2 := by
  generalize hprobe : probeAll reports = probed
  obtain ⟨outcomes, found⟩ := probed
  have stored : (sweepUpdate config reports now).2 =
    reconcileUnfound found outcomes now (upsertAll found config).2 := by
    simp only [sweepUpdate, hprobe]
    exact reconcile_snd
  have hforg : ∀ f, (reconcileUnfound found outcomes now (upsertAll found config).2).isForgotten f =
      config.isForgotten f := fun f => by rw [isForgotten_reconcileUnfound, isForgotten_upsertAll]
  rw [stored]
  refine ⟨fun p hp hf => ?_, fun p hp hf m hm => ?_, fun f c state hget hunf hleft hst later => ?_⟩
  · rw [hforg] at hf
    have hkey : p.1 ∈ found.map fst := mem_map_of_mem hp
    obtain ⟨c, hget, hc⟩ := detected_foldl found (false, config) hf (.inr hkey)
    refine ⟨c, ?_, hc⟩
    rw [get?_clusters_reconcileUnfound, upsertAll, hget, map_some, if_pos (.inl hkey)]
  · rw [hforg] at hf
    exact rows_upsertAll config hp hf hm
  · -- what was decided for the cluster depends on the rows only, which are the same
    rw [get?_clusters_reconcileUnfound] at hget
    obtain ⟨old, -, hvalue⟩ := map_eq_some_iff.mp hget
    have hst' : unfoundState (upsertAll found config).2 outcomes f = some state := hst
    rw [hst'] at hvalue
    split at hvalue
    · next h =>
      rw [hvalue, hleft] at h
      exact absurd h (by simpa using hunf)
    · rw [← hvalue]
      exact demote_demote old state later

/-- **The flag of a sweep is exact, and the same outcomes change nothing at a later time.** -/
theorem sweepUpdate_idempotent (config : CephClustersConfig) (reports : List (String × ProbeOutcome)) (now : Int) :
    ((sweepUpdate config reports now).1 = false ↔ (sweepUpdate config reports now).2 = config) ∧
      ∀ later, sweepUpdate (sweepUpdate config reports now).2 reports later =
        (false, (sweepUpdate config reports now).2) := by
  have settled := settled_sweepUpdate config reports now
  refine ⟨⟨sweepUpdate_unchanged, fun h => ?_⟩, settled.sweepUpdate_eq⟩
  rw [h] at settled
  rw [settled.sweepUpdate_eq]

/-! ## The time at which a cluster was missed -/

def CephCluster.Tied (cluster : CephCluster) : Prop := cluster.lastSeenMissing.isSome ↔ cluster.state = some .gone

/-- A cluster has been missing since some time exactly if it is gone. -/
def Tied (config : CephClustersConfig) : Prop := ∀ f c, config.clusters.get? f = some c → c.Tied

/-- No cluster that is gone becomes unreachable. -/
def KeepsTied (config : CephClustersConfig) (reports : List (String × ProbeOutcome)) : Prop :=
  ∀ f c, config.clusters.get? f = some c → c.state = some .gone → c.forgotten = none →
    f ∉ (probeAll reports).2.map fst → unfoundState config (probeAll reports).1 f ≠ some .unreachable

variable {f : String}

theorem tied_detect (cluster : CephCluster) : cluster.detect.2.Tied := by
  unfold CephCluster.detect
  split
  · simp [CephCluster.Tied]
  · next h =>
    rw [not_or, not_not, Bool.not_eq_true] at h
    simp [CephCluster.Tied, h.1, h.2]

theorem tied_demote_iff {cluster : CephCluster} (h : cluster.Tied) {state : CephClusterState} :
    (cluster.demote now state).Tied ↔ (state = .unreachable → cluster.state ≠ some .gone) := by
  cases state with
  | gone => simp [CephCluster.demote, CephCluster.Tied]
  | unreachable => simpa [CephCluster.demote, CephCluster.Tied] using not_congr h
  | detected => simpa [CephCluster.demote] using h
  | tombstoned => simpa [CephCluster.demote] using h

theorem tied_upsertAll (h : Tied config) : Tied (upsertAll found config).2 := by
  have start : Tied (false, config).2 := h
  refine List.foldlRecOn (motive := fun acc => Tied acc.2) found upsertFound start fun acc hacc p _ f c hget => ?_
  have hvalue := (get?_clusters_upsertCluster acc.2 p.1 f p.2).symm.trans hget
  split at hvalue
  · obtain rfl := some.inj hvalue
    exact tied_detect _
  · exact hacc f c hvalue

theorem get?_clusters_upsertAll (hunf : f ∉ found.map fst) :
    (upsertAll found config).2.clusters.get? f = config.clusters.get? f := by
  have start : (false, config).2.clusters.get? f = config.clusters.get? f := rfl
  refine List.foldlRecOn (motive := fun acc => acc.2.clusters.get? f = config.clusters.get? f) found
    upsertFound start ?_
  intro acc hacc p hp
  have hne : ¬(f = p.1 ∧ acc.2.isForgotten p.1 = false) := fun h => hunf (h.1 ▸ mem_map_of_mem hp)
  exact (get?_clusters_upsertCluster acc.2 p.1 f p.2).trans ((if_neg hne).trans hacc)

theorem membersOf_upsertAll (hunf : f ∉ found.map fst) :
    (upsertAll found config).2.membersOf f = config.membersOf f := by
  have hrows : (upsertAll found config).2.members = (claimsOf config found).foldl claim config.members :=
    (foldl_upsertFound found (false, config)).1
  unfold CephClustersConfig.membersOf
  rw [hrows]
  refine List.foldlRecOn (motive := fun rows : OrderedMap String CephMember =>
    (rows.entries.map snd).filter (·.cluster = f) = (config.members.entries.map snd).filter (·.cluster = f))
    (claimsOf config found) claim rfl fun rows hsame c hc => ?_
  obtain ⟨p, hp, hc⟩ := mem_flatMap.mp hc
  obtain ⟨m, -, rfl⟩ := mem_map.mp hc
  have hne : p.1 ≠ f := fun he => hunf (he ▸ mem_map_of_mem (mem_filter.mp hp).1)
  obtain hents | hents := rows.entries_insertNew (memberId p.1 m.2) (newMember p.1 m)
  · exact (congrArg (fun l : List (String × CephMember) => (l.map snd).filter (·.cluster = f)) hents).trans hsame
  · refine (congrArg (fun l : List (String × CephMember) => (l.map snd).filter (·.cluster = f)) hents).trans ?_
    simpa [newMember, hne] using hsame

theorem tied_sweep_iff (h : Tied config) (reports) (now : Int) :
    Tied (sweep config reports now) ↔ KeepsTied config reports := by
  have stored : sweep config reports now = reconcileUnfound (probeAll reports).2 (probeAll reports).1 now
      (upsertAll (probeAll reports).2 config).2 := (sweep_eq reports).trans reconcile_snd
  have hall : Tied (upsertAll (probeAll reports).2 config).2 := tied_upsertAll h
  rw [stored]
  constructor
  · intro htied f c hget hgone hleft hunf hst
    have hget' : (upsertAll (probeAll reports).2 config).2.clusters.get? f = some c :=
      (get?_clusters_upsertAll hunf).trans hget
    have hst' : unfoundState (upsertAll (probeAll reports).2 config).2 (probeAll reports).1 f = some .unreachable := by
      rw [unfoundState, membersOf_upsertAll hunf]
      exact hst
    have hvalue := get?_clusters_reconcileUnfound (probeAll reports).2 (probeAll reports).1 now
      (upsertAll (probeAll reports).2 config).2 f
    rw [hget', map_some, if_neg (by simp [hunf, hleft]), hst'] at hvalue
    exact (tied_demote_iff (h f c hget)).mp (htied f _ hvalue) rfl hgone
  · intro hkeeps f c hvalue
    rw [get?_clusters_reconcileUnfound] at hvalue
    obtain ⟨old, hold, rfl⟩ := map_eq_some_iff.mp hvalue
    split
    · exact hall f old hold
    · next hleft =>
      rw [not_or, Bool.not_eq_true, isSome_eq_false_iff, isNone_iff_eq_none] at hleft
      split
      · exact hall f old hold
      · next state hst =>
        refine (tied_demote_iff (hall f old hold)).mpr ?_
        rintro rfl hgone
        rw [get?_clusters_upsertAll hleft.1] at hold
        rw [unfoundState, membersOf_upsertAll hleft.1] at hst
        exact hkeeps f old hold hgone hleft.2 hleft.1 hst

abbrev SweepInput := List (String × ProbeOutcome) × Int

def CephClustersConfig.swept (config : CephClustersConfig) (input : SweepInput) : CephClustersConfig :=
  sweep config input.1 input.2

def sweeps (config : CephClustersConfig) (inputs : List SweepInput) : CephClustersConfig :=
  inputs.foldl CephClustersConfig.swept config

/-- **All sweeps of a sequence keep the time and the state together** exactly if each of them does. -/
theorem always_tied_iff (config : CephClustersConfig) (htied : Tied config) (inputs : List SweepInput) :
    (∀ before, before <+: inputs → Tied (sweeps config before)) ↔
      ∀ before input, before ++ [input] <+: inputs → KeepsTied (sweeps config before) input.1 := by
  have hstep : ∀ (config : CephClustersConfig) (input : SweepInput), Tied config →
      (Tied (config.swept input) ↔ KeepsTied config input.1) := fun _ input h => tied_sweep_iff h input.1 input.2
  exact always_iff hstep htied inputs

theorem mem_reports_of_get? {reports : List (String × ProbeOutcome)} {remote : String} {outcome : ProbeOutcome}
    (h : (probeAll reports).1.get? remote = some outcome) : (remote, outcome) ∈ reports := by
  refine List.foldlRecOn (motive := fun acc => ∀ remote outcome, acc.1.get? remote = some outcome →
    (remote, outcome) ∈ reports) reports probe (fun _ _ h => by cases h) ?_ remote outcome h
  intro acc hacc p hp remote outcome h
  simp only [probe, get?_insert] at h
  split at h
  · next hremote =>
    obtain rfl := some.inj h
    rwa [hremote]
  · exact hacc remote outcome h

theorem keepsTied_of_answers {reports : List (String × ProbeOutcome)} (h : ∀ r ∈ reports, r.2 ≠ .unreachable) :
    KeepsTied config reports := by
  intro f c _ _ _ _ hstate
  simp only [unfoundState] at hstate
  split at hstate
  · cases hstate
  · split at hstate
    · next hmem =>
      obtain ⟨remote, -, hget⟩ := mem_filterMap.mp hmem
      exact h _ (mem_reports_of_get? hget) rfl
    · cases hstate

namespace Sample

/-- The cluster is found, then missed, and then found again. -/
def comesBack : List SweepInput :=
  [([("pve", .found "4b4f7f8e" ["n1"])], 100), ([("pve", .reachable)], 200), ([("pve", .found "4b4f7f8e" ["n1"])], 300)]

end Sample

theorem always_tied_comes_back :
    (sweeps ⟨OrderedMap.empty, OrderedMap.empty⟩ (Sample.comesBack.take 2)).clusters.get? "4b4f7f8e" =
      some ⟨"4b4f7f8e", some .gone, some 200, none⟩ ∧
    ∀ before, before <+: Sample.comesBack → Tied (sweeps ⟨OrderedMap.empty, OrderedMap.empty⟩ before) := by
  refine ⟨by decide, (always_tied_iff _ (fun _ _ h => by cases h) _).mpr fun before input h => ?_⟩
  have answers : ∀ input ∈ Sample.comesBack, ∀ r ∈ input.1, r.2 ≠ .unreachable := by decide
  exact keepsTied_of_answers (answers input (h.subset (mem_append_right _ mem_cons_self)))

/-- A cluster is missed, and then its remote cannot be reached any more. -/
theorem missing_unreachable :
    let inputs : List SweepInput := [([("pve", .found "4b4f7f8e" ["n1"])], 100), ([("pve", .reachable)], 200),
      ([("pve", .unreachable)], 300)]
    (sweeps ⟨OrderedMap.empty, OrderedMap.empty⟩ inputs).clusters.get? "4b4f7f8e" =
      some ⟨"4b4f7f8e", some .unreachable, some 200, none⟩ := by
  decide

end Nexus.Ceph
