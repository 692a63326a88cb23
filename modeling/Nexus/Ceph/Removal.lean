import Nexus.Ceph.Sweeps

/-!
# Removed remotes

A sweep and the detection on a new remote probe first and write later, without another look at the remotes. So one that
writes after the cleanup for a removed remote leaves rows of it (`row_of_removed_remote`). Otherwise nothing is left
(`clean_after_removal`).
-/

namespace Nexus.Ceph

open Lib List

/-! ## Runs that interleave -/

/-- A run that has its outcomes and has not written yet. -/
structure Probed where
  sweeps : Bool
  reports : List (String × ProbeOutcome)

def Probed.action (run : Probed) (now : Int) : RegistryAction :=
  if run.sweeps then .sweep run.reports now else .detectAndUpsert run.reports

/-- `seen` are the clusters that finished runs have found. -/
structure Fleet where
  remotes : List String
  registry : CephClustersConfig
  pending : List Probed
  seen : List (String × String)

inductive FleetEvent
  | addRemote (id : String) (outcome : ProbeOutcome)
  | startSweep (outcome : String → ProbeOutcome)
  | finish (i : Nat) (now : Int)
  | removeRemote (id : String)
  | onRemoteRemoved (id : String)

def foundOn (reports : List (String × ProbeOutcome)) : List (String × String) :=
  reports.filterMap fun report => match report.2 with
    | .found fsid _ => some (fsid, report.1)
    | _ => none

def Fleet.step (fleet : Fleet) : FleetEvent → Fleet
  | .addRemote id outcome =>
    { fleet with remotes := fleet.remotes ++ [id], pending := fleet.pending ++ [⟨false, [(id, outcome)]⟩] }
  | .startSweep outcome =>
    { fleet with pending := fleet.pending ++ [⟨true, fleet.remotes.map fun id => (id, outcome id)⟩] }
  | .finish i now => match fleet.pending[i]? with
    | none => fleet
    | some run =>
      { fleet with
        registry := fleet.registry.act (run.action now)
        pending := fleet.pending.eraseIdx i
        seen := fleet.seen ++ foundOn run.reports }
  | .removeRemote id => { fleet with remotes := fleet.remotes.filter (· ≠ id) }
  | .onRemoteRemoved id => { fleet with registry := onRemoteRemoved fleet.registry id }

/-! ## What a run writes -/

variable {config : CephClustersConfig} {reports : List (String × ProbeOutcome)} {f : String} {run : Probed}
  {p : String × CephMember} {now : Int}

theorem mem_foundOn {remote} : (f, remote) ∈ foundOn reports ↔ ∃ nodes, (remote, .found f nodes) ∈ reports := by
  simp only [foundOn, mem_filterMap]
  constructor
  · rintro ⟨⟨id, outcome⟩, hmem, h⟩
    cases outcome <;> simp_all
    exact ⟨_, hmem⟩
  · rintro ⟨nodes, h⟩
    exact ⟨_, h, rfl⟩

theorem mem_push {fsid members} : ∀ {found} {p}, p ∈ Found.push fsid members found → p ∈ found ∨
      p.1 = fsid ∧ ∀ m ∈ p.2, m ∈ members ∨ ∃ q ∈ found, q.1 = fsid ∧ m ∈ q.2
  | [], p, h => by simp_all [Found.push]
  | q :: found, p, h => by
    have ih := @mem_push fsid members found p
    unfold Found.push at h
    grind

theorem reported_of_mem_probeAll {p} (hp : p ∈ (probeAll reports).2) :
    (∃ remote, (p.1, remote) ∈ foundOn reports) ∧ ∀ m ∈ p.2, (p.1, m.1) ∈ foundOn reports := by
  refine List.foldlRecOn (motive := fun acc => ∀ p ∈ acc.2, (∃ remote, (p.1, remote) ∈ foundOn reports) ∧
    ∀ m ∈ p.2, (p.1, m.1) ∈ foundOn reports) reports probe (forall_mem_nil _) ?_ p hp
  rintro acc hacc ⟨remote, outcome⟩ hrep p hp
  cases outcome with
  | reachable => exact hacc p hp
  | unreachable => exact hacc p hp
  | found fsid nodes =>
    have hfnd : (fsid, remote) ∈ foundOn reports := mem_foundOn.mpr ⟨nodes, hrep⟩
    obtain hp | ⟨rfl, members⟩ := mem_push hp
    · exact hacc p hp
    · refine ⟨⟨remote, hfnd⟩, fun m hm => ?_⟩
      obtain hm | ⟨q, hq, hfsid, hm⟩ := members m hm
      · obtain ⟨node, -, rfl⟩ := mem_map.mp hm
        exact hfnd
      · exact hfsid ▸ (hacc q hq).2 m hm

theorem act_action (config : CephClustersConfig) (run : Probed) (now : Int) : config.act (run.action now) = config ∨
    (config.act (run.action now)).members = (upsertAll (probeAll run.reports).2 config).2.members ∧
      ∀ f, ((config.act (run.action now)).clusters.get? f).isSome =
        ((upsertAll (probeAll run.reports).2 config).2.clusters.get? f).isSome := by
  unfold Probed.action
  cases run.sweeps with
  | true =>
    simp only [CephClustersConfig.act, sweep, if_true]
    split
    · exact .inr ⟨rfl, fun f => by rw [reconcileUnfound, OrderedMap.get?_mapValues, Option.isSome_map]⟩
    · exact .inl rfl
  | false =>
    simp only [CephClustersConfig.act, detectAndUpsert, Bool.false_eq_true, if_false]
    split
    · exact .inl rfl
    · split
      · exact .inr ⟨rfl, fun _ => rfl⟩
      · exact .inl rfl

theorem remote_of_mem_act (hp : p ∈ (config.act (run.action now)).members) :
    p ∈ config.members ∨ ∃ remote, p.2.remote = some remote ∧ ∃ fsid, (fsid, remote) ∈ foundOn run.reports := by
  obtain h | ⟨members, -⟩ := act_action config run now
  · exact .inl (h ▸ hp)
  · rw [members] at hp
    rw [← OrderedMap.get?_eq_some, get?_members_upsertAll, Option.or_eq_some_iff] at hp
    obtain hp | ⟨-, hp⟩ := hp
    · exact .inl (OrderedMap.get?_eq_some.mp hp)
    · obtain ⟨c, hc, hrow⟩ := Option.map_eq_some_iff.mp hp
      obtain ⟨q, hq, hc⟩ := mem_flatMap.mp (mem_of_find?_eq_some hc)
      obtain ⟨m, hm, rfl⟩ := mem_map.mp hc
      exact .inr ⟨m.1, by rw [← hrow]; rfl, q.1, (reported_of_mem_probeAll (mem_filter.mp hq).1).2 m hm⟩

theorem cluster_of_act (h : ((config.act (run.action now)).clusters.get? f).isSome) :
    (config.clusters.get? f).isSome ∨ ∃ remote, (f, remote) ∈ foundOn run.reports := by
  obtain hsame | ⟨-, cluster⟩ := act_action config run now
  · exact .inl (hsame ▸ h)
  · rw [cluster] at h
    by_cases hf : f ∈ (probeAll run.reports).2.map Prod.fst
    · obtain ⟨p, hp, rfl⟩ := mem_map.mp hf
      exact .inr (reported_of_mem_probeAll hp).1
    · exact .inl (get?_clusters_upsertAll hf ▸ h)

theorem mem_members_act (hp : p ∈ config.members) : p ∈ (config.act (run.action now)).members := by
  unfold Probed.action
  split
  · exact mem_members_sweep hp
  · exact mem_members_detectAndUpsert hp

/-! ## After the removal -/

variable {remote : String} {fleet : Fleet}

/-- No row is of the remote, and every cluster has a member elsewhere. -/
structure Clean (remote : String) (fleet : Fleet) : Prop where
  rows : ∀ p ∈ fleet.registry.members, p.2.remote ≠ some remote
  clusters : ∀ f, (fleet.registry.clusters.get? f).isSome →
    (∃ p ∈ fleet.registry.members, p.2.cluster = f) ∨ ∃ other, other ≠ remote ∧ (f, other) ∈ fleet.seen

/-- The remote is removed, and no run under way has found a cluster on it. -/
structure Quiet (remote : String) (fleet : Fleet) : Prop where
  removed : remote ∉ fleet.remotes
  pending : ∀ run ∈ fleet.pending, ∀ fsid, (fsid, remote) ∉ foundOn run.reports

def FleetEvent.Adds (remote : String) : FleetEvent → Prop
  | .addRemote id _ => id = remote
  | _ => False

theorem Quiet.append (h : Quiet remote fleet) (hrun : ∀ nodes fsid, (remote, .found fsid nodes) ∉ run.reports) :
    ∀ other ∈ fleet.pending ++ [run], ∀ fsid, (fsid, remote) ∉ foundOn other.reports := by
  intro other hoth fsid found
  obtain hoth | hoth := mem_append.mp hoth
  · exact h.pending other hoth fsid found
  · rw [mem_singleton.mp hoth, mem_foundOn] at found
    exact found.elim fun nodes => hrun nodes fsid

theorem Quiet.step (h : Quiet remote fleet) {event} (hadds : ¬ event.Adds remote) :
    Quiet remote (fleet.step event) := by
  cases event with
  | addRemote =>
    refine ⟨by simpa [Fleet.step, h.removed, FleetEvent.Adds, eq_comm] using hadds, h.append fun nodes fsid found => ?_⟩
    exact hadds (Prod.mk.inj (mem_singleton.mp found)).1.symm
  | startSweep =>
    refine ⟨h.removed, h.append fun nodes fsid found => ?_⟩
    obtain ⟨id, hid, heq⟩ := mem_map.mp found
    exact h.removed ((Prod.mk.inj heq).1 ▸ hid)
  | finish =>
    simp only [Fleet.step]
    split
    · exact h
    · exact ⟨h.removed, fun run hrun => h.pending run (mem_of_mem_eraseIdx hrun)⟩
  | removeRemote => exact ⟨fun hmem => h.removed (mem_filter.mp hmem).1, h.pending⟩
  | onRemoteRemoved => exact ⟨h.removed, h.pending⟩

theorem row_of_cluster {id} (h : ((onRemoteRemoved config id).clusters.get? f).isSome) :
    ∃ p ∈ (onRemoteRemoved config id).members, p.2.cluster = f := by
  obtain ⟨cluster, hclus⟩ := Option.isSome_iff_exists.mp h
  exact (get?_clusters_onRemoteRemoved.mp hclus).2

theorem Clean.step (h : Clean remote fleet) (hquiet : Quiet remote fleet) (event) :
    Clean remote (fleet.step event) := by
  cases event with
  | addRemote => exact ⟨h.rows, h.clusters⟩
  | startSweep => exact ⟨h.rows, h.clusters⟩
  | removeRemote => exact ⟨h.rows, h.clusters⟩
  | onRemoteRemoved =>
    exact ⟨fun p hp => h.rows p (mem_members_onRemoteRemoved.mp hp).1, fun f hf => .inl (row_of_cluster hf)⟩
  | finish =>
    simp only [Fleet.step]
    split
    · exact h
    · next run hrun =>
      have hoth := hquiet.pending run (mem_of_getElem? hrun)
      refine ⟨fun p hp hrem => ?_, fun f hf => ?_⟩
      · obtain hp | ⟨other, hrow, fsid, found⟩ := remote_of_mem_act hp
        · exact h.rows p hp hrem
        · obtain rfl := Option.some.inj (hrow.symm.trans hrem)
          exact hoth fsid found
      · obtain hold | ⟨other, found⟩ := cluster_of_act hf
        · obtain ⟨p, hp, cluster⟩ | ⟨other, hne, hseen⟩ := h.clusters f hold
          · exact .inl ⟨p, mem_members_act hp, cluster⟩
          · exact .inr ⟨other, hne, mem_append_left _ hseen⟩
        · exact .inr ⟨other, fun he => hoth f (he ▸ found), mem_append_right _ found⟩

/-- **If no run under way has found a cluster on a removed remote when the cleanup comes, there is nothing of the remote
in the registry until it is added again.** -/
theorem clean_after_removal (hrows : ∀ p ∈ fleet.registry.members, p.2.remote = some remote → p.2.kind = .pve)
    (hquiet : Quiet remote fleet) {events : List FleetEvent} (hadds : ∀ event ∈ events, ¬ event.Adds remote) :
    Clean remote (events.foldl Fleet.step { fleet.step (.onRemoteRemoved remote) with seen := [] }) := by
  have start : Clean remote { fleet.step (.onRemoteRemoved remote) with seen := [] } := by
    refine ⟨fun p hp hrem => ?_, fun f hf => .inl (row_of_cluster hf)⟩
    obtain ⟨hp, hpve⟩ := mem_members_onRemoteRemoved.mp hp
    simp [CephMember.isPveOf, hrem, hrows p hp hrem] at hpve
  refine (List.foldlRecOn (motive := fun fleet => Clean remote fleet ∧ Quiet remote fleet) events Fleet.step
    ⟨start, hquiet.removed, hquiet.pending⟩ ?_).1
  exact fun fleet h event hevent => ⟨h.1.step h.2 event, h.2.step (hadds event hevent)⟩

open Sample

def Sample.sweeping : Fleet :=
  ⟨["pve-east"], ⟨OrderedMap.empty, OrderedMap.empty⟩, [⟨true, [("pve-east", .found "4b4f7f8e" ["node1"])]⟩], []⟩

/-- The sweep writes before the cleanup. -/
theorem clean_after_sweep : let fleet := [.finish 0 100, .removeRemote "pve-east"].foldl Fleet.step sweeping
    Clean "pve-east" ([].foldl Fleet.step { fleet.step (.onRemoteRemoved "pve-east") with seen := [] }) :=
  clean_after_removal (fun p hp =>
    (by decide : ∀ p ∈ ([.finish 0 100, .removeRemote "pve-east"].foldl Fleet.step
    sweeping).registry.members.entries, p.2.remote = some "pve-east" → p.2.kind = .pve) p hp)
    ⟨by decide, forall_mem_nil _⟩ nofun

/-- The sweep writes after the cleanup, and nothing is under way any more. -/
theorem row_of_removed_remote :
    let fleet := [.removeRemote "pve-east", .onRemoteRemoved "pve-east", .finish 0 100].foldl Fleet.step sweeping
    fleet.remotes = [] ∧ fleet.pending.length = 0 ∧
      fleet.registry.members.entries = [("4b4f7f8e-node1", newMember "4b4f7f8e" ("pve-east", "node1"))] ∧
      fleet.registry.clusters.entries = [("4b4f7f8e", ⟨"4b4f7f8e", some .detected, none, none⟩)] := by
  decide

end Nexus.Ceph
