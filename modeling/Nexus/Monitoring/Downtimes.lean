import Nexus.Monitoring.Requests

/-!
# Downtimes of monitored devices

`DEVICE_LOCK` is held from the read of the inventory over the call of SigNoz to the write, and `Holds` says what there
is in between. Whenever no request is in progress, every downtime is recorded by exactly one device, no device has two,
and every device in maintenance has one unless its creation has failed (`orderly_of_quiet`).
-/

namespace Nexus.Monitoring

open Lib (OrderedMap Value Run)
open Lib.OrderedMap Function Option

/-! ## Downtimes and records -/

variable {inventory inventory' : Value} {downtimes downtimes' : OrderedMap String String}
  {createFailed createFailed' : String → Bool} {device : Device} {id : String} {dt : Option String}

/-- Each downtime is of one device, and each device in maintenance has one. -/
structure Orderly (inventory : Value) (downtimes : OrderedMap String String) (createFailed : String → Bool) : Prop where
  recordedOnce : ∀ p ∈ downtimes, (devices inventory).countP (downtimeId · = some p.1) = 1
  onePerDevice : ∀ p ∈ downtimes, ∀ q ∈ downtimes, p.2 = q.2 → p.1 = q.1
  covered : ∀ d ∈ devices inventory, textOf d "state" = some "maintenance" →
    (∀ id, deviceId d = some id → createFailed id = false) → ∃ p ∈ downtimes, downtimeId d = some p.1

/-- The downtimes are those that the entries record. -/
structure Kept (inventory : Value) (downtimes : OrderedMap String String) (createFailed : String → Bool) : Prop where
  array : devicesOf inventory ≠ none
  distinct : DistinctIds (devices inventory)
  recorded : ∀ d ∈ devices inventory, ∀ x, downtimeId d = some x → ∃ id, deviceId d = some id ∧ (x, id) ∈ downtimes
  known : ∀ x id, (x, id) ∈ downtimes → recordedDowntime inventory id = some x
  covered : ∀ d ∈ devices inventory, textOf d "state" = some "maintenance" →
    (∃ x, downtimeId d = some x) ∨ ∃ id, deviceId d = some id ∧ createFailed id

theorem kept_default (createFailed) : Kept defaultInventory .empty createFailed where
  array := nofun
  distinct := List.Pairwise.nil
  recorded _ hd := absurd hd List.not_mem_nil
  known _ _ h := absurd h mem_empty
  covered _ hd := absurd hd List.not_mem_nil

section

variable (h : Kept inventory downtimes createFailed) {y : String}

include h

theorem Kept.orderly : Orderly inventory downtimes createFailed where
  recordedOnce := by
    rintro ⟨x, id⟩ hp
    obtain ⟨d, hd, hid, hx⟩ := (recordedDowntime_eq_some h.distinct).mp (h.known x id hp)
    have hle : (devices inventory).countP (downtimeId · = some x) ≤ 1 := by
      refine h.distinct.countP_le_one id fun d' hd' hx' => ?_
      obtain ⟨id', hid', hp'⟩ := h.recorded d' hd' x (of_decide_eq_true hx')
      rw [hid', value_unique hp' hp]
    have hpos : 0 < (devices inventory).countP (downtimeId · = some x) :=
      List.countP_pos_iff.mpr ⟨d, hd, decide_eq_true hx⟩
    exact Nat.le_antisymm hle hpos
  onePerDevice := by
    rintro ⟨x, id⟩ hp ⟨y, id'⟩ hq heq
    obtain rfl : id = id' := heq
    exact some.inj ((h.known x id hp).symm.trans (h.known y id hq))
  covered := by
    intro d hd hst hfail
    rcases h.covered d hd hst with ⟨x, hx⟩ | ⟨id, hid, htrue⟩
    · obtain ⟨id, -, hp⟩ := h.recorded d hd x hx
      exact ⟨(x, id), hp, hx⟩
    · rw [hfail id hid] at htrue
      cases htrue

theorem Kept.mem_iff {x} : (x, id) ∈ downtimes ↔ recordedDowntime inventory id = some x := by
  refine ⟨h.known x id, fun hx => ?_⟩
  obtain ⟨d, hd, hid, hx⟩ := (recordedDowntime_eq_some h.distinct).mp hx
  obtain ⟨id', hid', hp⟩ := h.recorded d hd x hx
  rw [hid] at hid'
  rwa [some.inj hid']

theorem Kept.upsert
    (hdown : ∀ x id, (x, id) ∈ downtimes' ↔ (id ≠ device.id ∧ (x, id) ∈ downtimes) ∨ (id = device.id ∧ dt = some x))
    (hfail : ∀ id, id ≠ device.id → createFailed' id = createFailed id)
    (hown : device.state = .maintenance → dt = none → createFailed' device.id)
    (store : storeUpsert inventory device dt = .ok inventory') : Kept inventory' downtimes' createFailed' := by
  obtain ⟨harray, hdist, hmem⟩ := devices_storeUpsert h.distinct store
  refine ⟨harray, hdist, fun d hd x hx => ?_, fun x id hp => ?_, fun d hd hst => ?_⟩
  · rcases (hmem d).mp hd with rfl | ⟨hd, hne⟩
    · rw [downtimeId_deviceEntry] at hx
      exact ⟨device.id, deviceId_deviceEntry, (hdown x device.id).mpr (.inr ⟨rfl, hx⟩)⟩
    · obtain ⟨id, hid, hp⟩ := h.recorded d hd x hx
      exact ⟨id, hid, (hdown x id).mpr (.inl ⟨fun heq => hne (heq ▸ hid), hp⟩)⟩
  · rw [recordedDowntime_eq_some hdist]
    rcases (hdown x id).mp hp with ⟨hne, hold⟩ | ⟨rfl, hx⟩
    · obtain ⟨d, hd, hid, hx⟩ := (recordedDowntime_eq_some h.distinct).mp (h.known x id hold)
      refine ⟨d, (hmem d).mpr (.inr ⟨hd, ?_⟩), hid, hx⟩
      rw [hid]
      exact fun heq => hne (some.inj heq)
    · exact ⟨_, (hmem _).mpr (.inl rfl), deviceId_deviceEntry, by rw [downtimeId_deviceEntry, hx]⟩
  · rcases (hmem d).mp hd with rfl | ⟨hd, hne⟩
    · rw [downtimeId_deviceEntry]
      cases dt with
      | some x => exact .inl ⟨x, rfl⟩
      | none =>
        refine .inr ⟨device.id, deviceId_deviceEntry, hown ?_ rfl⟩
        rw [state_deviceEntry] at hst
        revert hst
        cases device.state with
        | maintenance => exact fun _ => rfl
        | enabled => exact fun heq => absurd (some.inj heq) (by decide)
        | disabled => exact fun heq => absurd (some.inj heq) (by decide)
    · rcases h.covered d hd hst with hx | ⟨id, hid, htrue⟩
      · exact .inl hx
      · exact .inr ⟨id, hid, (hfail id fun heq => hne (heq ▸ hid)).trans htrue⟩

theorem Kept.delete (hdown : ∀ x id', (x, id') ∈ downtimes' ↔ id' ≠ id ∧ (x, id') ∈ downtimes)
    (store : storeDelete inventory id = .ok inventory') : Kept inventory' downtimes' createFailed := by
  obtain ⟨harray, hdist, hmem⟩ := devices_storeDelete h.distinct store
  refine ⟨harray, hdist, fun d hd x hx => ?_, fun x id' hp => ?_, fun d hd => ?_⟩
  · obtain ⟨hd, hne⟩ := (hmem d).mp hd
    obtain ⟨id', hid, hp⟩ := h.recorded d hd x hx
    exact ⟨id', hid, (hdown x id').mpr ⟨fun heq => hne (heq ▸ hid), hp⟩⟩
  · obtain ⟨hne, hold⟩ := (hdown x id').mp hp
    obtain ⟨d, hd, hid, hx⟩ := (recordedDowntime_eq_some h.distinct).mp (h.known x id' hold)
    refine (recordedDowntime_eq_some hdist).mpr ⟨d, (hmem d).mpr ⟨hd, ?_⟩, hid, hx⟩
    rw [hid]
    exact fun heq => hne (some.inj heq)
  · exact h.covered d ((hmem d).mp hd).1

theorem Kept.none_iff (hnone : recordedDowntime inventory id = none)
    (x) (id') : (x, id') ∈ downtimes ↔ (id' ≠ id ∧ (x, id') ∈ downtimes) ∨ (id' = id ∧ none = some x) := by
  constructor
  · intro hp
    refine .inl ⟨?_, hp⟩
    rintro rfl
    cases hnone.symm.trans (h.known x id' hp)
  · rintro (⟨-, hp⟩ | ⟨-, hx⟩)
    · exact hp
    · cases hx

theorem Kept.some_iff (hsome : recordedDowntime inventory id = some y) (x) (id') :
    (x, id') ∈ downtimes ↔ (id' ≠ id ∧ (x, id') ∈ downtimes) ∨ (id' = id ∧ some y = some x) := by
  by_cases hid : id' = id
  · subst hid
    rw [h.mem_iff, hsome]
    simp
  · simp [hid]

theorem Kept.insert_iff (hnone : recordedDowntime inventory id = none) (hnew : downtimes.get? y = none) (x) (id') :
    (x, id') ∈ downtimes.insert y id ↔ (id' ≠ id ∧ (x, id') ∈ downtimes) ∨ (id' = id ∧ some y = some x) := by
  have hfr : (x, id') ∈ downtimes → x ≠ y := by
    rintro hp rfl
    rw [get?_eq_some.mpr hp] at hnew
    cases hnew
  rw [mem_insert]
  constructor
  · rintro (heq | ⟨-, hp⟩)
    · cases heq
      exact .inr ⟨rfl, rfl⟩
    · refine .inl ⟨?_, hp⟩
      rintro rfl
      cases hnone.symm.trans (h.known x id' hp)
  · rintro (⟨-, hp⟩ | ⟨rfl, hx⟩)
    · exact .inr ⟨hfr hp, hp⟩
    · exact .inl (by rw [some.inj hx])

theorem Kept.remove_iff (hsome : recordedDowntime inventory id = some y) (x) (id') :
    (x, id') ∈ downtimes.remove y ↔ id' ≠ id ∧ (x, id') ∈ downtimes := by
  rw [mem_remove]
  refine and_congr_left fun hp => ?_
  constructor
  · rintro hne rfl
    exact hne (some.inj ((h.known x id' hp).symm.trans hsome))
  · rintro hne rfl
    exact hne (value_unique hp (h.mem_iff.mpr hsome))

end

/-! ## Requests under the lock -/

variable {ι : Type} {load : Workload ι} {s t : State ι} {i : ι} {p : Phase} {d : Daemon}

def Daemon.Kept (d : Daemon) : Prop := Monitoring.Kept d.inventory d.downtimes d.createFailed

def Holds (d : Daemon) : Phase → Prop
  | .creating device => d.Kept ∧ recordedDowntime d.inventory device.id = none
  | .removing device downtimeId =>
    d.Kept ∧ recordedDowntime d.inventory device.id = some downtimeId ∧ device.state ≠ .maintenance
  | .answered device downtimeId => devicesOf d.inventory ≠ none ∧
    ∀ inventory, storeUpsert d.inventory device downtimeId = .ok inventory → Kept inventory d.downtimes d.createFailed
  | .forgetting downtimeId _ => Kept d.inventory (d.downtimes.remove downtimeId) d.createFailed
  | _ => d.Kept

theorem Daemon.SameStore.holds {d'} (h : d.SameStore d') (hp : Holds d' p) : Holds d p := by
  obtain ⟨file, downtimes, createFailed, temporary, config, promoted⟩ := d
  obtain ⟨rfl, rfl, rfl⟩ := h
  cases p <;> exact hp

theorem Daemon.SameStore.kept {d' : Daemon} (h : d.SameStore d') (hd : d'.Kept) : d.Kept := h.holds (p := .ready) hd

/-- **The invariant.** -/
structure Safe (s : State ι) : Prop where
  free : s.lock = none → s.daemon.Kept
  held : ∀ i, s.lock = some i → Holds s.daemon (s.phase i)

theorem Safe.of_not_plain (h : Safe s) (locked : Locked load s) (hph : s.phase i = p) (hp : p.plain = false) :
    s.lock = some i ∧ Holds s.daemon p := by
  subst hph
  have hlock := (locked.of_not_plain hp).2
  exact ⟨hlock, h.held i hlock⟩

variable [DecidableEq ι]

theorem Safe.hold (hd : Holds d p) : Safe ⟨d, some i, update s.phase i p⟩ where
  free hfree := by cases hfree
  held j hj := by
    cases hj
    simpa using hd

theorem Safe.goOn (h : Safe s) (locked : Locked load s) {p'} (hph : s.phase i = p) (hp : p.plain = false)
    (hd : Holds s.daemon p → Holds d p') : Safe ⟨d, s.lock, update s.phase i p'⟩ := by
  obtain ⟨hlock, hholds⟩ := h.of_not_plain locked hph hp
  rw [hlock]
  exact .hold (hd hholds)

theorem Safe.aside (h : Safe s) (hlock : s.lock ≠ some i) (hd : d.SameStore s.daemon) :
    Safe ⟨d, s.lock, update s.phase i p⟩ where
  free hfree := hd.kept (h.free hfree)
  held j hj := by
    have hji : j ≠ i := fun heq => hlock (heq ▸ hj)
    simp only [update_of_ne hji]
    exact hd.holds (h.held j hj)

theorem Safe.finish (h : Safe s) (hd : d.SameStore s.daemon) (hkept : s.lock = some i → s.daemon.Kept)
    {result : Except String Unit} :
    Safe ⟨d, if s.lock = some i then none else s.lock, update s.phase i (.done result)⟩ := by
  by_cases hlock : s.lock = some i
  · refine ⟨fun _ => hd.kept (hkept hlock), fun j hj => ?_⟩
    simp only [if_pos hlock] at hj
    cases hj
  · rw [if_neg hlock]
    exact h.aside hlock hd

theorem holds_settleDowntime (h : d.Kept) (device) : Holds d (settleDowntime d.inventory device) := by
  unfold settleDowntime
  split
  · next hnone =>
    split
    · exact ⟨h, hnone⟩
    · next hst =>
      exact ⟨h.array, fun inventory stored => h.upsert (h.none_iff hnone) (fun _ _ => rfl)
        (fun hmaint => absurd hmaint hst) stored⟩
  · next existing hsome =>
    split
    · exact ⟨h.array, fun inventory stored => h.upsert (h.some_iff hsome) (fun _ _ => rfl) nofun stored⟩
    · next hst => exact ⟨h, hsome, hst⟩

/-- The deletion of a downtime that is to be forgotten does not fail. -/
def Forgets (s : State ι) (a : Act ι) : Prop :=
  ∀ i err downtimeId inventory, a = .deleted i (.error err) → s.phase i ≠ .forgetting downtimeId inventory

/-- **Every act keeps the invariant.** -/
theorem safe_move {a : Act ι} (locked : Locked load s) (h : Safe s) (hok : Forgets s a) (hmove : Move load s a t) :
    Safe t := by
  cases hmove with
  | reconcile ready => exact h.aside (locked.not_lock ready) (.refl s.daemon)
  | refuse ready => exact h.finish (.refl s.daemon) fun hlock => absurd hlock (locked.not_lock ready)
  | upsert _ _ hfree => exact .hold (holds_settleDowntime (h.free hfree) _)
  | delete _ _ hfree hsto =>
    have hkept := h.free hfree
    refine .hold ?_
    split
    · next hsome => exact hkept.delete (hkept.remove_iff hsome) hsto
    · next hnone => exact hkept.delete (fun x id' => by simpa using hkept.none_iff hnone x id') hsto
  | created hph hnew =>
    refine h.goOn locked hph rfl fun ⟨hkept, hnone⟩ => ⟨hkept.array, fun inventory hsto => ?_⟩
    exact hkept.upsert (hkept.insert_iff hnone hnew) (fun id hne => update_of_ne hne _ _) nofun hsto
  | createFailed hph =>
    refine h.goOn locked hph rfl fun ⟨hkept, hnone⟩ => ⟨hkept.array, fun inventory hsto => ?_⟩
    exact hkept.upsert (hkept.none_iff hnone) (fun id hne => update_of_ne hne _ _)
      (fun _ _ => update_self _ _ _) hsto
  | removed hph =>
    refine h.goOn locked hph rfl fun ⟨hkept, hsome, hst⟩ => ⟨hkept.array, fun inventory hsto => ?_⟩
    exact hkept.upsert (fun x id => by simp [hkept.remove_iff hsome]) (fun _ _ => rfl)
      (fun hmaint => absurd hmaint hst) hsto
  | removeFailed hph =>
    refine h.goOn locked hph rfl fun ⟨hkept, hsome, _⟩ => ⟨hkept.array, fun inventory hsto => ?_⟩
    exact hkept.upsert (hkept.some_iff hsome) (fun _ _ => rfl) nofun hsto
  | forgotten hph => exact h.goOn locked hph rfl fun hkept => hkept
  | forgetFailed hph => exact absurd hph (hok _ _ _ _ rfl)
  | stored hph hsto => exact h.goOn locked hph rfl fun hholds => hholds.2 _ hsto
  | storeFailed hph hsto =>
    obtain ⟨-, harray, -⟩ := h.of_not_plain locked hph rfl
    obtain ⟨inventory, hstored⟩ := exists_storeUpsert harray _ _
    cases hstored.symm.trans hsto
  | @collect i stage err hph =>
    have hkept : s.lock = some i → s.daemon.Kept := fun hlock => by
      have hheld := h.held i hlock
      rwa [hph] at hheld
    have collected := collect_collected s i stage err
    generalize s.collect i stage err = u at collected
    cases collected with
    | same => exact h
    | goOn hd =>
      by_cases hlock : s.lock = some i
      · rw [hlock]
        exact .hold (hd.kept (hkept hlock))
      · exact h.aside hlock hd
    | ends hd => exact h.finish hd hkept

/-- **Whenever no request is in progress, every downtime is recorded by exactly one device, no device has two, and every
device in maintenance has one unless its last creation has failed.** -/
theorem orderly_of_quiet {ι : Type} [DecidableEq ι] (load : Workload ι) (daemon : Daemon) (hstart : daemon.Kept)
    {acts : List (Act ι)} {s : State ι}
    (hrun : Run (fun s a t => Forgets s a ∧ t = step load s a) (.start daemon) acts s)
    (hquiet : ∀ i, (s.phase i).active = false) :
    Orderly s.daemon.inventory s.daemon.downtimes s.daemon.createFailed := by
  obtain ⟨locked, hsafe⟩ := run_invariant (fun _ _ _ => safe_move) hrun ⟨fun _ => hstart, nofun⟩
  have hfree : s.lock = none := by
    cases hlock : s.lock with
    | none => rfl
    | some i => exact absurd (locked.active hlock) (by rw [hquiet i]; exact nofun)
  exact (hsafe.free hfree).orderly

namespace Sample

def both : Workload Bool where
  requests _ := .upsertDevice "TV" "192.168.0.6" "tv" none (some "maintenance")
  isIpAddress _ := true

def inTurn : List (Act Bool) :=
  [.start false, .start true, .created false (.ok "dt-1"), .store false, .start true, .collect false none, .start true,
    .store true, .collect true none]

def fresh : Daemon := ⟨none, .empty, fun _ => false, none, none, []⟩

def afterwards : State Bool := inTurn.foldl (step both) (.start fresh)

end Sample

open Sample

theorem run_forgets {ι : Type} [DecidableEq ι] (load : Workload ι) : ∀ acts s,
    (∀ i err, .deleted i (.error err) ∉ acts) →
      Run (fun s a t => Forgets s a ∧ t = step load s a) s acts (acts.foldl (step load) s)
  | [], s, _ => .nil s
  | a :: acts, s, h => by
    refine .cons ⟨fun i err _ _ ha => ?_, rfl⟩ (run_forgets load acts (step load s a) fun i err hmem => ?_)
    · exact absurd (ha ▸ List.mem_cons_self) (h i err)
    · exact h i err (List.mem_cons_of_mem a hmem)

/-- **Two requests that put one device in maintenance at once leave one downtime.** -/
theorem orderly_both : afterwards.daemon.downtimes.entries = [("dt-1", "tv")] ∧
    Orderly afterwards.daemon.inventory afterwards.daemon.downtimes afterwards.daemon.createFailed := by
  have hquiet : ∀ i, (afterwards.phase i).active = false := by decide
  have hrun := run_forgets both inTurn (.start fresh) (by simp [inTurn])
  exact ⟨by decide, orderly_of_quiet both fresh (kept_default _) hrun hquiet⟩

end Nexus.Monitoring
