import Mathlib.Data.Finset.Erase
import Mathlib.Data.Finset.Insert
import Mathlib.Logic.Function.Basic
import Nexus.Lib.Run
import Nexus.MonitoringService.Calls

/-!
# Calls of the monitoring service at the same time

Any number of calls, which may all be waiting for the alerting provider at once. Two calls for one target may both
create a downtime (`overlapping_calls_lose_downtime`). As long as no call starts while another one for its target waits,
the calls have the effect of running one after another (`linearizable_of_separate`).
-/

namespace Nexus.MonitoringService

open Lib Function List Inventory Option

/-! ## Calls, the alerting provider and the inventory -/

@[ext] structure Store where
  inventory : Inventory
  downtimes : Finset String

def Store.alert (s : Store) : Alert → Store
  | .create downtimeId _ => { s with downtimes := insert downtimeId s.downtimes }
  | .delete downtimeId => { s with downtimes := s.downtimes.erase downtimeId }

def Store.write (txt : PythonText) (s : Store) : Write → Except ServiceError MonitoringTarget × Store
  | .upsert target => (.ok target, { s with inventory := s.inventory.upsert txt target })
  | .delete targetId => match s.inventory.getTarget targetId with
    | none => (.error (.key targetId), s)
    | some existing => (.ok existing, { s with inventory := s.inventory.erase targetId })

structure Workload (ι : Type) where
  txt : PythonText
  calls : ι → Call
  newId : ι → String

inductive Phase
  | ready
  | waiting (alert : Alert) (w : Write)
  | answered (alert : Alert) (w : Write)
  | done (result : Except ServiceError MonitoringTarget)

structure State (ι : Type) where
  store : Store
  phase : ι → Phase

inductive Act (ι : Type)
  | start (i : ι)
  | alert (i : ι)
  | resume (i : ι)

variable {ι : Type} [DecidableEq ι]

section

variable (load : Workload ι) (s : State ι)

def State.enter (i : ι) (p : Phase) : State ι := { s with phase := update s.phase i p }

def State.finish (txt : PythonText) (s : State ι) (i : ι) (w : Write) : State ι :=
  ⟨(s.store.write txt w).2, update s.phase i (.done (s.store.write txt w).1)⟩

def step : Act ι → State ι
  | .start i => match s.phase i with
    | .ready => match first load.txt (load.newId i) s.store.inventory (load.calls i) with
      | .failed err => s.enter i (.done (.error err))
      | .write w => s.finish load.txt i w
      | .await alert w => s.enter i (.waiting alert w)
    | _ => s
  | .alert i => match s.phase i with
    | .waiting alert w => { s.enter i (.answered alert w) with store := s.store.alert alert }
    | _ => s
  | .resume i => match s.phase i with
    | .answered _ w => s.finish load.txt i w
    | _ => s

def perform (s : Store) (i : ι) : Store :=
  match first load.txt (load.newId i) s.inventory (load.calls i) with
  | .failed _ => s
  | .write w => (s.write load.txt w).2
  | .await alert w => ((s.alert alert).write load.txt w).2

def serial (order : List ι) (s : Store) : Store := order.foldl (perform load) s

def State.start (s : Store) : State ι := ⟨s, fun _ => .ready⟩

def Phase.Pending (p : Phase) (alert : Alert) (w : Write) : Prop := p = .waiting alert w ∨ p = .answered alert w

def Separate (a : Act ι) : Prop :=
  ∀ i, a = .start i → ∀ j alert w, (s.phase j).Pending alert w → (load.calls i).targetId load.txt ≠ some w.targetId

/-- No call starts for a target that another call has yet to write. -/
def SeparateStep (a : Act ι) (t : State ι) : Prop :=
  Separate load s a ∧ t = step load s a

/-- The store is as if the calls had come one by one. -/
def Linearizable (start : Store) (s : State ι) : Prop :=
  ∃ order : List ι, order.Nodup ∧ (∀ i, i ∈ order) ∧ s.store = serial load order start

end

/-! ## Downtimes and targets -/

section

variable {txt : PythonText} {s : Store} {inv : Inventory} {targetId d : String} {w : Write}

theorem getTarget_write_of_ne (h : targetId ≠ w.targetId) :
    (s.write txt w).2.inventory.getTarget targetId = s.inventory.getTarget targetId := by
  cases w with
  | upsert =>
    refine getTarget_congr fun t ht => ?_
    rw [Store.write, mem_upsert]
    constructor
    · rintro (rfl | ⟨hmem, -⟩)
      · exact absurd ht.symm h
      · exact hmem
    · exact fun hmem => .inr ⟨hmem, fun hid => h (ht.symm.trans hid)⟩
  | delete =>
    simp only [Store.write]
    split
    · rfl
    · refine getTarget_congr fun t ht => ?_
      rw [mem_erase]
      exact ⟨And.left, fun hmem => ⟨hmem, fun hid => h (ht.symm.trans hid)⟩⟩

@[simp] theorem downtimes_write : (s.write txt w).2.downtimes = s.downtimes := by
  cases w with
  | upsert => rfl
  | delete =>
    simp only [Store.write]
    split <;> rfl

@[simp] theorem inventory_alert (alert) : (s.alert alert).inventory = s.inventory := by
  cases alert <;> rfl

theorem inventory_write_alert (alert) : ((s.alert alert).write txt w).2.inventory = (s.write txt w).2.inventory := by
  cases w with
  | upsert => simp [Store.write]
  | delete =>
    simp only [Store.write, inventory_alert]
    split
    · exact inventory_alert alert
    · rfl

theorem mem_write_delete {t} : t ∈ (s.write txt (.delete targetId)).2.inventory.targets ↔
    t ∈ s.inventory.targets ∧ t.id ≠ targetId := by
  simp only [Store.write]
  split
  · next hnone =>
    refine ⟨fun ht => ⟨ht, fun hid => ?_⟩, And.left⟩
    rw [getTarget_eq_some.mpr ⟨ht, hid⟩] at hnone
    cases hnone
  · exact mem_erase

theorem truthy_downtimeOf : truthy (inv.downtimeOf targetId) = some d ↔
    ∃ t ∈ inv.targets, t.id = targetId ∧ truthy t.downtimeId = some d := by
  constructor
  · intro hd
    obtain ⟨hrec, hne⟩ := truthy_eq_some.mp hd
    obtain ⟨t, hget, ht⟩ := bind_eq_some_iff.mp hrec
    obtain ⟨hmem, hid⟩ := getTarget_eq_some.mp hget
    exact ⟨t, hmem, hid, truthy_eq_some.mpr ⟨ht, hne⟩⟩
  · rintro ⟨t, ht, hid, hd⟩
    rwa [Inventory.downtimeOf, getTarget_eq_some.mpr ⟨ht, hid⟩]

def Write.downtimeId : Write → Option String
  | .upsert target => target.downtimeId
  | .delete _ => none

theorem downtimeOf_write : (s.write txt w).2.inventory.downtimeOf targetId =
    if targetId = w.targetId then w.downtimeId else s.inventory.downtimeOf targetId := by
  split
  · next heq =>
    subst heq
    cases w with
    | upsert target =>
      have hmem : target ∈ (s.inventory.upsert txt target).targets := mem_upsert.mpr (.inl rfl)
      exact congrArg (Option.bind · _) (getTarget_eq_some.mpr ⟨hmem, rfl⟩)
    | delete =>
      refine eq_none_iff_forall_not_mem.mpr fun d hd => ?_
      obtain ⟨t, hget, -⟩ := bind_eq_some_iff.mp hd
      obtain ⟨ht, hid⟩ := getTarget_eq_some.mp hget
      exact (mem_write_delete.mp ht).2 hid
  · next hne => rw [Inventory.downtimeOf, getTarget_write_of_ne hne, Inventory.downtimeOf]

/-- Each downtime is of exactly one target. -/
structure Consistent (s : Store) : Prop where
  live : ∀ d, d ∈ s.downtimes ↔ ∃ t ∈ s.inventory.targets, truthy t.downtimeId = some d
  unique : ∀ d, ∀ t ∈ s.inventory.targets, ∀ t' ∈ s.inventory.targets,
    truthy t.downtimeId = some d → truthy t'.downtimeId = some d → t = t'

theorem consistent_iff : Consistent s ↔
    (∀ d, d ∈ s.downtimes ↔ ∃ targetId, truthy (s.inventory.downtimeOf targetId) = some d) ∧
      ∀ d id id', truthy (s.inventory.downtimeOf id) = some d → truthy (s.inventory.downtimeOf id') = some d →
        id = id' := by
  have hrec : ∀ d, (∃ t ∈ s.inventory.targets, truthy t.downtimeId = some d) ↔
      ∃ targetId, truthy (s.inventory.downtimeOf targetId) = some d := by
    intro d
    simp only [truthy_downtimeOf]
    exact ⟨fun ⟨t, ht, hd⟩ => ⟨t.id, t, ht, rfl, hd⟩, fun ⟨_, t, ht, _, hd⟩ => ⟨t, ht, hd⟩⟩
  constructor
  · refine fun h => ⟨fun d => (h.live d).trans (hrec d), fun d id id' hd hd' => ?_⟩
    obtain ⟨t, ht, rfl, hown⟩ := truthy_downtimeOf.mp hd
    obtain ⟨t', ht', rfl, hown'⟩ := truthy_downtimeOf.mp hd'
    rw [h.unique d t ht t' ht' hown hown']
  · rintro ⟨hlive, huniq⟩
    refine ⟨fun d => (hlive d).trans (hrec d).symm, fun d t ht t' ht' hd hd' => ?_⟩
    exact inj_on_of_nodup_map s.inventory.ids_nodup ht ht'
      (huniq d _ _ (truthy_downtimeOf.mpr ⟨t, ht, rfl, hd⟩) (truthy_downtimeOf.mpr ⟨t', ht', rfl, hd'⟩))

theorem Consistent.write (h : Consistent s) {s' : Store} (hinv : s'.inventory = s.inventory)
    (hnew : ∀ d id, truthy w.downtimeId = some d → truthy (s.inventory.downtimeOf id) = some d → id = w.targetId)
    (hdown : ∀ d, d ∈ s'.downtimes ↔ truthy w.downtimeId = some d ∨
      (d ∈ s.downtimes ∧ truthy (s.inventory.downtimeOf w.targetId) ≠ some d)) : Consistent (s'.write txt w).2 := by
  obtain ⟨hlive, huniq⟩ := consistent_iff.mp h
  refine consistent_iff.mpr ⟨fun d => ?_, fun d id id' hd hd' => ?_⟩
  · simp only [downtimes_write, hdown, hlive, downtimeOf_write, hinv]
    constructor
    · rintro (hd | ⟨⟨id, hd⟩, hne⟩)
      · exact ⟨w.targetId, by rwa [if_pos rfl]⟩
      · refine ⟨id, ?_⟩
        rwa [if_neg]
        rintro rfl
        exact hne hd
    · rintro ⟨id, hd⟩
      split at hd
      · exact .inl hd
      · next hid => exact .inr ⟨⟨id, hd⟩, fun hown => hid (huniq d id w.targetId hd hown)⟩
  · rw [downtimeOf_write, hinv] at hd hd'
    split at hd <;> split at hd'
    · next hid hid' => exact hid.trans hid'.symm
    · next hid' => exact absurd (hnew d id' hd hd') hid'
    · next hid _ => exact absurd (hnew d id hd' hd) hid
    · exact huniq d id id' hd hd'

end

/-! ## One call after another -/

section

variable {ι : Type} {load : Workload ι} {s : Store} {inv : Inventory} {i j : ι}

def Fresh (load : Workload ι) (inv : Inventory) (i : ι) : Prop := ∀ t ∈ inv.targets, t.downtimeId ≠ some (load.newId i)

theorem Fresh.not_recorded (h : Fresh load inv i) {targetId d} (hd : truthy (inv.downtimeOf targetId) = some d) :
    d ≠ load.newId i := by
  rintro rfl
  obtain ⟨t, ht, -, hrec⟩ := truthy_downtimeOf.mp hd
  exact h t ht (truthy_eq_some.mp hrec).1

def Writes (load : Workload ι) (inv : Inventory) (i : ι) (w : Write) : Prop :=
  first load.txt (load.newId i) inv (load.calls i) = .write w ∨
    ∃ alert, first load.txt (load.newId i) inv (load.calls i) = .await alert w

theorem Writes.targetId {w} (h : Writes load inv i w) : (load.calls i).targetId load.txt = some w.targetId := by
  have hleads := first_leads load.txt (load.newId i) inv (load.calls i)
  rcases h with h | ⟨alert, h⟩ <;> rw [h] at hleads <;> cases hleads <;> assumption

theorem Fresh.write (hfr : Fresh load s.inventory j) (hne : load.newId i ≠ load.newId j) {w}
    (hw : Writes load s.inventory i w) : Fresh load (s.write load.txt w).2.inventory j := by
  have upsert : ∀ target, target.downtimeId ≠ some (load.newId j) →
      Fresh load (s.inventory.upsert load.txt target) j := by
    intro target htgt t ht
    rcases mem_upsert.mp ht with rfl | ⟨hold, -⟩
    · exact htgt
    · exact hfr t hold
  have hleads := first_leads load.txt (load.newId i) s.inventory (load.calls i)
  rcases hw with hw | ⟨alert, hw⟩ <;> rw [hw] at hleads
  · cases hleads with
    | @keep target hid hsame =>
      refine upsert target fun heq => ?_
      rw [hsame] at heq
      obtain ⟨t, hget, ht⟩ := bind_eq_some_iff.mp heq
      exact hfr t (getTarget_eq_some.mp hget).1 ht
    | drop => exact fun t ht => hfr t (mem_write_delete.mp ht).1
  · cases hleads with
    | enter => exact upsert _ fun heq => hne (some.inj heq)
    | leave => exact upsert _ nofun
    | dropLast => exact fun t ht => hfr t (mem_write_delete.mp ht).1

theorem perform_of_writes {w} (hw : Writes load s.inventory i w) :
    (perform load s i).inventory = (s.write load.txt w).2.inventory := by
  unfold perform
  rcases hw with hw | ⟨alert, hw⟩
  · rw [hw]
  · rw [hw]
    exact inventory_write_alert alert

theorem perform_of_failed {err}
    (h : first load.txt (load.newId i) s.inventory (load.calls i) = .failed err) : perform load s i = s := by
  simp only [perform, h]

theorem consistent_perform (h : Consistent s) (hne : load.newId i ≠ "") (hfr : Fresh load s.inventory i) :
    Consistent (perform load s i) := by
  have hnew : ∀ {d}, truthy none ≠ some d := (Option.some_ne_none _).symm
  have herase : ∀ {targetId d₀}, truthy (s.inventory.downtimeOf targetId) = some d₀ → ∀ d,
      d ∈ (s.alert (.delete d₀)).downtimes ↔ truthy none = some d ∨
        (d ∈ s.downtimes ∧ truthy (s.inventory.downtimeOf targetId) ≠ some d) := by
    intro targetId d₀ hsome d
    simp only [Store.alert, hsome, Finset.mem_erase, some.injEq, ne_eq]
    rw [and_comm, eq_comm]
    exact ⟨.inr, fun hor => hor.resolve_left hnew⟩
  have hleads := first_leads load.txt (load.newId i) s.inventory (load.calls i)
  unfold perform
  generalize first load.txt (load.newId i) s.inventory (load.calls i) = r at hleads
  cases hleads with
  | failed => exact h
  | @keep t hid hsame =>
    obtain ⟨hlive, huniq⟩ := consistent_iff.mp h
    refine h.write (w := .upsert t) rfl (fun d id hd hd' => huniq d id t.id hd' (hsame ▸ hd)) fun d => ?_
    simp only [Write.downtimeId, Write.targetId, hsame]
    by_cases hd : truthy (s.inventory.downtimeOf t.id) = some d
    · exact iff_of_true ((hlive d).mpr ⟨t.id, hd⟩) (.inl hd)
    · simp [hd]
  | @enter t hid hnone =>
    have hnew : truthy (some (load.newId i)) = some (load.newId i) := truthy_eq_some.mpr ⟨rfl, hne⟩
    refine h.write (inventory_alert _) (fun d id hd hd' => ?_) fun d => ?_
    · cases hnew.symm.trans hd
      exact absurd rfl (hfr.not_recorded hd')
    · simp only [Store.alert, Write.downtimeId, Write.targetId, hnew, hnone, Finset.mem_insert, some.injEq,
        ne_eq, reduceCtorEq, not_false_eq_true, and_true]
      exact or_congr_left eq_comm
  | leave _ hsome => exact h.write (inventory_alert _) (fun _ _ hd => absurd hd hnew) (herase hsome)
  | @drop targetId hid hnone =>
    exact h.write (w := .delete targetId) rfl (fun _ _ hd => absurd hd hnew) fun d => by
      simp [Write.downtimeId, Write.targetId, hnew, hnone]
  | dropLast _ hsome => exact h.write (inventory_alert _) (fun _ _ hd => absurd hd hnew) (herase hsome)

theorem fresh_perform (hfr : Fresh load s.inventory j) (hne : load.newId i ≠ load.newId j) :
    Fresh load (perform load s i).inventory j := by
  cases hfst : first load.txt (load.newId i) s.inventory (load.calls i) with
  | failed => rwa [perform_of_failed hfst]
  | write =>
    rw [perform_of_writes (.inl hfst)]
    exact hfr.write hne (.inl hfst)
  | await alert =>
    rw [perform_of_writes (.inr ⟨alert, hfst⟩)]
    exact hfr.write hne (.inr ⟨alert, hfst⟩)

theorem consistent_serial (hinj : Function.Injective load.newId) (hne : ∀ i, load.newId i ≠ "") :
    ∀ order s, order.Nodup → Consistent s → (∀ i ∈ order, Fresh load s.inventory i) →
      Consistent (serial load order s)
  | [], _, _, h, _ => h
  | i :: order, s, hnd, h, hfr => by
    obtain ⟨hi, hrest⟩ := nodup_cons.mp hnd
    refine consistent_serial hinj hne order (perform load s i) hrest
      (consistent_perform h (hne i) (hfr i mem_cons_self)) fun j hj => ?_
    refine fresh_perform (hfr j (mem_cons_of_mem i hj)) fun heq => hi ?_
    rwa [hinj heq]

theorem serial_concat (order) (i : ι) : serial load (order ++ [i]) s = perform load (serial load order s) i := by
  rw [serial, foldl_append]
  rfl

end

/-! ## Calls that are kept apart -/

section

variable {ι : Type} {load : Workload ι} {start : Store} {order : List ι} {s : State ι} {i j : ι}
  {alert : Alert} {w : Write} {d : String} {φ : ι → Phase} {p : Phase} {f : Phase → Option String}

def Phase.created : Phase → Option String
  | .answered (.create downtimeId _) _ => some downtimeId
  | _ => none

def Phase.deleted : Phase → Option String
  | .answered (.delete downtimeId) _ => some downtimeId
  | _ => none

def Ahead (φ : ι → Phase) (done now : Finset String) : Prop :=
  ∀ d, d ∈ now ↔ (d ∈ done ∧ ¬ ∃ i, (φ i).deleted = some d) ∨ ∃ i, (φ i).created = some d

/-- **The invariant**: what there is now is what the calls leave one after another. -/
structure Linear (load : Workload ι) (start : Store) (order : List ι) (s : State ι) : Prop where
  nodup : order.Nodup
  mem : ∀ i, i ∈ order ↔ ∃ result, s.phase i = .done result
  inventory : s.store.inventory = (serial load order start).inventory
  downtimes : Ahead s.phase (serial load order start).downtimes s.store.downtimes
  pending : ∀ i alert w, (s.phase i).Pending alert w →
    first load.txt (load.newId i) s.store.inventory (load.calls i) = .await alert w
  apart : ∀ i j alert w alert' w', (s.phase i).Pending alert w → (s.phase j).Pending alert' w' →
    w.targetId = w'.targetId → i = j
  fresh : ∀ i, i ∉ order → Fresh load s.store.inventory i

theorem linear_start (hfr : ∀ i, Fresh load start.inventory i) : Linear load start [] (State.start start) where
  nodup := nodup_nil
  mem _ := ⟨fun h => absurd h not_mem_nil, fun ⟨_, h⟩ => by cases h⟩
  inventory := rfl
  downtimes d := by simp [State.start, serial, Phase.created, Phase.deleted]
  pending _ _ _ h := by rcases h with h | h <;> cases h
  apart _ _ _ _ _ _ h := by rcases h with h | h <;> cases h
  fresh i _ := hfr i

section

variable (h : Linear load start order s)

include h

theorem Linear.not_mem (hopen : ∀ result, s.phase i ≠ .done result) : i ∉ order :=
  fun hi => (h.mem i).mp hi |>.elim hopen

theorem Linear.created (hd : (s.phase i).created = some d) : d = load.newId i ∧ i ∉ order := by
  cases hph : s.phase i with
  | answered alert w =>
    rw [hph] at hd
    have first := h.pending i alert w (.inr hph)
    have hleads := first_leads load.txt (load.newId i) s.store.inventory (load.calls i)
    rw [first] at hleads
    refine ⟨?_, h.not_mem fun result => by rw [hph]; exact nofun⟩
    cases hleads with
    | enter => exact (some.inj hd).symm
    | leave => cases hd
    | dropLast => cases hd
  | ready => rw [hph] at hd; cases hd
  | waiting => rw [hph] at hd; cases hd
  | done => rw [hph] at hd; cases hd

theorem Linear.recorded
    (hp : (s.phase i).Pending (.delete d) w) : ∃ targetId, truthy (s.store.inventory.downtimeOf targetId) = some d := by
  have hleads := first_leads load.txt (load.newId i) s.store.inventory (load.calls i)
  rw [h.pending i _ w hp] at hleads
  cases hleads with
  | leave _ hsome => exact ⟨_, hsome⟩
  | dropLast _ hsome => exact ⟨_, hsome⟩

theorem Linear.deleted (hd : (s.phase j).deleted = some d) (hi : i ∉ order) : d ≠ load.newId i := by
  have pending : ∃ w, (s.phase j).Pending (.delete d) w := by
    unfold Phase.deleted at hd
    split at hd
    · next w hph =>
      cases hd
      exact ⟨w, .inr hph⟩
    · cases hd
  obtain ⟨w, hw⟩ := pending
  obtain ⟨targetId, hrec⟩ := h.recorded hw
  exact (h.fresh i hi).not_recorded hrec

theorem Linear.nodup_concat (hopen : i ∉ order) : (order ++ [i]).Nodup := by
  rw [← concat_eq_append]
  exact h.nodup.concat hopen

theorem Linear.linearizable (hdone : ∀ i, ∃ result, s.phase i = .done result) : Linearizable load start s := by
  refine ⟨order, h.nodup, fun i => (h.mem i).mpr (hdone i), ?_⟩
  have hdown : s.store.downtimes = (serial load order start).downtimes := by
    ext d
    rw [h.downtimes]
    have hnone : ∀ {f : Phase → Option String}, (∀ result, f (.done result) = none) →
      ¬ ∃ i, f (s.phase i) = some d := by
      rintro f hf ⟨i, hi⟩
      obtain ⟨result, hres⟩ := hdone i
      rw [hres, hf] at hi
      cases hi
    simp [hnone (f := Phase.created) fun _ => rfl, hnone (f := Phase.deleted) fun _ => rfl]
  exact Store.ext h.inventory hdown

end

/-! ### A call moves -/

variable [DecidableEq ι]

theorem exists_update : (∃ j, f (update φ i p j) = some d) ↔ f p = some d ∨ ∃ j, j ≠ i ∧ f (φ j) = some d := by
  constructor
  · rintro ⟨j, hj⟩
    by_cases hji : j = i
    · subst hji
      rw [update_self] at hj
      exact .inl hj
    · rw [update_of_ne hji] at hj
      exact .inr ⟨j, hji, hj⟩
  · rintro (hp | ⟨j, hji, hj⟩)
    · exact ⟨i, by rwa [update_self]⟩
    · exact ⟨j, by rwa [update_of_ne hji]⟩

theorem exists_split (i : ι) : (∃ j, f (φ j) = some d) ↔ f (φ i) = some d ∨ ∃ j, j ≠ i ∧ f (φ j) = some d := by
  rw [← exists_update, update_eq_self]

theorem pending_update
    (h : (update φ i p j).Pending alert w) : (j = i ∧ p.Pending alert w) ∨ (j ≠ i ∧ (φ j).Pending alert w) := by
  by_cases hji : j = i
  · subst hji
    rw [update_self] at h
    exact .inl ⟨rfl, h⟩
  · rw [update_of_ne hji] at h
    exact .inr ⟨hji, h⟩

theorem pending_done {result} (h : (update φ i (.done result) j).Pending alert w) : j ≠ i ∧ (φ j).Pending alert w := by
  rcases pending_update h with ⟨-, hp | hp⟩ | hp
  · cases hp
  · cases hp
  · exact hp

theorem Ahead.move {done now} (h : Ahead φ done now)
    (hdel : p.deleted = (φ i).deleted) (created : p.created = (φ i).created) : Ahead (update φ i p) done now := by
  intro d
  have hold := h d
  rw [exists_split i, exists_split i] at hold
  rwa [exists_update, exists_update, hdel, created]

section

variable (h : Linear load start order s)

include h

theorem Linear.mem_enter (hopen : ∀ result, s.phase i ≠ .done result) (hp : ∀ result, p ≠ .done result) (j : ι) :
    j ∈ order ↔ ∃ result, update s.phase i p j = .done result := by
  rw [h.mem]
  by_cases hji : j = i
  · subst hji
    rw [update_self]
    exact exists_congr fun result => iff_of_false (hopen result) (hp result)
  · rw [update_of_ne hji]

theorem Linear.mem_concat (result) (j : ι) :
    j ∈ order ++ [i] ↔ ∃ result', update s.phase i (.done result) j = .done result' := by
  by_cases hji : j = i
  · subst hji
    simp
  · rw [update_of_ne hji, ← h.mem]
    simp [hji]

theorem Linear.fail (ready : s.phase i = .ready) {err}
    (hfst : first load.txt (load.newId i) s.store.inventory (load.calls i) = .failed err) :
    Linear load start (order ++ [i]) (s.enter i (.done (.error err))) := by
  have hsame : serial load (order ++ [i]) start = serial load order start := by
    rw [serial_concat]
    exact perform_of_failed (h.inventory ▸ hfst)
  have hopen : i ∉ order := h.not_mem fun result => by rw [ready]; exact nofun
  refine ⟨h.nodup_concat hopen, h.mem_concat _, hsame ▸ h.inventory, ?_,
    fun j alert w hp => h.pending j alert w (pending_done hp).2,
    fun j k a b a' b' hj hk => h.apart j k a b a' b' (pending_done hj).2 (pending_done hk).2,
    fun j hj => h.fresh j fun hmem => hj (mem_append_left _ hmem)⟩
  rw [hsame]
  exact h.downtimes.move (by rw [ready]; rfl) (by rw [ready]; rfl)

theorem Linear.wait (ready : s.phase i = .ready)
    (hfst : first load.txt (load.newId i) s.store.inventory (load.calls i) = .await alert w)
    (hapart : ∀ j alert' w', (s.phase j).Pending alert' w' → w'.targetId ≠ w.targetId) :
    Linear load start order (s.enter i (.waiting alert w)) := by
  refine ⟨h.nodup, h.mem_enter (by rw [ready]; exact nofun) nofun, h.inventory,
    h.downtimes.move (by rw [ready]; rfl) (by rw [ready]; rfl), ?_, ?_, h.fresh⟩
  · intro j alert' w' hp
    rcases pending_update hp with ⟨rfl, hp | hp⟩ | ⟨-, hp⟩
    · cases hp
      exact hfst
    · cases hp
    · exact h.pending j alert' w' hp
  · intro j k a b a' b' hj hk heq
    rcases pending_update hj with ⟨hji, hj' | hj'⟩ | ⟨-, hj'⟩
    · cases hj'
      rcases pending_update hk with ⟨hki, -⟩ | ⟨-, hk'⟩
      · exact hji.trans hki.symm
      · exact absurd heq.symm (hapart k a' b' hk')
    · cases hj'
    · rcases pending_update hk with ⟨-, hk' | hk'⟩ | ⟨-, hk'⟩
      · cases hk'
        exact absurd heq (hapart j a b hj')
      · cases hk'
      · exact h.apart j k a b a' b' hj' hk' heq

theorem Linear.answer (hwait : s.phase i = .waiting alert w) :
    Linear load start order { s.enter i (.answered alert w) with store := s.store.alert alert } := by
  have pending : ∀ {j} {a} {b},
      (update s.phase i (.answered alert w) j).Pending a b → (s.phase j).Pending a b := by
    intro j a b hp
    rcases pending_update hp with ⟨rfl, hp | hp⟩ | ⟨-, hp⟩
    · cases hp
    · cases hp
      exact .inl hwait
    · exact hp
  refine ⟨h.nodup, h.mem_enter (by rw [hwait]; exact nofun) nofun, (inventory_alert alert).trans h.inventory,
    fun d => ?_, ?_, fun j k a b a' b' hj hk => h.apart j k a b a' b' (pending hj) (pending hk), ?_⟩
  · have hold := h.downtimes d
    rw [exists_split i, exists_split i, hwait] at hold
    simp only [State.enter]
    rw [exists_update, exists_update]
    cases alert with
    | create =>
      simp only [Store.alert, Finset.mem_insert, hold, Phase.created, Phase.deleted, some.injEq, reduceCtorEq, false_or]
      rw [or_left_comm, eq_comm]
    | delete e =>
      simp only [Store.alert, Finset.mem_erase, hold, Phase.created, Phase.deleted, some.injEq, reduceCtorEq, false_or]
      by_cases hd : e = d
      · subst hd
        -- the downtime is recorded, so it is not one that was created for a call that has not written yet
        have hnone : ¬ ∃ j, j ≠ i ∧ (s.phase j).created = some e := by
          rintro ⟨j, -, hj⟩
          obtain ⟨rfl, hopen⟩ := h.created hj
          obtain ⟨targetId, hrec⟩ := h.recorded (.inl hwait)
          exact (h.fresh j hopen).not_recorded hrec rfl
        simp only [ne_eq, not_true_eq_false, false_and, true_or, and_false, false_or, false_iff]
        exact hnone
      · simp only [ne_eq, hd, Ne.symm hd, eq_comm, not_false_eq_true, true_and, false_or]
  · exact fun j a b hp => (congrArg (first _ _ · _) (inventory_alert alert)).trans (h.pending j a b (pending hp))
  · exact fun j hj => (inventory_alert (s := s.store) alert).symm ▸ h.fresh j hj

end

theorem inventory_write_congr {txt : PythonText} {s s' : Store} (h : s.inventory = s'.inventory) (w) :
    (s.write txt w).2.inventory = (s'.write txt w).2.inventory := by
  cases w with
  | upsert => simp only [Store.write, h]
  | delete =>
    simp only [Store.write, h]
    split
    · exact h
    · rfl

section

variable (h : Linear load start order s) (hinj : Function.Injective load.newId)

include h hinj

theorem Linear.finish (hopen : i ∉ order) (hw : Writes load s.store.inventory i w)
    (hapart : ∀ j alert' w', j ≠ i → (s.phase j).Pending alert' w' → w'.targetId ≠ w.targetId)
    (hdown : Ahead (update s.phase i (.done (s.store.write load.txt w).1))
      (perform load (serial load order start) i).downtimes s.store.downtimes) :
    Linear load start (order ++ [i]) (s.finish load.txt i w) := by
  refine ⟨h.nodup_concat hopen, h.mem_concat _, ?_, ?_, ?_, ?_, ?_⟩
  · rw [serial_concat, perform_of_writes (h.inventory ▸ hw)]
    exact inventory_write_congr h.inventory w
  · rw [serial_concat]
    simpa only [State.finish, downtimes_write] using hdown
  · intro j a b hp
    obtain ⟨hji, hp⟩ := pending_done hp
    have first := h.pending j a b hp
    rw [← first]
    refine first_congr fun targetId hid => getTarget_write_of_ne ?_
    have target := Writes.targetId (.inr ⟨a, first⟩)
    rw [← some.inj (target.symm.trans hid)]
    exact hapart j a b hji hp
  · intro j k a b a' b' hj hk
    exact h.apart j k a b a' b' (pending_done hj).2 (pending_done hk).2
  · intro j hj
    rw [mem_append, not_or, mem_singleton] at hj
    exact (h.fresh j hj.1).write (fun heq => hj.2 (hinj heq).symm) hw

theorem Linear.writeAtOnce (ready : s.phase i = .ready)
    (hfst : first load.txt (load.newId i) s.store.inventory (load.calls i) = .write w)
    (hapart : ∀ j alert' w', (s.phase j).Pending alert' w' → w'.targetId ≠ w.targetId) :
    Linear load start (order ++ [i]) (s.finish load.txt i w) := by
  refine h.finish hinj (h.not_mem fun result => by rw [ready]; exact nofun) (.inl hfst)
    (fun j a b _ hp => hapart j a b hp) ?_
  have hperf : (perform load (serial load order start) i).downtimes = (serial load order start).downtimes := by
    rw [h.inventory] at hfst
    simp only [perform, hfst, downtimes_write]
  rw [hperf]
  exact h.downtimes.move (by rw [ready]; rfl) (by rw [ready]; rfl)

theorem Linear.resume (hansw : s.phase i = .answered alert w) :
    Linear load start (order ++ [i]) (s.finish load.txt i w) := by
  have first := h.pending i alert w (.inr hansw)
  have hopen : i ∉ order := h.not_mem fun result => by rw [hansw]; exact nofun
  refine h.finish hinj hopen (.inr ⟨alert, first⟩)
    (fun j a b hji hp heq => hji (h.apart j i a b alert w hp (.inr hansw) heq)) fun d => ?_
  have hperf : (perform load (serial load order start) i).downtimes =
      ((serial load order start).alert alert).downtimes := by
    rw [h.inventory] at first
    simp only [perform, first, downtimes_write]
  have hold := h.downtimes d
  rw [exists_split i, exists_split i, hansw] at hold
  rw [exists_update, exists_update, hperf]
  cases alert with
  | create e =>
    -- nobody deletes the new downtime, since it is not recorded yet
    have hkept : e = d → ¬ ∃ j, j ≠ i ∧ (s.phase j).deleted = some d := by
      rintro rfl ⟨j, -, hj⟩
      have hown := h.created (i := i) (d := e) (by rw [hansw]; rfl)
      exact h.deleted hj hopen hown.1
    simp only [Store.alert, Finset.mem_insert, hold, Phase.created, Phase.deleted, some.injEq, reduceCtorEq, false_or]
    by_cases hd : e = d
    · exact iff_of_true (.inr (.inl hd)) (.inl ⟨.inl hd.symm, hkept hd⟩)
    · simp [hd, Ne.symm hd]
  | delete =>
    simp only [Store.alert, Finset.mem_erase, hold, Phase.created, Phase.deleted, some.injEq, reduceCtorEq,
      false_or, not_or]
    rw [ne_eq, eq_comm, and_assoc, and_left_comm]

end

/-- **A step keeps the invariant.** -/
theorem linear_step (hinj : Function.Injective load.newId) (h : Linear load start order s) (a)
    (hsep : Separate load s a) : ∃ order', Linear load start order' (step load s a) := by
  cases a with
  | start i =>
    have hapart : ∀ {w}, Writes load s.store.inventory i w → ∀ j alert' w', (s.phase j).Pending alert' w' →
        w'.targetId ≠ w.targetId := by
      intro w hw j alert' w' hp heq
      refine hsep i rfl j alert' w' hp ?_
      rw [heq]
      exact hw.targetId
    simp only [step]
    split
    · next ready =>
      split
      · next err first => exact ⟨_, h.fail ready first⟩
      · next w first => exact ⟨_, h.writeAtOnce hinj ready first (hapart (.inl first))⟩
      · next alert w first => exact ⟨_, h.wait ready first (hapart (.inr ⟨alert, first⟩))⟩
    · exact ⟨order, h⟩
  | alert =>
    simp only [step]
    split
    · next alert w hwait => exact ⟨order, h.answer hwait⟩
    · exact ⟨order, h⟩
  | resume =>
    simp only [step]
    split
    · next alert w hansw => exact ⟨_, h.resume hinj hansw⟩
    · exact ⟨order, h⟩

end

/-- **Calls at the same time have the effect of calls one after another, as long as no call starts while another one for
its target is between its read and its write**; and every downtime belongs to one stored target. -/
theorem linearizable_of_separate {ι : Type} [DecidableEq ι] (load : Workload ι) (start : Store)
    (hinj : Function.Injective load.newId) (hne : ∀ i, load.newId i ≠ "")
    (hfresh : ∀ i, Fresh load start.inventory i) {acts : List (Act ι)} {s : State ι}
    (hrun : Run (SeparateStep load) (.start start) acts s) (hdone : ∀ i, ∃ result, s.phase i = .done result) :
    Linearizable load start s ∧ (Consistent start → Consistent s.store) := by
  have hkeeps : ∀ s a t, (∃ order, Linear load start order s) → SeparateStep load s a t →
      ∃ order, Linear load start order t := by
    rintro s a _ ⟨order, h⟩ ⟨hsep, rfl⟩
    exact linear_step hinj h a hsep
  obtain ⟨order, h⟩ := hrun.invariant hkeeps ⟨[], linear_start hfresh⟩
  have linear := h.linearizable hdone
  refine ⟨linear, fun hsta => ?_⟩
  obtain ⟨order, hnd, -, store⟩ := linear
  rw [store]
  exact consistent_serial hinj hne order start hnd hsta fun i _ => hfresh i

/-! ## Calls that overlap -/

namespace Sample

def txt : PythonText := ⟨fun s => s, fun s => s, fun _ => false⟩

def target (id : String) : MonitoringTarget :=
  ⟨id, id, "192.168.0.10", 9100, "/metrics", "home", .enabled, none, "up"⟩

def store : Store := ⟨⟨[target "db", target "web"], by decide⟩, ∅⟩

def load (targets : Bool → String) : Workload Bool :=
  ⟨txt, fun i => .setState (targets i) "maintenance", fun i => if i then "2" else "1"⟩

def overlapping : List (Act Bool) :=
  [.start false, .start true, .alert false, .alert true, .resume false, .resume true]

variable {targets : Bool → String}

theorem newId_injective : Function.Injective (load targets).newId := by
  have hne : ("1" : String) ≠ "2" := by decide
  intro i j h
  cases i <;> cases j
  · rfl
  · exact absurd h hne
  · exact absurd h hne.symm
  · rfl

theorem newId_ne (i : Bool) : (load targets).newId i ≠ "" := by
  have hne : ("1" : String) ≠ "" ∧ ("2" : String) ≠ "" := by decide
  cases i
  · exact hne.1
  · exact hne.2

theorem no_downtimes : ∀ t ∈ store.inventory.targets, t.downtimeId = none := by decide

theorem fresh (i : Bool) : Fresh (load targets) store.inventory i := by
  intro t ht
  rw [no_downtimes t ht]
  exact nofun

theorem consistent : Consistent store := by
  have hnone : ∀ d, ∀ t ∈ store.inventory.targets, truthy t.downtimeId ≠ some d := by
    intro d t ht
    rw [no_downtimes t ht]
    exact nofun
  refine ⟨fun d => iff_of_false (Finset.notMem_empty d) ?_, fun d t ht t' _ hd => absurd hd (hnone d t ht)⟩
  rintro ⟨t, ht, hd⟩
  exact hnone d t ht hd

end Sample

open Sample

theorem linearizable_two_targets : let load := load fun i => if i then "db" else "web"
    let s := overlapping.foldl (step load) (.start store)
    (∀ i, ∃ result, s.phase i = .done result) ∧ Linearizable load store s ∧ Consistent s.store := by
  intro load s
  have hdone : ∀ i, ∃ result, s.phase i = .done result := fun i => by cases i <;> exact ⟨_, rfl⟩
  have hrun : Run (SeparateStep load) (.start store) overlapping s := by
    refine .cons ⟨?_, rfl⟩ <| .cons ⟨?_, rfl⟩ <| .cons ⟨nofun, rfl⟩ <| .cons ⟨nofun, rfl⟩ <|
      .cons ⟨nofun, rfl⟩ <| .cons ⟨nofun, rfl⟩ (.nil _)
    · intro i hi j alert w hp
      rcases hp with hp | hp <;> cases hp
    · intro i hi j alert w hp
      cases hi
      cases j with
      | true => rcases hp with hp | hp <;> cases hp
      | false =>
        rcases hp with hp | hp
        · cases hp
          decide
        · cases hp
  obtain ⟨linear, hkeeps⟩ := linearizable_of_separate load store newId_injective newId_ne
    fresh hrun hdone
  exact ⟨hdone, linear, hkeeps consistent⟩

/-- Two calls put one target into maintenance: the inventory has only the second downtime, and nothing will ever delete
the first. -/
theorem overlapping_calls_lose_downtime : let load := load fun _ => "web"
    let s := overlapping.foldl (step load) (.start store)
    (∀ i, ∃ result, s.phase i = .done result) ∧ Consistent store ∧ ¬ Linearizable load store s ∧
      s.store.downtimes = {"1", "2"} ∧ ∀ t ∈ s.store.inventory.targets, t.downtimeId ≠ some "1" := by
  intro load s
  have hlost : ∀ t ∈ s.store.inventory.targets, t.downtimeId ≠ some "1" := by decide
  have hdown : s.store.downtimes = {"1", "2"} := by decide
  refine ⟨fun i => by cases i <;> exact ⟨_, rfl⟩, consistent, ?_, hdown, hlost⟩
  rintro ⟨order, hnd, -, hser⟩
  have hcon : Consistent (serial load order store) := consistent_serial newId_injective newId_ne order
    store hnd consistent fun i _ => fresh i
  rw [← hser] at hcon
  obtain ⟨t, ht, hd⟩ := (hcon.live "1").mp (by rw [hdown]; decide)
  exact hlost t ht (truthy_eq_some.mp hd).1

end Nexus.MonitoringService
