import Mathlib.Logic.Function.Basic
import Nexus.Lib.OrderedMap
import Nexus.Lib.Run
import Nexus.Monitoring.Store

/-!
# Requests to the monitoring API at the same time

`upsert_device`, `delete_device` and `reconcile` of `server/src/api/nexus/monitoring/mod.rs`, with `signoz.rs` and
`collector.rs`, any number of them at once. The first two hold `DEVICE_LOCK` until they are done; `reconcile` takes no
lock. What SigNoz answers and how the commands end is arbitrary, but no answer is lost.
-/

namespace Nexus.Monitoring

open Lib (OrderedMap Value Run)
open Function

inductive Request
  | upsertDevice (name address kind : String) (site state : Option String)
  | deleteDevice (id : String)
  | reconcile
  deriving DecidableEq

inductive Stage
  /-- There is no enabled device, and the services are disabled. -/
  | disabling
  /-- The configuration of the exporter is checked. -/
  | checking (inventory : Value)
  | writing (config : String)
  | validating
  /-- The temporary file did not pass, and is removed. -/
  | discarding (err : String)
  /-- The temporary file had this content when it passed. -/
  | promoting (validated : String)
  /-- The services are reloaded and restarted. -/
  | applying

inductive Phase
  | ready
  /-- `create_maintenance_downtime`. -/
  | creating (device : Device)
  /-- `delete_downtime`, for a device that is not in maintenance. -/
  | removing (device : Device) (downtimeId : String)
  /-- The downtime is settled, and the device is to be stored with it. -/
  | answered (device : Device) (downtimeId : Option String)
  /-- `delete_downtime`, for a device that was deleted. -/
  | forgetting (downtimeId : String) (inventory : Value)
  | collecting (stage : Stage)
  | done (result : Except String Unit)

def Phase.active : Phase → Bool
  | .ready => false
  | .done _ => false
  | _ => true

def Phase.succeeded : Phase → Bool
  | .done (.ok _) => true
  | _ => false

theorem Phase.not_active_of_succeeded {p : Phase} (h : p.succeeded) : p.active = false := by
  cases p with
  | done => rfl
  | _ => cases h

structure Promotion where
  (validated renamed : String)

/-- `promoted` remembers what was renamed. -/
structure Daemon where
  file : Option Value
  downtimes : OrderedMap String String
  createFailed : String → Bool
  (temporary config : Option String)
  promoted : List Promotion

def Daemon.inventory (d : Daemon) : Value := readInventory d.file

structure State (ι : Type) where
  daemon : Daemon
  lock : Option ι
  phase : ι → Phase

structure Workload (ι : Type) where
  requests : ι → Request
  isIpAddress : String → Bool

inductive Act (ι : Type)
  | start (i : ι)
  | created (i : ι) (answer : Except String String)
  | deleted (i : ι) (answer : Except String Unit)
  | store (i : ι)
  | collect (i : ι) (err : Option String)

def startCollector (inventory : Value) : Stage :=
  if (enabledDevices inventory).isEmpty then .disabling else .checking inventory

def settleDowntime (inventory : Value) (device : Device) : Phase :=
  match recordedDowntime inventory device.id with
  | none => if device.state = .maintenance then .creating device else .answered device none
  | some existing => if device.state = .maintenance then .answered device (some existing) else .removing device existing

variable {ι : Type} [DecidableEq ι]

section

variable (s : State ι) (i : ι)

def State.enter (p : Phase) : State ι := { s with phase := update s.phase i p }

def State.finish (result : Except String Unit) : State ι :=
  ⟨s.daemon, if s.lock = some i then none else s.lock, update s.phase i (.done result)⟩

def State.delete (id : String) : State ι :=
  match storeDelete s.daemon.inventory id with
  | .error err => s.finish i (.error err)
  | .ok inventory =>
    let phase := match recordedDowntime s.daemon.inventory id with
      | some downtimeId => .forgetting downtimeId inventory
      | none => .collecting (startCollector inventory)
    ⟨{ s.daemon with file := some inventory }, some i, update s.phase i phase⟩

def State.collect : Stage → Option String → State ι
  -- how `systemctl disable` ends does not matter
  | .disabling, _ => s.finish i (.ok ())
  | .checking inventory, none => match collectorConfig inventory with
    | .error err => s.finish i (.error err)
    | .ok config => s.enter i (.collecting (.writing config))
  | .writing config, none =>
    { s.enter i (.collecting .validating) with daemon := { s.daemon with temporary := some config } }
  | .validating, none => match s.daemon.temporary with
    | some content => s.enter i (.collecting (.promoting content))
    | none => s
  | .validating, some err => s.enter i (.collecting (.discarding err))
  | .discarding err, _ => { s.finish i (.error err) with daemon := { s.daemon with temporary := none } }
  | .promoting validated, none => match s.daemon.temporary with
    | some content =>
      { s.enter i (.collecting .applying) with
        daemon := { s.daemon with
          temporary := none, config := some content, promoted := s.daemon.promoted ++ [⟨validated, content⟩] } }
    | none => s.finish i (.error "unable to atomically replace ICMP collector configuration")
  | .applying, none => s.finish i (.ok ())
  | _, some err => s.finish i (.error err)

end

def step (load : Workload ι) (s : State ι) : Act ι → State ι
  | .start i => match s.phase i with
    | .ready => match load.requests i with
      | .reconcile => s.enter i (.collecting (startCollector s.daemon.inventory))
      | .upsertDevice name address kind site state =>
        match describedDevice load.isIpAddress name address kind site state with
        | .error err => s.finish i (.error err)
        | .ok device =>
          if s.lock = none then { s.enter i (settleDowntime s.daemon.inventory device) with lock := some i } else s
      | .deleteDevice id => match normalizeSlug id with
        | .error err => s.finish i (.error err)
        | .ok id => if s.lock = none then s.delete i id else s
    | _ => s
  | .created i answer => match s.phase i, answer with
    | .creating device, .ok downtimeId =>
      -- no downtime that there is has the id of a new one
      if (s.daemon.downtimes.get? downtimeId).isSome then s
      else { s.enter i (.answered device (some downtimeId)) with
        daemon := { s.daemon with
          downtimes := s.daemon.downtimes.insert downtimeId device.id
          createFailed := update s.daemon.createFailed device.id false } }
    | .creating device, .error _ =>
      { s.enter i (.answered device none) with
        daemon := { s.daemon with createFailed := update s.daemon.createFailed device.id true } }
    | _, _ => s
  | .deleted i answer => match s.phase i, answer with
    | .removing device downtimeId, .ok _ =>
      { s.enter i (.answered device none) with
        daemon := { s.daemon with downtimes := s.daemon.downtimes.remove downtimeId } }
    | .removing device downtimeId, .error _ => s.enter i (.answered device (some downtimeId))
    | .forgetting downtimeId inventory, .ok _ =>
      { s.enter i (.collecting (startCollector inventory)) with
        daemon := { s.daemon with downtimes := s.daemon.downtimes.remove downtimeId } }
    | .forgetting _ inventory, .error _ => s.enter i (.collecting (startCollector inventory))
    | _, _ => s
  | .store i => match s.phase i with
    | .answered device downtimeId => match storeUpsert s.daemon.inventory device downtimeId with
      | .error err => s.finish i (.error err)
      | .ok inventory =>
        { s.enter i (.collecting (startCollector inventory)) with daemon := { s.daemon with file := some inventory } }
    | _ => s
  | .collect i err => match s.phase i with
    | .collecting stage => s.collect i stage err
    | _ => s

def State.start (daemon : Daemon) : State ι := ⟨daemon, none, fun _ => .ready⟩

/-! ## What an act can do -/

variable {ι : Type} [DecidableEq ι] {load : Workload ι} {s : State ι}

inductive Move (load : Workload ι) (s : State ι) : Act ι → State ι → Prop
  | reconcile {i} (hready : s.phase i = .ready) (hreq : load.requests i = .reconcile) :
      Move load s (.start i) (s.enter i (.collecting (startCollector s.daemon.inventory)))
  | refuse {i err} (hready : s.phase i = .ready) : Move load s (.start i) (s.finish i (.error err))
  | upsert {i device} (hready : s.phase i = .ready) (hreq : load.requests i ≠ .reconcile)
      (hfree : s.lock = none) :
      Move load s (.start i) { s.enter i (settleDowntime s.daemon.inventory device) with lock := some i }
  | delete {i id inventory} (hready : s.phase i = .ready)
      (hreq : load.requests i ≠ .reconcile) (hfree : s.lock = none)
      (hstore : storeDelete s.daemon.inventory id = .ok inventory) :
      Move load s (.start i) ⟨{ s.daemon with file := some inventory }, some i, update s.phase i
        (match recordedDowntime s.daemon.inventory id with
          | some downtimeId => .forgetting downtimeId inventory
          | none => .collecting (startCollector inventory))⟩
  | created {i device downtimeId} (hphase : s.phase i = .creating device)
      (hnew : s.daemon.downtimes.get? downtimeId = none) :
      Move load s (.created i (.ok downtimeId)) { s.enter i (.answered device (some downtimeId)) with
        daemon := { s.daemon with
          downtimes := s.daemon.downtimes.insert downtimeId device.id
          createFailed := update s.daemon.createFailed device.id false } }
  | createFailed {i device err} (hphase : s.phase i = .creating device) :
      Move load s (.created i (.error err)) { s.enter i (.answered device none) with
        daemon := { s.daemon with createFailed := update s.daemon.createFailed device.id true } }
  | removed {i device downtimeId u}
      (hphase : s.phase i = .removing device downtimeId) :
      Move load s (.deleted i (.ok u)) { s.enter i (.answered device none) with
        daemon := { s.daemon with downtimes := s.daemon.downtimes.remove downtimeId } }
  | removeFailed {i device downtimeId err}
      (hphase : s.phase i = .removing device downtimeId) :
      Move load s (.deleted i (.error err)) (s.enter i (.answered device (some downtimeId)))
  | forgotten {i downtimeId inventory u}
      (hphase : s.phase i = .forgetting downtimeId inventory) :
      Move load s (.deleted i (.ok u)) { s.enter i (.collecting (startCollector inventory)) with
        daemon := { s.daemon with downtimes := s.daemon.downtimes.remove downtimeId } }
  | forgetFailed {i downtimeId err inventory}
      (hphase : s.phase i = .forgetting downtimeId inventory) :
      Move load s (.deleted i (.error err)) (s.enter i (.collecting (startCollector inventory)))
  | stored {i device downtimeId inventory}
      (hphase : s.phase i = .answered device downtimeId)
      (hstore : storeUpsert s.daemon.inventory device downtimeId = .ok inventory) :
      Move load s (.store i)
        { s.enter i (.collecting (startCollector inventory)) with daemon := { s.daemon with file := some inventory } }
  | storeFailed {i device downtimeId err}
      (hphase : s.phase i = .answered device downtimeId)
      (hstore : storeUpsert s.daemon.inventory device downtimeId = .error err) :
      Move load s (.store i) (s.finish i (.error err))
  | collect {i stage err} (hphase : s.phase i = .collecting stage) :
      Move load s (.collect i err) (s.collect i stage err)

theorem step_moves (load : Workload ι) (s : State ι) (a : Act ι) :
    step load s a = s ∨ Move load s a (step load s a) := by
  cases a with
  | start =>
    simp only [step]
    split
    · next ready =>
      split
      · next hreq => exact .inr (.reconcile ready hreq)
      · next hreq =>
        split
        · exact .inr (.refuse ready)
        · split
          · next hfree => exact .inr (.upsert ready (by rw [hreq]; exact nofun) hfree)
          · exact .inl rfl
      · next hreq =>
        split
        · exact .inr (.refuse ready)
        · next id _ =>
          split
          · next hfree =>
            unfold State.delete
            split
            · exact .inr (.refuse ready)
            · next stored => exact .inr (.delete ready (by rw [hreq]; exact nofun) hfree stored)
          · exact .inl rfl
    · exact .inl rfl
  | created =>
    simp only [step]
    split
    · next hph =>
      split
      · exact .inl rfl
      · next hnew => exact .inr (.created hph (by simpa using hnew))
    · next hph => exact .inr (.createFailed hph)
    · exact .inl rfl
  | deleted =>
    simp only [step]
    split
    · next hph => exact .inr (.removed hph)
    · next hph => exact .inr (.removeFailed hph)
    · next hph => exact .inr (.forgotten hph)
    · next hph => exact .inr (.forgetFailed hph)
    · exact .inl rfl
  | store =>
    simp only [step]
    split
    · next hph =>
      split
      · next stored => exact .inr (.storeFailed hph stored)
      · next stored => exact .inr (.stored hph stored)
    · exact .inl rfl
  | collect =>
    simp only [step]
    split
    · next hph => exact .inr (.collect hph)
    · exact .inl rfl

def Daemon.SameStore (d d' : Daemon) : Prop :=
  d.file = d'.file ∧ d.downtimes = d'.downtimes ∧ d.createFailed = d'.createFailed

theorem Daemon.SameStore.refl (d : Daemon) : d.SameStore d := ⟨rfl, rfl, rfl⟩

inductive Collected (s : State ι) (i : ι) : State ι → Prop
  | same : Collected s i s
  | goOn {d stage} (hd : d.SameStore s.daemon) :
      Collected s i ⟨d, s.lock, update s.phase i (.collecting stage)⟩
  | ends {d result} (hd : d.SameStore s.daemon) :
      Collected s i ⟨d, if s.lock = some i then none else s.lock, update s.phase i (.done result)⟩

theorem collect_collected (s : State ι) (i : ι) (stage : Stage) (err : Option String) :
    Collected s i (s.collect i stage err) := by
  have hsame : s.daemon.SameStore s.daemon := .refl s.daemon
  cases err with
  | none =>
    cases stage with
    | disabling => exact .ends hsame
    | checking =>
      simp only [State.collect]
      split
      · exact .ends hsame
      · exact .goOn hsame
    | writing => exact .goOn ⟨rfl, rfl, rfl⟩
    | validating =>
      simp only [State.collect]
      split
      · exact .goOn hsame
      · exact .same
    | discarding => exact .ends ⟨rfl, rfl, rfl⟩
    | promoting =>
      simp only [State.collect]
      split
      · exact .goOn ⟨rfl, rfl, rfl⟩
      · exact .ends hsame
    | applying => exact .ends hsame
  | some err =>
    cases stage with
    | validating => exact .goOn hsame
    | discarding => exact .ends ⟨rfl, rfl, rfl⟩
    | _ => exact .ends hsame

/-! ## The lock -/

variable {ι : Type} {load : Workload ι} {s : State ι} {i : ι} {p : Phase} {d : Daemon}

def Phase.locked (r : Request) : Phase → Bool
  | .ready => false
  | .done _ => false
  | .collecting _ => r ≠ .reconcile
  | _ => true

theorem Phase.locked_of_active {r} (active : p.active) (hr : r ≠ .reconcile) : p.locked r := by
  cases p with
  | ready => cases active
  | done => cases active
  | collecting => exact decide_eq_true hr
  | _ => rfl

def Phase.plain : Phase → Bool
  | .ready => true
  | .collecting _ => true
  | .done _ => true
  | _ => false

structure Locked (load : Workload ι) (s : State ι) : Prop where
  holder : ∀ i, (s.phase i).locked (load.requests i) ↔ s.lock = some i
  plain : ∀ i, load.requests i = .reconcile → (s.phase i).plain

theorem Locked.of_not_plain (h : Locked load s) (hp : (s.phase i).plain = false) :
    load.requests i ≠ .reconcile ∧ s.lock = some i := by
  refine ⟨fun hrec => ?_, (h.holder i).mp ?_⟩
  · rw [h.plain i hrec] at hp
    cases hp
  · revert hp
    cases s.phase i with
    | creating => exact fun _ => rfl
    | removing => exact fun _ => rfl
    | answered => exact fun _ => rfl
    | forgetting => exact fun _ => rfl
    | ready => exact fun hp => by cases hp
    | collecting => exact fun hp => by cases hp
    | done => exact fun hp => by cases hp

theorem Locked.not_lock (h : Locked load s) (ready : s.phase i = .ready) : s.lock ≠ some i := by
  intro hlock
  have locked := (h.holder i).mpr hlock
  rw [ready] at locked
  cases locked

theorem Locked.active (h : Locked load s) (hlock : s.lock = some i) : (s.phase i).active := by
  have locked := (h.holder i).mpr hlock
  revert locked
  cases s.phase i with
  | ready => exact fun locked => by cases locked
  | done => exact fun locked => by cases locked
  | _ => exact fun _ => rfl

theorem locked_settleDowntime (inventory) (device) (r) : (settleDowntime inventory device).locked r := by
  unfold settleDowntime
  split <;> split <;> rfl

theorem locked_start (load) (daemon) : Locked load (.start daemon : State ι) :=
  ⟨fun _ => iff_of_false nofun nofun, fun _ _ => rfl⟩

variable [DecidableEq ι]

theorem plain_update (h : ∀ i, load.requests i = .reconcile → (s.phase i).plain)
    (hp : load.requests i = .reconcile → p.plain) : ∀ j, load.requests j = .reconcile → (update s.phase i p j).plain :=
  (Function.forall_update_iff s.phase fun j p => load.requests j = .reconcile → p.plain).mpr
    ⟨hp, fun j _ => h j⟩

section

variable (h : Locked load s)

include h

theorem Locked.keep (hp : p.locked (load.requests i) = (s.phase i).locked (load.requests i))
    (hplain : load.requests i = .reconcile → p.plain) : Locked load ⟨d, s.lock, update s.phase i p⟩ := by
  refine ⟨fun j => ?_, plain_update h.plain hplain⟩
  by_cases hji : j = i
  · subst hji
    simp only [update_self]
    rw [hp]
    exact h.holder j
  · simp only [update_of_ne hji]
    exact h.holder j

theorem Locked.take (hfree : s.lock = none) (hp : p.locked (load.requests i))
    (hreq : load.requests i ≠ .reconcile) : Locked load ⟨d, some i, update s.phase i p⟩ := by
  refine ⟨fun j => ?_, plain_update h.plain fun hrec => absurd hrec hreq⟩
  by_cases hji : j = i
  · subst hji
    simp only [update_self, hp]
  · simp only [update_of_ne hji, h.holder j, hfree, Option.some.injEq, reduceCtorEq, Ne.symm hji]

theorem Locked.drop (hp : p.locked (load.requests i) = false) (hplain : p.plain) :
    Locked load ⟨d, if s.lock = some i then none else s.lock, update s.phase i p⟩ := by
  refine ⟨fun j => ?_, plain_update h.plain fun _ => hplain⟩
  by_cases hji : j = i
  · subst hji
    simp only [update_self, hp, Bool.false_eq_true, false_iff]
    split
    · exact nofun
    · next hlock => exact hlock
  · simp only [update_of_ne hji, h.holder j]
    split
    · next hlock => simp [hlock, Ne.symm hji]
    · exact Iff.rfl

theorem Locked.goOn (hph : s.phase i = p) (hp : p.plain = false) {p'}
    (hp' : load.requests i ≠ .reconcile → p'.locked (load.requests i)) :
    Locked load ⟨d, s.lock, update s.phase i p'⟩ := by
  subst hph
  obtain ⟨hreq, hlock⟩ := h.of_not_plain hp
  exact h.keep ((hp' hreq).trans ((h.holder i).mpr hlock).symm) fun hrec => absurd hrec hreq

theorem locked_move {a t} (hmove : Move load s a t) : Locked load t := by
  cases hmove with
  | reconcile ready hreq =>
    refine h.keep ?_ fun _ => rfl
    rw [ready, hreq]
    rfl
  | refuse => exact h.drop rfl rfl
  | upsert _ hreq hfree => exact h.take hfree (locked_settleDowntime _ _ _) hreq
  | delete _ hreq hfree =>
    refine h.take hfree ?_ hreq
    split
    · rfl
    · exact decide_eq_true hreq
  | created hph => exact h.goOn hph rfl fun _ => rfl
  | createFailed hph => exact h.goOn hph rfl fun _ => rfl
  | removed hph => exact h.goOn hph rfl fun _ => rfl
  | removeFailed hph => exact h.goOn hph rfl fun _ => rfl
  | forgotten hph => exact h.goOn hph rfl decide_eq_true
  | forgetFailed hph => exact h.goOn hph rfl decide_eq_true
  | stored hph => exact h.goOn hph rfl decide_eq_true
  | storeFailed => exact h.drop rfl rfl
  | @collect i stage err hph =>
    have collected := collect_collected s i stage err
    generalize s.collect i stage err = u at collected
    cases collected with
    | same => exact h
    | goOn =>
      refine h.keep ?_ fun _ => rfl
      rw [hph]
      rfl
    | ends => exact h.drop rfl rfl

end

/-- **What every act preserves, every run preserves.** -/
theorem run_invariant {C : State ι → Act ι → Prop} {P : State ι → Prop} {daemon acts}
    (hmove : ∀ s a t, Locked load s → P s → C s a → Move load s a t → P t)
    (hrun : Run (fun s a t => C s a ∧ t = step load s a) (.start daemon) acts s) (start : P (.start daemon)) :
    Locked load s ∧ P s := by
  refine hrun.invariant (P := fun s => Locked load s ∧ P s) ?_ ⟨locked_start load daemon, start⟩
  rintro s a _ ⟨hlock, hp⟩ ⟨hc, rfl⟩
  rcases step_moves load s a with hsame | hmoved
  · rw [hsame]
    exact ⟨hlock, hp⟩
  · exact ⟨locked_move hlock hmoved, hmove s a _ hlock hp hc hmoved⟩

end Nexus.Monitoring
