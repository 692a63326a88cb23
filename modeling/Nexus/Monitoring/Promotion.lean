import Nexus.Monitoring.Requests

/-!
# Which collector configuration is put in place

`collector::reconcile` writes a rendering to a temporary file, the same for all requests, has the collector check it,
and renames it. Where it has the collector for itself, every renamed file has passed the check (`promoted_of_alone`).
Next to a request for a device, it need not (`overtaken_promotions`).
-/

namespace Nexus.Monitoring

open Lib (OrderedMap Value Run)
open Function

/-- The collector has the configuration that belongs to the inventory. -/
def Applied (d : Daemon) : Prop := ∀ config, collectorConfig d.inventory = .ok config → d.config = some config

theorem collectorConfig_isEmpty {inventory} (h : (enabledDevices inventory).isEmpty) :
    collectorConfig inventory = .error "no enabled devices" := by
  simp only [collectorConfig, h, if_true]
  rfl

def Undisturbed (d : Daemon) : Phase → Prop
  | .forgetting _ inventory => inventory = d.inventory
  | .collecting stage => match stage with
    | .disabling => (enabledDevices d.inventory).isEmpty
    | .checking inventory => inventory = d.inventory
    | .writing config => collectorConfig d.inventory = .ok config
    | .validating => ∃ config, collectorConfig d.inventory = .ok config ∧ d.temporary = some config
    | .discarding _ => True
    | .promoting validated => collectorConfig d.inventory = .ok validated ∧ d.temporary = some validated
    | .applying => Applied d
  | _ => True

variable {ι : Type} {load : Workload ι} {s t : State ι} {i : ι} {p : Phase} {d : Daemon}

theorem undisturbed_startCollector (d) : Undisturbed d (.collecting (startCollector d.inventory)) := by
  unfold startCollector
  split
  · next empty => exact empty
  · rfl

theorem undisturbed_settleDowntime (inventory) (device) : Undisturbed d (settleDowntime inventory device) := by
  unfold settleDowntime
  split <;> split <;> trivial

theorem active_settleDowntime (inventory) (device) : (settleDowntime inventory device).active := by
  unfold settleDowntime
  split <;> split <;> rfl

theorem undisturbed_of_inactive (hp : p.active = false) : Undisturbed d p := by
  cases p with
  | ready => trivial
  | done => trivial
  | _ => cases hp

/-- A reconciliation runs with no other request. -/
def Alone (load : Workload ι) (s : State ι) : Act ι → Prop
  | .start i => (load.requests i = .reconcile → ∀ j, (s.phase j).active = false) ∧
    ∀ j, load.requests j = .reconcile → (s.phase j).active = false
  | _ => True

/-- **The invariant.** -/
structure Turns (s : State ι) : Prop where
  single : ∀ i j, (s.phase i).active → (s.phase j).active → i = j
  undisturbed : ∀ i, Undisturbed s.daemon (s.phase i)
  promoted : ∀ p ∈ s.daemon.promoted, p.validated = p.renamed
  settled : (∀ i, (s.phase i).active = false) →
    (∀ i, s.phase i = .ready) ∨ (∃ i err, s.phase i = .done (.error err)) ∨ Applied s.daemon

theorem Turns.others (h : Turns s) (hph : s.phase i = p) (hp : p.active) (j : ι) (hj : j ≠ i) :
    (s.phase j).active = false := by
  subst hph
  exact Bool.eq_false_iff.mpr fun active => hj (h.single j i active hp)

theorem others_of_start (locked : Locked load s) (halone : Alone load s (.start i)) (hfree : s.lock = none) (j : ι) :
    (s.phase j).active = false := by
  by_cases hreq : load.requests j = .reconcile
  · exact halone.2 j hreq
  · refine Bool.eq_false_iff.mpr fun active => ?_
    have hlock := (locked.holder j).mp (Phase.locked_of_active active hreq)
    cases hfree.symm.trans hlock

variable [DecidableEq ι]

section

variable (hoth : ∀ j, j ≠ i → (s.phase j).active = false) {lock : Option ι}

include hoth

theorem Turns.move (hp : Undisturbed d p) (hprom : ∀ p ∈ d.promoted, p.validated = p.renamed)
    (hend : p.active = false → (∃ err, p = .done (.error err)) ∨ Applied d) : Turns ⟨d, lock, update s.phase i p⟩ where
  single j k hj hk := by
    have hi : ∀ j, (update s.phase i p j).active → j = i := by
      intro j hj
      by_contra hne
      rw [update_of_ne hne, hoth j hne] at hj
      cases hj
    rw [hi j hj, hi k hk]
  undisturbed := (Function.forall_update_iff s.phase fun _ p => Undisturbed d p).mpr
    ⟨hp, fun j hj => undisturbed_of_inactive (hoth j hj)⟩
  promoted := hprom
  settled hquiet := by
    have hi := hquiet i
    simp only [update_self] at hi
    rcases hend hi with ⟨err, rfl⟩ | applied
    · exact .inr (.inl ⟨i, err, update_self i _ s.phase⟩)
    · exact .inr (.inr applied)

theorem Turns.goOn (active : p.active)
    (hp : Undisturbed d p) (hprom : ∀ p ∈ d.promoted, p.validated = p.renamed) : Turns ⟨d, lock, update s.phase i p⟩ :=
  .move hoth hp hprom fun inactive => by cases active.symm.trans inactive

theorem Turns.fail (err) (hprom : ∀ p ∈ d.promoted, p.validated = p.renamed) :
    Turns ⟨d, lock, update s.phase i (.done (.error err))⟩ :=
  .move hoth trivial hprom fun _ => .inl ⟨err, rfl⟩

theorem Turns.succeed (applied : Applied d) (hprom : ∀ p ∈ d.promoted, p.validated = p.renamed) :
    Turns ⟨d, lock, update s.phase i (.done (.ok ()))⟩ :=
  .move hoth trivial hprom fun _ => .inr applied

end

theorem Turns.refuse (h : Turns s) (err) : Turns (s.finish i (.error err)) where
  single j k hj hk := by
    have active : ∀ j, ((s.finish i (.error err)).phase j).active → (s.phase j).active := by
      intro j hj
      by_cases hji : j = i
      · subst hji
        simp only [State.finish, update_self] at hj
        cases hj
      · simpa only [State.finish, update_of_ne hji] using hj
    exact h.single j k (active j hj) (active k hk)
  undisturbed := (Function.forall_update_iff s.phase fun _ p => Undisturbed s.daemon p).mpr
    ⟨trivial, fun j _ => h.undisturbed j⟩
  promoted := h.promoted
  settled _ := .inr (.inl ⟨i, err, update_self i _ s.phase⟩)

theorem turns_collect (h : Turns s) {stage} (hph : s.phase i = .collecting stage) (err) :
    Turns (s.collect i stage err) := by
  have hoth := h.others hph rfl
  have hi := h.undisturbed i
  rw [hph] at hi
  have hfail : ∀ err, Turns (s.finish i (.error err)) := fun err => .fail hoth err h.promoted
  cases stage with
  | disabling =>
    refine .succeed hoth (fun config hcfg => ?_) h.promoted
    rw [collectorConfig_isEmpty hi] at hcfg
    cases hcfg
  | checking =>
    subst hi
    cases err with
    | some err => exact hfail err
    | none =>
      simp only [State.collect]
      split
      · exact hfail _
      · next hcfg => exact .goOn hoth rfl hcfg h.promoted
  | writing config =>
    cases err with
    | some err => exact hfail err
    | none => exact .goOn hoth rfl ⟨config, hi, rfl⟩ h.promoted
  | validating =>
    obtain ⟨config, hcfg, htemp⟩ := hi
    cases err with
    | some => exact .goOn hoth rfl trivial h.promoted
    | none =>
      simp only [State.collect, htemp]
      exact .goOn hoth rfl ⟨hcfg, htemp⟩ h.promoted
  | discarding err => exact .fail hoth err h.promoted
  | promoting =>
    obtain ⟨hcfg, htemp⟩ := hi
    cases err with
    | some err => exact hfail err
    | none =>
      simp only [State.collect, htemp]
      refine .goOn hoth rfl (fun config hok => ?_) ?_
      · exact congrArg some (Except.ok.inj (hcfg.symm.trans hok))
      · intro p hp
        rcases List.mem_append.mp hp with hold | hnew
        · exact h.promoted p hold
        · rw [List.mem_singleton.mp hnew]
  | applying =>
    cases err with
    | some err => exact hfail err
    | none => exact .succeed hoth hi h.promoted

theorem turns_move {a} (hlock : Locked load s) (h : Turns s) (halone : Alone load s a)
    (hmove : Move load s a t) : Turns t := by
  cases hmove with
  | reconcile _ hreq =>
    have hoth := halone.1 hreq
    exact .goOn (fun j _ => hoth j) rfl (undisturbed_startCollector s.daemon) h.promoted
  | refuse => exact h.refuse _
  | upsert _ _ hfree =>
    exact .goOn (fun j _ => others_of_start hlock halone hfree j) (active_settleDowntime _ _)
      (undisturbed_settleDowntime _ _) h.promoted
  | @delete i id inventory ready hreq hfree hsto =>
    refine .goOn (fun j _ => others_of_start hlock halone hfree j) ?_ ?_ h.promoted
    · split <;> rfl
    · split
      · rfl
      · exact undisturbed_startCollector { s.daemon with file := some inventory }
  | created hph => exact .goOn (h.others hph rfl) rfl trivial h.promoted
  | createFailed hph => exact .goOn (h.others hph rfl) rfl trivial h.promoted
  | removed hph => exact .goOn (h.others hph rfl) rfl trivial h.promoted
  | removeFailed hph => exact .goOn (h.others hph rfl) rfl trivial h.promoted
  | @forgotten i downtimeId inventory u hph =>
    have hi := h.undisturbed i
    rw [hph] at hi
    subst hi
    exact .goOn (h.others hph rfl) rfl
      (undisturbed_startCollector { s.daemon with downtimes := s.daemon.downtimes.remove downtimeId }) h.promoted
  | @forgetFailed i downtimeId err inventory hph =>
    have hi := h.undisturbed i
    rw [hph] at hi
    subst hi
    exact .goOn (h.others hph rfl) rfl (undisturbed_startCollector s.daemon) h.promoted
  | @stored i device downtimeId inventory hph hsto =>
    exact .goOn (h.others hph rfl) rfl (undisturbed_startCollector { s.daemon with file := some inventory })
      h.promoted
  | storeFailed hph => exact .fail (h.others hph rfl) _ h.promoted
  | collect hph => exact turns_collect h hph _

/-- **Where no `reconcile` request is next to another one, every renamed file has passed the check, and the
configuration is the rendering of the inventory in the end.** -/
theorem promoted_of_alone {ι : Type} [DecidableEq ι] [Nonempty ι] (load : Workload ι) (daemon : Daemon)
    (hnew : daemon.promoted = []) {acts : List (Act ι)} {s : State ι}
    (hrun : Run (fun s a t => Alone load s a ∧ t = step load s a) (.start daemon) acts s) :
    (∀ p ∈ s.daemon.promoted, p.validated = p.renamed) ∧ ((∀ i, (s.phase i).succeeded) → Applied s.daemon) := by
  have start : Turns (.start daemon : State ι) :=
    ⟨nofun, fun _ => trivial, fun p hp => absurd (hnew ▸ hp) List.not_mem_nil, fun _ => .inl fun _ => rfl⟩
  obtain ⟨-, hturns⟩ := run_invariant (fun _ _ _ => turns_move) hrun start
  refine ⟨hturns.promoted, fun hdone => ?_⟩
  have hquiet : ∀ i, (s.phase i).active = false := fun i => Phase.not_active_of_succeeded (hdone i)
  rcases hturns.settled hquiet with ready | ⟨i, err, herr⟩ | applied
  · obtain ⟨i⟩ := ‹Nonempty ι›
    have hi := hdone i
    rw [ready i] at hi
    cases hi
  · have hi := hdone i
    rw [herr] at hi
    cases hi
  · exact applied

namespace Sample

def adding : Workload Bool where
  requests i := if i then .upsertDevice "Camera" "192.168.0.6" "camera" none none else .reconcile
  isIpAddress _ := true

def switch : Value := deviceEntry ⟨"switch", "Switch", "192.168.0.5", "switch", "home", .enabled⟩ none

def daemon : Daemon := ⟨some (.object [("devices", .array [switch])]), .empty, fun _ => false, none, none, []⟩

def after (acts : List (Act Bool)) : State Bool := acts.foldl (step adding) (.start daemon)

def oneByOne : List (Act Bool) :=
  [.start true, .store true] ++ .replicate 5 (.collect true none) ++ [.start false] ++
    .replicate 5 (.collect false none)

def overwriting : List (Act Bool) :=
  [.start false, .collect false none, .start true, .store true, .collect true none, .collect true none,
    .collect true none, .collect false none, .collect true none]

def outdated : List (Act Bool) :=
  [.start false, .collect false none, .start true, .store true] ++ .replicate 5 (.collect true none) ++
    .replicate 4 (.collect false none)

end Sample

open Sample

theorem promoted_one_by_one : (∀ i, ((after oneByOne).phase i).succeeded) ∧
    (after oneByOne).daemon.promoted.length = 2 ∧ (∀ p ∈ (after oneByOne).daemon.promoted, p.validated = p.renamed) ∧
    Applied (after oneByOne).daemon := by
  have hdone : ∀ i, ((after oneByOne).phase i).succeeded := by decide
  have hrun : Run (fun s a t => Alone adding s a ∧ t = step adding s a) (.start daemon)
      oneByOne (after oneByOne) := by
    refine .cons ⟨⟨nofun, fun _ _ => rfl⟩, rfl⟩ <| .cons ⟨trivial, rfl⟩ <| .cons ⟨trivial, rfl⟩ <|
      .cons ⟨trivial, rfl⟩ <| .cons ⟨trivial, rfl⟩ <| .cons ⟨trivial, rfl⟩ <| .cons ⟨trivial, rfl⟩ <|
      .cons ⟨?_, rfl⟩ <| .cons ⟨trivial, rfl⟩ <| .cons ⟨trivial, rfl⟩ <| .cons ⟨trivial, rfl⟩ <|
      .cons ⟨trivial, rfl⟩ <| .cons ⟨trivial, rfl⟩ (.nil _)
    have hquiet : ∀ j, ((after (oneByOne.take 7)).phase j).active = false := by decide
    exact ⟨fun _ => hquiet, fun j _ => hquiet j⟩
  obtain ⟨hprom, applied⟩ := promoted_of_alone adding daemon rfl hrun
  exact ⟨hdone, by decide, hprom, applied hdone⟩

/-- Next to a request that adds a device, the renamed file is not the checked one, or the configuration lacks the
device.
-/
theorem overtaken_promotions : (∃ p ∈ (after overwriting).daemon.promoted, p.validated ≠ p.renamed) ∧
    (∀ i, ((after outdated).phase i).succeeded) ∧ ¬ Applied (after outdated).daemon := by
  have hlacks : (collectorConfig (after outdated).daemon.inventory).toOption ≠ none ∧ (after outdated).daemon.config ≠
        (collectorConfig (after outdated).daemon.inventory).toOption := by decide +kernel
  refine ⟨by decide +kernel, by decide +kernel, fun applied => ?_⟩
  cases hcfg : collectorConfig (after outdated).daemon.inventory with
  | error err =>
    rw [hcfg] at hlacks
    exact hlacks.1 rfl
  | ok config =>
    rw [hcfg] at hlacks
    exact hlacks.2 (applied config hcfg)

end Nexus.Monitoring
