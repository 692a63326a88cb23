import Nexus.Lib.Effect
import Nexus.MonitoringService.Calls

/-!
# Power actions

`InfrastructureService.execute_power_action` of `nexus/src/nexus_core/services/infrastructure.py`. Every await may
return, raise, or be cancelled; a cancellation is not an `Exception` and passes by the handler that writes the audit
entry (`submitted_audited_iff`).
-/

namespace Nexus.Infrastructure

open Lib Lib.Effect
open MonitoringService (PythonText)

inductive Raised
  | exception (type message : String)
  /-- `asyncio.CancelledError`, which is no `Exception`. -/
  | cancelled

structure PythonCase extends PythonText where
  lower : String → String

/-! ## Resources and actions -/

structure InfrastructureResource where
  (id remote type name status : String)
  vmid : Option Int
  template : Option Bool

inductive PowerAction
  | start | shutdown | stop
  deriving DecidableEq

def PowerAction.text : PowerAction → String
  | start => "start"
  | shutdown => "shutdown"
  | stop => "stop"

def PowerAction.allowedFrom : PowerAction → String
  | start => "stopped"
  | shutdown => "running"
  | stop => "running"

def PowerAction.expectedStatus : PowerAction → String
  | start => "running"
  | shutdown => "stopped"
  | stop => "stopped"

def parseAction (action : String) : Option PowerAction :=
  [PowerAction.start, .shutdown, .stop].find? (·.text = action)

def availablePowerAction (txt : PythonCase) (resource : InfrastructureResource) (action : PowerAction) : Bool :=
  (resource.type = "pve-lxc" || resource.type = "pve-qemu") && resource.vmid.isSome && resource.template ≠ some true &&
    txt.lower (txt.strip resource.status) = action.allowedFrom

structure PowerOperationResult where
  (resourceId resourceName : String)
  action : PowerAction
  taskReference : Option String
  (expectedStatus observedStatus : String)
  verified : Bool

inductive AuditResult
  | success
  | failed

structure PowerAuditEntry where
  (timestamp resourceId resourceName : String)
  action : PowerAction
  result : AuditResult
  detail : String
  taskReference : Option String

/-! ## The service -/

structure InfrastructureService where
  powerOperationsEnabled : Bool
  verificationAttempts : Int
  auditRepository : Bool

def InfrastructureService.attempts (service : InfrastructureService) : Nat := (max 1 service.verificationAttempts).toNat

/-- How the awaits of a call end, each with its number. -/
structure World where
  snapshot : Except Raised (List InfrastructureResource)
  execute : Except Raised (Option String)
  readBack : Nat → Except Raised (List InfrastructureResource)
  sleep : Nat → Except Raised Unit
  now : String

structure Trace where
  submitted : Bool
  readBacks : Nat
  audit : List PowerAuditEntry

abbrev Power := Effect Trace Raised

def notFound (message : String) : Raised := .exception "InfrastructureResourceNotFound" message

def notAllowed (message : String) : Raised := .exception "PowerActionNotAllowed" message

def auditEntry (world : World) (resource : InfrastructureResource) (action : PowerAction) (result : AuditResult)
    (detail : String) (taskReference : Option String) : PowerAuditEntry :=
  ⟨world.now, resource.id, resource.name, action, result, String.ofList (detail.toList.take 1000), taskReference⟩

section

variable (txt : PythonCase) (service : InfrastructureService) (world : World)

variable (resource : InfrastructureResource) (action : PowerAction) (taskReference : Option String)

def audit (result : AuditResult) (detail : String) (taskReference : Option String) : Power Unit :=
  if service.auditRepository then
    .modify fun t => { t with audit := t.audit ++ [auditEntry world resource action result detail taskReference] }
  else pure ()

def getResource (resourceId : String) : Except Raised InfrastructureResource := do
  let resources ← world.snapshot
  match resources.find? (·.id = txt.strip resourceId) with
  | some resource => .ok resource
  | none => .error (notFound ("Infrastructure resource '" ++ txt.strip resourceId ++ "' was not found"))

def checkPowerAction (resourceId action : String) (confirmation : Option String) :
    Except Raised (InfrastructureResource × PowerAction) := do
  if !service.powerOperationsEnabled then
    throw (.exception "PowerOperationsDisabled" "Infrastructure power operations are disabled by configuration")
  match parseAction (txt.lower (txt.strip action)) with
  | none => throw (notAllowed ("Unsupported power action '" ++ txt.lower (txt.strip action) ++ "'"))
  | some action =>
    let resource ← getResource txt world resourceId
    if !availablePowerAction txt resource action then
      throw (notAllowed (action.text ++ " is not available for " ++ resource.name ++ " while status is " ++
        resource.status))
    if action = .stop ∧ txt.strip (confirmation.getD "") ≠ resource.name then
      throw (notAllowed ("Hard stop requires confirmation with the exact resource name '" ++ resource.name ++ "'"))
    return (resource, action)

def verify (resource : InfrastructureResource) (action : PowerAction) (taskReference : Option String) :
    Nat → Nat → String → Power PowerOperationResult
  | 0, _, observed =>
    .fail (.exception "PowerVerificationTimeout" ("PDM accepted " ++ action.text ++ " for " ++ resource.name ++
      ", but Nexus did not observe status '" ++ action.expectedStatus ++ "' after " ++ toString service.attempts ++
      " checks (last status: '" ++ observed ++ "')"))
  | left + 1, attempt, _ => do
    Effect.modify fun t => { t with readBacks := t.readBacks + 1 }
    let resources ← Effect.ofExcept (world.readBack attempt)
    match resources.find? (·.id = resource.id) with
    | none =>
      .fail (notFound ("Infrastructure resource '" ++ resource.id ++ "' disappeared during power verification"))
    | some current =>
      if current.status = action.expectedStatus then
        audit service world resource action .success ("Verified final status '" ++ current.status ++ "'") taskReference
        return ⟨resource.id, resource.name, action, taskReference, action.expectedStatus, current.status, true⟩
      else
        if left ≠ 0 then
          Effect.ofExcept (world.sleep attempt)
        verify resource action taskReference left (attempt + 1) current.status

def onException : Raised → Power PowerOperationResult
  | .exception type message => do
    audit service world resource action .failed message taskReference
    .fail (.exception type message)
  | .cancelled => .fail .cancelled

def submit (resource : InfrastructureResource) (action : PowerAction) : Power PowerOperationResult := do
  Effect.modify fun t => { t with submitted := true }
  match world.execute with
  | .error err => onException service world resource action none err
  | .ok taskReference =>
    (verify service world resource action taskReference service.attempts 0 resource.status).catching
      (onException service world resource action taskReference)

def executePowerAction (resourceId action : String) (confirmation : Option String) : Power PowerOperationResult := do
  let (resource, action) ← Effect.ofExcept (checkPowerAction txt service world resourceId action confirmation)
  submit service world resource action

end

/-- The read-back finds the resource in another status than the expected one. -/
def World.Pending (world : World) (id expected : String) (attempt : Nat) : Prop :=
  ∃ resources current, world.readBack attempt = .ok resources ∧ resources.find? (·.id = id) = some current ∧
    current.status ≠ expected

/-- One of `left` read-backs, from number `attempt` on, or a sleep between two of them is reached and cancelled. -/
def World.Cancels (world : World) (id expected : String) : Nat → Nat → Prop
  | 0, _ => False
  | left + 1, attempt => world.readBack attempt = .error .cancelled ∨ world.Pending id expected attempt ∧
      (left ≠ 0 ∧ world.sleep attempt = .error .cancelled ∨
        world.sleep attempt = .ok () ∧ world.Cancels id expected left (attempt + 1))

/-- The submission is cancelled, or it returns and the verification is cancelled. -/
def World.CancelsCall (world : World) (service : InfrastructureService) (id expected : String) : Prop :=
  world.execute = .error .cancelled ∨
    (∃ taskReference, world.execute = .ok taskReference) ∧ world.Cancels id expected service.attempts 0

/-! ## How a call ends -/

section

variable {service : InfrastructureService} {world : World} {resource : InfrastructureResource} {action : PowerAction}

def logged (service : InfrastructureService) (e : PowerAuditEntry) : List PowerAuditEntry :=
  if service.auditRepository then [e] else []

theorem logged_eq_singleton {e e'} : logged service e = [e'] ↔ service.auditRepository ∧ e = e' := by
  unfold logged
  split
  · next h => simp [h]
  · next h => simp [h]

theorem run_audit (result) (detail) (taskReference) (t) :
    (audit service world resource action result detail taskReference).run t = (.ok (), { t with
        audit := t.audit ++ logged service (auditEntry world resource action result detail taskReference) }) := by
  unfold audit logged
  split
  · rfl
  · rw [List.append_nil]
    rfl

/-- How the loop ends, for whether it is cancelled. -/
inductive VerifyEnds (service : InfrastructureService) (left : Nat) (cancels : Prop) (t : Trace) :
    Except Raised PowerOperationResult × Trace → Prop
  | verified {r e k} (hr : r.verified) (he : e.result = .success) (hk : k ≤ left) (hnot : ¬ cancels) :
      VerifyEnds service left cancels t (.ok r, ⟨t.submitted, t.readBacks + k, t.audit ++ logged service e⟩)
  | raised {err k} (hk : k ≤ left) (herr : err = .cancelled ↔ cancels) :
      VerifyEnds service left cancels t (.error err, ⟨t.submitted, t.readBacks + k, t.audit⟩)

theorem VerifyEnds.succ {left t run cancels}
    (h : VerifyEnds service left cancels { t with readBacks := t.readBacks + 1 } run) :
    VerifyEnds service (left + 1) cancels t run := by
  cases h with
  | verified hr he hk hnot =>
    rw [Nat.add_assoc]
    exact .verified hr he (by omega) hnot
  | raised hk herr =>
    rw [Nat.add_assoc]
    exact .raised (by omega) herr

theorem verify_ends (service) (world) (resource) (action) (taskReference) :
    ∀ left attempt observed t, VerifyEnds service left (world.Cancels resource.id action.expectedStatus left attempt) t
      ((verify service world resource action taskReference left attempt observed).run t)
  | 0, _, _, _ => .raised (k := 0) (Nat.le_refl 0) (by simp [World.Cancels])
  | left + 1, attempt, observed, t => by
    have failed : ∀ {cancels err}, (err = .cancelled ↔ cancels) → VerifyEnds service left cancels
        { t with readBacks := t.readBacks + 1 } (.error err, { t with readBacks := t.readBacks + 1 }) := fun herr =>
      .raised (k := 0) (Nat.zero_le left) herr
    refine VerifyEnds.succ ?_
    rw [verify, run_bind_of_ok (run_modify _), World.Cancels, World.Pending]
    cases world.readBack attempt with
    | error err => exact failed (by simp)
    | ok resources =>
      rw [run_ofExcept_ok_bind]
      cases hfind : resources.find? (·.id = resource.id) with
      | none => exact failed (by simp [notFound, hfind])
      | some current =>
        simp only
        split
        · next hexp =>
          rw [run_bind_of_ok (run_audit ..)]
          exact .verified (k := 0) rfl rfl (Nat.zero_le left) (by simp [hfind, hexp])
        · next hexp =>
          have later := verify_ends service world resource action taskReference left (attempt + 1) current.status
            { t with readBacks := t.readBacks + 1 }
          split
          · next hleft =>
            cases world.sleep attempt with
            | error err => exact failed (by simp [hfind, hexp, hleft])
            | ok => simpa [hfind, hexp] using later
          · next hleft =>
            obtain rfl : left = 0 := by simpa using hleft
            simpa [hfind, hexp, World.Cancels] using later

inductive Ended (service : InfrastructureService) (cancels : Prop) (t : Trace) :
    Except Raised PowerOperationResult × Trace → Prop
  | verified {r e k} (hr : r.verified) (he : e.result = .success) (hk : k ≤ service.attempts) (hnot : ¬ cancels) :
      Ended service cancels t (.ok r, ⟨true, t.readBacks + k, t.audit ++ logged service e⟩)
  | failed {type message e k} (he : e.result = .failed) (hk : k ≤ service.attempts) (hnot : ¬ cancels) :
      Ended service cancels t (.error (.exception type message), ⟨true, t.readBacks + k, t.audit ++ logged service e⟩)
  | cancelled {k} (hk : k ≤ service.attempts) (h : cancels) :
      Ended service cancels t (.error .cancelled, ⟨true, t.readBacks + k, t.audit⟩)

theorem ended_onException {t cancels} (taskReference) {err k} (hk : k ≤ service.attempts)
    (herr : err = .cancelled ↔ cancels) : Ended service cancels t
      ((onException service world resource action taskReference err).run ⟨true, t.readBacks + k, t.audit⟩) := by
  cases err with
  | exception =>
    rw [onException, run_bind_of_ok (run_audit ..)]
    exact .failed rfl hk fun hc => by cases herr.mpr hc
  | cancelled => exact .cancelled hk (herr.mp rfl)

/-- **How a call that has passed the checks ends.** -/
theorem submit_ends (service) (world) (resource) (action) (t) :
    Ended service (world.CancelsCall service resource.id action.expectedStatus) t
      ((submit service world resource action).run t) := by
  rw [submit, run_bind_of_ok (run_modify _), World.CancelsCall]
  cases world.execute with
  | error err => exact ended_onException none (Nat.zero_le _) (by simp)
  | ok taskReference =>
    have hends := verify_ends service world resource action taskReference service.attempts 0 resource.status
      { t with submitted := true }
    simp only [Effect.catching, reduceCtorEq, Except.ok.injEq, exists_eq', true_and, false_or]
    generalize (verify service world resource action taskReference service.attempts 0 resource.status).run
      { t with submitted := true } = run at hends
    cases hends with
    | verified hr he hk hnot => exact .verified hr he hk hnot
    | raised hk herr => exact ended_onException taskReference hk herr

end

/-! ## The audit -/

/-- One entry, a success exactly if a verified result is returned. -/
structure Audited (service : InfrastructureService) (log : List PowerAuditEntry)
    (run : Except Raised PowerOperationResult × Trace) : Prop where
  once : ∃ e, run.2.audit = log ++ [e] ∧ (e.result = .success ↔ ∃ r, run.1 = .ok r ∧ r.verified)
  bounded : run.2.readBacks ≤ service.attempts

theorem Ended.audited_iff {service log cancels run} (h : Ended service cancels ⟨false, 0, log⟩ run) :
    Audited service log run ↔ service.auditRepository ∧ ¬ cancels := by
  cases h with
  | @verified r e k hr he hk hnot =>
    constructor
    · rintro ⟨⟨e', haudit, -⟩, -⟩
      exact ⟨(logged_eq_singleton.mp (List.append_cancel_left haudit)).1, hnot⟩
    · rintro ⟨hrep, -⟩
      refine ⟨⟨e, by rw [logged_eq_singleton.mpr ⟨hrep, rfl⟩], iff_of_true he ⟨r, rfl, hr⟩⟩, ?_⟩
      rwa [Nat.zero_add]
  | @failed type message e k he hk hnot =>
    constructor
    · rintro ⟨⟨e', haudit, -⟩, -⟩
      exact ⟨(logged_eq_singleton.mp (List.append_cancel_left haudit)).1, hnot⟩
    · rintro ⟨hrep, -⟩
      refine ⟨⟨e, by rw [logged_eq_singleton.mpr ⟨hrep, rfl⟩], iff_of_false ?_ ?_⟩, ?_⟩
      · rw [he]
        exact AuditResult.noConfusion
      · rintro ⟨r, hok, -⟩
        cases hok
      · rwa [Nat.zero_add]
  | cancelled hk hc =>
    refine iff_of_false ?_ fun h => h.2 hc
    rintro ⟨⟨e', haudit, -⟩, -⟩
    simp at haudit

theorem getResource_id {txt world resourceId resource} (h : getResource txt world resourceId = .ok resource) :
    resource.id = txt.strip resourceId := by
  simp only [getResource, bind, Except.bind] at h
  split at h
  · cases h
  · split at h
    · next found hfind =>
      cases h
      simpa using List.find?_some hfind
    · cases h

/-- What the checks let pass is the resource with the requested id, and the requested action. -/
theorem checkPowerAction_eq_ok {txt service world resourceId action confirmation resource act}
    (h : checkPowerAction txt service world resourceId action confirmation = .ok (resource, act)) :
    resource.id = txt.strip resourceId ∧ parseAction (txt.lower (txt.strip action)) = some act := by
  simp only [checkPowerAction, bind, Except.bind, pure, Except.pure, throw, throwThe, MonadExceptOf.throw] at h
  split at h
  · cases h
  · split at h
    · cases h
    · next hact =>
      split at h
      · cases h
      · next hresource =>
        split at h
        · cases h
        · split at h
          · cases h
          · cases h
            exact ⟨getResource_id hresource, hact⟩

/-- **A call that has reached the provider is audited as promised exactly if there is an audit repository and no await
that the call reaches from then on is cancelled.** -/
theorem submitted_audited_iff (txt : PythonCase) (service : InfrastructureService) (world : World)
    (resourceId action : String) (confirmation : Option String) (log : List PowerAuditEntry)
    (hsubmitted : ((executePowerAction txt service world resourceId action confirmation).run
      ⟨false, 0, log⟩).2.submitted) :
    Audited service log ((executePowerAction txt service world resourceId action confirmation).run ⟨false, 0, log⟩) ↔
      service.auditRepository ∧ ∀ act, parseAction (txt.lower (txt.strip action)) = some act →
        ¬ world.CancelsCall service (txt.strip resourceId) act.expectedStatus := by
  unfold executePowerAction at hsubmitted ⊢
  cases hcheck : checkPowerAction txt service world resourceId action confirmation with
  | error err =>
    rw [hcheck] at hsubmitted
    cases hsubmitted
  | ok checked =>
    obtain ⟨hid, hact⟩ := checkPowerAction_eq_ok hcheck
    rw [run_ofExcept_ok_bind, (submit_ends service world checked.1 checked.2 ⟨false, 0, log⟩).audited_iff, hid]
    simp [hact]

namespace Sample

def txt : PythonCase := ⟨⟨Text.trim, Text.toAsciiLowercase, fun _ => false⟩, Text.toAsciiLowercase⟩

def service : InfrastructureService := ⟨true, 3, true⟩

def guest (status : String) : InfrastructureResource :=
  ⟨"remote/pve/guest/100", "pve", "pve-lxc", "web", status, some 100, none⟩

def started : World where
  snapshot := .ok [guest "stopped"]
  execute := .ok (some "UPID:1")
  readBack n := .ok [guest (if n = 0 then "stopped" else "running")]
  sleep _ := .ok ()
  now := "2026-01-01T00:00:00+00:00"

/-- The provider accepts the action, and the first read-back is cancelled. -/
def interrupted : World := { started with readBack := fun _ => .error .cancelled }

end Sample

open Sample

theorem audited_started : ((executePowerAction txt service started "remote/pve/guest/100" "start" none).run
      ⟨false, 0, []⟩).2.readBacks = 2 ∧ Audited service []
      ((executePowerAction txt service started "remote/pve/guest/100" "start" none).run ⟨false, 0, []⟩) := by
  have action : parseAction (txt.lower (txt.strip "start")) = some .start := by decide
  have hstrip : txt.strip "remote/pve/guest/100" = "remote/pve/guest/100" := by decide
  refine ⟨by decide, (submitted_audited_iff txt service started "remote/pve/guest/100" "start"
    none [] (by decide)).mpr ⟨rfl, ?_⟩⟩
  rw [action, hstrip]
  rintro _ ⟨rfl⟩ (hexecute | ⟨-, hcancels⟩)
  · cases hexecute
  · have hattempts : service.attempts = 3 := by decide
    rw [hattempts] at hcancels
    simp [World.Cancels, World.Pending, started, guest, PowerAction.expectedStatus] at hcancels

/-- Cancelled after the provider has accepted the action. -/
theorem cancelled_not_audited : ((executePowerAction txt service interrupted "remote/pve/guest/100" "start" none).run
      ⟨false, 0, []⟩).2.submitted ∧
    ((executePowerAction txt service interrupted "remote/pve/guest/100" "start" none).run ⟨false, 0, []⟩).2.audit = [] ∧
    ¬ Audited service [] ((executePowerAction txt service interrupted "remote/pve/guest/100" "start" none).run
        ⟨false, 0, []⟩) := by
  have empty : ((executePowerAction txt service interrupted "remote/pve/guest/100" "start" none).run
      ⟨false, 0, []⟩).2.audit = [] := by decide
  refine ⟨by decide, empty, fun h => ?_⟩
  obtain ⟨e, he, -⟩ := h.once
  cases empty.symm.trans he

end Nexus.Infrastructure
