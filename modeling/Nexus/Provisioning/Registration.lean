import Nexus.Infrastructure
import Nexus.Provisioning

/-!
# Provisioning and the monitored targets

`ProvisioningService.provision` of `nexus/src/nexus_core/services/provisioning.py` registers the guest with
`MonitoringService.upsert_target`. Targets are known by the slugs of names, so the registration may write over one with
the same slug (`provision_onlyAdds_iff`).
-/

namespace Nexus.Provisioning

open Lib Lib.Effect Except
open Infrastructure (Raised PythonCase)
open MonitoringService (Inventory MonitoringTarget TargetState First Write describedTarget truthy first)

/-! ## Advanced entries -/

structure Python extends PythonCase where
  truthyOther : Value → Bool
  strOther : Value → String
  intStr : String → Option Int
  intOther : Value → Option Int
  enabled_eq : casefold (strip "enabled") = "enabled"

section

variable (py : Python) (request : GuestProvisionRequest)

def ConfigValue.isTrue : ConfigValue → Bool
  | .int n => n ≠ 0
  | .str s => s ≠ ""
  | .other v => py.truthyOther v

def ConfigValue.toStr : ConfigValue → String
  | .int n => toString n
  | .str s => s
  | .other v => py.strOther v

def ConfigValue.toInt : ConfigValue → Option Int
  | .int n => some n
  | .str s => py.intStr s
  | .other v => py.intOther v

def advanced (key : String) : Option ConfigValue := (request.advanced.get? key).join

def advancedStr (key default : String) : String :=
  ((advanced request key).filter (·.isTrue py)).elim default (·.toStr py)

def advancedInt (value : Option ConfigValue) (default : Int) : Int :=
  match value.bind (·.toInt py) with
  | some result => if 1 ≤ result ∧ result ≤ 65535 then result else default
  | none => default

def prometheusAddress : Option String :=
  let explicit := py.strip (advancedStr py request "monitoring_address" "")
  let ip := py.strip request.ipConfig
  if explicit ≠ "" then some explicit
  else if ip ≠ "" ∧ py.lower ip ≠ "dhcp" then some (String.ofList (ip.toList.takeWhile (· ≠ '/')))
  else none

def targetPort : Int := advancedInt py (advanced request "monitoring_port") 9100

def targetPath : String := advancedStr py request "monitoring_path" "/metrics"

def registration (address : String) : MonitoringService.Call :=
  .upsertTarget request.name address (targetPort py request) (targetPath py request)
    (advancedStr py request "monitoring_site" "home") "enabled" (advancedStr py request "health_metric" "up")

def requestedTarget (address : String) : Except MonitoringService.ServiceError MonitoringTarget :=
  describedTarget py.toPythonText request.name address (targetPort py request) (targetPath py request)
    (advancedStr py request "monitoring_site" "home") "enabled" (advancedStr py request "health_metric" "up")

end

/-! ## The service -/

inductive StepStatus
  | success | warning | skipped
  deriving DecidableEq

structure ProvisioningStep where
  name : String
  status : StepStatus
  detail : String

structure ProvisioningResult where
  (resourceId resourceName : String)
  ready : Bool
  taskReference : Option String
  steps : List ProvisioningStep
  warnings : List String

structure World where
  enabled : Bool
  verificationAttempts : Int
  options : Except Raised ProvisioningOptions
  snapshot : Except Raised (List Infrastructure.InfrastructureResource)
  create : Except Raised (Option String)
  readBack : Nat → Except Raised (List Infrastructure.InfrastructureResource)
  sleep : Nat → Except Raised Unit
  (deleteMaintenance store telemetry : Except Raised Unit)

def World.attempts (world : World) : Nat := (max 1 world.verificationAttempts).toNat

def ProvisioningError.raised : ProvisioningError → Raised
  | .value message => .exception "ValueError" message
  | .disabled message => .exception "ProvisioningDisabled" message
  | .conflict message => .exception "ProvisioningConflict" message

def planned (resource : Infrastructure.InfrastructureResource) : InfrastructureResource :=
  ⟨resource.remote, resource.type, resource.name, resource.vmid⟩

section

variable (py : Python) (request : GuestProvisionRequest) (world : World)

def createdId : String := "remote/" ++ request.remote ++ "/guest/" ++ toString request.vmid

def isVerified (resource : Infrastructure.InfrastructureResource) : Bool :=
  !request.start || resource.status = "running"

def verifyGuest : Nat → Nat → Except Raised Infrastructure.InfrastructureResource
  | 0, _ => .error (.exception "ProvisioningVerificationTimeout" ("PDM accepted creation of " ++ request.name ++
      ", but Nexus could not verify the expected resource state"))
  | left + 1, attempt => do
    let resources ← world.readBack attempt
    match (resources.find? (·.id = createdId request)).filter (isVerified request) with
    | some resource => return resource
    | none =>
      if left ≠ 0 then
        world.sleep attempt
      verifyGuest left (attempt + 1)

def createGuest : Except Raised (Option String × Infrastructure.InfrastructureResource) := do
  if !world.enabled then
    throw (ProvisioningError.raised (.disabled "Guest provisioning is disabled by configuration"))
  (validateRequest py.toPythonText request).mapError ProvisioningError.raised
  let options ← world.options
  (validateSelection request options).mapError ProvisioningError.raised
  let resources ← world.snapshot
  (ensureAvailable py.toPythonText request (resources.map planned)).mapError ProvisioningError.raised
  let _ ← (nativeConfig py.toPythonText request).mapError ProvisioningError.raised
  let taskReference ← world.create
  let resource ← verifyGuest request world world.attempts 0
  return (taskReference, resource)

def sshStep : ProvisioningStep :=
  if request.sshEnabled then
    if request.kind = "lxc" ∧ ¬ isBlank request.sshPublicKey then
      ⟨"ssh", .success, "SSH public key injected into the LXC creation request"⟩
    else ⟨"ssh", .warning, "SSH was selected but no LXC public key was available for injection"⟩
  else ⟨"ssh", .skipped, "SSH bootstrap not selected"⟩

def storeTarget (w : Write) : Effect Inventory Raised Unit := do
  Effect.ofExcept world.store
  match w with
  | .upsert target => Effect.modify (·.upsert py.toPythonText target)
  | .delete targetId => Effect.modify (·.erase targetId)
  Effect.ofExcept world.telemetry

def register (address : String) : Effect Inventory Raised Unit := do
  let inv ← Effect.read id
  match first py.toPythonText "" inv (registration py request address) with
  | .failed (.value message) => .fail (.exception "ValueError" message)
  | .failed (.key targetId) => .fail (.exception "KeyError" targetId)
  | .write w => storeTarget py world w
  | .await _ w => do
    Effect.ofExcept world.deleteMaintenance
    storeTarget py world w

def onException : Raised → Effect Inventory Raised ProvisioningStep
  | .exception type _ =>
    pure ⟨"monitoring", .warning, "Guest was created, but monitoring registration failed (" ++ type ++ ")"⟩
  | .cancelled => .fail .cancelled

def monitoringStep : Effect Inventory Raised ProvisioningStep :=
  let mode := py.lower (py.strip request.monitoring)
  if mode = "none" then pure ⟨"monitoring", .skipped, "Monitoring not selected"⟩
  else if mode = "pdm" then
    pure ⟨"monitoring", .success, "PDM-native state and resource telemetry are available immediately in Nexus"⟩
  else if mode = "prometheus" then
    match (prometheusAddress py request).filter (· ≠ "") with
    | none => pure ⟨"monitoring", .warning,
        "Prometheus monitoring requires a static IP/address; guest was created without target registration"⟩
    | some address =>
      Effect.catching (do
        register py request world address
        pure ⟨"monitoring", .success, "Prometheus target registered at " ++ address ++ ":" ++
          toString (targetPort py request) ++ targetPath py request⟩) onException
  else pure ⟨"monitoring", .warning, "Unknown monitoring mode '" ++ request.monitoring ++ "' was ignored"⟩

def provisionGuest : Effect Inventory Raised ProvisioningResult := do
  let (taskReference, resource) ← Effect.ofExcept (createGuest py request world)
  let monitoring ← monitoringStep py request world
  let steps := [⟨"create", .success, "PDM accepted the PVE guest creation task"⟩,
    ⟨"verify", .success, "Read-back verified " ++ resource.id ++ " with state " ++ resource.status⟩, sshStep request,
    monitoring]
  let warnings := (steps.filter (·.status = .warning)).map (·.detail)
  return ⟨resource.id, resource.name, warnings.isEmpty, taskReference, steps, warnings⟩

end

/-! ## What is written -/

section

variable {py : Python} {request : GuestProvisionRequest} {world : World} {inv : Inventory} {address : String}
  {target : MonitoringTarget}

def guestTargetId (py : Python) (request : GuestProvisionRequest) : Except MonitoringService.ServiceError String :=
  MonitoringService.normalizeName py.toPythonText request.name >>= MonitoringService.slug py.toPythonText

theorem requestedTarget_eq_ok (h : requestedTarget py request address = .ok target) :
    guestTargetId py request = .ok target.id ∧ target.state = .enabled ∧ target.downtimeId = none := by
  have henabled : MonitoringService.normalizeState py.toPythonText "enabled" = .ok .enabled := by
    simp [MonitoringService.normalizeState, py.enabled_eq]
  unfold requestedTarget describedTarget at h
  obtain ⟨name, hname, h⟩ := bind_eq_ok.mp h
  obtain ⟨id, hid, h⟩ := bind_eq_ok.mp h
  obtain ⟨address, -, h⟩ := bind_eq_ok.mp h
  obtain ⟨path, -, h⟩ := bind_eq_ok.mp h
  obtain ⟨site, -, h⟩ := bind_eq_ok.mp h
  obtain ⟨state, hst, h⟩ := bind_eq_ok.mp h
  obtain ⟨metric, -, h⟩ := bind_eq_ok.mp h
  cases henabled.symm.trans hst
  split at h
  · cases h
    exact ⟨bind_eq_ok.mpr ⟨name, hname, hid⟩, rfl, rfl⟩
  · cases h

def registeredTarget (inv : Inventory) (target : MonitoringTarget) : MonitoringTarget :=
  { target with downtimeId := if (truthy (inv.downtimeOf target.id)).isSome then none else inv.downtimeOf target.id }

inductive Registers (py : Python) (request : GuestProvisionRequest) (inv : Inventory) (address : String) :
    Except Raised Unit × Inventory → Prop
  | kept {err} : Registers py request inv address (.error err, inv)
  | written {outcome target}
      (htarget : requestedTarget py request address = .ok target) :
      Registers py request inv address (outcome, inv.upsert py.toPythonText (registeredTarget inv target))

theorem first_registration (inv) (h : requestedTarget py request address = .ok target) :
    first py.toPythonText "" inv (registration py request address) = .write (.upsert (registeredTarget inv target)) ∨
      ∃ d, first py.toPythonText "" inv (registration py request address) =
        .await (.delete d) (.upsert (registeredTarget inv target)) := by
  obtain ⟨-, hst, -⟩ := requestedTarget_eq_ok h
  unfold requestedTarget at h
  simp only [registration, first, h, MonitoringService.applyLifecycle, hst, registeredTarget]
  cases truthy (inv.downtimeOf target.id) with
  | none => exact .inl rfl
  | some d => exact .inr ⟨d, rfl⟩

theorem storeTarget_registers (h : requestedTarget py request address = .ok target) : Registers py request inv address
    ((storeTarget py world (.upsert (registeredTarget inv target))).run inv) := by
  unfold storeTarget
  cases world.store with
  | error => exact .kept
  | ok => exact .written h

theorem register_registers (py) (request) (world) (address)
    (inv) : Registers py request inv address ((register py request world address).run inv) := by
  rw [register, run_read_bind]
  cases requested : requestedTarget py request address with
  | error err =>
    have hfst : first py.toPythonText "" (id inv) (registration py request address) = .failed err := by
      unfold requestedTarget at requested
      simp only [registration, first, requested]
    rw [hfst]
    cases err with
    | value => exact .kept
    | key => exact .kept
  | ok =>
    rcases first_registration inv requested with hfst | ⟨d, hfst⟩
    · rw [id_eq, hfst]
      exact storeTarget_registers requested
    · rw [id_eq, hfst]
      simp only
      cases world.deleteMaintenance with
      | error => exact .kept
      | ok => exact storeTarget_registers requested

inductive Monitors (py : Python) (request : GuestProvisionRequest) (inv : Inventory) :
    Except Raised ProvisioningStep × Inventory → Prop
  | warned {step} (hwarning : step.status = .warning) : Monitors py request inv (.ok step, inv)
  | cancelled : Monitors py request inv (.error .cancelled, inv)
  | registered {outcome address target}
      (haddress : prometheusAddress py request = some address) (hne : address ≠ "")
      (htarget : requestedTarget py request address = .ok target) :
      Monitors py request inv (outcome, inv.upsert py.toPythonText (registeredTarget inv target))

theorem monitoringStep_monitors (world) (inv) (hmode : py.lower (py.strip request.monitoring) = "prometheus") :
    Monitors py request inv ((monitoringStep py request world).run inv) := by
  simp only [monitoringStep, hmode, if_true]
  rw [if_neg (by decide), if_neg (by decide)]
  cases haddr : (prometheusAddress py request).filter (· ≠ "") with
  | none => exact .warned rfl
  | some address =>
    obtain ⟨haddr, hne⟩ := Option.filter_eq_some_iff.mp haddr
    have hreg := register_registers py request world address inv
    simp only [Effect.catching]
    rcases hrun : (register py request world address).run inv with ⟨err | u, inv'⟩
    · rw [hrun] at hreg
      rw [run_bind_of_error hrun]
      cases hreg with
      | kept =>
        cases err with
        | exception => exact .warned rfl
        | cancelled => exact .cancelled
      | written target =>
        cases err with
        | exception => exact .registered haddr (of_decide_eq_true hne) target
        | cancelled => exact .registered haddr (of_decide_eq_true hne) target
    · rw [hrun] at hreg
      rw [run_bind_of_ok hrun]
      cases hreg with
      | written target => exact .registered haddr (of_decide_eq_true hne) target

theorem mapError_eq_ok {α : Type} {x : Except ProvisioningError α} {a : α} :
    x.mapError ProvisioningError.raised = .ok a ↔ x = .ok a := by
  cases x <;> simp [Except.mapError]

theorem valid_of_createGuest {created : Option String × Infrastructure.InfrastructureResource}
    (h : createGuest py request world = .ok created) :
    validateRequest py.toPythonText request = .ok () ∧ InNativeLimits py.toPythonText request := by
  unfold createGuest at h
  split at h
  · cases h
  · obtain ⟨u, hval, h⟩ := bind_eq_ok.mp h
    obtain ⟨options, -, h⟩ := bind_eq_ok.mp h
    obtain ⟨-, -, h⟩ := bind_eq_ok.mp h
    obtain ⟨resources, -, h⟩ := bind_eq_ok.mp h
    obtain ⟨-, -, h⟩ := bind_eq_ok.mp h
    obtain ⟨config, native, -⟩ := bind_eq_ok.mp h
    have hval := mapError_eq_ok.mp hval
    exact ⟨hval, ((nativeConfig_eq_ok hval).mp (mapError_eq_ok.mp native)).1⟩

inductive Provisions (py : Python) (request : GuestProvisionRequest) (inv : Inventory) :
    Except Raised ProvisioningResult × Inventory → Prop
  | raised {err} : Provisions py request inv (.error err, inv)
  | warned {r} (hwarnings : r.warnings ≠ []) : Provisions py request inv (.ok r, inv)
  | registered {outcome address target}
      (hvalid : validateRequest py.toPythonText request = .ok ()) (hlimits : InNativeLimits py.toPythonText request)
      (haddress : prometheusAddress py request = some address) (hne : address ≠ "")
      (htarget : requestedTarget py request address = .ok target) :
      Provisions py request inv (outcome, inv.upsert py.toPythonText (registeredTarget inv target))

theorem provisionGuest_provisions (world) (inv) (hmode : py.lower (py.strip request.monitoring) = "prometheus") :
    Provisions py request inv ((provisionGuest py request world).run inv) := by
  unfold provisionGuest
  cases created : createGuest py request world with
  | error => exact .raised
  | ok =>
    obtain ⟨hval, hlim⟩ := valid_of_createGuest created
    have hmon := monitoringStep_monitors world inv hmode
    rw [run_ofExcept_ok_bind]
    rcases hrun : (monitoringStep py request world).run inv with ⟨err | step, inv'⟩
    · rw [hrun] at hmon
      rw [run_bind_of_error hrun]
      cases hmon with
      | cancelled => exact .raised
      | registered haddr hne target => exact .registered hval hlim haddr hne target
    · rw [hrun] at hmon
      rw [run_bind_of_ok hrun]
      cases hmon with
      | warned hwarn => exact .warned (by simp [hwarn])
      | registered haddr hne target => exact .registered hval hlim haddr hne target

end

/-! ## Targets that were there before -/

/-- Each target that was there is left as it is, and any other has a new id. -/
structure OnlyAdds (py : Python) (request : GuestProvisionRequest) (inv : Inventory)
    (run : Except Raised ProvisioningResult × Inventory) : Prop where
  kept : ∀ t ∈ inv.targets, t ∈ run.2.targets
  added : ∀ t ∈ run.2.targets, t ∈ inv.targets ∨ guestTargetId py request = .ok t.id ∧
    ∀ old ∈ inv.targets, old.id ≠ t.id
  reported : ∀ r, run.1 = .ok r → r.warnings ≠ [] ∨ ∃ t ∈ run.2.targets, guestTargetId py request = .ok t.id

/-- A target that is written over is in all respects the one that is requested, and has no downtime. -/
def Harmless (py : Python) (request : GuestProvisionRequest) (inv : Inventory) : Prop :=
  ∀ address target, prometheusAddress py request = some address → address ≠ "" →
    requestedTarget py request address = .ok target → ∀ t ∈ inv.targets, t.id = target.id →
        t = { target with downtimeId := t.downtimeId } ∧ truthy t.downtimeId = none

section

variable {py : Python} {request : GuestProvisionRequest} {inv : Inventory} {address : String}
  {target : MonitoringTarget} {t : MonitoringTarget}

theorem downtimeOf_of_mem (ht : t ∈ inv.targets) : inv.downtimeOf t.id = t.downtimeId := by
  rw [Inventory.downtimeOf, Inventory.getTarget_eq_some.mpr ⟨ht, rfl⟩, Option.bind_some]

theorem eq_registeredTarget_iff (ht : t ∈ inv.targets) (hid : t.id = target.id) :
    t = registeredTarget inv target ↔ t = { target with downtimeId := t.downtimeId } ∧ truthy t.downtimeId = none := by
  have hdowntime : inv.downtimeOf target.id = t.downtimeId := hid ▸ downtimeOf_of_mem ht
  simp only [registeredTarget, hdowntime]
  cases htruthy : truthy t.downtimeId with
  | none => simp
  | some d =>
    obtain ⟨hsome, -⟩ := MonitoringService.truthy_eq_some.mp htruthy
    simp only [Option.isSome_some, if_true, reduceCtorEq, and_false, iff_false]
    intro h
    rw [h] at hsome
    cases hsome

theorem onlyAdds_registered (htarget : requestedTarget py request address = .ok target)
    (harmless : ∀ t ∈ inv.targets, t.id = target.id → t = registeredTarget inv target) (outcome) :
    OnlyAdds py request inv (outcome, inv.upsert py.toPythonText (registeredTarget inv target)) := by
  obtain ⟨hguest, -, -⟩ := requestedTarget_eq_ok htarget
  refine ⟨fun t ht => ?_, fun t ht => ?_, fun _ _ => .inr ⟨_, Inventory.mem_upsert.mpr (.inl rfl), hguest⟩⟩
  · by_cases hid : t.id = target.id
    · exact Inventory.mem_upsert.mpr (.inl (harmless t ht hid))
    · exact Inventory.mem_upsert.mpr (.inr ⟨ht, hid⟩)
  · rcases Inventory.mem_upsert.mp ht with rfl | ⟨hold, -⟩
    · -- either the id is new, or the target with it is written as it was
      by_cases hnew : ∀ old ∈ inv.targets, old.id ≠ target.id
      · exact .inr ⟨hguest, hnew⟩
      · push Not at hnew
        obtain ⟨old, hold, hid⟩ := hnew
        exact .inl (harmless old hold hid ▸ hold)
    · exact .inl hold

def runningGuest (request : GuestProvisionRequest) : Infrastructure.InfrastructureResource :=
  ⟨createdId request, request.remote, "pve-lxc", request.name, "running", some request.vmid, none⟩

def smooth (request : GuestProvisionRequest) : World where
  enabled := true
  verificationAttempts := 1
  options := .ok ⟨[⟨request.remote, request.node⟩], []⟩
  snapshot := .ok []
  create := .ok none
  readBack _ := .ok [runningGuest request]
  sleep _ := .ok ()
  deleteMaintenance := .ok ()
  store := .ok ()
  telemetry := .ok ()

theorem createGuest_smooth (hval : validateRequest py.toPythonText request = .ok ())
    (hlim : InNativeLimits py.toPythonText request) :
    createGuest py request (smooth request) = .ok (none, runningGuest request) := by
  have native := (nativeConfig_eq_ok hval).mpr ⟨hlim, rfl⟩
  have hsel : validateSelection request ⟨[⟨request.remote, request.node⟩], []⟩ = .ok () := by
    simp [validateSelection, checkedStorages]
  have found : ([runningGuest request].find? (·.id = createdId request)).filter (isVerified request) =
      some (runningGuest request) := by
    simp [runningGuest, isVerified, Option.filter]
  have hver : verifyGuest request (smooth request) (smooth request).attempts 0 = .ok (runningGuest request) := by
    refine bind_eq_ok.mpr ⟨[runningGuest request], rfl, ?_⟩
    simp only [found]
    rfl
  unfold createGuest
  rw [hver]
  simp [smooth, hval, native, hsel, ensureAvailable, Except.mapError, bind, Except.bind, pure, Except.pure]

theorem register_smooth (inv) (htgt : requestedTarget py request address = .ok target) :
    (register py request (smooth request) address).run inv =
      (.ok (), inv.upsert py.toPythonText (registeredTarget inv target)) := by
  rw [register, run_read_bind]
  rcases first_registration inv htgt with first | ⟨d, first⟩
  · rw [id_eq, first]
    rfl
  · rw [id_eq, first]
    rfl

theorem provisionGuest_smooth (hmode : py.lower (py.strip request.monitoring) = "prometheus")
    (hval : validateRequest py.toPythonText request = .ok ()) (hlim : InNativeLimits py.toPythonText request)
    (haddr : prometheusAddress py request = some address) (hne : address ≠ "")
    (htgt : requestedTarget py request address = .ok target) :
    ((provisionGuest py request (smooth request)).run inv).2 =
      inv.upsert py.toPythonText (registeredTarget inv target) := by
  have hsome : (prometheusAddress py request).filter (· ≠ "") = some address :=
    Option.filter_eq_some_iff.mpr ⟨haddr, decide_eq_true hne⟩
  have hmon : ∃ step, (monitoringStep py request (smooth request)).run inv =
      (.ok step, inv.upsert py.toPythonText (registeredTarget inv target)) := by
    simp only [monitoringStep, hmode, if_true, hsome, Effect.catching]
    rw [if_neg (by decide), if_neg (by decide)]
    simp only
    rw [run_bind_of_ok (register_smooth inv htgt)]
    exact ⟨_, rfl⟩
  obtain ⟨step, hmon⟩ := hmon
  rw [provisionGuest, createGuest_smooth hval hlim, run_ofExcept_ok_bind, run_bind_of_ok hmon]
  rfl

end

/-- **However the provisioning goes, it leaves the targets that were there as they are, exactly if one with the slug of
the guest's name, if any, is already the requested one.** -/
theorem provision_onlyAdds_iff (py : Python) (request : GuestProvisionRequest) (inv : Inventory)
    (hmode : py.lower (py.strip request.monitoring) = "prometheus") :
    (∀ world, OnlyAdds py request inv ((provisionGuest py request world).run inv)) ↔
      (validateRequest py.toPythonText request = .ok () → InNativeLimits py.toPythonText request →
        Harmless py request inv) := by
  constructor
  · intro h hvalid hlimits address target haddress hne htarget t ht hid
    have hkept := (h (smooth request)).kept t ht
    rw [provisionGuest_smooth hmode hvalid hlimits haddress hne htarget] at hkept
    rcases Inventory.mem_upsert.mp hkept with hsame | ⟨-, hother⟩
    · exact (eq_registeredTarget_iff ht hid).mp hsame
    · exact absurd hid hother
  · intro h world
    have hprov := provisionGuest_provisions world inv hmode
    generalize (provisionGuest py request world).run inv = run at hprov
    cases hprov with
    | raised => exact ⟨fun _ ht => ht, fun _ ht => .inl ht, fun _ hr => by cases hr⟩
    | warned hwarn =>
      refine ⟨fun _ ht => ht, fun _ ht => .inl ht, fun r hr => ?_⟩
      cases hr
      exact .inl hwarn
    | registered hvalid hlimits haddress hne htarget =>
      refine onlyAdds_registered htarget (fun t ht hid => ?_) _
      exact (eq_registeredTarget_iff ht hid).mpr (h hvalid hlimits _ _ haddress hne htarget t ht hid)

namespace Sample

def py : Python where
  toPythonText := txt
  lower := Text.toAsciiLowercase
  truthyOther _ := true
  strOther _ := ""
  intStr := String.toInt?
  intOther _ := none
  enabled_eq := by decide

def monitored : GuestProvisionRequest :=
  { request "web" .empty with ipConfig := "10.0.0.5/24", monitoring := "prometheus" }

def otherWeb : MonitoringTarget := ⟨"web", "web", "10.1.0.9", 9100, "/metrics", "home", .maintenance, some "dt-1", "up"⟩

/-- In maintenance, with another name. -/
def database : MonitoringTarget := { otherWeb with id := "db", name := "db" }

def holding (target : MonitoringTarget) : Inventory := ⟨[target], List.nodup_singleton _⟩

end Sample

open Sample

theorem onlyAdds_beside_database : ((provisionGuest py monitored (smooth monitored)).run (holding database)).2.targets =
      [database, ⟨"web", "web", "10.0.0.5", 9100, "/metrics", "home", .enabled, none, "up"⟩] ∧
    ∀ world, OnlyAdds py monitored (holding database) ((provisionGuest py monitored world).run (holding database)) := by
  have hguest : guestTargetId py monitored = .ok "web" := by decide
  refine ⟨by decide, (provision_onlyAdds_iff py monitored (holding database) (by decide)).mpr ?_⟩
  intro _ _ address target _ _ htarget t ht hid
  cases List.mem_singleton.mp ht
  have hweb : target.id = "web" := Except.ok.inj ((requestedTarget_eq_ok htarget).1.symm.trans hguest)
  exact absurd (hid.trans hweb) (by decide)

/-- The target `web` of another remote now has the address of the new guest, is enabled, and its downtime is deleted. -/
theorem other_web_overwritten : ((provisionGuest py monitored (smooth monitored)).run (holding otherWeb)).2.targets =
      [⟨"web", "web", "10.0.0.5", 9100, "/metrics", "home", .enabled, none, "up"⟩] ∧
    ¬ OnlyAdds py monitored (holding otherWeb)
      ((provisionGuest py monitored (smooth monitored)).run (holding otherWeb)) := by
  have hafter : ((provisionGuest py monitored (smooth monitored)).run (holding otherWeb)).2.targets =
      [⟨"web", "web", "10.0.0.5", 9100, "/metrics", "home", .enabled, none, "up"⟩] := by decide
  refine ⟨hafter, fun h => ?_⟩
  have hkept := h.kept otherWeb (List.mem_singleton.mpr rfl)
  rw [hafter] at hkept
  exact absurd hkept (by decide)

end Nexus.Provisioning
