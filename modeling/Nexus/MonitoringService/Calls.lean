import Mathlib.Data.List.Sort
import Nexus.Lib.Text

/-!
# The calls of the monitoring service

`MonitoringService.upsert_target`, `set_state` and `delete_target` of `nexus/src/nexus_core/services/monitoring.py`,
with `nexus/src/nexus_core/repositories/monitoring_json.py`. `first` is a call up to the point where it waits for the
alerting provider, and `first_leads` says what there is to wait for and what is written then.
-/

namespace Nexus.MonitoringService

open Lib List

/-! ## Input -/

inductive TargetState
  | enabled | maintenance | disabled
  deriving DecidableEq

structure MonitoringTarget where
  (id name address : String)
  port : Int
  (metricsPath site : String)
  state : TargetState
  downtimeId : Option String
  healthMetric : String
  deriving DecidableEq

inductive ServiceError
  | value (message : String)
  | key (targetId : String)
  deriving DecidableEq

structure PythonText where
  (strip casefold : String → String)
  isIpAddress : String → Bool

variable (txt : PythonText)

def isSlugChar (c : Char) : Bool := c.isLower || c.isDigit

def dashRuns : Bool → List Char → List Char
  | _, [] => []
  | inRun, c :: cs =>
    if isSlugChar c then c :: dashRuns false cs
    else if inRun then dashRuns true cs else '-' :: dashRuns true cs

def normalizeName (value : String) : Except ServiceError String :=
  let normalized := txt.strip value
  if normalized.length < 1 || normalized.length > 80 || normalized.toList.any (·.toNat < 32) then
    .error (.value "name must contain between 1 and 80 printable characters")
  else .ok normalized

def slug (value : String) : Except ServiceError String :=
  let slug := Text.trimBy (· = '-') (String.ofList (dashRuns false (txt.casefold value).toList))
  if slug = "" || slug.length > 64 then .error (.value "name cannot be converted to a valid target id") else .ok slug

def normalizeLabel (value field : String) : Except ServiceError String :=
  let normalized := txt.casefold (txt.strip value)
  if 1 ≤ normalized.length && normalized.length ≤ 64 &&
      normalized.toList.all (fun c => isSlugChar c || c == '_' || c == '-') then .ok normalized
  else .error (.value (field ++ " must contain 1-64 alphanumeric, '-' or '_' characters"))

def normalizeMetric (value : String) : Except ServiceError String :=
  let normalized := txt.strip value
  match normalized.toList with
  | c :: cs =>
    if (c.isAlpha || c == '_' || c == ':') && cs.length ≤ 127 &&
        cs.all (fun c => c.isAlphanum || c == '_' || c == ':') then .ok normalized
    else .error (.value "health_metric must be a valid Prometheus metric name")
  | [] => .error (.value "health_metric must be a valid Prometheus metric name")

def isHostLabel (label : List Char) : Bool :=
  label.length ≤ 63 && label.all (fun c => c.isAlphanum || c == '-') && label.head?.any Char.isAlphanum &&
    label.getLast?.any Char.isAlphanum

def normalizeAddress (value : String) : Except ServiceError String :=
  let normalized := txt.casefold (Text.trimEndBy (· = '.') (txt.strip value))
  if txt.isIpAddress normalized then .ok normalized
  else if normalized = "" || normalized.length > 253 || (normalized.toList.splitOn '.').any (!isHostLabel ·) then
    .error (.value "invalid IP address or hostname")
  else .ok normalized

def normalizeMetricsPath (value : String) : Except ServiceError String :=
  let stripped := txt.strip value
  let normalized := if stripped = "" then "/metrics" else stripped
  if normalized.length > 128 || !(Text.startsWith normalized "/" &&
      normalized.toList.all (fun c => c.isAlphanum || c == '_' || c == '.' || c == '/' || c == '-')) then
    .error (.value "metrics_path must be a safe absolute path")
  else .ok normalized

def normalizeState (value : String) : Except ServiceError TargetState :=
  let normalized := txt.casefold (txt.strip value)
  if normalized = "enabled" then .ok .enabled
  else if normalized = "maintenance" then .ok .maintenance
  else if normalized = "disabled" then .ok .disabled
  else .error (.value "state must be enabled, maintenance or disabled")

inductive Call
  | upsertTarget (name address : String) (port : Int) (metricsPath site state healthMetric : String)
  | setState (targetId state : String)
  | deleteTarget (targetId : String)

def describedTarget (txt : PythonText) (name address : String) (port : Int)
    (metricsPath site state healthMetric : String) : Except ServiceError MonitoringTarget := do
  let name ← normalizeName txt name
  let id ← slug txt name
  let address ← normalizeAddress txt address
  let metricsPath ← normalizeMetricsPath txt metricsPath
  let site ← normalizeLabel txt site "site"
  let state ← normalizeState txt state
  let healthMetric ← normalizeMetric txt healthMetric
  if 1 ≤ port ∧ port ≤ 65535 then
    return ⟨id, name, address, port, metricsPath, site, state, none, healthMetric⟩
  else throw (.value "port must be between 1 and 65535")

def Call.targetId (txt : PythonText) : Call → Option String
  | .upsertTarget name address port metricsPath site state healthMetric =>
    ((describedTarget txt name address port metricsPath site state healthMetric).toOption).map (·.id)
  | .setState targetId _ => some targetId
  | .deleteTarget targetId => some targetId

/-! ## The inventory -/

structure Inventory where
  targets : List MonitoringTarget
  ids_nodup : (targets.map (·.id)).Nodup

namespace Inventory

def getTarget (inv : Inventory) (targetId : String) : Option MonitoringTarget := inv.targets.find? (·.id = targetId)

def downtimeOf (inv : Inventory) (targetId : String) : Option String := (inv.getTarget targetId).bind (·.downtimeId)

def Before (txt : PythonText) (a b : MonitoringTarget) : Prop :=
  txt.casefold a.name < txt.casefold b.name ∨ (txt.casefold a.name = txt.casefold b.name ∧ a.id ≤ b.id)

instance (txt : PythonText) : DecidableRel (Before txt) := fun _ _ => inferInstanceAs (Decidable (_ ∨ _))

def erase (inv : Inventory) (targetId : String) : Inventory :=
  ⟨inv.targets.filter (·.id ≠ targetId), inv.ids_nodup.sublist (filter_sublist.map _)⟩

theorem nodup_concat (inv : Inventory) (target : MonitoringTarget) :
    (((inv.erase target.id).targets ++ [target]).map (·.id)).Nodup := by
  rw [map_append, nodup_append]
  refine ⟨(inv.erase target.id).ids_nodup, nodup_singleton _, ?_⟩
  intro a ha b hb
  obtain ⟨t, ht, rfl⟩ := mem_map.mp ha
  rw [map_singleton, mem_singleton] at hb
  rw [hb]
  exact of_decide_eq_true (mem_filter.mp ht).2

def upsert (txt : PythonText) (inv : Inventory) (target : MonitoringTarget) : Inventory :=
  ⟨((inv.erase target.id).targets ++ [target]).insertionSort (Before txt),
    ((perm_insertionSort (Before txt) _).map (·.id)).nodup_iff.mpr (inv.nodup_concat target)⟩

variable {txt} {inv : Inventory} {target t : MonitoringTarget} {targetId : String}

theorem mem_erase : t ∈ (inv.erase targetId).targets ↔ t ∈ inv.targets ∧ t.id ≠ targetId := by
  simp [erase]

theorem mem_upsert : t ∈ (inv.upsert txt target).targets ↔ t = target ∨ (t ∈ inv.targets ∧ t.id ≠ target.id) := by
  simp only [upsert, mem_insertionSort, mem_append, mem_singleton, mem_erase]
  exact or_comm

theorem getTarget_eq_some : inv.getTarget targetId = some t ↔ t ∈ inv.targets ∧ t.id = targetId := by
  have hid : ∀ {u} {targetId}, inv.getTarget targetId = some u → u.id = targetId :=
    fun h => by simpa using find?_some h
  constructor
  · exact fun h => ⟨mem_of_find?_eq_some h, hid h⟩
  · rintro ⟨ht, rfl⟩
    cases hfind : inv.getTarget t.id with
    | none => exact absurd (decide_eq_true rfl) (find?_eq_none.mp hfind t ht)
    | some =>
      rw [inj_on_of_nodup_map inv.ids_nodup (mem_of_find?_eq_some hfind) ht (hid hfind)]

theorem getTarget_congr {inv' : Inventory} (h : ∀ t, t.id = targetId →
    (t ∈ inv.targets ↔ t ∈ inv'.targets)) : inv.getTarget targetId = inv'.getTarget targetId := by
  ext t
  rw [getTarget_eq_some, getTarget_eq_some]
  exact ⟨fun ⟨ht, hid⟩ => ⟨(h t hid).mp ht, hid⟩, fun ⟨ht, hid⟩ => ⟨(h t hid).mpr ht, hid⟩⟩

end Inventory

/-! ## Up to the first wait -/

def truthy (downtimeId : Option String) : Option String := downtimeId.filter (· ≠ "")

theorem truthy_eq_some {o d} : truthy o = some d ↔ o = some d ∧ d ≠ "" := by
  simp [truthy, Option.filter_eq_some_iff]

inductive Alert
  | create (downtimeId : String) (target : MonitoringTarget)
  | delete (downtimeId : String)

inductive Write
  | upsert (target : MonitoringTarget)
  | delete (targetId : String)

def Write.targetId : Write → String
  | .upsert target => target.id
  | .delete targetId => targetId

inductive First
  | failed (err : ServiceError)
  | write (w : Write)
  | await (alert : Alert) (w : Write)

def applyLifecycle (newId : String) (target : MonitoringTarget) (downtimeId : Option String) : First :=
  match truthy downtimeId with
  | none =>
    if target.state = .maintenance then
      .await (.create newId target) (.upsert { target with downtimeId := some newId })
    else .write (.upsert target)
  | some d =>
    if target.state ≠ .maintenance then .await (.delete d) (.upsert { target with downtimeId := none })
    else .write (.upsert target)

def first (txt : PythonText) (newId : String) (inv : Inventory) : Call → First
  | .upsertTarget name address port metricsPath site state healthMetric =>
    match describedTarget txt name address port metricsPath site state healthMetric with
    | .error err => .failed err
    | .ok target =>
      let downtimeId := inv.downtimeOf target.id
      applyLifecycle newId { target with downtimeId } downtimeId
  | .setState targetId state =>
    match inv.getTarget targetId with
    | none => .failed (.key targetId)
    | some existing => match normalizeState txt state with
      | .error err => .failed err
      | .ok state => applyLifecycle newId { existing with state } existing.downtimeId
  | .deleteTarget targetId =>
    match inv.getTarget targetId with
    | none => .failed (.key targetId)
    | some existing => match truthy existing.downtimeId with
      | some d => .await (.delete d) (.delete targetId)
      | none => .write (.delete targetId)

variable {txt} {newId : String} {inv : Inventory} {call : Call}

theorem first_congr {inv'}
    (h : ∀ targetId, call.targetId txt = some targetId → inv.getTarget targetId = inv'.getTarget targetId) :
    first txt newId inv call = first txt newId inv' call := by
  cases call with
  | upsertTarget name address port metricsPath site state healthMetric =>
    simp only [first]
    cases hdesc : describedTarget txt name address port metricsPath site state healthMetric with
    | error => simp only
    | ok target =>
      have htgt := h target.id (by simp [Call.targetId, hdesc, Except.toOption])
      simp only [Inventory.downtimeOf, htgt]
  | setState targetId =>
    simp only [first]
    rw [h targetId rfl]
  | deleteTarget targetId =>
    simp only [first]
    rw [h targetId rfl]

inductive Leads (txt : PythonText) (newId : String) (inv : Inventory) (call : Call) : First → Prop
  | failed {err} : Leads txt newId inv call (.failed err)
  /-- The target is written with the downtime that is recorded for it. -/
  | keep {t} (hid : call.targetId txt = some t.id) (hsame : t.downtimeId = inv.downtimeOf t.id) :
      Leads txt newId inv call (.write (.upsert t))
  | enter {t} (hid : call.targetId txt = some t.id) (hnone : truthy (inv.downtimeOf t.id) = none) :
      Leads txt newId inv call (.await (.create newId t) (.upsert { t with downtimeId := some newId }))
  | leave {t : MonitoringTarget} {d : String} (hid : call.targetId txt = some t.id)
      (hsome : truthy (inv.downtimeOf t.id) = some d) :
      Leads txt newId inv call (.await (.delete d) (.upsert { t with downtimeId := none }))
  | drop {targetId} (hid : call.targetId txt = some targetId)
      (hnone : truthy (inv.downtimeOf targetId) = none) : Leads txt newId inv call (.write (.delete targetId))
  | dropLast {targetId d} (hid : call.targetId txt = some targetId)
      (hsome : truthy (inv.downtimeOf targetId) = some d) :
      Leads txt newId inv call (.await (.delete d) (.delete targetId))

theorem applyLifecycle_leads {t} (hid : call.targetId txt = some t.id)
    (hsame : t.downtimeId = inv.downtimeOf t.id) : Leads txt newId inv call (applyLifecycle newId t t.downtimeId) := by
  unfold applyLifecycle
  split
  · next hnone =>
    split
    · exact .enter hid (hsame ▸ hnone)
    · exact .keep hid hsame
  · next d hsome =>
    split
    · exact .leave hid (hsame ▸ hsome)
    · exact .keep hid hsame

/-- **What a call comes to.** -/
theorem first_leads (txt) (newId) (inv) (call) : Leads txt newId inv call (first txt newId inv call) := by
  have hdown : ∀ {targetId} {t}, inv.getTarget targetId = some t →
      inv.downtimeOf targetId = t.downtimeId := fun h => by rw [Inventory.downtimeOf, h, Option.bind_some]
  cases call with
  | upsertTarget =>
    simp only [first]
    split
    · exact .failed
    · next target hdesc =>
      refine applyLifecycle_leads (t := { target with downtimeId := inv.downtimeOf target.id }) ?_ rfl
      simp [Call.targetId, hdesc, Except.toOption]
  | setState targetId state =>
    simp only [first]
    split
    · exact .failed
    · next existing hget =>
      have hid : existing.id = targetId := (Inventory.getTarget_eq_some.mp hget).2
      split
      · exact .failed
      · next st _ =>
        refine applyLifecycle_leads (t := { existing with state := st }) (congrArg some hid.symm) ?_
        rw [show ({ existing with state := st } : MonitoringTarget).id = targetId from hid, hdown hget]
  | deleteTarget =>
    simp only [first]
    split
    · exact .failed
    · next existing hget =>
      split
      · next d hsome => exact .dropLast rfl (by rwa [hdown hget])
      · next hnone => exact .drop rfl (by rwa [hdown hget])

end Nexus.MonitoringService
