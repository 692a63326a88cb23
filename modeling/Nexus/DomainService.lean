import Nexus.Lib.Effect
import Nexus.Lib.Run
import Nexus.Lib.StableSort
import Nexus.Lib.Text

/-!
# The domain service

`DomainService.reconcile` of `nexus/src/nexus_core/services/domains.py` with the inventory of
`nexus/src/nexus_core/repositories/domains_json.py`. A call that fails before its first write leaves what an earlier one
has stored (`reconcile_ends`). `managed_means_verified_iff` says for which calls the stored modes are always right.
-/

namespace Nexus.DomainService

open Lib Lib.Effect List

/-! ## The inventory -/

inductive DomainMode
  | managed | existing | discovered | pending
  deriving DecidableEq

structure DomainRecord where
  name : String
  (mail webmail ddns tunnel : Bool)
  configurationMode : DomainMode
  hestiaUser : String

def defaultDomains : List DomainRecord :=
  [⟨"dreamteclabs.com", true, true, true, true, .existing, "admin"⟩,
    ⟨"kinpilot.app", true, true, true, true, .existing, "admin"⟩,
    ⟨"savipilot.com", true, true, true, true, .existing, "admin"⟩,
    ⟨"domuspilot.com", true, true, true, true, .existing, "admin"⟩,
    ⟨"mundoleo.co", true, true, true, true, .existing, "admin"⟩,
    ⟨"dreamtec.com.br", true, true, true, false, .existing, "admin"⟩,
    ⟨"claudiokaist.com", false, false, true, false, .existing, "admin"⟩]

inductive DomainsFile
  | missing
  | unreadable
  | stored (domains : List DomainRecord)

def sortByName (domains : List DomainRecord) : List DomainRecord := domains.insertionSort fun a b => a.name ≤ b.name

def DomainsFile.read : DomainsFile → Option (List DomainRecord)
  | .missing => some (sortByName defaultDomains)
  | .unreadable => none
  | .stored domains => some (sortByName domains)

def DomainsFile.getDomain (file : DomainsFile) (name : String) : Option DomainRecord :=
  file.read.bind (find? (·.name = name))

def DomainsFile.mode (file : DomainsFile) (name : String) : Option DomainMode :=
  (file.getDomain name).map (·.configurationMode)

def upsert (domains : List DomainRecord) (domain : DomainRecord) : List DomainRecord :=
  sortByName (domains.filter (·.name ≠ domain.name) ++ [domain])

/-! ## A call -/

inductive DomainError
  | operationsDisabled (message : String)
  | valueError (message : String)
  | verificationFailed (message : String)
  /-- Any other exception. -/
  | other (message : String)
  /-- The cancellation of the task, which is not an `Exception`. -/
  | cancelled

def DomainError.message : DomainError → String
  | .operationsDisabled m | .valueError m | .verificationFailed m | .other m => m
  | .cancelled => ""

structure DomainCheck where
  key : String
  ok : Bool

structure DomainValidation where
  healthy : Bool
  checks : List DomainCheck

inductive Action
  | migrate
  | onboard

def Action.asStr : Action → String
  | .migrate => "migrate"
  | .onboard => "onboard"

structure DomainAuditEntry where
  domain : String
  action : Action
  (result detail : String)
  steps : List String

/-- How the ports behave during a call. -/
structure Outcomes where
  orchestrate : Except DomainError (List String)
  validate : Nat → Except DomainError DomainValidation
  sleepFails : Nat → Option DomainError
  (pendingFails managedFails : Option DomainError)
  auditFails : Nat → Option DomainError

structure ReconcileCall where
  (name hestiaUser : String)
  migrate : Bool
  outcomes : Outcomes

structure Service where
  operationsEnabled : Bool
  verificationAttempts : Nat
  (strip lower : String → String)

structure CallState where
  file : DomainsFile
  audit : List DomainAuditEntry
  audits : Nat
  invoked : Option String
  validated : Option Bool

abbrev Call := Effect CallState DomainError

def isLabel (label : String) : Bool :=
  let isAlnum := fun c : Char => c.isLower || c.isDigit
  0 < label.length && label.length ≤ 63 && label.toList.head?.any isAlnum && label.toList.getLast?.any isAlnum
    && label.toList.all fun c => isAlnum c || c = '-'

def isDomain (domain : String) : Bool :=
  let labels := Text.split '.' domain
  0 < domain.length && domain.length ≤ 253 && 2 ≤ labels.length && labels.dropLast.all isLabel
    && labels.getLast?.any fun tld => 2 ≤ tld.length && tld.length ≤ 63 && tld.toList.all Char.isLower

def isUser (user : String) : Bool :=
  user.length ≤ 64 && user.toList.head?.any Char.isAlphanum
    && user.toList.all fun c => c.isAlphanum || c = '.' || c = '_' || c = '-'

variable (svc : Service)

def normalizeDomain (value : String) : Except DomainError String :=
  let domain := Text.trimEndBy (· = '.') (svc.lower (svc.strip value))
  if isDomain domain then .ok domain else .error (.valueError "invalid domain name")

def normalizeHestiaUser (value : String) : Except DomainError String :=
  let user := svc.strip value
  if isUser user then .ok user else .error (.valueError "invalid Hestia user")

variable (o : Outcomes)

def audit (entry : DomainAuditEntry) : Call Unit := do
  let n ← Effect.read (·.audits)
  Effect.modify fun s => { s with audits := n + 1 }
  match o.auditFails n with
  | some err => Effect.fail err
  | none =>
    let entry := { entry with detail := String.ofList (entry.detail.toList.take 1000) }
    Effect.modify fun s => { s with audit := s.audit ++ [entry] }

def upsertDomain (fails : Option DomainError) (domain : DomainRecord) : Call Unit := do
  match (← Effect.read (·.file)).read, fails with
  | none, _ => Effect.fail (.other "Nexus domains inventory is unreadable")
  | some _, some err => Effect.fail err
  | some domains, none => Effect.modify fun s => { s with file := .stored (upsert domains domain) }

def verifyAgain (attempt : Nat) (validation : DomainValidation) : Nat → Except DomainError DomainValidation
  | 0 => .ok validation
  | remaining + 1 =>
    if validation.healthy then .ok validation
    else match o.sleepFails attempt with
      | some err => .error err
      | none => do verifyAgain (attempt + 1) (← o.validate attempt) remaining

def verify : Except DomainError DomainValidation := do
  verifyAgain o 1 (← o.validate 0) (max 1 svc.verificationAttempts - 1)

def failedChecks (validation : DomainValidation) : String :=
  let failed := ", ".intercalate ((validation.checks.filter (!·.ok)).map (·.key))
  if failed = "" then "unknown" else failed

def recordOf (domain user : String) (mode : DomainMode) : DomainRecord := ⟨domain, true, true, true, true, mode, user⟩

def settle (action : Action) (domain user : String) (steps : List String) (validation : DomainValidation) :
    Call (List String × DomainValidation) := do
  if !validation.healthy then
    let failed := failedChecks validation
    audit o ⟨domain, action, "failed-verification", "post-operation validation failed: " ++ failed, steps⟩
    Effect.fail (.verificationFailed
      (action.asStr ++ " completed externally, but Nexus validation still fails: " ++ failed))
  else
    upsertDomain o.managedFails (recordOf domain user .managed)
    audit o ⟨domain, action, "success", "post-operation validation passed", steps⟩
    return (steps, validation)

def reconcileBody (action : Action) (domain user : String) : Call (List String × DomainValidation) := do
  Effect.modify fun s => { s with invoked := some domain }
  let steps ← Effect.ofExcept o.orchestrate
  upsertDomain o.pendingFails (recordOf domain user .pending)
  let validation ← Effect.ofExcept (verify svc o)
  Effect.modify fun s => { s with validated := some validation.healthy }
  settle o action domain user steps validation

def onError (action : Action) (domain : String) (err : DomainError) : Call (List String × DomainValidation) :=
  match err with
  | .verificationFailed _ | .cancelled => Effect.fail err
  | err => do
    audit o ⟨domain, action, "failed", err.message, []⟩
    Effect.fail err

def reconcile (svc : Service) (call : ReconcileCall) : Call (List String × DomainValidation) := do
  if !svc.operationsEnabled then
    Effect.fail (.operationsDisabled "Domains & Hosting mutations are disabled by configuration")
  else
    let domain ← Effect.ofExcept (normalizeDomain svc call.name)
    let user ← Effect.ofExcept (normalizeHestiaUser svc call.hestiaUser)
    let action := if call.migrate then .migrate else .onboard
    (reconcileBody svc call.outcomes action domain user).catching (onError call.outcomes action domain)

/-! ## Stored modes -/

section

variable {file : DomainsFile} {domains : List DomainRecord} {record : DomainRecord} {name : String}

theorem find?_sortByName (domains) : (sortByName domains).find? (·.name = name) = domains.find? (·.name = name) := by
  refine StableSort.find?_insertionSort (fun a b ha hb => ?_) domains
  have hsame : a.name = b.name := (of_decide_eq_true ha).trans (of_decide_eq_true hb).symm
  exact hsame ▸ String.le_refl a.name

theorem getDomain_stored : (DomainsFile.stored domains).getDomain name = domains.find? (·.name = name) :=
  find?_sortByName domains

theorem find?_upsert_self : (upsert domains record).find? (·.name = record.name) = some record := by
  have hnone : (domains.filter (·.name ≠ record.name)).find? (·.name = record.name) = none := by
    rw [find?_eq_none]
    intro r hr
    simpa using (List.mem_filter.mp hr).2
  rw [upsert, find?_sortByName, find?_append, hnone]
  simp

theorem find?_upsert_ne (h : name ≠ record.name) :
    (upsert domains record).find? (·.name = name) = domains.find? (·.name = name) := by
  rw [upsert, find?_sortByName, find?_append, find?_filter]
  have hsame : (fun r : DomainRecord => decide (decide (r.name ≠ record.name) ∧ decide (r.name = name))) =
      fun r => decide (r.name = name) := by
    funext r
    by_cases hr : r.name = name
    · simp [hr, h]
    · simp [hr]
  simp only [hsame]
  simp [Ne.symm h]

theorem mode_upsert_self (domains) (record) :
    (DomainsFile.stored (upsert domains record)).mode record.name = some record.configurationMode := by
  rw [DomainsFile.mode, getDomain_stored, find?_upsert_self]
  rfl

theorem mode_upsert_ne (hread : file.read = some domains) (h : name ≠ record.name) :
    (DomainsFile.stored (upsert domains record)).mode name = file.mode name := by
  rw [DomainsFile.mode, getDomain_stored, find?_upsert_ne h, DomainsFile.mode, DomainsFile.getDomain, hread]
  rfl

theorem read_upsert : (DomainsFile.stored (upsert domains record)).read =
    some (sortByName (upsert domains record)) := rfl

end

/-! ## How a call ends -/

variable {svc o} {action : Action} {domain user : String} {s : CallState}

def Enters (o : Outcomes) (file : DomainsFile) : Prop :=
  (∃ steps, o.orchestrate = .ok steps) ∧ o.pendingFails = none ∧ file.read ≠ none

def Verifies (svc : Service) (o : Outcomes) : Prop := ∃ v, verify svc o = .ok v ∧ v.healthy = true

inductive Ends (svc : Service) (o : Outcomes) (domain user : String) (file : DomainsFile) :
    DomainsFile → Bool → Option Bool → Prop
  | left : ¬ Enters o file → Ends svc o domain user file file false none
  | unverified {domains validated} : Enters o file → file.read = some domains →
      ¬ Verifies svc o → validated ≠ some true →
      Ends svc o domain user file (.stored (upsert domains (recordOf domain user .pending))) false validated
  | unmanaged {domains} : Enters o file → file.read = some domains → Verifies svc o →
      o.managedFails ≠ none →
      Ends svc o domain user file (.stored (upsert domains (recordOf domain user .pending))) false (some true)
  /-- The record is written as managed. -/
  | managed {domains success} : Enters o file → file.read = some domains →
      Verifies svc o → o.managedFails = none → (success = true ↔ o.auditFails 0 = none) →
      Ends svc o domain user file (.stored (upsert (sortByName (upsert domains (recordOf domain user .pending)))
        (recordOf domain user .managed))) success (some true)

variable {domains : List DomainRecord} {err : DomainError} {file : DomainsFile} {validated : Option Bool}

theorem run_upsertDomain_ok {record} (hread : s.file.read = some domains) :
    (upsertDomain none record).run s = (.ok (), { s with file := .stored (upsert domains record) }) := by
  unfold upsertDomain
  rw [run_read_bind, hread]
  rfl

theorem run_upsertDomain_error {fails} (record)
    (h : fails ≠ none ∨ s.file.read = none) : ∃ err, (upsertDomain fails record).run s = (.error err, s) := by
  unfold upsertDomain
  rw [run_read_bind]
  cases hread : s.file.read with
  | none => exact ⟨_, rfl⟩
  | some =>
    cases fails with
    | none => exact absurd (h.resolve_right (by simp [hread])) (by simp)
    | some err => exact ⟨err, rfl⟩

def Ending (domain : String) (r : Except DomainError (List String × DomainValidation) × CallState) (file : DomainsFile)
    (success : Bool) (validated : Option Bool) : Prop :=
  r.1.isOk = success ∧ r.2.file = file ∧ r.2.invoked = some domain ∧ r.2.validated = validated

theorem ending_error (hfile : s.file = file) (hinv : s.invoked = some domain) (hval : s.validated = validated) :
    Ending domain (.error err, s) file false validated :=
  ⟨rfl, hfile, hinv, hval⟩

theorem ending_audit (entry) {next r success} (hnext : ∀ t, next.run t = (r, t))
    (hsucc : ((o.auditFails s.audits).isNone && r.isOk) = success) (hfile : s.file = file)
    (hinv : s.invoked = some domain) (hval : s.validated = validated) :
    Ending domain ((do audit o entry; next).run s) file success validated := by
  subst hsucc
  have hrun : ∃ log, (audit o entry).run s =
      ((o.auditFails s.audits).elim (.ok ()) .error, { s with audits := s.audits + 1, audit := log }) := by
    unfold audit
    rw [run_read_bind, run_bind_of_ok (run_modify _)]
    cases o.auditFails s.audits with
    | none => exact ⟨_, rfl⟩
    | some => exact ⟨_, rfl⟩
  obtain ⟨log, hrun⟩ := hrun
  cases hfails : o.auditFails s.audits with
  | none =>
    rw [hfails] at hrun
    rw [run_bind_of_ok hrun, hnext]
    exact ⟨rfl, hfile, hinv, hval⟩
  | some =>
    rw [hfails] at hrun
    rw [run_bind_of_error hrun]
    exact ending_error hfile hinv hval

theorem settle_ends (action) (user) (steps) (validation)
    (audits : s.audits = 0) (hinv : s.invoked = some domain) (hval : s.validated = some validation.healthy)
    (hread : s.file.read = some domains) : if validation.healthy ∧ o.managedFails = none then
      Ending domain ((settle o action domain user steps validation).run s)
        (.stored (upsert domains (recordOf domain user .managed))) (o.auditFails 0).isNone (some true)
    else Ending domain ((settle o action domain user steps validation).run s) s.file false
      (some validation.healthy) := by
  unfold settle
  cases hheal : validation.healthy with
  | false =>
    rw [hheal] at hval
    simp only [Bool.false_eq_true, false_and, if_false, Bool.not_false, if_true]
    exact ending_audit _ (fun _ => run_fail _) (Bool.and_false _) rfl hinv hval
  | true =>
    rw [hheal] at hval
    simp only [true_and, Bool.not_true, Bool.false_eq_true, if_false]
    split
    · next hman =>
      rw [hman, run_bind_of_ok (run_upsertDomain_ok hread)]
      refine ending_audit _ (fun _ => run_pure _) ?_ rfl hinv hval
      rw [audits]
      exact Bool.and_true _
    · next hman =>
      obtain ⟨err, hrun⟩ := run_upsertDomain_error (s := s) (recordOf domain user .managed) (.inl hman)
      rw [run_bind_of_error hrun]
      exact ending_error rfl hinv hval

def CallState.start (file : DomainsFile) : CallState := ⟨file, [], 0, none, none⟩

theorem reconcileBody_ends (svc) (o) (action) (domain) (user) (file) :
    ∃ file' success validated, Ends svc o domain user file file' success validated ∧
      Ending domain ((reconcileBody svc o action domain user).run (.start file)) file' success validated := by
  unfold reconcileBody
  rw [run_bind_of_ok (run_modify _)]
  cases hsteps : o.orchestrate with
  | error =>
    rw [run_ofExcept_error_bind]
    refine ⟨file, false, none, Ends.left ?_, ending_error rfl rfl rfl⟩
    rintro ⟨⟨steps, hok⟩, -⟩
    rw [hok] at hsteps
    cases hsteps
  | ok steps =>
    rw [run_ofExcept_ok_bind]
    by_cases enters : Enters o file
    · have ⟨_, pending, hreada⟩ := enters
      obtain ⟨domains, hread⟩ := Option.ne_none_iff_exists'.mp hreada
      rw [pending, run_bind_of_ok
        (run_upsertDomain_ok (s := { CallState.start file with invoked := some domain }) hread)]
      cases hver : verify svc o with
      | error =>
        rw [run_ofExcept_error_bind]
        refine ⟨_, _, none, .unverified enters hread ?_ (by simp), ending_error rfl rfl rfl⟩
        rintro ⟨v, hv, -⟩
        rw [hv] at hver
        cases hver
      | ok validation =>
        rw [run_ofExcept_ok_bind, run_bind_of_ok (run_modify _)]
        have settle := settle_ends (o := o) (s := ⟨.stored (upsert domains (recordOf domain user .pending)), [], 0,
          some domain, some validation.healthy⟩) action user steps validation rfl rfl rfl read_upsert
        split at settle
        · next hgood =>
          refine ⟨_, _, _, .managed enters hread ⟨validation, hver, hgood.1⟩ hgood.2 ?_, settle⟩
          rw [Option.isNone_iff_eq_none]
        · next hbad =>
          cases hheal : validation.healthy with
          | false =>
            rw [hheal] at settle
            refine ⟨_, _, _, .unverified enters hread ?_ (by simp), settle⟩
            rintro ⟨v, hv, hv'⟩
            cases hver.symm.trans hv
            rw [hheal] at hv'
            cases hv'
          | true =>
            rw [hheal] at settle
            exact ⟨_, _, _, .unmanaged enters hread ⟨validation, hver, hheal⟩ fun h => hbad ⟨hheal, h⟩, settle⟩
    · have hfails : o.pendingFails ≠ none ∨ file.read = none := by
        by_contra hcon
        rw [not_or, not_not] at hcon
        exact enters ⟨⟨steps, hsteps⟩, hcon⟩
      obtain ⟨err, hrun⟩ := run_upsertDomain_error (s := { CallState.start file with invoked := some domain })
        (recordOf domain user .pending) hfails
      rw [run_bind_of_error hrun]
      exact ⟨file, false, none, .left enters, ending_error rfl rfl rfl⟩

theorem onError_ending (h : Ending domain (.error err, s) file false validated) :
    Ending domain ((onError o action domain err).run s) file false validated := by
  obtain ⟨-, hfile, hinv, hval⟩ := h
  unfold onError
  split
  · exact ending_error hfile hinv hval
  · exact ending_error hfile hinv hval
  · exact ending_audit _ (fun _ => run_fail _) (Bool.and_false _) hfile hinv hval

def target (svc : Service) (call : ReconcileCall) : Option (String × String) :=
  if svc.operationsEnabled then
    match normalizeDomain svc call.name, normalizeHestiaUser svc call.hestiaUser with
    | .ok domain, .ok user => some (domain, user)
    | _, _ => none
  else none

theorem run_reconcile_of_no_target {call} (h : target svc call = none)
    (file) : ((reconcile svc call).run (.start file)).2 = .start file := by
  unfold reconcile
  unfold target at h
  cases hon : svc.operationsEnabled with
  | false => rfl
  | true =>
    simp only [hon, if_true] at h
    simp only [Bool.not_true, Bool.false_eq_true, if_false]
    cases hname : normalizeDomain svc call.name with
    | error => rfl
    | ok =>
      cases huser : normalizeHestiaUser svc call.hestiaUser with
      | error => rfl
      | ok => simp [hname, huser] at h

theorem reconcile_ends {call}
    (h : target svc call = some (domain, user)) (file) : ∃ file' success validated,
      Ends svc call.outcomes domain user file file' success validated ∧
        Ending domain ((reconcile svc call).run (.start file)) file' success validated := by
  unfold target at h
  cases hon : svc.operationsEnabled with
  | false => simp [hon] at h
  | true =>
    simp only [hon, if_true] at h
    split at h
    · next d u hname huser =>
      cases h
      let action : Action := if call.migrate then .migrate else .onboard
      have hrec : (reconcile svc call).run (.start file) =
          ((reconcileBody svc call.outcomes action domain user).catching
            (onError call.outcomes action domain)).run (.start file) := by
        unfold reconcile
        simp [hon, hname, huser, run_ofExcept_ok_bind, action]
      obtain ⟨file', success, validated, hends, hend⟩ :=
        reconcileBody_ends svc call.outcomes action domain user file
      refine ⟨file', success, validated, hends, ?_⟩
      rw [hrec]
      unfold Effect.catching
      simp only
      rcases hrun : (reconcileBody svc call.outcomes action domain user).run (.start file) with ⟨err | a, t⟩
      · rw [hrun] at hend
        obtain rfl : false = success := hend.1
        exact onError_ending hend
      · rw [hrun] at hend
        exact hend
    · cases h

/-! ## Calls one after another -/

section

structure LastCall where
  (success healthy : Bool)
  deriving DecidableEq

structure History where
  file : DomainsFile
  last : String → Option LastCall

def History.step (svc : Service) (h : History) (call : ReconcileCall) : History :=
  let (result, s) := (reconcile svc call).run (.start h.file)
  let last := match s.invoked with
    | none => h.last
    | some domain => fun d => if d = domain then some ⟨result.isOk, s.validated = some true⟩ else h.last d
  ⟨s.file, last⟩

def history (svc : Service) (file : DomainsFile) (calls : List ReconcileCall) : History :=
  calls.foldl (History.step svc) ⟨file, fun _ => none⟩

/-- A managed domain ended its last call healthy; that of a pending one has not returned. -/
def Fine (h : History) : Prop :=
  ∀ domain e, h.last domain = some e →
    (h.file.mode domain = some .managed → e.healthy) ∧ (e.success = false → h.file.mode domain = some .pending)

/-- The call writes its record, or finds its domain stored as pending. -/
def Sound (svc : Service) (file : DomainsFile) (call : ReconcileCall) : Prop :=
  ∀ domain user, target svc call = some (domain, user) →
    (¬ Enters call.outcomes file → file.mode domain = some .pending) ∧
      (Enters call.outcomes file → Verifies svc call.outcomes → call.outcomes.managedFails = none →
        call.outcomes.auditFails 0 = none)

variable {h : History} {call : ReconcileCall}

theorem fine_of_ending {success} (hfine : Fine h)
    (hend : Ending domain ((reconcile svc call).run (.start h.file)) file success validated)
    (other : ∀ d ≠ domain, file.mode d = h.file.mode d) :
    Fine (h.step svc call) ↔ (file.mode domain = some .managed → validated = some true) ∧
        (success = false → file.mode domain = some .pending) := by
  obtain ⟨hok, rfl, hinv, rfl⟩ := hend
  unfold History.step
  simp only [hinv]
  constructor
  · intro hstep
    obtain ⟨hman, pending⟩ := hstep domain _ (if_pos rfl)
    exact ⟨fun hmode => of_decide_eq_true (hman hmode), fun hfail => pending (hok.trans hfail)⟩
  · rintro ⟨hman, pending⟩ d e hlast
    by_cases hd : d = domain
    · subst hd
      obtain rfl := Option.some.inj ((if_pos rfl).symm.trans hlast)
      exact ⟨fun hmode => decide_eq_true (hman hmode), fun hfail => pending (hok.symm.trans hfail)⟩
    · have hold := hfine d e ((if_neg hd).symm.trans hlast)
      simp only
      rw [other d hd]
      exact hold

theorem fine_step_iff (hfine : Fine h) : Fine (h.step svc call) ↔ Sound svc h.file call := by
  cases htgt : target svc call with
  | none =>
    have hrun := run_reconcile_of_no_target htgt h.file
    have hsame : h.step svc call = h := by
      unfold History.step
      simp only [hrun]
      rfl
    rw [hsame]
    refine iff_of_true hfine fun domain user hsome => ?_
    cases htgt.symm.trans hsome
  | some t =>
    obtain ⟨domain, user⟩ := t
    have hsound : Sound svc h.file call ↔ (¬ Enters call.outcomes h.file → h.file.mode domain = some .pending) ∧
          (Enters call.outcomes h.file → Verifies svc call.outcomes → call.outcomes.managedFails = none →
            call.outcomes.auditFails 0 = none) := by
      unfold Sound
      rw [htgt]
      exact ⟨fun hall => hall domain user rfl, fun hone d u hsome => by cases hsome; exact hone⟩
    obtain ⟨file, success, validated, hends, hend⟩ := reconcile_ends htgt h.file
    rw [hsound]
    cases hends with
    | left hleft =>
      rw [fine_of_ending hfine hend fun _ _ => rfl]
      constructor
      · exact fun hstep => ⟨fun _ => hstep.2 rfl, fun enters => absurd enters hleft⟩
      · intro hcond
        rw [hcond.1 hleft]
        exact ⟨fun hmode => (by cases hmode), fun _ => rfl⟩
    | @unverified domains _ enters hread hnot hval =>
      rw [fine_of_ending hfine hend fun d hd => mode_upsert_ne hread hd]
      have hmode := mode_upsert_self domains (recordOf domain user .pending)
      refine iff_of_true ⟨fun hman => ?_, fun _ => hmode⟩ ⟨fun hno => absurd enters hno, fun _ hv => absurd hv hnot⟩
      cases hmode.symm.trans hman
    | @unmanaged domains enters hread hver hman =>
      rw [fine_of_ending hfine hend fun d hd => mode_upsert_ne hread hd]
      have hmode := mode_upsert_self domains (recordOf domain user .pending)
      exact iff_of_true ⟨fun _ => rfl, fun _ => hmode⟩
        ⟨fun hno => absurd enters hno, fun _ _ hnone => absurd hnone hman⟩
    | @managed domains _ enters hread hver hman hsucc =>
      have hmode := mode_upsert_self (sortByName (upsert domains (recordOf domain user .pending)))
        (recordOf domain user .managed)
      rw [fine_of_ending hfine hend fun d hd => (mode_upsert_ne read_upsert hd).trans (mode_upsert_ne hread hd)]
      constructor
      · rintro ⟨-, hfail⟩
        refine ⟨fun hno => absurd enters hno, fun _ _ _ => hsucc.mp ?_⟩
        by_contra hnot
        cases hmode.symm.trans (hfail (eq_false_of_ne_true hnot))
      · rintro ⟨-, audit⟩
        have hdone := hsucc.mpr (audit enters hver hman)
        exact ⟨fun _ => rfl, fun hfail => absurd (hdone.symm.trans hfail) (by decide)⟩

/-- **The stored modes are right after every call exactly if every call is sound where it is made**: its pending record
is written, or its domain was stored as pending before. -/
theorem managed_means_verified_iff (svc : Service) (file : DomainsFile) (calls : List ReconcileCall) :
    (∀ done, done <+: calls → Fine (history svc file done)) ↔
      ∀ done call, done ++ [call] <+: calls → Sound svc (history svc file done).file call := by
  refine always_iff (fun h call hfine => fine_step_iff hfine) (fun domain e hlast => ?_) calls
  cases hlast

end

def Sample.service : Service := ⟨true, 3, id, id⟩

def Sample.call (orchestrate : Except DomainError (List String)) : ReconcileCall where
  name := "example.com"
  hestiaUser := "admin"
  migrate := true
  outcomes := ⟨orchestrate, fun _ => .ok ⟨true, [⟨"mx", true⟩]⟩, fun _ => none, none, none, fun _ => none⟩

/-- The orchestrator fails on a domain that was stored as managed, and stays so. -/
theorem managed_after_failed_call :
    let h := history Sample.service .missing
      [Sample.call (.ok ["hestia:mail"]), Sample.call (.error (.other "Domains helper timed out during migrate"))]
    h.last "example.com" = some ⟨false, false⟩ ∧ h.file.mode "example.com" = some .managed ∧ ¬ Fine h := by
  intro h
  have hlast : h.last "example.com" = some ⟨false, false⟩ := by decide
  have hmode : h.file.mode "example.com" = some .managed := by decide
  exact ⟨hlast, hmode, fun hfine => Bool.noConfusion ((hfine "example.com" _ hlast).1 hmode)⟩

end Nexus.DomainService
