import Nexus.Domains.Validate
import Nexus.Lib.Effect

/-!
# Onboarding of a domain

`onboard_domain` of `server/src/api/nexus/domains.rs`. A call that must not replace an existing configuration stops if
the validation asks for a decision. For an adopted domain it asks only if the records have changed
(`onboardDomain_keeps_adopted_iff`).
-/

namespace Nexus.Domains

open Lib Lib.Effect List Value

/-! ## Names -/

def isAsciiAlphanumeric (c : Char) : Bool := c.isAlphanum

def isLabel (label : String) : Bool :=
  label.toList.head?.any isAsciiAlphanumeric && label.toList.getLast?.any isAsciiAlphanumeric
    && label.toList.all fun c => isAsciiAlphanumeric c || c = '-'

def validateDomainName (domain : String) : Except String Unit :=
  if domain.utf8ByteSize > 253 ∨ !Text.contains domain "." then .error "invalid domain"
  else
    let labels := Text.split '.' domain
    if labels.any fun label => label = "" || label.utf8ByteSize > 63 || !isLabel label then .error "invalid domain"
    else match labels.getLast? with
      | none => .error "invalid domain"
      | some tld =>
        if tld.utf8ByteSize < 2 ∨ !tld.toList.all Char.isLower then .error "invalid domain" else .ok ()

def normalizeDomain (input : String) : Except String String := do
  let domain := Text.toAsciiLowercase (Text.trimEndBy (· = '.') (Text.trim input))
  validateDomainName domain
  return domain

def validateHestiaUser (user : String) : Except String Unit :=
  if user = "" ∨ user.utf8ByteSize > 64 then .error "invalid Hestia user"
  else if !user.toList.head?.any isAsciiAlphanumeric
      || !user.toList.all fun c => isAsciiAlphanumeric c || c = '.' || c = '_' || c = '-' then
    .error "invalid Hestia user"
  else .ok ()

/-! ## The inventory -/

inductive InventoryFile
  | missing
  | unreadable (err : String)
  | parsed (inventory : Value)

def defaultEntry (name : String) (mail webmail ddns tunnel : Bool) : Value :=
  .object [("name", .string name), ("mail", .bool mail), ("webmail", .bool webmail), ("ddns", .bool ddns),
    ("tunnel", .bool tunnel)]

def defaultInventory : Value :=
  .object [("version", .number (.unsigned 1)),
    ("defaults", .object [("hestia_host", .string "192.168.0.29"), ("hestia_user", .string "admin"),
      ("relay_hostname", .string "smtp.dreamteclabs.com"), ("relay_ipv4", .string "23.254.215.34"),
      ("webmail_origin_http", .string "http://192.168.0.29:80"),
      ("webmail_origin_https", .string "https://192.168.0.29:443"), ("webmail_no_tls_verify", .bool true),
      ("dmarc_policy", .string "p=none")]),
    ("domains", .array [defaultEntry "dreamteclabs.com" true true true true,
      defaultEntry "kinpilot.app" true true true true, defaultEntry "savipilot.com" true true true true,
      defaultEntry "domuspilot.com" true true true true, defaultEntry "mundoleo.co" true true true true,
      defaultEntry "dreamtec.com.br" true true true false, defaultEntry "claudiokaist.com" false false true false]),
    ("policy", .object [("mail_hostnames_dns_only", .bool true), ("smtp_hostnames_dns_only", .bool true),
      ("webmail_hostnames_tunnel_managed", .bool true), ("forbid_webmail_ddns", .bool true),
      ("forbid_mail_proxy", .bool true)])]

def readInventory : InventoryFile → Except String Value
  | .missing => .ok defaultInventory
  | .unreadable err => .error err
  | .parsed inventory => .ok inventory

def isNamed (domain : String) (entry : Value) : Bool := (entry.get "name").bind Value.asStr = some domain

def domainsOf (inventory : Value) : Option (List Value) := (inventory.get "domains").bind Value.asArray

def findDomainEntry (inventory : Value) (domain : String) : Option Value :=
  (domainsOf inventory).bind (List.find? (isNamed domain))

def updateFirst (domain : String) (f : Value → Value) : List Value → List Value
  | [] => []
  | entry :: entries => if isNamed domain entry then f entry :: entries else entry :: updateFirst domain f entries

def missingDomains : String := "domains-hosting inventory is missing a domains array"

def markNexus (entry : Value) : Value :=
  (((((entry.set "mail" (.bool true)).set "webmail" (.bool true)).set "ddns" (.bool true)).set
    "tunnel" (.bool true)).set
    "configuration_mode" (.string "nexus")).remove "adopted_checks"

def newEntry (domain : String) (managed : Bool) (mode : String) : Value :=
  .object [("name", .string domain), ("mail", .bool managed), ("webmail", .bool managed), ("ddns", .bool managed),
    ("tunnel", .bool managed), ("configuration_mode", .string mode)]

def upsertMailDomain (inventory : Value) (domain : String) : Except String (Bool × Value) :=
  match domainsOf inventory with
  | none => .error missingDomains
  | some domains =>
    if domains.any (isNamed domain) then
      .ok (false, inventory.update "domains" (·.mapItems (updateFirst domain markNexus)))
    else .ok (true, inventory.update "domains" (·.mapItems (· ++ [newEntry domain true "nexus"])))

/-! ## The call -/

inductive HelperAction
  | migrate
  | onboard
  deriving DecidableEq

def HelperAction.asStr : HelperAction → String
  | .migrate => "migrate"
  | .onboard => "onboard"

structure HelperRun where
  action : HelperAction
  (domain user : String)
  deriving DecidableEq

inductive HelperOutcome
  | timedOut
  | exited (code : Option Int) (stdout stderr : String)

structure AuditLine where
  (action domain outcome : String)

structure CallState where
  file : InventoryFile
  runs : List HelperRun
  audit : List AuditLine

/-- What a call gets from outside. -/
structure Surroundings where
  (preflight postflight : Network)
  helper : String
  helperExists : Bool
  attempt : Nat → Option HelperOutcome
  parseJson : String → Option Value
  auditFails : Nat → Option String
  (lockFails writeFails : Option String)

abbrev Call := Effect CallState String

variable (w : Surroundings)

def appendAudit (action domain outcome : String) : Call Unit := do
  match w.auditFails (← Effect.read (·.audit.length)) with
  | some err => Effect.fail err
  | none => Effect.modify fun s => { s with audit := s.audit ++ [⟨action, domain, outcome⟩] }

def lockInventory : Call Value := do
  match w.lockFails with
  | some err => Effect.fail err
  | none => Effect.ofExcept (readInventory (← Effect.read (·.file)))

def writeInventory (inventory : Value) : Call Unit :=
  match w.writeFails with
  | some err => Effect.fail err
  | none => Effect.modify fun s => { s with file := .parsed inventory }

def persistMailDomain (domain : String) : Call Unit := do
  let inventory ← lockInventory w
  let (_, inventory) ← Effect.ofExcept (upsertMailDomain inventory domain)
  writeInventory w inventory

def persistDiscoveredDomain (domain : String) : Call Unit := do
  let inventory ← lockInventory w
  if (findDomainEntry inventory domain).isSome then pure ()
  else match domainsOf inventory with
    | none => Effect.fail missingDomains
    | some _ =>
      writeInventory w (inventory.update "domains" (·.mapItems (· ++ [newEntry domain false "discovered"])))

def validateDomainInner (net : Network) (domain : String) : Call Value := do
  let inventory ← Effect.ofExcept (readInventory (← Effect.read (·.file)))
  return validateWithEntry net domain (findDomainEntry inventory domain)

def helperReconcileAttempts : Nat := 3

def helperExitCodeIsRetryable (code : Option Int) : Bool :=
  !(code = some 3 || code = some 5 || code = some 42 || code = some 43)

def helperFailureDetail (stdout stderr : String) (code : Option Int) : String :=
  if Text.trim stderr ≠ "" then Text.trim stderr
  else if Text.trim stdout ≠ "" then Text.trim stdout
  else match code with
    | some code => "helper exited with code " ++ toString code ++ " without diagnostic output"
    | none => "helper terminated without diagnostic output"

def attemptOf (remaining : Nat) : String :=
  toString (helperReconcileAttempts - remaining) ++ "/" ++ toString helperReconcileAttempts

variable (action : HelperAction) (domain : String)

def giveUp (domain failure : String) : Call Value := do
  appendAudit w action.asStr domain ("failed: " ++ failure)
  Effect.fail ("domain onboarding failed: " ++ failure)

def started (domain user : String) : Call Unit :=
  Effect.modify fun s => { s with runs := s.runs ++ [⟨action, domain, user⟩] }

def concludeAttempt (retry : String → Call Value) (remaining : Nat) : HelperOutcome → Call Value
  | .timedOut =>
    let failure := "helper timed out on attempt " ++ attemptOf remaining
    if 0 < remaining then retry failure else giveUp w action domain failure
  | .exited code stdout stderr =>
    if code = some 0 then
      match w.parseJson (Text.trim stdout) with
      | none => Effect.fail ("domains helper returned invalid JSON: " ++ Text.trim stdout)
      | some result => do
        if remaining + 1 < helperReconcileAttempts then
          appendAudit w "onboard-retry" domain ("recovered on attempt " ++ attemptOf remaining)
        return result
    else
      let failure := helperFailureDetail stdout stderr code
      if helperExitCodeIsRetryable code ∧ 0 < remaining then do
        appendAudit w "onboard-retry" domain ("attempt " ++ attemptOf remaining ++ " failed; retrying: " ++ failure)
        retry failure
      else giveUp w action domain failure

def runHelper (action : HelperAction) (domain user : String) (lastFailure : String) : Nat → Call Value
  | 0 =>
    Effect.fail ("domain onboarding failed after " ++ toString helperReconcileAttempts ++ " attempts: " ++ lastFailure)
  | remaining + 1 =>
    match w.attempt (helperReconcileAttempts - remaining) with
    | none => Effect.fail "failed to start domains onboarding helper"
    | some outcome => do
      started action domain user
      concludeAttempt w action domain (fun failure => runHelper action domain user failure remaining) remaining outcome

def completeDomain (result : Value) : Call Value := do
  Effect.catching (persistMailDomain w domain) fun err => do
    appendAudit w action.asStr domain ("providers completed; inventory persistence failed: " ++ err)
    Effect.fail err
  let validation ← validateDomainInner w.postflight domain
  appendAudit w action.asStr domain "completed"
  return .object [("domain", .string domain), ("result", result), ("validation", validation)]

def reconcileDomain (domain user : String) : Call Value :=
  if !w.helperExists then Effect.fail ("domains helper is not installed at " ++ w.helper)
  else do
    let result ← runHelper w action domain user "" helperReconcileAttempts
    completeDomain w action domain result

def askDecision (preflight : Value) : Call Value := do
  persistDiscoveredDomain w domain
  appendAudit w "discover-existing" domain "decision-required"
  return .object [("domain", .string domain), ("decision_required", .bool true), ("validation", preflight)]

def onboardDomain (hestiaUser : Option String) (replaceExisting : Option Bool) : Call Value := do
  let domain ← Effect.ofExcept (normalizeDomain domain)
  let user := hestiaUser.getD "admin"
  Effect.ofExcept (validateHestiaUser user)
  if replaceExisting.getD false then reconcileDomain w .migrate domain user
  else
    let preflight ← validateDomainInner w.preflight domain
    if flag preflight "decision_required" then askDecision w domain preflight
    else reconcileDomain w .onboard domain user

/-! ## Entries of the inventory -/

section

variable {domain} {d : String} {inventory entry : Value}

theorem name_markNexus (entry) : (markNexus entry).get "name" = entry.get "name" := by
  unfold markNexus
  rw [get_remove_ne (by decide), get_set_ne (by decide), get_set_ne (by decide),
    get_set_ne (by decide), get_set_ne (by decide), get_set_ne (by decide)]

theorem isNamed_ne (hd : d ≠ domain) (h : isNamed domain entry) : isNamed d entry = false := by
  simp only [isNamed, decide_eq_true_eq, decide_eq_false_iff_not] at h ⊢
  rw [h]
  exact fun hsome => hd (Option.some.inj hsome).symm

theorem find?_updateFirst (hd : d ≠ domain) : ∀ entries,
    (updateFirst domain markNexus entries).find? (isNamed d) = entries.find? (isNamed d)
  | [] => rfl
  | entry :: entries => by
    unfold updateFirst
    split
    · next hnamed =>
      have other := isNamed_ne hd hnamed
      have hmark : isNamed d (markNexus entry) = false := by
        unfold isNamed at other ⊢
        rw [name_markNexus]
        exact other
      rw [find?_cons_of_neg (by simp [hmark]), find?_cons_of_neg (by simp [other])]
    · rw [find?_cons, find?_cons, find?_updateFirst hd entries]

theorem find?_append_newEntry (hd : d ≠ domain) (managed : Bool) (mode) (entries) :
    (entries ++ [newEntry domain managed mode]).find? (isNamed d) = entries.find? (isNamed d) := by
  have other : isNamed d (newEntry domain managed mode) = false := by
    simp only [isNamed, decide_eq_false_iff_not]
    exact fun hsome => hd (Option.some.inj hsome).symm
  rw [find?_append, find?_cons_of_neg (by simp [other]), find?_nil, Option.or_none]

theorem findDomainEntry_update {f} (hf : ∀ entries, (f entries).find? (isNamed d) = entries.find? (isNamed d)) :
    findDomainEntry (inventory.update "domains" (·.mapItems f)) d = findDomainEntry inventory d := by
  unfold findDomainEntry domainsOf
  rw [get_update_self]
  cases inventory.get "domains" with
  | none => rfl
  | some domains =>
    cases domains with
    | array entries => exact hf entries
    | _ => rfl

end

/-! ## What a call can do -/

/-- The inventory has the entry. -/
def HasEntry (file : InventoryFile) (domain : String) (entry : Value) : Prop :=
  ∃ inventory, readInventory file = .ok inventory ∧ findDomainEntry inventory domain = some entry

/-- Helpers are only started for the domain, and entries of others stay. -/
structure Advances (domain : String) (s t : CallState) : Prop where
  grows : s.runs ⊆ t.runs
  runs : ∀ run ∈ t.runs, run ∈ s.runs ∨ run.domain = domain
  entries : ∀ d ≠ domain, ∀ entry, HasEntry s.file d entry → HasEntry t.file d entry

variable {w domain} {s : CallState}

theorem Advances.refl (domain) (s) : Advances domain s s :=
  ⟨List.Subset.refl _, fun _ => .inl, fun _ _ _ h => h⟩

theorem Advances.trans (domain) (s) (t) (u) (hst : Advances domain s t) (htu : Advances domain t u) :
    Advances domain s u where
  grows := List.Subset.trans hst.grows htu.grows
  runs run hrun := (htu.runs run hrun).elim (hst.runs run) .inr
  entries d hd entry h := htu.entries d hd entry (hst.entries d hd entry h)

theorem within_appendAudit (action) (d) (outcome) :
    Effect.Within (Advances domain) (appendAudit w action d outcome) := by
  intro s
  unfold appendAudit
  rw [run_read_bind]
  cases w.auditFails s.audit.length with
  | some => exact Advances.refl domain s
  | none => exact ⟨List.Subset.refl _, fun _ => .inl, fun _ _ _ h => h⟩

theorem lockInventory_cases (s) : (∃ err, (lockInventory w).run s = (.error err, s)) ∨
      ∃ inventory, readInventory s.file = .ok inventory ∧ (lockInventory w).run s = (.ok inventory, s) := by
  unfold lockInventory
  cases w.lockFails with
  | some err => exact .inl ⟨err, rfl⟩
  | none =>
    simp only [run_read_bind, run_ofExcept]
    cases readInventory s.file with
    | error err => exact .inl ⟨err, rfl⟩
    | ok inventory => exact .inr ⟨inventory, rfl, rfl⟩

theorem lockInventory_keeps {α : Type} {k : Value → Call α} {P : CallState → Prop} (hsame : P s)
    (h : ∀ inventory, readInventory s.file = .ok inventory → P ((k inventory).run s).2) :
    P ((lockInventory w >>= k).run s).2 := by
  rcases lockInventory_cases (w := w) s with ⟨err, hlock⟩ | ⟨inventory, hread, hlock⟩
  · rw [run_bind_of_error hlock]
    exact hsame
  · rw [run_bind_of_ok hlock]
    exact h inventory hread

theorem advances_writeInventory {inventory updated} (hread : readInventory s.file = .ok inventory)
    (hsame : ∀ d ≠ domain, findDomainEntry updated d = findDomainEntry inventory d) :
    Advances domain s ((writeInventory w updated).run s).2 := by
  unfold writeInventory
  cases w.writeFails with
  | some => exact Advances.refl domain s
  | none =>
    refine ⟨List.Subset.refl _, fun _ => .inl, ?_⟩
    rintro d hd entry ⟨inventory', hread', hfind⟩
    cases hread.symm.trans hread'
    exact ⟨updated, rfl, (hsame d hd).trans hfind⟩

theorem within_persistMailDomain : Effect.Within (Advances domain) (persistMailDomain w domain) := by
  intro s
  refine lockInventory_keeps (Advances.refl domain s) fun inventory hread => ?_
  cases upsert : upsertMailDomain inventory domain with
  | error => exact Advances.refl domain s
  | ok =>
    refine advances_writeInventory hread fun d hd => ?_
    unfold upsertMailDomain at upsert
    split at upsert
    · cases upsert
    · split at upsert
      · cases upsert
        exact findDomainEntry_update (find?_updateFirst hd)
      · cases upsert
        exact findDomainEntry_update (find?_append_newEntry hd true "nexus")

theorem within_persistDiscoveredDomain : Effect.Within (Advances domain) (persistDiscoveredDomain w domain) := by
  intro s
  refine lockInventory_keeps (Advances.refl domain s) fun inventory hread => ?_
  split
  · exact Advances.refl domain s
  · split
    · exact Advances.refl domain s
    · exact advances_writeInventory hread fun d hd =>
        findDomainEntry_update (find?_append_newEntry hd false "discovered")

theorem within_validateDomainInner (net) (d) : Effect.Within (Advances domain) (validateDomainInner net d) := by
  refine Effect.Within.bind (Advances.trans domain) (Effect.Within.read (Advances.refl domain) _) fun file => ?_
  refine Effect.Within.bind (Advances.trans domain)
    (Effect.Within.ofExcept (Advances.refl domain) _) fun inventory => ?_
  exact Effect.Within.pure (Advances.refl domain) _

variable (action : HelperAction)

theorem within_started (domain) (user) : Effect.Within (Advances domain) (started action domain user) := by
  intro s
  refine ⟨subset_append_left _ _, fun run hrun => ?_, fun _ _ _ h => h⟩
  rcases mem_append.mp hrun with hold | hnew
  · exact .inl hold
  · exact .inr (by rw [mem_singleton.mp hnew])

theorem within_giveUp (d) (failure) : Effect.Within (Advances domain) (giveUp w action d failure) :=
  Effect.Within.bind (Advances.trans domain) (within_appendAudit _ _ _) fun _ =>
    Effect.Within.fail (Advances.refl domain) _

theorem within_concludeAttempt {retry} (remaining : Nat)
    (outcome) (hretry : ∀ failure, Effect.Within (Advances domain) (retry failure)) :
    Effect.Within (Advances domain) (concludeAttempt w action domain retry remaining outcome) := by
  have audit : ∀ {m : Call Value} {action d text : String}, Effect.Within (Advances domain) m →
      Effect.Within (Advances domain) (appendAudit w action d text >>= fun _ => m) := fun hm =>
    Effect.Within.bind (Advances.trans domain) (within_appendAudit _ _ _) fun _ => hm
  cases outcome with
  | timedOut => exact Effect.Within.ite (hretry _) (within_giveUp action domain _)
  | exited =>
    refine Effect.Within.ite ?_ (Effect.Within.ite (audit (hretry _)) (within_giveUp action domain _))
    split
    · exact Effect.Within.fail (Advances.refl domain) _
    · exact Effect.Within.ite (audit (Effect.Within.pure (Advances.refl domain) _))
        (Effect.Within.pure (Advances.refl domain) _)

theorem within_runHelper (action) (user) : ∀ remaining lastFailure,
    Effect.Within (Advances domain) (runHelper w action domain user lastFailure remaining)
  | 0, _ => Effect.Within.fail (Advances.refl domain) _
  | remaining + 1, _ => by
    unfold runHelper
    split
    · exact Effect.Within.fail (Advances.refl domain) _
    · refine Effect.Within.bind (Advances.trans domain) (within_started action domain user) fun _ => ?_
      exact within_concludeAttempt action remaining _ fun failure => within_runHelper action user remaining failure

theorem within_completeDomain (result) : Effect.Within (Advances domain) (completeDomain w action domain result) := by
  refine Effect.Within.bind (Advances.trans domain) ?_ fun _ => ?_
  · refine Effect.Within.catching (Advances.trans domain) within_persistMailDomain fun err => ?_
    exact Effect.Within.bind (Advances.trans domain) (within_appendAudit _ _ _) fun _ =>
      Effect.Within.fail (Advances.refl domain) _
  · refine Effect.Within.bind (Advances.trans domain) (within_validateDomainInner w.postflight domain) fun _ => ?_
    exact Effect.Within.bind (Advances.trans domain) (within_appendAudit _ _ _) fun _ =>
      Effect.Within.pure (Advances.refl domain) _

theorem within_reconcileDomain (user) : Effect.Within (Advances domain) (reconcileDomain w action domain user) := by
  refine Effect.Within.ite (Effect.Within.fail (Advances.refl domain) _) ?_
  exact Effect.Within.bind (Advances.trans domain) (within_runHelper action user _ _) (within_completeDomain action)

theorem mem_runs_reconcileDomain (action) (domain) (user) (helper : w.helperExists) (hsta : w.attempt 1 ≠ none) (s) :
    ⟨action, domain, user⟩ ∈ ((reconcileDomain w action domain user).run s).2.runs := by
  have hkeeps : ∀ {α : Type} {m : Call α}, Effect.Within (Advances domain) m → ∀ t,
      ⟨action, domain, user⟩ ∈ t.runs → ⟨action, domain, user⟩ ∈ (m.run t).2.runs := fun hm t ht => (hm t).grows ht
  unfold reconcileDomain
  rw [helper]
  refine bind_keeps (P := fun t => ⟨action, domain, user⟩ ∈ t.runs) ?_ fun result t =>
    hkeeps (within_completeDomain action result) t
  unfold helperReconcileAttempts runHelper
  split
  · next hnone => exact absurd hnone hsta
  · next outcome _ =>
    refine bind_keeps (P := fun t => ⟨action, domain, user⟩ ∈ t.runs) ?_ fun _ t => hkeeps ?_ t
    · exact mem_append_right _ (mem_singleton.mpr rfl)
    · exact within_concludeAttempt action 2 outcome fun failure => within_runHelper action user 2 failure

theorem within_askDecision (preflight) : Effect.Within (Advances domain) (askDecision w domain preflight) :=
  Effect.Within.bind (Advances.trans domain) within_persistDiscoveredDomain fun _ =>
    Effect.Within.bind (Advances.trans domain) (within_appendAudit _ _ _) fun _ =>
      Effect.Within.pure (Advances.refl domain) _

theorem run_askDecision {entry : Value} (preflight) (hent : HasEntry s.file domain entry) :
    ((askDecision w domain preflight).run s).2.file = s.file ∧
      ((askDecision w domain preflight).run s).2.runs = s.runs := by
  obtain ⟨inventory, hread, hfind⟩ := hent
  have hpers : ((persistDiscoveredDomain w domain).run s).2 = s := by
    refine lockInventory_keeps (P := (· = s)) rfl fun inventory' hread' => ?_
    cases hread.symm.trans hread'
    rw [hfind]
    rfl
  refine bind_keeps (P := fun t : CallState => t.file = s.file ∧ t.runs = s.runs)
    (by rw [hpers]; exact ⟨rfl, rfl⟩) ?_
  rintro - t ⟨hfile, hruns⟩
  refine bind_keeps (P := fun t : CallState => t.file = s.file ∧ t.runs = s.runs) ?_ fun _ _ h => h
  unfold appendAudit
  rw [run_read_bind]
  cases w.auditFails t.audit.length <;> exact ⟨hfile, hruns⟩

theorem advances_onboardDomain (input) (user) (replaceExisting) (s) :
    ((onboardDomain w input user replaceExisting).run s).2 = s ∨ ∃ domain, normalizeDomain input = .ok domain ∧
        Advances domain s ((onboardDomain w input user replaceExisting).run s).2 := by
  unfold onboardDomain
  cases normalizeDomain input with
  | error => exact .inl rfl
  | ok domain =>
    refine .inr ⟨domain, rfl, ?_⟩
    rw [run_ofExcept_ok_bind]
    refine Effect.Within.bind (Advances.trans domain) (Effect.Within.ofExcept (Advances.refl domain) _) (fun _ => ?_) s
    refine Effect.Within.ite (within_reconcileDomain .migrate _) ?_
    refine Effect.Within.bind (Advances.trans domain) (within_validateDomainInner _ _) fun preflight => ?_
    exact Effect.Within.ite (within_askDecision preflight) (within_reconcileDomain .onboard _)

/-! ## Adopted configurations -/

section

variable {input domain : String} {user : Option String} {replaceExisting : Option Bool} {entry : Value}

/-- The domain is there as one that existed before. -/
def Adopted (file : InventoryFile) (domain : String) (entry : Value) : Prop :=
  HasEntry file domain entry ∧ configurationMode entry = some "existing"

theorem run_onboardDomain_adopted (replace : replaceExisting ≠ some true) (hname : normalizeDomain input = .ok domain)
    (huser : validateHestiaUser (user.getD "admin") = .ok ()) (adopted : Adopted s.file domain entry) :
    (onboardDomain w input user replaceExisting).run s =
      if Unchanged w.preflight domain entry then (reconcileDomain w .onboard domain (user.getD "admin")).run s
      else (askDecision w domain (applyExistingPolicy (validateDomainRaw w.preflight domain) entry)).run s := by
  obtain ⟨⟨inventory, hread, hfind⟩, hmode⟩ := adopted
  have hno : replaceExisting.getD false = false := by
    cases replaceExisting with
    | none => rfl
    | some b => cases b with
      | false => rfl
      | true => exact absurd rfl replace
  have hpref : (validateDomainInner w.preflight domain).run s =
      (.ok (applyExistingPolicy (validateDomainRaw w.preflight domain) entry), s) := by
    unfold validateDomainInner
    rw [run_read_bind, hread, run_ofExcept_ok_bind, hfind, validateWithEntry, if_pos hmode]
    rfl
  unfold onboardDomain
  rw [hname, run_ofExcept_ok_bind]
  simp only [huser, run_ofExcept_ok_bind, hno, Bool.false_eq_true, if_false]
  rw [run_bind_of_ok hpref, decisionRequired_applyExistingPolicy]
  by_cases hsame : Unchanged w.preflight domain entry
  · simp [hsame]
  · simp [hsame]

/-- **A call that is not to replace an existing configuration leaves the adopted ones alone exactly if it does not name
a domain whose records are still as they were adopted**, or fails before it starts the helper. -/
theorem onboardDomain_keeps_adopted_iff (w : Surroundings) (file : InventoryFile) (input : String)
    (user : Option String)
    (replaceExisting : Option Bool) (hreplace : replaceExisting ≠ some true) :
    (∀ domain entry, Adopted file domain entry →
      (∀ run ∈ ((onboardDomain w input user replaceExisting).run ⟨file, [], []⟩).2.runs, run.domain ≠ domain) ∧
        HasEntry ((onboardDomain w input user replaceExisting).run ⟨file, [], []⟩).2.file domain entry) ↔
    ∀ domain entry, Adopted file domain entry → normalizeDomain input = .ok domain →
      validateHestiaUser (user.getD "admin") = .ok () → Unchanged w.preflight domain entry →
      w.helperExists → w.attempt 1 = none := by
  constructor
  · intro h domain entry adopted hname huser hsame helper
    by_contra hsta
    have hrun := mem_runs_reconcileDomain .onboard domain (user.getD "admin") helper hsta ⟨file, [], []⟩
    have heq := run_onboardDomain_adopted (w := w) (s := ⟨file, [], []⟩) hreplace hname huser adopted
    rw [if_pos hsame] at heq
    rw [← heq] at hrun
    exact (h domain entry adopted).1 _ hrun rfl
  · intro h domain entry adopted
    rcases advances_onboardDomain (w := w) input user replaceExisting ⟨file, [], []⟩ with hkept | ⟨named, hname, hadv⟩
    · rw [hkept]
      exact ⟨fun _ hrun => absurd hrun not_mem_nil, adopted.1⟩
    by_cases hoth : domain = named
    · subst hoth
      -- the named domain itself: nothing is started, and nothing is written
      suffices hquiet : ((onboardDomain w input user replaceExisting).run ⟨file, [], []⟩).2.file = file ∧
          ((onboardDomain w input user replaceExisting).run ⟨file, [], []⟩).2.runs = [] by
        rw [hquiet.1, hquiet.2]
        exact ⟨fun _ hrun => absurd hrun not_mem_nil, adopted.1⟩
      cases huser : validateHestiaUser (user.getD "admin") with
      | error err =>
        unfold onboardDomain
        rw [hname, run_ofExcept_ok_bind]
        simp [huser, run_ofExcept_error_bind]
      | ok _ =>
        rw [run_onboardDomain_adopted (w := w) (s := ⟨file, [], []⟩) hreplace hname huser adopted]
        split
        · next hsame =>
          have hnone := h domain entry adopted hname huser hsame
          unfold reconcileDomain
          cases helper : w.helperExists with
          | false => exact ⟨rfl, rfl⟩
          | true =>
            have hfails : runHelper w .onboard domain (user.getD "admin") "" helperReconcileAttempts =
                Effect.fail "failed to start domains onboarding helper" := by
              unfold helperReconcileAttempts runHelper
              rw [show w.attempt (helperReconcileAttempts - 2) = none from hnone helper]
            rw [hfails]
            exact ⟨rfl, rfl⟩
        · exact run_askDecision _ adopted.1
    · refine ⟨fun run hrun => ?_, hadv.entries domain hoth entry adopted.1⟩
      rcases hadv.runs run hrun with hnil | hnamed
      · exact absurd hnil not_mem_nil
      · rw [hnamed]
        exact fun heq => hoth heq.symm

end

def Sample.entry (spf : Value) : Value :=
  ((newEntry "example.org" false "existing").set "adopted_checks" (.object
    [("mx", .null), ("spf", spf), ("dkim", .null), ("dmarc", .null), ("webmail_tunnel_dns", .null)]))

def Sample.file (spf : Value) : InventoryFile := .parsed (.object [("domains", .array [Sample.entry spf])])

def Sample.surroundings : Surroundings where
  preflight := ⟨fun type name => .ok (if type = "TXT" ∧ name = "example.org" then "\"v=spf1 -all\"" else ""),
    fun _ _ _ => .error "openssl failed: "⟩
  postflight := ⟨fun _ _ => .ok "", fun _ _ _ => .error "openssl failed: "⟩
  helper := "/usr/libexec/proxmox/nexus-domains-helper"
  helperExists := true
  attempt _ := some (.exited (some 0) "null" "")
  parseJson _ := some .null
  auditFails _ := none
  lockFails := none
  writeFails := none

theorem Sample.adopted (spf) : Adopted (Sample.file spf) "example.org" (Sample.entry spf) :=
  ⟨⟨_, rfl, rfl⟩, rfl⟩

theorem HasEntry.unique {file entry entry'} (h : HasEntry file domain entry)
    (h' : HasEntry file domain entry') : entry = entry' := by
  obtain ⟨inventory, hread, hfind⟩ := h
  obtain ⟨inventory', hread', hfind'⟩ := h'
  cases hread.symm.trans hread'
  exact Option.some.inj (hfind.symm.trans hfind')

/-- A changed record is left alone. -/
theorem onboardDomain_keeps_changed : (none : Option Bool) ≠ some true ∧
      HasEntry ((onboardDomain Sample.surroundings "example.org" none none).run
        ⟨Sample.file (.string "\"v=spf1 mx -all\""), [], []⟩).2.file "example.org"
        (Sample.entry (.string "\"v=spf1 mx -all\"")) := by
  refine ⟨nofun, ((onboardDomain_keeps_adopted_iff Sample.surroundings _ "example.org" none none nofun).mpr ?_
    "example.org" _ (Sample.adopted _)).2⟩
  intro domain entry adopted hname _ hsame
  have hnorm : normalizeDomain "example.org" = .ok "example.org" := by rfl
  cases hnorm.symm.trans hname
  obtain rfl := adopted.1.unique (Sample.adopted _).1
  exact absurd hsame (by decide)

def storedMode (file : InventoryFile) (domain : String) : Option String :=
  match readInventory file with
  | .ok inventory => (findDomainEntry inventory domain).bind configurationMode
  | .error _ => none

theorem HasEntry.storedMode {file entry} (h : HasEntry file domain entry) :
    Domains.storedMode file domain = configurationMode entry := by
  obtain ⟨inventory, hread, hfind⟩ := h
  simp [Domains.storedMode, hread, hfind]

/-- The record is as it was adopted, yet the helper is started and the domain is in mode `nexus`. -/
theorem onboardDomain_replaces_adopted : let final := ((onboardDomain Sample.surroundings "example.org" none none).run
      ⟨Sample.file (.string "\"v=spf1 -all\""), [], []⟩).2
    Adopted (Sample.file (.string "\"v=spf1 -all\"")) "example.org" (Sample.entry (.string "\"v=spf1 -all\"")) ∧
      final.runs = [⟨.onboard, "example.org", "admin"⟩] ∧ storedMode final.file "example.org" = some "nexus" ∧
      ¬ HasEntry final.file "example.org" (Sample.entry (.string "\"v=spf1 -all\"")) := by
  intro final
  have hmode : storedMode final.file "example.org" = some "nexus" := by decide
  refine ⟨Sample.adopted _, by decide, hmode, fun h => ?_⟩
  rw [h.storedMode] at hmode
  exact absurd hmode (by decide)

end Nexus.Domains
