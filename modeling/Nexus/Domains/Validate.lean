import Mathlib.Data.List.Sort
import Nexus.Lib.JsonValue
import Nexus.Lib.Text

/-!
# Validation of a domain

The checks of `server/src/api/nexus/domains.rs` on the live DNS and mail configuration of a domain. What `dig` and
`openssl` answer is arbitrary. For a domain whose configuration was adopted, the checks are held against what was
adopted: `decisionRequired_applyExistingPolicy` says that a decision is asked for exactly if a record differs from it.
-/

namespace Nexus.Domains

open Lib Option Value

/-! ## Records -/

structure Network where
  dig : String → String → Except String String
  openssl : String → Nat → Option String → Except String String

variable (v : Value) (net : Network) (result : Value)

def dig (recordType name : String) : Value :=
  match net.dig recordType name with
  | .ok output =>
    if output ≠ "" then .object [("ok", .bool true), ("value", .string output)]
    else .object [("ok", .bool false), ("value", .string ""), ("error", .string "record not found")]
  | .error err => .object [("ok", .bool false), ("value", .string ""), ("error", .string err)]

def opensslCheck (host : String) (port : Nat) (starttls : Option String) : Value :=
  let endpoint := .string (host ++ ":" ++ toString port)
  match net.openssl host port starttls with
  | .ok output => .object [("ok", .bool true), ("endpoint", endpoint), ("summary", .string output)]
  | .error err => .object [("ok", .bool false), ("endpoint", endpoint), ("error", .string err)]

def recordText (v : Value) : Option String := (v.get "value").bind Value.asStr

def flag (key : String) : Bool := ((v.get key).bind Value.asBool).getD false

def txtContains (needle : String) : Bool :=
  (recordText v).any fun text => Text.contains (Text.toAsciiLowercase text) (Text.toAsciiLowercase needle)

def hasTxtPrefix (pre line : String) : Bool :=
  Text.startsWith (Text.toAsciiLowercase (Text.trimBy (· = '"') line)) pre

def txtPrefixCount (pre : String) : Nat :=
  ((recordText v).map fun text => ((Text.lines text).filter (hasTxtPrefix (Text.toAsciiLowercase pre))).length).getD 0

def mxPointsOnlyTo (expectedHost : String) : Bool :=
  match (recordText v).map fun text => (Text.lines text).filter (Text.trim · ≠ "") with
  | some [line] => match (Text.splitWhitespace line)[1]? with
    | some target => Text.toAsciiLowercase (Text.trimEndBy (· = '.') target) = Text.toAsciiLowercase expectedHost
    | none => false
  | _ => false

def canonicalDnsLines (lines : List String) : String :=
  let lines := (lines.map Text.trim).filter (· ≠ "")
  "\n".intercalate (lines.insertionSort fun a b => Text.toAsciiLowercase a ≤ Text.toAsciiLowercase b)

def fingerprintPrefix : String → Option (Option String)
  | "spf" => some (some "v=spf1")
  | "dkim" => some (some "v=dkim1")
  | "dmarc" => some (some "v=dmarc1")
  | "mx" | "webmail_tunnel_dns" => some none
  | _ => none

def checkedText (key : String) : Option String := do
  let detail ← (← (← result.get "checks").get key).get "detail"
  recordText detail

def recordFingerprint (key : String) : Option String := do
  let text ← checkedText result key
  let pre ← fingerprintPrefix key
  let fingerprint := canonicalDnsLines ((Text.lines text).filter fun line => pre.all (hasTxtPrefix · line))
  if fingerprint = "" then none else some fingerprint

/-! ## The checks -/

def requiredCheckKeys : List String :=
  ["mail_a", "mx", "spf", "dkim", "dmarc", "smtp_submission", "imap_tls", "webmail_tunnel_dns", "webmail_tls"]

def adoptableDnsChecks : List String := ["mx", "spf", "dkim", "dmarc", "webmail_tunnel_dns"]

def adoptedDnsSnapshots (result : Value) : List (String × Value) :=
  adoptableDnsChecks.map fun key => (key, ((recordFingerprint result key).map Value.string).getD .null)

def checkOk (key : String) : Bool :=
  (((result.get "checks").bind (·.get key)).bind fun check => (check.get "ok").bind Value.asBool).getD false

def allRequiredChecksHealthy (result : Value) : Bool := requiredCheckKeys.all (checkOk result)

def webmailCnameIsNexus (cname : Value) : Bool :=
  (recordText cname).all fun text => ((Text.lines text).filter (Text.trim · ≠ "")).all fun line =>
    Text.endsWith (Text.trimEndBy (· = '.') line) ".cfargotunnel.com"

def validateDomainRaw (domain : String) : Value :=
  let mail := "mail." ++ domain
  let webmail := "webmail." ++ domain
  let mailA := dig net "A" mail
  let webmailA := dig net "A" webmail
  let webmailCname := dig net "CNAME" webmail
  let mx := dig net "MX" domain
  let spf := dig net "TXT" domain
  let dkimTxt := dig net "TXT" ("mail._domainkey." ++ domain)
  let dmarcTxt := dig net "TXT" ("_dmarc." ++ domain)
  let smtp := opensslCheck net mail 587 (some "smtp")
  let imap := opensslCheck net mail 993 none
  let webmailTls := opensslCheck net webmail 443 none
  let mxOk := mxPointsOnlyTo mx mail
  let spfCount := txtPrefixCount spf "v=spf1"
  let spfOk := spfCount == 1
  let dkimOk := txtContains dkimTxt "p="
  let dmarcOk := txtPrefixCount dmarcTxt "v=dmarc1" == 1
  let webmailOk := (flag webmailA "ok" || flag webmailCname "ok") && webmailCnameIsNexus webmailCname
  let healthy := flag mailA "ok" && webmailOk && mxOk && spfOk && dkimOk && dmarcOk && flag smtp "ok"
    && flag imap "ok" && flag webmailTls "ok"
  .object [("domain", .string domain), ("healthy", .bool healthy), ("checks", .object [("mail_a", mailA),
      ("webmail_tunnel_dns", .object [("ok", .bool webmailOk), ("detail", webmailCname), ("resolved", webmailA)]),
      ("mx", .object [("ok", .bool mxOk), ("detail", mx)]),
      ("spf", .object [("ok", .bool spfOk), ("count", .number (.unsigned (.ofNat spfCount))), ("detail", spf)]),
      ("dkim", .object [("ok", .bool dkimOk), ("detail", dkimTxt)]),
      ("dmarc", .object [("ok", .bool dmarcOk), ("detail", dmarcTxt)]), ("smtp_submission", smtp), ("imap_tls", imap),
      ("webmail_tls", webmailTls)])]

/-! ## Decisions -/

def existingConfigurationDetected (domainEntry : Option Value) : Bool :=
  let failedExistingRecord := adoptableDnsChecks.any fun key =>
    !checkOk result key && (recordFingerprint result key).isSome
  let hasExistingPolicy := adoptableDnsChecks.any fun key => (recordFingerprint result key).isSome
  let unmanagedMail := domainEntry.any fun entry =>
    (!flag entry "mail" || !flag entry "webmail") && hasExistingPolicy
  let newDomainWithExisting := domainEntry.isNone && hasExistingPolicy
  failedExistingRecord || unmanagedMail || newDomainWithExisting

def matchesAdopted (expected : Option Value) (current : Option String) : Bool :=
  match expected with
  | some (.string expected) => current = some expected
  | some .null => current.isNone
  | _ => false

def adoptedCheck (domainEntry : Value) (key : String) : Option Value :=
  (domainEntry.get "adopted_checks").bind (·.get key)

def updateCheck (key : String) (f : Value → Value) : Value :=
  result.update "checks" fun checks => checks.update key f

def applyAdopted (domainEntry : Value) (acc : Value × Bool) (key : String) : Value × Bool :=
  let matched := matchesAdopted (adoptedCheck domainEntry key) (recordFingerprint acc.1 key)
  (updateCheck acc.1 key fun check =>
    ((check.set "ok" (.bool matched)).set "adopted" (.bool true)).set "policy" (.string "existing"), acc.2 || !matched)

def applyNotApplicable (key : String) : Value :=
  if key ∈ adoptableDnsChecks then result
  else updateCheck result key fun check =>
    (((check.set "ok" (.bool true)).set "adopted" (.bool true)).set "not_applicable" (.bool true)).set
      "policy" (.string "existing")

def applyExistingPolicy (result domainEntry : Value) : Value :=
  let (result, changed) := adoptableDnsChecks.foldl (applyAdopted domainEntry) (result, false)
  let result := requiredCheckKeys.foldl applyNotApplicable result
  let result := result.set "healthy" (.bool (!changed && allRequiredChecksHealthy result))
  let result := result.set "configuration_mode" (.string "existing")
  let result := result.set "decision_required" (.bool changed)
  result.set "existing_configuration" (.object [
    ("detected", .bool true), ("changed", .bool changed), ("records", .object (adoptedDnsSnapshots result)),
    ("message", .string (if changed then
      "The adopted configuration changed. Keep the new live configuration or migrate to the Nexus standard."
    else "Existing configuration is adopted and monitored without being replaced."))])

def configurationMode (domainEntry : Value) : Option String := (domainEntry.get "configuration_mode").bind Value.asStr

def validateWithEntry (domain : String) (domainEntry : Option Value) : Value :=
  let result := validateDomainRaw net domain
  match domainEntry with
  | some entry =>
    if configurationMode entry = some "existing" then applyExistingPolicy result entry
    else decided result (existingConfigurationDetected result (some entry))
  | none => decided result (existingConfigurationDetected result none)
where
  decided (result : Value) (decisionRequired : Bool) : Value :=
    let result := result.set "configuration_mode" (.string "nexus")
    let result := result.set "decision_required" (.bool decisionRequired)
    if decisionRequired then
      result.set "existing_configuration" (.object [
        ("detected", .bool true), ("changed", .bool false), ("records", .object (adoptedDnsSnapshots result)),
        ("message", .string ("Existing DNS/mail configuration was detected. Choose whether to keep it or migrate to " ++
          "the Nexus Hestia standard."))])
    else result

/-! ## Adopted configurations -/

variable {result} {key key' : String} {f : Value → Value}

/-- The records are those that were adopted. -/
def Unchanged (net : Network) (domain : String) (domainEntry : Value) : Prop :=
  ∀ key ∈ adoptableDnsChecks,
    matchesAdopted (adoptedCheck domainEntry key) (recordFingerprint (validateDomainRaw net domain) key)

instance (net : Network) (domain : String) (domainEntry : Value) : Decidable (Unchanged net domain domainEntry) :=
  inferInstanceAs (Decidable (∀ key ∈ adoptableDnsChecks, _))

def checkOf (result : Value) (key : String) : Option Value := (result.get "checks").bind (·.get key)

theorem checkOf_updateCheck : checkOf (updateCheck result key' f) key =
    (checkOf result key).map (if key = key' then f else id) := by
  unfold checkOf updateCheck
  rw [get_update_self]
  cases result.get "checks" with
  | none => rfl
  | some =>
    simp only [map_some, bind_some]
    by_cases hkey : key = key'
    · subst hkey
      rw [get_update_self, if_pos rfl]
    · rw [get_update_ne hkey, if_neg hkey, map_id, id]

theorem checkedText_eq (result) (key) :
    checkedText result key = ((checkOf result key).bind (·.get "detail")).bind recordText := by
  simp only [checkedText, checkOf, bind_eq_bind, bind_assoc]

theorem recordFingerprint_updateCheck (hf : ∀ check, (f check).get "detail" = check.get "detail") :
    recordFingerprint (updateCheck result key' f) key = recordFingerprint result key := by
  have htext : checkedText (updateCheck result key' f) key = checkedText result key := by
    rw [checkedText_eq, checkedText_eq, checkOf_updateCheck]
    cases checkOf result key with
    | none => rfl
    | some =>
      simp only [map_some, bind_some]
      split
      · rw [hf]
      · rfl
  unfold recordFingerprint
  rw [htext]

theorem foldl_applyAdopted (domainEntry) : ∀ (keys : List String) (acc : Value × Bool),
    (keys.foldl (applyAdopted domainEntry) acc).2 = (acc.2 || keys.any fun key =>
      !matchesAdopted (adoptedCheck domainEntry key) (recordFingerprint acc.1 key))
  | [], acc => (Bool.or_false _).symm
  | key :: keys, acc => by
    rw [List.foldl_cons, foldl_applyAdopted domainEntry keys]
    have hframe : ∀ key', recordFingerprint (applyAdopted domainEntry acc key).1 key' = recordFingerprint acc.1 key' :=
      fun key' => recordFingerprint_updateCheck fun check => by
        rw [get_set_ne (by decide), get_set_ne (by decide), get_set_ne (by decide)]
    simp only [hframe, List.any_cons, ← Bool.or_assoc]
    rfl

theorem assignable_updateCheck (h : result.Assignable) : (updateCheck result key f).Assignable :=
  assignable_update h

theorem assignable_foldl_applyAdopted (domainEntry : Value) (keys : List String) (changed : Bool)
    (h : result.Assignable) : (keys.foldl (applyAdopted domainEntry) (result, changed)).1.Assignable :=
  List.foldlRecOn (motive := fun acc : Value × Bool => acc.1.Assignable) keys (applyAdopted domainEntry) h
    fun _ hacc _ _ => assignable_updateCheck hacc

theorem assignable_foldl_applyNotApplicable (keys : List String) (h : result.Assignable) :
    (keys.foldl applyNotApplicable result).Assignable := by
  refine List.foldlRecOn (motive := Value.Assignable) keys _ h fun result hres key _ => ?_
  unfold applyNotApplicable
  split
  · exact hres
  · exact assignable_updateCheck hres

theorem decisionRequired_applyExistingPolicy (net : Network) (domain : String) (domainEntry : Value) :
    flag (applyExistingPolicy (validateDomainRaw net domain) domainEntry) "decision_required" =
      !decide (Unchanged net domain domainEntry) := by
  have hraw : (validateDomainRaw net domain).Assignable := .inl ⟨_, rfl⟩
  have changed := foldl_applyAdopted domainEntry adoptableDnsChecks (validateDomainRaw net domain, false)
  have assignable := assignable_foldl_applyNotApplicable requiredCheckKeys
    (assignable_foldl_applyAdopted domainEntry adoptableDnsChecks false hraw)
  unfold flag applyExistingPolicy
  simp only
  rw [get_set_ne (by decide), get_set_self (assignable_set (assignable_set assignable)),
    bind_some, Value.asBool, getD_some, changed, Bool.false_or, Bool.eq_iff_iff, Bool.not_eq_true',
    decide_eq_false_iff_not]
  simp [Unchanged]

end Nexus.Domains
