import Mathlib.Data.List.MinMax
import Nexus.DomainsHelper.Dns

/-!
# Onboarding a domain

`onboard` of `services/nexus-domains-helper`. Five DNS records are upserted in turn, and the run may stop anywhere
between (`performs_onboard`). The upserts are concerned with different records (`apart_policyWrite`). So onboarding
fails closed (`onboard_failsClosed`), and it can be run again (`onboard_again_iff`) unless the public address has
changed, which the text for SPF has in it.
-/

namespace Nexus.DomainsHelper

open Lib Lib.OrderedMap Lib.Effect Lib.GuardedWrite List Bool

/-! ## Checks of the input -/

structure Config where
  (program cfApiToken cfAccountId cfTunnelId cloudflareSshHost ddnsRecordsFile : String)
  (mailRelayHost mailRelayIpv4 webmailHttpOrigin webmailHttpsOrigin dmarcPolicy dmarcRua : String)

def isLower (c : Char) : Bool := 'a' ≤ c && c ≤ 'z'

def isLowerOrDigit (c : Char) : Bool := isLower c || c.isDigit

def isHexDigit (c : Char) : Bool := c.isDigit || ('a' ≤ c && c ≤ 'f') || ('A' ≤ c && c ≤ 'F')

/-- `IFS='.' read -r -a labels` -/
def labels (domain : String) : List String :=
  let fields := Text.split '.' (String.ofList (domain.toList.takeWhile (· ≠ '\n')))
  if fields.getLast? = some "" then fields.dropLast else fields

def isLabel (label : String) : Bool :=
  1 ≤ label.length && label.length ≤ 63 && label.toList.all (fun c => isLowerOrDigit c || c = '-') &&
    label.toList.head?.any isLowerOrDigit && label.toList.getLast?.any isLowerOrDigit

def isTopLevel (label : String) : Bool := 2 ≤ label.length && label.length ≤ 63 && label.toList.all isLower

def validateDomain (domain : String) : Except Stop Unit := do
  unless domain.length ≤ 253 ∧ '.' ∈ domain.toList do throw ⟨2, s!"invalid domain: {domain}"⟩
  unless (labels domain).all isLabel do throw ⟨2, s!"invalid domain label in: {domain}"⟩
  unless (labels domain).getLast?.any isTopLevel do throw ⟨2, s!"invalid top-level domain: {domain}"⟩

def isHestiaUser (user : String) : Bool :=
  user.toList.head?.any Char.isAlphanum && user.toList.all fun c => c.isAlphanum || c = '.' || c = '_' || c = '-'

def validateHestiaUser (user : String) : Except Stop Unit :=
  if 1 ≤ user.length ∧ user.length ≤ 64 ∧ isHestiaUser user then .ok ()
  else .error ⟨2, "invalid Hestia user"⟩

def isUuid (id : String) : Bool :=
  (Text.split '-' id).map String.length = [8, 4, 4, 4, 12] &&
    (Text.split '-' id).all fun block => block.toList.all isHexDigit

def validateCloudflareConfig (config : Config) : Except Stop Unit := do
  if config.cfApiToken = "" then throw ⟨3, "NEXUS_CF_API_TOKEN is not configured"⟩
  if ["SEU_", "YOUR_", "PLACEHOLDER"].any (Text.startsWith config.cfApiToken) then
    throw ⟨3, "NEXUS_CF_API_TOKEN still contains a placeholder value"⟩
  unless config.cfAccountId.length = 32 ∧ config.cfAccountId.toList.all isHexDigit do
    throw ⟨3, "NEXUS_CF_ACCOUNT_ID must be a 32-character Cloudflare account ID"⟩
  unless isUuid config.cfTunnelId do throw ⟨3, "NEXUS_CF_TUNNEL_ID must be a Cloudflare tunnel UUID"⟩

/-! ## The steps -/

def ddnsRecordName (line : String) : String :=
  match line.toList.dropWhile (· ≠ '|') with
  | [] => ""
  | _ :: rest => String.ofList (rest.takeWhile (· ≠ '|'))

def ddnsLine (zone record : String) : String := zone ++ "|" ++ record ++ "|false"

def addLine (line : String) (lines : List String) : List String := if line ∈ lines then lines else lines ++ [line]

section

variable (env : Env) (config : Config)

def ensureDdnsRecord (zone record : String) : Effect Cloud Stop Unit :=
  if config.cloudflareSshHost = "" then .fail ⟨3, "NEXUS_CLOUDFLARE_SSH_HOST is required for DDNS management"⟩
  else do
    let file ← .read Cloud.ddnsRecords
    match file with
    | none => do
      ssh env id
      .fail ⟨43, s!"DDNS records file not found: {config.ddnsRecordsFile}"⟩
    | some lines =>
      if lines.any fun line => ddnsRecordName line = webmailHost zone then do
        ssh env id
        .fail ⟨42, s!"webmail hostname is still DDNS-managed: {webmailHost zone}"⟩
      else ssh env fun s => { s with ddnsRecords := s.ddnsRecords.map (addLine (ddnsLine zone record)) }

def cfZoneId (domain : String) : Effect Cloud Stop Unit := do
  cfRequest env id
  let active ← .read Cloud.active
  if active then return () else .fail ⟨1, s!"Cloudflare has no active zone for {domain}"⟩

def cfUpsertTunnelIngress (hostname service : String) (noTlsVerify : Bool) : Effect Cloud Stop Unit := do
  cfRequest env id
  let config ← .read Cloud.tunnel
  cfRequest env fun s => { s with tunnel := some (upsertTunnelIngress hostname service noTlsVerify config) }

def sshAnswer {α : Type} (env : Env) (done failed : Cloud → α) : Effect Cloud Stop α := ⟨fun s =>
  let next := { s with calls := s.calls + 1 }
  match env.outcome s.calls with
  | .done => (.ok (done s), next)
  | .failed _ _ => (.ok (failed s), next)
  | .killed signal _ => (.error ⟨.ofSignal signal, ""⟩, next)⟩

def hestiaEnsure (has : Hestia → Bool) (add : Hestia → Hestia) : Effect Cloud Stop Unit := do
  let found ← sshAnswer env (fun s => has s.hestia) fun _ => false
  if found then return () else ssh env fun s => { s with hestia := add s.hestia }

def hestiaEnsureMailDomain : Effect Cloud Stop Unit := do
  hestiaEnsure env Hestia.mailDomain fun h => { h with mailDomain := true }
  hestiaEnsure env Hestia.roundcube fun h => { h with roundcube := true }
  hestiaEnsure env Hestia.dkim fun h => { h with dkim := true }

def hestiaIssueMailCertificate : Effect Cloud Stop Unit := ssh env id

def isAddress (s : String) : Bool :=
  (Text.split '.' s).length = 4 && (Text.split '.' s).all fun block => block ≠ "" && block.toList.all Char.isDigit

def publicIp : Option String := ((List.range 20).map env.dig).find? isAddress

def waitForMailA (hostname : String) : Effect Cloud Stop String :=
  match publicIp env with
  | some ip => return ip
  | none => .fail ⟨1, s!"mail A record did not resolve for {hostname}"⟩

def awkFields (line : List Char) : List (List Char) := (line.splitOnP fun c => c = ' ' || c = '\t').filter (· ≠ [])

def unquote (value : List Char) : List Char :=
  let value := if value.head? = some '"' then value.tail else value
  if value.getLast? = some '"' then value.dropLast else value

/-- What the `awk` program prints first, without quotes. -/
def dkimText (output : String) : String :=
  let found := (output.toList.splitOn '\n').filterMap fun line =>
    if (awkFields line).head? = some "mail._domainkey".toList ∧ 5 ≤ (awkFields line).length then
      some ([' '].intercalate ((awkFields line).drop 4))
    else none
  String.ofList (unquote (found.headD []))

def dkimValue : Option String :=
  if Text.contains (dkimText env.dkimDns) "p=" then some (dkimText env.dkimDns) else none

def hestiaDkimValue (domain : String) : Effect Cloud Stop String := do
  -- the shell that runs the command goes on if it fails, with what it has printed
  sshAnswer env (fun _ => ()) fun _ => ()
  match dkimValue env with
  | some value => return value
  | none => .fail ⟨4, s!"unable to obtain DKIM public key from Hestia for {domain}"⟩

/-! ## The run -/

def mailHost (domain : String) : String := "mail." ++ domain

def dkimHost (domain : String) : String := "mail._domainkey." ++ domain

def dmarcHost (domain : String) : String := "_dmarc." ++ domain

def tunnelTarget (config : Config) : String := config.cfTunnelId ++ ".cfargotunnel.com"

def spfValue (publicIp : String) : String :=
  "v=spf1 a mx ip4:" ++ publicIp ++ " ip4:" ++ config.mailRelayIpv4 ++ " ~all"

def stripMailto (rua : String) : String :=
  if Text.startsWith rua "mailto:" then String.ofList (rua.toList.drop 7) else rua

def dmarcValue (config : Config) : String :=
  "v=DMARC1; " ++ config.dmarcPolicy ++ "; adkim=r; aspf=r" ++
    (if config.dmarcRua ≠ "" then "; rua=mailto:" ++ stripMailto config.dmarcRua else "")

structure Onboarded where
  (domain mailHost webmailHost relay : String)
  replacedExisting : Bool
  steps : List String

def steps : List String :=
  ["ddns:mail-record", "cloudflare:webmail-http", "hestia:mail-domain", "hestia:dkim", "hestia:roundcube",
    "hestia:letsencrypt", "cloudflare:mx", "cloudflare:spf", "cloudflare:dkim", "cloudflare:dmarc",
    "cloudflare:webmail-https"]

def onboard (domain hestiaUser : String) (replaceExisting : Bool) : Effect Cloud Stop Onboarded := do
  .ofExcept (validateDomain domain)
  .ofExcept (validateHestiaUser hestiaUser)
  .ofExcept (validateCloudflareConfig config)
  ensureDdnsRecord env config domain (mailHost domain)
  cfZoneId env domain
  cfUpsertSingleDns env .cname (webmailHost domain) (tunnelTarget config) true none replaceExisting
  cfUpsertTunnelIngress env (webmailHost domain) config.webmailHttpOrigin false
  hestiaEnsureMailDomain env
  let publicIp ← waitForMailA env (mailHost domain)
  hestiaIssueMailCertificate env
  cfUpsertSingleDns env .mx domain (mailHost domain) false (some 10) replaceExisting
  cfUpsertTxtPrefix env domain "v=spf1" (spfValue config publicIp) replaceExisting
  let dkimValue ← hestiaDkimValue env domain
  cfUpsertTxtPrefix env (dkimHost domain) "v=DKIM1" dkimValue replaceExisting
  cfUpsertTxtPrefix env (dmarcHost domain) "v=DMARC1" (dmarcValue config) replaceExisting
  cfUpsertTunnelIngress env (webmailHost domain) config.webmailHttpsOrigin true
  return ⟨domain, mailHost domain, webmailHost domain, config.mailRelayHost, replaceExisting, steps⟩

def main : List String → Effect Cloud Stop Onboarded
  | ["onboard", domain, hestiaUser] => onboard env config (Text.toAsciiLowercase domain) hestiaUser false
  | "onboard" :: _ => .fail ⟨2, s!"usage: {config.program} onboard DOMAIN HESTIA_USER"⟩
  | ["migrate", domain, hestiaUser] => onboard env config (Text.toAsciiLowercase domain) hestiaUser true
  | "migrate" :: _ => .fail ⟨2, s!"usage: {config.program} migrate DOMAIN HESTIA_USER"⟩
  | action :: _ => .fail ⟨2, s!"unsupported action: {action}"⟩
  | [] => .fail ⟨2, "unsupported action: "⟩

theorem main_onboard (domain) (hestiaUser) : main env config ["onboard", domain, hestiaUser] =
      onboard env config (Text.toAsciiLowercase domain) hestiaUser false := rfl

end

def exitStatus {α : Type} : Except Stop α → Nat
  | .ok _ => 0
  | .error stop => stop.code.value

/-! ## The records of a domain -/

inductive Policy
  | cname | mx | spf | dkim | dmarc
  deriving DecidableEq

namespace Policy

def all : List Policy := [cname, mx, spf, dkim, dmarc]

theorem mem_all : ∀ p, p ∈ all := by
  intro p
  cases p <;> decide

theorem nodup_all : all.Nodup := by decide

def type : Policy → RecordType
  | cname => .cname
  | mx => .mx
  | spf | dkim | dmarc => .txt

def name (domain : String) : Policy → String
  | cname => webmailHost domain
  | mx | spf => domain
  | dkim => dkimHost domain
  | dmarc => dmarcHost domain

def tag : Policy → Option String
  | cname | mx => none
  | spf => some "v=spf1"
  | dkim => some "v=DKIM1"
  | dmarc => some "v=DMARC1"

def owns (domain : String) (p : Policy) (r : DnsRecord) : Bool :=
  ofName p.type (p.name domain) r && p.tag.all (hasTag · r.content)

def agrees (p : Policy) (content target : String) : Bool :=
  if p.tag = none then rtrimDot content = rtrimDot target else content = target

def upsert (domain content : String) : Policy → Upsert
  | cname => singleUpsert .cname (webmailHost domain) content true none
  | mx => singleUpsert .mx domain content false (some 10)
  | spf => txtUpsert domain "v=spf1" content
  | dkim => txtUpsert (dkimHost domain) "v=DKIM1" content
  | dmarc => txtUpsert (dmarcHost domain) "v=DMARC1" content

variable {domain content : String} {p q : Policy} {r : DnsRecord} {tag : String}

theorem agrees_upsert : (p.upsert domain content).agrees r = p.agrees r.content content := by
  cases p <;> rfl

theorem ofName_payload : ofName p.type (p.name domain) (p.upsert domain content).payload := by
  cases p <;> simp [ofName, type, name, upsert, singleUpsert, txtUpsert]

theorem content_payload : (p.upsert domain content).payload.content = content := by
  cases p <;> rfl

theorem owns_payload : p.owns domain (p.upsert domain content).payload = p.tag.all (hasTag · content) := by
  rw [owns, ofName_payload, Bool.true_and, content_payload]

def labelLength : Policy → Nat
  | cname => 8
  | mx | spf => 0
  | dkim => 16
  | dmarc => 7

theorem length_name : (p.name domain).length = p.labelLength + domain.length := by
  cases p with
  | cname | dkim | dmarc => exact String.length_append _ _
  | mx | spf => exact (Nat.zero_add _).symm

theorem eq_of_name (htype : p.type = q.type) (hname : p.name domain = q.name domain) : p = q := by
  have hlen : p.labelLength + domain.length = q.labelLength + domain.length := by
    rw [← length_name, ← length_name, hname]
  have hlabel : p.labelLength = q.labelLength := Nat.add_right_cancel hlen
  cases p <;> cases q <;> first | rfl | exact absurd htype (by decide) | exact absurd hlabel (by decide)

theorem eq_of_ofName (hp : ofName p.type (p.name domain) r) (hq : ofName q.type (q.name domain) r) : p = q := by
  simp only [ofName, and_eq_true, decide_eq_true_eq] at hp hq
  exact eq_of_name (hp.1.symm.trans hq.1) (hp.2.symm.trans hq.2)

theorem owns_eq_false (hne : p ≠ q) (hp : ofName p.type (p.name domain) r) : q.owns domain r = false := by
  refine eq_false_iff.mpr fun hq => hne (eq_of_ofName hp ?_)
  exact (and_eq_true_iff.mp hq).1

theorem rtrimDot_eq_of_agrees {text} (h : p.agrees text content) : rtrimDot text = rtrimDot content := by
  unfold agrees at h
  split at h
  · exact of_decide_eq_true h
  · exact congrArg rtrimDot (of_decide_eq_true h)

theorem agrees_self (p : Policy) (content : String) : p.agrees content content := by
  unfold agrees
  split <;> exact decide_eq_true rfl

theorem owns_of_tag_eq_none (h : p.tag = none) : p.owns domain = ofName p.type (p.name domain) := by
  funext r
  rw [owns, h]
  exact and_true _

theorem type_of_tag (h : p.tag = some tag) : p.type = .txt := by
  cases p with
  | cname | mx => cases h
  | spf | dkim | dmarc => rfl

theorem owns_of_tag (h : p.tag = some tag) : p.owns domain = ofTag (p.name domain) tag := by
  funext r
  rw [owns, ofTag, type_of_tag h, h, Option.all_some]

theorem upsert_of_tag (h : p.tag = some tag) : p.upsert domain content = txtUpsert (p.name domain) tag content := by
  cases p with
  | cname | mx => cases h
  | spf | dkim | dmarc => rw [← Option.some.inj h, upsert, name]

theorem all_tag_of_agrees (howns : p.owns domain r) (hagrees : p.agrees r.content content) :
    p.tag.all (hasTag · content) := by
  have htag := (and_eq_true_iff.mp howns).2
  unfold agrees at hagrees
  split at hagrees
  · next hnone =>
    rw [hnone]
    rfl
  · rw [decide_eq_true_eq] at hagrees
    exact hagrees ▸ htag

end Policy

section

variable (env : Env) (config : Config)

def target (domain : String) : Policy → Option String
  | .cname => some (tunnelTarget config)
  | .mx => some (mailHost domain)
  | .spf => (publicIp env).map (spfValue config)
  | .dkim => dkimValue env
  | .dmarc => some (dmarcValue config)

def policyWrite (domain : String) (p : Policy) : GuardedWrite Zone :=
  match target env config domain p with
  | some content => recordWrite env (p.owns domain) (p.upsert domain content)
  | none => ⟨fun _ => False, id⟩

def contents (domain : String) (p : Policy) (zone : Zone) : List String :=
  (zone.entries.filter (p.owns domain ·.2)).map (·.2.content)

def Free (domain : String) (p : Policy) (found : List String) : Prop :=
  ∃ content, target env config domain p = some content ∧ found.length ≤ 1 ∧ ∀ text ∈ found, p.agrees text content

def published (domain : String) (p : Policy) : List String :=
  (target env config domain p).toList.filter fun content => p.tag.all (hasTag · content)

end

section

variable {env : Env} {config : Config} {domain content : String} {p q : Policy} {zone : Zone}

theorem policyWrite_of_target (h : target env config domain p = some content) :
    policyWrite env config domain p = recordWrite env (p.owns domain) (p.upsert domain content) := by
  simp only [policyWrite, h]

open Policy

theorem admits_policyWrite : (policyWrite env config domain p).admits zone ↔
    Free env config domain p (contents domain p zone) := by
  cases htgt : target env config domain p with
  | none => simp [policyWrite, Free, htgt]
  | some =>
    rw [policyWrite_of_target htgt]
    simp only [recordWrite, Free, htgt, contents, length_map, forall_mem_map, agrees_upsert,
      Option.some.injEq, exists_eq_left']

theorem contents_create (h : zone.entries.filter (p.owns domain ·.2) = []) :
    contents domain p ((recordWrite env (p.owns domain) (p.upsert domain content)).write zone) =
      if p.tag.all (hasTag · content) then [content] else [] := by
  have hwr : (recordWrite env (p.owns domain) (p.upsert domain content)).write zone =
      zone.insert (env.newId zone) (p.upsert domain content).payload := by
    simp only [recordWrite, writeId, h, head?_nil, Option.map_none, Option.getD_none]
  rw [hwr, contents, entries_insert_of_not_mem (env.newId_fresh zone), filter_append, h]
  simp only [nil_append, filter_cons, filter_nil, owns_payload]
  split
  · exact congrArg (fun content => [content]) content_payload
  · rfl

theorem contents_overwrite (env) {id r}
    (h : zone.entries.filter (p.owns domain ·.2) = [(id, r)]) (agrees : p.agrees r.content content) :
    contents domain p ((recordWrite env (p.owns domain) (p.upsert domain content)).write zone) = [content] ∧
      p.tag.all (hasTag · content) := by
  have hmem : (id, r) ∈ zone.entries.filter (p.owns domain ·.2) := h ▸ mem_cons_self
  have htag := all_tag_of_agrees (mem_filter.mp hmem).2 agrees
  have hwr : (recordWrite env (p.owns domain) (p.upsert domain content)).write zone =
      zone.insert id (p.upsert domain content).payload := by
    simp only [recordWrite, writeId, h, head?_cons, Option.map_some, Option.getD_some]
  rw [hwr, contents, filter_insert_of_singleton h (owns_payload.trans htag)]
  exact ⟨congrArg (fun content => [content]) content_payload, htag⟩

theorem contents_policyWrite (h : (policyWrite env config domain p).admits zone) :
    contents domain p ((policyWrite env config domain p).write zone) = published env config domain p := by
  obtain ⟨content, target, hone, agrees⟩ := admits_policyWrite.mp h
  have hpublished : published env config domain p = if p.tag.all (hasTag · content) then [content] else [] := by
    simp only [published, target, Option.toList_some, filter_cons, filter_nil]
  rw [policyWrite_of_target target, hpublished]
  simp only [contents, length_map, forall_mem_map] at hone agrees
  rcases found : zone.entries.filter (p.owns domain ·.2) with _ | ⟨r, _ | ⟨r', rest⟩⟩
  · exact contents_create found
  · rw [found] at agrees
    obtain ⟨hcont, htag⟩ := contents_overwrite env found (agrees r mem_cons_self)
    rw [hcont, if_pos htag]
  · rw [found] at hone
    exact absurd hone (by simp)

theorem contents_policyWrite_of_ne (hne : p ≠ q) :
    contents domain q ((policyWrite env config domain p).write zone) = contents domain q zone := by
  cases htgt : target env config domain p with
  | none => rw [policyWrite, htgt]; rfl
  | some =>
    rw [policyWrite_of_target htgt, contents, contents, recordWrite]
    refine congrArg _ (filter_insert_of_not (owns_eq_false hne ofName_payload) ?_)
    intro r hr hid
    rcases writeId_cases env (p.owns domain) zone with ⟨r', hr', howns⟩ | hfr
    · obtain rfl : r = (_, r') := inj_on_of_nodup_map zone.keys_nodup hr hr' hid
      exact owns_eq_false hne (and_eq_true_iff.mp howns).1
    · exact absurd (hid ▸ mem_map_of_mem hr) hfr

end

theorem apart_policyWrite (env) (config) (domain) :
    Apart (contents domain) (Free env config domain) (published env config domain) (policyWrite env config domain) where
  admits_iff _ _ := admits_policyWrite
  own _ _ := contents_policyWrite
  others _ _ hne _ := contents_policyWrite_of_ne hne

/-! ## What a run writes -/

structure Good (env : Env) (config : Config) (domain hestiaUser : String) : Prop where
  smooth : env.Smooth
  resolves : ∃ ip, publicIp env = some ip
  key : ∃ value, dkimValue env = some value
  validDomain : validateDomain domain = .ok ()
  validUser : validateHestiaUser hestiaUser = .ok ()
  validConfig : validateCloudflareConfig config = .ok ()
  host : config.cloudflareSshHost ≠ ""

def Standing (domain : String) (s : Cloud) : Prop :=
  s.active ∧ ∃ lines, s.ddnsRecords = some lines ∧
    (lines.any fun line => ddnsRecordName line = webmailHost domain) = false

theorem offZone_standing (domain) : OffZone (Standing domain) := fun _ _ _ h => h

section

variable {env : Env} {config : Config} {domain hestiaUser : String} {standing : Cloud → Prop}

theorem bar_not_mem_ddnsRecordName (line) : '|' ∉ (ddnsRecordName line).toList := by
  unfold ddnsRecordName
  split
  · simp
  · rw [String.toList_ofList]
    exact fun h => by simpa using mem_takeWhile_imp h

theorem ddnsRecordName_ddnsLine {zone record} (hzone : '|' ∉ zone.toList) (hrec : '|' ∉ record.toList) :
    ddnsRecordName (ddnsLine zone record) = record := by
  have hline : (ddnsLine zone record).toList = zone.toList ++ '|' :: (record.toList ++ '|' :: "false".toList) := by
    simp [ddnsLine, String.toList_append]
  have hskip : (ddnsLine zone record).toList.dropWhile (· ≠ '|') = '|' :: (record.toList ++ '|' :: "false".toList) := by
    rw [hline, dropWhile_append_of_pos fun c hc => by simpa using ne_of_mem_of_not_mem hc hzone]
    rfl
  have htake : (record.toList ++ '|' :: "false".toList).takeWhile (· ≠ '|') = record.toList := by
    rw [takeWhile_append_of_pos fun c hc => by simpa using ne_of_mem_of_not_mem hc hrec]
    simp
  simp only [ddnsRecordName, hskip, htake, String.ofList_toList]

theorem ddnsRecordName_mailHost (domain) : ddnsRecordName (ddnsLine domain (mailHost domain)) ≠ webmailHost domain := by
  intro hname
  have webmail : '|' ∉ (webmailHost domain).toList := hname ▸ bar_not_mem_ddnsRecordName _
  have hdom : '|' ∉ domain.toList := fun h => webmail (by simp [webmailHost, String.toList_append, h])
  have hmail : '|' ∉ (mailHost domain).toList := by simp [mailHost, String.toList_append, hdom]
  rw [ddnsRecordName_ddnsLine hdom hmail] at hname
  have hlen := congrArg String.length hname
  rw [mailHost, webmailHost, String.length_append, String.length_append] at hlen
  exact absurd (Nat.add_right_cancel hlen) (by decide)

theorem performs_sshAnswer {α : Type} (hoff : OffZone standing) (done failed : Cloud → α) :
    Performs Cloud.zone env.Smooth standing [] (sshAnswer env done failed) := by
  have hrun : ∀ s, ((sshAnswer env done failed).run s).2 = { s with calls := s.calls + 1 } := by
    intro s
    simp only [sshAnswer]
    cases env.outcome s.calls <;> rfl
  refine .idle (fun s => by rw [hrun]) (fun smooth s _ => ⟨done s, ?_⟩) fun s hs => ?_
  · simp only [sshAnswer, smooth s.calls]
  · rw [hrun]
    exact hoff s s.zone _ hs

theorem performs_hestiaEnsure (has : Hestia → Bool) (add : Hestia → Hestia) :
    Performs Cloud.zone env.Smooth (Standing domain) [] (hestiaEnsure env has add) := by
  refine .bind (l := []) (performs_sshAnswer (offZone_standing domain) _ _) fun found => ?_
  cases found with
  | true => exact .pure ()
  | false =>
    rw [if_neg Bool.false_ne_true]
    exact performs_call (offZone_standing domain) (fun _ => rfl) fun _ hs => hs

theorem performs_hestiaEnsureMailDomain :
    Performs Cloud.zone env.Smooth (Standing domain) [] (hestiaEnsureMailDomain env) :=
  .bind (l := []) (performs_hestiaEnsure _ _) fun _ =>
    .bind (l := []) (performs_hestiaEnsure _ _) fun _ => performs_hestiaEnsure _ _

theorem performs_cfUpsertTunnelIngress (hostname service : String) (noTlsVerify : Bool) :
    Performs Cloud.zone env.Smooth (Standing domain) [] (cfUpsertTunnelIngress env hostname service noTlsVerify) :=
  .bind (l := []) (performs_call (offZone_standing domain) (fun _ => rfl) fun _ hs => hs) fun _ =>
    .bind (l := []) (.read _) fun _ => performs_call (offZone_standing domain) (fun _ => rfl) fun _ hs => hs

theorem performs_cfZoneId : Performs Cloud.zone env.Smooth (Standing domain) [] (cfZoneId env domain) := by
  refine .bind (l := []) (performs_call (offZone_standing domain) (fun _ => rfl) fun _ hs => hs) fun _ => ?_
  refine .idle (fun s => ?_) (fun _ s hs => ?_) fun s hs => ?_
  · rw [run_read_bind]
    split <;> rfl
  · rw [run_read_bind, if_pos hs.1]
    exact ⟨(), rfl⟩
  · rw [run_read_bind]
    split <;> exact hs

theorem run_ssh_fail (env) (stop) (s) :
    ((ssh env id >>= fun _ => (.fail stop : Effect Cloud Stop Unit)).run s).2 = { s with calls := s.calls + 1 } := by
  have hst : ((ssh env id).run s).2 = { s with calls := s.calls + 1 } :=
    (run_call_cases env id id s).elim id fun h => h.1
  exact bind_keeps (P := fun t => t = { s with calls := s.calls + 1 }) (f := fun _ => .fail stop) hst
    fun _ _ ht => ht

theorem standing_addLine {s} (h : Standing domain s) :
    Standing domain { s with ddnsRecords := s.ddnsRecords.map (addLine (ddnsLine domain (mailHost domain))) } := by
  obtain ⟨active, lines, hlines, hno⟩ := h
  refine ⟨active, addLine (ddnsLine domain (mailHost domain)) lines, by simp [hlines], ?_⟩
  unfold addLine
  split
  · exact hno
  · rw [any_append, hno]
    simp [ddnsRecordName_mailHost domain]

theorem performs_ensureDdnsRecord : Performs Cloud.zone (Good env config domain hestiaUser)
    (Standing domain) [] (ensureDdnsRecord env config domain (mailHost domain)) := by
  unfold ensureDdnsRecord
  split
  · next hhost => exact .fail _ _ fun hgood => hgood.host hhost
  · refine .idle (fun s => ?_) (fun hgood s hs => ?_) fun s hs => ?_
    · rw [run_read_bind]
      split
      · rw [run_ssh_fail]
      · split
        · rw [run_ssh_fail]
        · exact call_keeps (P := fun t => t.zone = s.zone) rfl rfl
    · obtain ⟨-, lines, hlines, hno⟩ := hs
      refine ⟨(), ?_⟩
      rw [run_read_bind, hlines]
      simp [hno, ssh, run_call_of_smooth hgood.smooth]
    · obtain ⟨-, lines, hlines, hno⟩ := id hs
      rw [run_read_bind, hlines]
      simp only [hno, false_eq_true, if_false, ssh]
      have hnext : Standing domain { s with calls := s.calls + 1 } := hs
      exact call_keeps hnext (standing_addLine hnext)

theorem performs_single {p content proxied priority} (htag : p.tag = none)
    (htgt : target env config domain p = some content)
    (upsert : p.upsert domain content = singleUpsert p.type (p.name domain) content proxied priority) :
    Performs Cloud.zone env.Smooth (Standing domain) [policyWrite env config domain p]
      (cfUpsertSingleDns env p.type (p.name domain) content proxied priority false) := by
  rw [policyWrite_of_target htgt, Policy.owns_of_tag_eq_none htag, upsert]
  exact performs_cfUpsertSingleDns (offZone_standing domain) _ _ _ _ _

theorem performs_txt {p tag content} (htag : p.tag = some tag) (htgt : target env config domain p = some content) :
    Performs Cloud.zone env.Smooth (Standing domain) [policyWrite env config domain p]
      (cfUpsertTxtPrefix env (p.name domain) tag content false) := by
  rw [policyWrite_of_target htgt, Policy.owns_of_tag htag, Policy.upsert_of_tag htag]
  exact performs_cfUpsertTxtPrefix (offZone_standing domain) _ _ _

/-- **The writes for the five policies in turn.** -/
theorem performs_onboard (env : Env) (config : Config) (domain hestiaUser : String) :
    Performs Cloud.zone (Good env config domain hestiaUser) (Standing domain)
      (Policy.all.map (policyWrite env config domain)) (onboard env config domain hestiaUser false) := by
  have smooth : Good env config domain hestiaUser → env.Smooth := Good.smooth
  refine .bind (l := []) (.ofExcept fun hgood => ⟨(), hgood.validDomain⟩) fun _ => ?_
  refine .bind (l := []) (.ofExcept fun hgood => ⟨(), hgood.validUser⟩) fun _ => ?_
  refine .bind (l := []) (.ofExcept fun hgood => ⟨(), hgood.validConfig⟩) fun _ => ?_
  refine .bind (l := []) performs_ensureDdnsRecord fun _ => ?_
  refine .bind (l := []) (performs_cfZoneId.mono smooth) fun _ => ?_
  refine .bind (l := [_]) ((performs_single (p := .cname) rfl rfl rfl).mono smooth) fun _ => ?_
  refine .bind (l := []) ((performs_cfUpsertTunnelIngress _ _ _).mono smooth) fun _ => ?_
  refine .bind (l := []) (performs_hestiaEnsureMailDomain.mono smooth) fun _ => ?_
  unfold waitForMailA
  cases hip : publicIp env with
  | none => exact .fail _ _ fun ⟨_, ⟨_, hsome⟩, _, _, _, _, _⟩ => by cases hip.symm.trans hsome
  | some =>
    rw [pure_bind]
    refine .bind (l := []) (performs_call (offZone_standing domain) (fun _ => rfl) (fun _ hs => hs) |>.mono smooth)
      fun _ => ?_
    refine .bind (l := [_]) ((performs_single (p := .mx) rfl rfl rfl).mono smooth) fun _ => ?_
    refine .bind (l := [_]) ((performs_txt (p := .spf) rfl (by rw [target, hip]; rfl)).mono smooth) fun _ => ?_
    rw [hestiaDkimValue, bind_assoc]
    refine .bind (l := []) ((performs_sshAnswer (offZone_standing domain) _ _).mono smooth) fun _ => ?_
    cases hkey : dkimValue env with
    | none => exact .fail _ _ fun ⟨_, _, ⟨_, hsome⟩, _, _, _, _⟩ => by cases hkey.symm.trans hsome
    | some =>
      rw [pure_bind]
      refine .bind (l := [_]) ((performs_txt (p := .dkim) rfl hkey).mono smooth) fun _ => ?_
      refine .bind (l := [_]) ((performs_txt (p := .dmarc) rfl rfl).mono smooth) fun _ => ?_
      exact .bind (l := []) ((performs_cfUpsertTunnelIngress _ _ _).mono smooth) fun _ => .pure _

end

/-! ## Conflicts -/

def Conflicting (env : Env) (config : Config) (domain : String) (zone : Zone) : Prop :=
  ∃ p, 1 < (contents domain p zone).length ∨ ∃ text ∈ contents domain p zone,
    ∀ content, target env config domain p = some content → p.agrees text content = false

/-- A conflict is refused, and no foreign record is lost. -/
structure FailsClosed {α : Type} (env : Env) (config : Config) (domain : String) (zone : Zone)
    (result : Except Stop α × Cloud) : Prop where
  /-- No record is deleted. -/
  kept : ∀ id r, zone.get? id = some r → ∃ r', result.2.zone.get? id = some r'
  /-- What is overwritten has had the content that it should have, but for a dot at the end. -/
  overwritten : ∀ id r, zone.get? id = some r → result.2.zone.get? id ≠ some r →
    ∃ p content, p.owns domain r ∧ target env config domain p = some content ∧
      rtrimDot r.content = rtrimDot content
  refused : Conflicting env config domain zone → exitStatus result.1 ≠ 0

section

variable {env : Env} {config : Config} {domain : String} {zone zone' : Zone} {p : Policy}

def Keeps (env : Env) (config : Config) (domain : String) (zone zone' : Zone) : Prop :=
  ∀ id r, (id, r) ∈ zone → ∃ r', (id, r') ∈ zone' ∧ (r' = r ∨ ∃ p content, p.owns domain r ∧
    target env config domain p = some content ∧ rtrimDot r.content = rtrimDot content)

theorem Keeps.refl (zone) : Keeps env config domain zone zone := fun _ r hr => ⟨r, hr, .inl rfl⟩

theorem Keeps.trans {x y z} (h : Keeps env config domain x y) (h' : Keeps env config domain y z) :
    Keeps env config domain x z := by
  intro id r hr
  obtain ⟨r', hr', first⟩ := h id r hr
  obtain ⟨r'', hr'', second⟩ := h' id r' hr'
  rcases first with rfl | first
  · exact ⟨r'', hr'', second⟩
  · exact ⟨r'', hr'', .inr first⟩

theorem keeps_policyWrite (h : (policyWrite env config domain p).admits zone) :
    Keeps env config domain zone ((policyWrite env config domain p).write zone) := by
  obtain ⟨content, target, -, agrees⟩ := admits_policyWrite.mp h
  simp only [contents, forall_mem_map] at agrees
  rw [policyWrite_of_target target]
  intro id r hr
  by_cases hid : id = writeId env (p.owns domain) zone
  · refine ⟨_, mem_insert.mpr (.inl (Prod.ext hid rfl)), .inr ⟨p, content, ?_⟩⟩
    rcases writeId_cases env (p.owns domain) zone with ⟨r', hr', howns⟩ | hfr
    · rw [← hid] at hr'
      obtain rfl := value_unique hr hr'
      have hmem : (id, r) ∈ zone.entries.filter (p.owns domain ·.2) := mem_filter.mpr ⟨hr, howns⟩
      have hsame : p.agrees r.content content := agrees (id, r) hmem
      exact ⟨howns, target, Policy.rtrimDot_eq_of_agrees hsame⟩
    · exact absurd (hid ▸ mem_map_of_mem hr) hfr
  · exact ⟨r, mem_insert.mpr (.inr ⟨hid, hr⟩), .inl rfl⟩

theorem not_conflicting_of_admitted (h : Admitted (Policy.all.map (policyWrite env config domain)) zone) :
    ¬ Conflicting env config domain zone := by
  have hfree := ((apart_policyWrite env config domain).admitted_iff Policy.nodup_all).mp h
  rintro ⟨p, hmany | ⟨text, htext, other⟩⟩
  · obtain ⟨-, -, hone, -⟩ := hfree p p.mem_all
    omega
  · obtain ⟨content, target, -, agrees⟩ := hfree p p.mem_all
    cases (agrees text htext).symm.trans (other content target)

end

/-- **Onboarding fails closed**, wherever it stops. -/
theorem onboard_failsClosed (env : Env) (config : Config) (domain hestiaUser : String) (s : Cloud) :
    FailsClosed env config (Text.toAsciiLowercase domain) s.zone
      ((main env config ["onboard", domain, hestiaUser]).run s) := by
  rw [main_onboard]
  have hperf := performs_onboard env config (Text.toAsciiLowercase domain) hestiaUser
  have hkeeps : Keeps env config (Text.toAsciiLowercase domain) s.zone
      ((onboard env config (Text.toAsciiLowercase domain) hestiaUser false).run s).2.zone := by
    refine (hperf.reached s).related Keeps.refl (fun _ _ _ => Keeps.trans) fun w hw zone hadm => ?_
    obtain ⟨p, -, rfl⟩ := mem_map.mp hw
    exact keeps_policyWrite hadm
  refine ⟨fun id r hr => ?_, fun id r hr changed => ?_, fun hconf hzero => ?_⟩
  · obtain ⟨r', hr', -⟩ := hkeeps id r (get?_eq_some.mp hr)
    exact ⟨r', get?_eq_some.mpr hr'⟩
  · obtain ⟨r', hr', rfl | howned⟩ := hkeeps id r (get?_eq_some.mp hr)
    · exact absurd (get?_eq_some.mpr hr') changed
    · exact howned
  · cases hres : ((onboard env config (Text.toAsciiLowercase domain) hestiaUser false).run s).1 with
    | ok done => exact not_conflicting_of_admitted (hperf.finished s done hres).1 hconf
    | error stop =>
      rw [hres] at hzero
      exact stop.code.ne_zero hzero

/-! ## Running it again -/

/-- The run succeeds, and each record is there once, as it should be. -/
def Settled {α : Type} (env : Env) (config : Config) (domain : String) (result : Except Stop α × Cloud) : Prop :=
  exitStatus result.1 = 0 ∧ ∀ p, ∃ content, target env config domain p = some content ∧
    contents domain p result.2.zone = [content]

/-- Nothing on the way of the onboarding fails. -/
structure CallsSucceed (env : Env) (domain : String) (s : Cloud) : Prop where
  smooth : env.Smooth
  resolves : ∃ ip, publicIp env = some ip
  standing : Standing domain s

section

variable {env env' : Env} {config : Config} {domain hestiaUser : String} {s t s' : Cloud} {done : Onboarded}
  {p : Policy}

theorem exitStatus_eq_zero {α : Type} {result : Except Stop α} : exitStatus result = 0 ↔ ∃ a, result = .ok a := by
  cases result with
  | ok a => exact iff_of_true rfl ⟨a, rfl⟩
  | error stop => exact iff_of_false stop.code.ne_zero nofun

theorem hasTag_append (tag) (rest) : hasTag tag (tag ++ rest) := by
  simp [hasTag, Text.startsWith, Text.toAsciiLowercase, String.toList_append]

theorem hasTag_spfValue (config) (ip) : hasTag "v=spf1" (spfValue config ip) := by
  have hfront : "v=spf1 a mx ip4:" = "v=spf1" ++ " a mx ip4:" := by decide
  unfold spfValue
  rw [hfront, String.append_assoc, String.append_assoc, String.append_assoc, String.append_assoc, hasTag_append]

theorem hasTag_dmarcValue (config) : hasTag "v=DMARC1" (dmarcValue config) := by
  have hfront : "v=DMARC1; " = "v=DMARC1" ++ "; " := by decide
  unfold dmarcValue
  rw [hfront, String.append_assoc, String.append_assoc, String.append_assoc, hasTag_append]

theorem spfValue_injective (config) : Function.Injective (spfValue config) := by
  intro ip ip' h
  unfold spfValue at h
  rw [String.append_left_inj, String.append_left_inj, String.append_left_inj, String.append_right_inj] at h
  exact h

theorem checks_of_onboard (h : (onboard env config domain hestiaUser false).run s = (.ok done, t)) :
    validateDomain domain = .ok () ∧ validateHestiaUser hestiaUser = .ok () ∧
      validateCloudflareConfig config = .ok () ∧ config.cloudflareSshHost ≠ "" := by
  unfold onboard at h
  cases hdom : validateDomain domain with
  | error => simp [hdom] at h
  | ok u =>
    cases huser : validateHestiaUser hestiaUser with
    | error => simp [hdom, huser] at h
    | ok u =>
      cases hcfg : validateCloudflareConfig config with
      | error => simp [hdom, huser, hcfg] at h
      | ok =>
        refine ⟨rfl, rfl, rfl, fun hhost => ?_⟩
        have hstop : (ensureDdnsRecord env config domain (mailHost domain)).run s =
            (.error ⟨3, "NEXUS_CLOUDFLARE_SSH_HOST is required for DDNS management"⟩, s) := by
          rw [ensureDdnsRecord, if_pos hhost]
          rfl
        rw [hdom, huser, hcfg, run_ofExcept_ok_bind, run_ofExcept_ok_bind,
          run_ofExcept_ok_bind, run_bind_of_error hstop] at h
        cases h

theorem published_of_ok (h : ((onboard env config domain hestiaUser false).run s).1 = .ok done) (p) :
    Free env config domain p (contents domain p s.zone) ∧
      contents domain p ((onboard env config domain hestiaUser false).run s).2.zone =
        published env config domain p := by
  obtain ⟨hadm, hzone⟩ := (performs_onboard env config domain hestiaUser).finished s done h
  have hapart := apart_policyWrite env config domain
  rw [hzone]
  exact ⟨(hapart.admitted_iff Policy.nodup_all).mp hadm p p.mem_all,
    hapart.part_written Policy.nodup_all p.mem_all hadm⟩

theorem published_of_tag {content} (h : target env config domain p = some content)
    (htag : p.tag.all (hasTag · content)) : published env config domain p = [content] := by
  rw [published, h, Option.toList_some]
  exact filter_eq_self.mpr fun text htext => mem_singleton.mp htext ▸ htag

theorem tag_of_target (hdkim : ∀ value, dkimValue env = some value → hasTag "v=DKIM1" value) {content}
    (h : target env config domain p = some content) : p.tag.all (hasTag · content) := by
  cases p with
  | cname | mx => rfl
  | spf =>
    obtain ⟨ip, -, rfl⟩ := Option.map_eq_some_iff.mp h
    rw [Policy.tag, Option.all_some, hasTag_spfValue]
  | dkim => rw [Policy.tag, Option.all_some, hdkim content h]
  | dmarc => rw [← Option.some.inj h, Policy.tag, Option.all_some, hasTag_dmarcValue]

theorem published_spf {ip} (h : publicIp env = some ip) : published env config domain .spf = [spfValue config ip] := by
  refine published_of_tag (by rw [target, h]; rfl) ?_
  rw [Policy.tag, Option.all_some, hasTag_spfValue]

theorem eq_of_free_spf {ip ip'} (h : publicIp env = some ip) (h' : publicIp env' = some ip')
    (hfree : Free env' config domain .spf (published env config domain .spf)) : ip' = ip := by
  obtain ⟨content, htgt, -, agrees⟩ := hfree
  rw [published_spf h] at agrees
  rw [target, h'] at htgt
  have hsame : spfValue config ip = content := by
    have hspf := agrees _ mem_cons_self
    simpa [Policy.agrees, Policy.tag] using hspf
  exact spfValue_injective config ((Option.some.inj htgt).trans hsame.symm)

theorem settled_of_target_eq (hgood : Good env' config domain hestiaUser) (standing : Standing domain s')
    (htgt : ∀ p, target env' config domain p = target env config domain p)
    (htag : ∀ value, dkimValue env' = some value → hasTag "v=DKIM1" value)
    (found : ∀ p, ∃ content, target env config domain p = some content ∧ contents domain p s'.zone = [content]) :
    Settled env' config domain ((onboard env' config domain hestiaUser false).run s') := by
  have hadm : Admitted (Policy.all.map (policyWrite env' config domain)) s'.zone := by
    refine ((apart_policyWrite env' config domain).admitted_iff Policy.nodup_all).mpr fun p _ => ?_
    obtain ⟨content, hcont, hconte⟩ := found p
    rw [hconte]
    exact ⟨content, (htgt p).trans hcont, Nat.le_refl 1, fun text htext => mem_singleton.mp htext ▸ p.agrees_self text⟩
  obtain ⟨done', hdone⟩ := (performs_onboard env' config domain hestiaUser).completes hgood s' standing hadm
  refine ⟨exitStatus_eq_zero.mpr ⟨done', hdone⟩, fun p => ?_⟩
  obtain ⟨content, hcont, -⟩ := found p
  have hcont' := (htgt p).trans hcont
  have published := published_of_tag hcont' (tag_of_target htag hcont')
  exact ⟨content, hcont', (published_of_ok hdone p).2.trans published⟩

theorem settled_again_iff (hfst : (onboard env config domain hestiaUser false).run s = (.ok done, t))
    (hzone : s'.zone = t.zone) (hkey : env'.dkimDns = env.dkimDns) (hcalls : CallsSucceed env' domain s') :
    Settled env' config domain ((onboard env' config domain hestiaUser false).run s') ↔
      publicIp env' = publicIp env ∧ ∀ value, dkimValue env = some value → hasTag "v=DKIM1" value := by
  have before := published_of_ok (congrArg Prod.fst hfst)
  have hdkim : dkimValue env' = dkimValue env := by rw [dkimValue, dkimValue, hkey]
  -- what the first run has left is what the second one finds
  have found : ∀ p, contents domain p s'.zone = published env config domain p := by
    intro p
    have hp := (before p).2
    rw [hfst] at hp
    rw [hzone]
    exact hp
  constructor
  · rintro ⟨hexit, settled⟩
    obtain ⟨done', hdone⟩ := exitStatus_eq_zero.mp hexit
    have after := published_of_ok hdone
    refine ⟨?_, fun value hvalue => ?_⟩
    · obtain ⟨_, htgt, -, -⟩ := (before .spf).1
      obtain ⟨ip, hip, -⟩ := Option.map_eq_some_iff.mp htgt
      obtain ⟨ip', hip'⟩ := hcalls.resolves
      have hfree := (after .spf).1
      rw [found] at hfree
      rw [hip, hip', eq_of_free_spf hip hip' hfree]
    · obtain ⟨content, htgt, hconte⟩ := settled .dkim
      obtain rfl : content = value := Option.some.inj (htgt.symm.trans (hdkim.trans hvalue))
      have hmem : content ∈ published env' config domain .dkim := by
        rw [← (after .dkim).2]
        exact hconte ▸ mem_cons_self
      have htag := (mem_filter.mp hmem).2
      rwa [Policy.tag, Option.all_some] at htag
  · rintro ⟨hip, htag⟩
    obtain ⟨hdom, huser, hcfg, hhost⟩ := checks_of_onboard hfst
    obtain ⟨value, hvalue, -⟩ := (before .dkim).1
    have hgood : Good env' config domain hestiaUser :=
      ⟨hcalls.smooth, hcalls.resolves, ⟨value, hdkim.trans hvalue⟩, hdom, huser, hcfg, hhost⟩
    have htgt : ∀ p, target env' config domain p = target env config domain p := by
      intro p
      cases p with
      | cname | mx | dmarc => rfl
      | spf => rw [target, target, hip]
      | dkim => exact hdkim
    refine settled_of_target_eq hgood hcalls.standing htgt (by rw [hdkim]; exact htag) fun p => ?_
    obtain ⟨content, hcont, -⟩ := (before p).1
    exact ⟨content, hcont, (found p).trans (published_of_tag hcont (tag_of_target htag hcont))⟩

end

/-- **Onboarding can be run again** exactly if the public address is the same, and the key of Hestia has its tag. -/
theorem onboard_again_iff {env env' : Env} {config : Config} {domain hestiaUser : String} {s t s' : Cloud}
    {done : Onboarded} (hfirst : (main env config ["onboard", domain, hestiaUser]).run s = (.ok done, t))
    (hzone : s'.zone = t.zone) (hkey : env'.dkimDns = env.dkimDns)
    (hcalls : CallsSucceed env' (Text.toAsciiLowercase domain) s') :
    Settled env' config (Text.toAsciiLowercase domain) ((main env' config ["onboard", domain, hestiaUser]).run s') ↔
      publicIp env' = publicIp env ∧ ∀ value, dkimValue env = some value → hasTag "v=DKIM1" value := by
  rw [main_onboard] at hfirst ⊢
  exact settled_again_iff hfirst hzone hkey hcalls

namespace Sample

def config : Config where
  program := "nexus-domains-helper"
  cfApiToken := "token"
  cfAccountId := "0123456789abcdef0123456789abcdef"
  cfTunnelId := "01234567-89ab-cdef-0123-456789abcdef"
  cloudflareSshHost := "root@192.168.0.30"
  ddnsRecordsFile := "/etc/cloudflare-ddns/records.conf"
  mailRelayHost := "smtp.dreamteclabs.com"
  mailRelayIpv4 := "23.254.215.34"
  webmailHttpOrigin := "http://192.168.0.29:80"
  webmailHttpsOrigin := "https://192.168.0.29:443"
  dmarcPolicy := "p=none"
  dmarcRua := ""

def newId (zone : Zone) : String := String.ofList (List.replicate ((zone.entries.map (·.1.length)).foldr max 0 + 1) 'r')

theorem newId_fresh (zone) : newId zone ∉ zone.entries.map Prod.fst := by
  intro h
  obtain ⟨r, hr, hid⟩ := mem_map.mp h
  have hle : r.1.length ≤ (zone.entries.map (·.1.length)).foldr max 0 := le_max_of_le' 0 (mem_map_of_mem hr) le_rfl
  have hlen : (newId zone).length = (zone.entries.map (·.1.length)).foldr max 0 + 1 := by
    rw [newId, String.length_ofList, length_replicate]
  rw [hid, hlen] at hle
  omega

def env (ip : String) : Env where
  outcome _ := .done
  newId := newId
  newId_fresh := newId_fresh
  dig _ := ip
  dkimDns := "mail._domainkey 3600 IN TXT \"v=DKIM1; k=rsa; p=MIGf\""

def cloud : Cloud := ⟨OrderedMap.empty, true, none, some [], ⟨false, false, false⟩, 0⟩

end Sample

open Sample

theorem again_with_same_address : ∃ done t,
    (main (env "203.0.113.7") config ["onboard", "Example.com", "admin"]).run cloud = (.ok done, t) ∧
    Settled (env "203.0.113.7") config (Text.toAsciiLowercase "Example.com")
      ((main (env "203.0.113.7") config ["onboard", "Example.com", "admin"]).run t) := by
  have hzero : exitStatus ((main (env "203.0.113.7") config ["onboard", "Example.com", "admin"]).run cloud).1 = 0 := by
    rw [main_onboard]
    decide
  have standing : Standing (Text.toAsciiLowercase "Example.com")
      ((main (env "203.0.113.7") config ["onboard", "Example.com", "admin"]).run cloud).2 := by
    rw [main_onboard]
    exact (performs_onboard _ _ _ _).keeps cloud ⟨rfl, [], rfl, rfl⟩
  rcases hrun : (main (env "203.0.113.7") config ["onboard", "Example.com", "admin"]).run cloud with
    ⟨stop | done, t⟩
  · rw [hrun] at hzero
    exact absurd hzero stop.code.ne_zero
  · rw [hrun] at standing
    have hip : publicIp (env "203.0.113.7") = some "203.0.113.7" := by decide
    have hkey : dkimValue (env "203.0.113.7") = some "v=DKIM1; k=rsa; p=MIGf" := by decide
    refine ⟨done, t, rfl, (onboard_again_iff hrun rfl rfl ⟨fun _ => rfl, ⟨_, hip⟩, standing⟩).mpr ⟨rfl, ?_⟩⟩
    intro value hvalue
    rw [← Option.some.inj (hkey.symm.trans hvalue)]
    decide

/-- The text for SPF of the first run is a conflict for the second. -/
theorem address_changed : exitStatus ((main (env "203.0.113.7") config ["onboard", "example.com", "admin"]).run
      cloud).1 = 0 ∧ exitStatus ((main (env "203.0.113.8") config ["onboard", "example.com", "admin"]).run
      ((main (env "203.0.113.7") config ["onboard", "example.com", "admin"]).run cloud).2).1 = 5 := by
  rw [main_onboard, main_onboard]
  decide

end Nexus.DomainsHelper
