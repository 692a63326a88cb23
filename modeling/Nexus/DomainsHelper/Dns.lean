import Nexus.DomainsHelper.Tunnel
import Nexus.Lib.GuardedWrite
import Nexus.Lib.OrderedMap
import Nexus.Lib.Text

/-!
# The DNS records of the helper

`cf_write_record`, `cf_delete_record`, `cf_upsert_single_dns` and `cf_upsert_txt_prefix` of
`services/nexus-domains-helper`. Every call to another system may fail, carried out or not, and then the helper stops.
Unless records may be replaced, an upsert makes one guarded write (`performs_cfUpsertSingleDns`,
`performs_cfUpsertTxtPrefix`).
-/

namespace Nexus.DomainsHelper

open Lib Lib.GuardedWrite Prod Effect

/-! ## Calls -/

structure ExitCode where
  value : Nat
  ne_zero : value ≠ 0

def ExitCode.ofSignal (signal : Nat) : ExitCode := ⟨128 + signal, by omega⟩

instance (n : Nat) : OfNat ExitCode (n + 1) := ⟨⟨n + 1, Nat.succ_ne_zero n⟩⟩

structure Stop where
  code : ExitCode
  message : String

/-- A call that fails may have been carried out all the same. -/
inductive Outcome
  | done
  | failed (stop : Stop) (carriedOut : Bool)
  | killed (signal : Nat) (carriedOut : Bool)

inductive RecordType
  | cname
  | mx
  | txt
  | other (name : String)
  deriving DecidableEq

def RecordType.text : RecordType → String
  | .cname => "CNAME"
  | .mx => "MX"
  | .txt => "TXT"
  | .other name => name

structure DnsRecord where
  type : RecordType
  (name content : String)
  priority : Option Nat
  ttl : Nat
  proxied : Bool

abbrev Zone := OrderedMap String DnsRecord

structure Hestia where
  (mailDomain roundcube dkim : Bool)

structure Cloud where
  zone : Zone
  /-- There is an active zone for the domain. -/
  active : Bool
  tunnel : Option TunnelConfig
  /-- The lines of the file with the records of the DDNS service. -/
  ddnsRecords : Option (List String)
  hestia : Hestia
  calls : Nat

structure Env where
  outcome : Nat → Outcome
  /-- The identifier of a record that is created. -/
  newId : Zone → String
  newId_fresh : ∀ zone, newId zone ∉ zone.entries.map fst
  /-- The first line that `dig` prints, by attempt. -/
  dig : Nat → String
  /-- What `v-list-mail-domain-dkim-dns` prints. -/
  dkimDns : String

variable (env : Env) (test : DnsRecord → Bool) (type : RecordType)

def call (status : ExitCode → ExitCode) (carryOut : Cloud → Cloud) : Effect Cloud Stop Unit := ⟨fun s =>
  let next := { s with calls := s.calls + 1 }
  match env.outcome s.calls with
  | .done => (.ok (), carryOut next)
  | .failed stop carriedOut =>
    (.error { stop with code := status stop.code }, if carriedOut then carryOut next else next)
  | .killed signal carriedOut => (.error ⟨.ofSignal signal, ""⟩, if carriedOut then carryOut next else next)⟩

def cfRequest (carryOut : Cloud → Cloud) : Effect Cloud Stop Unit := call env (fun _ => 1) carryOut

def ssh (carryOut : Cloud → Cloud) : Effect Cloud Stop Unit := call env id carryOut

/-! ## Records -/

def rtrimDot (s : String) : String := if s.toList.getLast? = some '.' then String.ofList s.toList.dropLast else s

def recordsOf (name : String) (zone : Zone) : List (String × DnsRecord) :=
  zone.entries.filter fun r => r.2.type = type && r.2.name = name

def cfListRecords (name : String) : Effect Cloud Stop (List (String × DnsRecord)) := do
  cfRequest env id
  .read fun s => recordsOf type name s.zone

def cfWriteRecord (recordId : Option String) (payload : DnsRecord) : Effect Cloud Stop Unit :=
  cfRequest env fun s => { s with zone := s.zone.insert (recordId.getD (env.newId s.zone)) payload }

def cfDeleteRecord (recordId : String) : Effect Cloud Stop Unit :=
  cfRequest env fun s => { s with zone := s.zone.remove recordId }

structure Upsert where
  agrees : DnsRecord → Bool
  payload : DnsRecord
  (ambiguous conflicting : String)

def keepOne (ambiguous : String) (replaceExisting : Bool) (list : List (String × DnsRecord)) :
    Effect Cloud Stop (List (String × DnsRecord)) :=
  if 1 < list.length then
    if replaceExisting then do
      list.forM fun r => cfDeleteRecord env r.1
      return []
    else .fail ⟨5, ambiguous⟩
  else return list

def upsertRecord (u : Upsert) (replaceExisting : Bool) (list : List (String × DnsRecord)) : Effect Cloud Stop Unit := do
  let list ← keepOne env u.ambiguous replaceExisting list
  if list.length = 1 ∧ (list.filter fun r => !u.agrees r.2).length ≠ 0 ∧ replaceExisting = false then
    .fail ⟨5, u.conflicting⟩
  else cfWriteRecord env (list.head?.map fst) u.payload

def singleUpsert (name content : String) (proxied : Bool) (priority : Option Nat) : Upsert where
  agrees r := rtrimDot r.content = rtrimDot content
  payload :=
    if type = .mx then ⟨type, name, content, some (priority.getD 10), 1, false⟩
    else ⟨type, name, content, none, 1, proxied⟩
  ambiguous := s!"multiple {type.text} records exist for {name}; refusing ambiguous update"
  conflicting := s!"conflicting {type.text} record exists for {name}; refusing destructive replacement"

def cfUpsertSingleDns (name content : String) (proxied : Bool) (priority : Option Nat)
    (replaceExisting : Bool) : Effect Cloud Stop Unit := do
  let list ← cfListRecords env type name
  upsertRecord env (singleUpsert type name content proxied priority) replaceExisting list

def hasTag (tag content : String) : Bool := Text.startsWith (Text.toAsciiLowercase content) (Text.toAsciiLowercase tag)

def txtUpsert (name tag content : String) : Upsert where
  agrees r := r.content = content
  payload := ⟨.txt, name, content, none, 1, false⟩
  ambiguous := s!"duplicate TXT records beginning with '{tag}' exist for {name}"
  conflicting :=
    s!"conflicting TXT record beginning with '{tag}' exists for {name}; refusing destructive replacement"

def cfUpsertTxtPrefix (name tag content : String) (replaceExisting : Bool) : Effect Cloud Stop Unit := do
  let list ← cfListRecords env .txt name
  upsertRecord env (txtUpsert name tag content) replaceExisting (list.filter fun r => hasTag tag r.2.content)

/-! ## What an upsert writes -/

def writeId (zone : Zone) : String :=
  ((zone.entries.filter (test ·.2)).head?.map fst).getD (env.newId zone)

theorem writeId_cases (zone) :
    (∃ r, (writeId env test zone, r) ∈ zone ∧ test r) ∨ writeId env test zone ∉ zone.entries.map fst := by
  unfold writeId
  cases found : zone.entries.filter (test ·.2) with
  | nil => exact .inr (env.newId_fresh zone)
  | cons r =>
    have hmem : r ∈ zone.entries.filter (test ·.2) := found ▸ List.mem_cons_self
    obtain ⟨hr, htest⟩ := List.mem_filter.mp hmem
    exact .inl ⟨r.2, hr, htest⟩

def recordWrite (u : Upsert) : GuardedWrite Zone where
  admits zone := (zone.entries.filter (test ·.2)).length ≤ 1 ∧ ∀ r ∈ zone.entries.filter (test ·.2), u.agrees r.2
  write zone := zone.insert (writeId env test zone) u.payload

variable {env : Env} {standing : Cloud → Prop} {s : Cloud}

def Env.Smooth (env : Env) : Prop := ∀ n, env.outcome n = .done

def OffZone (standing : Cloud → Prop) : Prop :=
  ∀ s zone calls, standing s → standing { s with zone := zone, calls := calls }

variable {status : ExitCode → ExitCode} {carryOut : Cloud → Cloud} {u : Upsert}

theorem run_call_of_smooth (h : env.Smooth) :
    (call env status carryOut).run s = (.ok (), carryOut { s with calls := s.calls + 1 }) := by
  simp only [call, h s.calls]

theorem run_call_cases (env) (status) (carryOut) (s) :
    ((call env status carryOut).run s).2 = carryOut { s with calls := s.calls + 1 } ∨
      ((call env status carryOut).run s).2 = { s with calls := s.calls + 1 } ∧
        ∃ code, ((call env status carryOut).run s).1 = .error code := by
  simp only [call]
  cases env.outcome s.calls with
  | done => exact .inl rfl
  | failed _ carriedOut =>
    cases carriedOut
    · exact .inr ⟨rfl, _, rfl⟩
    · exact .inl rfl
  | killed _ carriedOut =>
    cases carriedOut
    · exact .inr ⟨rfl, _, rfl⟩
    · exact .inl rfl

theorem call_keeps {P : Cloud → Prop} (hnot : P { s with calls := s.calls + 1 })
    (hdone : P (carryOut { s with calls := s.calls + 1 })) : P ((call env status carryOut).run s).2 := by
  rcases run_call_cases env status carryOut s with h | ⟨h, -⟩
  · exact h ▸ hdone
  · exact h ▸ hnot

theorem performs_call (hoff : OffZone standing)
    (hzone : ∀ s, (carryOut s).zone = s.zone) (hstanding : ∀ s, standing s → standing (carryOut s)) :
    Performs Cloud.zone env.Smooth standing [] (call env status carryOut) := by
  refine .idle (fun s => ?_) (fun smooth s _ => ⟨(), by rw [run_call_of_smooth smooth]⟩) fun s hs => ?_
  · exact call_keeps (P := fun t => t.zone = s.zone) rfl (hzone _)
  · have hnext : standing { s with calls := s.calls + 1 } := hoff s s.zone _ hs
    exact call_keeps hnext (hstanding _ hnext)

theorem upsertRecord_of_admitted : ∀ {list}, list.length ≤ 1 ∧ (∀ r ∈ list, u.agrees r.2) →
      upsertRecord env u false list = cfWriteRecord env (list.head?.map fst) u.payload
  | [], _ => rfl
  | [r], h => if_neg (by simp [h.2 r List.mem_cons_self])
  | _ :: _ :: _, h => absurd h.1 (by simp)

theorem upsertRecord_of_not_admitted : ∀ {list},
    ¬ (list.length ≤ 1 ∧ ∀ r ∈ list, u.agrees r.2) → ∃ stop, upsertRecord env u false list = .fail stop
  | [], h => absurd ⟨Nat.zero_le 1, by simp⟩ h
  | [r], h => ⟨⟨5, u.conflicting⟩, if_pos (by simpa using h)⟩
  | r :: r' :: rest, _ => by
    refine ⟨⟨5, u.ambiguous⟩, ?_⟩
    rw [upsertRecord, keepOne, if_pos (by simp)]
    rfl

def ofName (type : RecordType) (name : String) (r : DnsRecord) : Bool := r.type = type && r.name = name

theorem performs_upsert (hoff : OffZone standing) (test) (u)
    {type : RecordType} {name : String} {select : List (String × DnsRecord) → List (String × DnsRecord)}
    (hsel : ∀ zone, select (recordsOf type name zone) = zone.entries.filter (test ·.2)) :
    Performs Cloud.zone env.Smooth standing [recordWrite env test u]
      (cfListRecords env type name >>= fun list => upsertRecord env u false (select list)) := by
  rw [cfListRecords, bind_assoc]
  refine .bind (l := []) (performs_call hoff (fun _ => rfl) fun _ hs => hs) fun _ => ?_
  have href : ∀ s : Cloud, ¬ (recordWrite env test u).admits s.zone →
      ∃ stop, upsertRecord env u false (select (recordsOf type name s.zone)) = .fail stop := fun s h => by
    rw [hsel]
    exact upsertRecord_of_not_admitted h
  have admits : ∀ s : Cloud, (recordWrite env test u).admits s.zone →
      upsertRecord env u false (select (recordsOf type name s.zone)) =
        cfWriteRecord env ((s.zone.entries.filter (test ·.2)).head?.map fst) u.payload := fun s h => by
    rw [hsel]
    exact upsertRecord_of_admitted h
  refine .single (fun s h => ?_) (fun s h => ?_) (fun smooth s _ h => ?_) fun s hs => ?_
  · obtain ⟨stop, hstop⟩ := href s h
    rw [run_read_bind, hstop]
    exact ⟨rfl, stop, rfl⟩
  · rw [run_read_bind, admits s h, cfWriteRecord, cfRequest]
    rcases run_call_cases env (fun _ => 1) _ s with hrun | ⟨hrun, hcode⟩
    · exact .inl (by rw [hrun]; rfl)
    · exact .inr ⟨by rw [hrun], hcode⟩
  · rw [run_read_bind, admits s h, cfWriteRecord, cfRequest, run_call_of_smooth smooth]
    exact ⟨(), rfl⟩
  · rw [run_read_bind]
    by_cases h : (recordWrite env test u).admits s.zone
    · rw [admits s h, cfWriteRecord, cfRequest]
      exact call_keeps (hoff s s.zone _ hs) (hoff s _ _ hs)
    · obtain ⟨stop, hstop⟩ := href s h
      rw [hstop]
      exact hs

theorem performs_cfUpsertSingleDns (hoff : OffZone standing) (type : RecordType) (name) (content)
    (proxied : Bool) (priority) : Performs Cloud.zone env.Smooth standing
      [recordWrite env (ofName type name) (singleUpsert type name content proxied priority)]
      (cfUpsertSingleDns env type name content proxied priority false) :=
  performs_upsert hoff _ _ fun _ => rfl

def ofTag (name tag : String) (r : DnsRecord) : Bool := ofName .txt name r && hasTag tag r.content

theorem performs_cfUpsertTxtPrefix (hoff : OffZone standing) (name) (tag) (content) :
    Performs Cloud.zone env.Smooth standing [recordWrite env (ofTag name tag) (txtUpsert name tag content)]
      (cfUpsertTxtPrefix env name tag content false) :=
  performs_upsert hoff _ _ fun zone => by
    rw [recordsOf, List.filter_filter]
    exact List.filter_congr fun r _ => Bool.and_comm _ _

end Nexus.DomainsHelper
