import Nexus.Lib.FirstMatch
import Nexus.Lib.JsonValue

/-!
# The ingress rules of the tunnel

`cf_upsert_tunnel_ingress` of `services/nexus-domains-helper` puts the rule for a hostname after the others with a
hostname. The tunnel goes by the first rule that matches, so this changes where requests go unless the rules with a
hostname came first anyway, and no wildcard covers the new one (`upserted_iff`).
-/

namespace Nexus.DomainsHelper

open Lib List Option

/-! ## Rules -/

structure IngressRule where
  (hostname path : Option String)
  service : String
  originRequest : Option Value

def hostMatches (pattern host : String) : Bool :=
  pattern = host || match pattern.toList with
    | '*' :: '.' :: rest => ('.' :: rest).isSuffixOf host.toList
    | _ => false

variable (pathMatches : String → String → Bool)

def IngressRule.covers (host path : String) (r : IngressRule) : Bool :=
  r.hostname.all (hostMatches · host) && r.path.all (pathMatches · path)

def route (ingress : List IngressRule) (host path : String) : Option IngressRule :=
  ingress.find? (IngressRule.covers pathMatches host path)

/-! ## The configuration -/

structure TunnelConfig where
  ingress : Option (List IngressRule)
  other : List (String × Value)

def notFoundRule : IngressRule := ⟨none, none, "http_status:404", none⟩

def defaultConfig : TunnelConfig := ⟨some [notFoundRule], []⟩

def webmailRule (hostname service : String) (noTlsVerify : Bool) : IngressRule :=
  ⟨some hostname, none, service, some (.object [("noTLSVerify", .bool noTlsVerify)])⟩

def named (hostname : String) (ingress : List IngressRule) : List IngressRule :=
  (ingress.filter (·.hostname ≠ some hostname)).filter (·.hostname.isSome)

def fallback (hostname : String) (ingress : List IngressRule) : List IngressRule :=
  (ingress.filter (·.hostname ≠ some hostname)).filter (!·.hostname.isSome)

def upsertIngress (hostname service : String) (noTlsVerify : Bool) (ingress : List IngressRule) : List IngressRule :=
  named hostname ingress ++ [webmailRule hostname service noTlsVerify] ++
    (if 0 < (fallback hostname ingress).length then fallback hostname ingress else [notFoundRule])

def rulesOf (config : Option TunnelConfig) : List IngressRule := (config.getD defaultConfig).ingress.getD []

def upsertTunnelIngress (hostname service : String) (noTlsVerify : Bool) (config : Option TunnelConfig) :
    TunnelConfig :=
  { config.getD defaultConfig with ingress := some (upsertIngress hostname service noTlsVerify (rulesOf config)) }

theorem rulesOf_upsertTunnelIngress (hostname service : String) (noTlsVerify : Bool) (config) :
    rulesOf (some (upsertTunnelIngress hostname service noTlsVerify config)) =
      upsertIngress hostname service noTlsVerify (rulesOf config) := rfl

/-! ## What becomes of the rules -/

variable {hostname service host : String} {noTlsVerify : Bool} {ingress : List IngressRule} {r : IngressRule}

theorem mem_fallback : r ∈ fallback hostname ingress ↔ r ∈ ingress ∧ r.hostname = none := by
  simp only [fallback, mem_filter, decide_eq_true_eq, Bool.not_eq_true', isSome_eq_false_iff, isNone_iff_eq_none]
  constructor
  · rintro ⟨⟨hr, -⟩, hnone⟩
    exact ⟨hr, hnone⟩
  · rintro ⟨hr, hnone⟩
    exact ⟨⟨hr, by rw [hnone]; exact nofun⟩, hnone⟩

theorem mem_named : r ∈ named hostname ingress ↔ r ∈ ingress ∧ r.hostname ≠ some hostname ∧ r.hostname ≠ none := by
  simp only [named, mem_filter, decide_eq_true_eq, isSome_iff_ne_none, and_assoc]

def rest (hostname : String) (ingress : List IngressRule) : List IngressRule :=
  if 0 < (fallback hostname ingress).length then fallback hostname ingress else [notFoundRule]

theorem hostname_of_mem_rest (h : r ∈ rest hostname ingress) : r.hostname = none := by
  unfold rest at h
  split at h
  · exact (mem_fallback.mp h).2
  · rw [mem_singleton.mp h]
    rfl

theorem rest_ne_nil : rest hostname ingress ≠ [] := by
  unfold rest
  split
  · next h => exact ne_nil_of_length_pos h
  · exact cons_ne_nil _ _

theorem upsertIngress_eq : upsertIngress hostname service noTlsVerify ingress =
    named hostname ingress ++ webmailRule hostname service noTlsVerify :: rest hostname ingress := by
  rw [upsertIngress, append_assoc]
  rfl

theorem upsertIngress_upsertIngress : upsertIngress hostname service noTlsVerify
    (upsertIngress hostname service noTlsVerify ingress) = upsertIngress hostname service noTlsVerify ingress := by
  have other : ∀ r ∈ rest hostname ingress, r.hostname ≠ some hostname := fun r hr => by
    rw [hostname_of_mem_rest hr]
    exact nofun
  have hwith : (upsertIngress hostname service noTlsVerify ingress).filter (·.hostname ≠ some hostname) =
      named hostname ingress ++ rest hostname ingress := by
    rw [upsertIngress_eq, filter_append, filter_cons_of_neg (by simp [webmailRule])]
    congr 1
    · exact filter_eq_self.mpr fun r hr => decide_eq_true (mem_named.mp hr).2.1
    · exact filter_eq_self.mpr fun r hr => decide_eq_true (other r hr)
  have hnamed : named hostname (upsertIngress hostname service noTlsVerify ingress) = named hostname ingress := by
    rw [named, hwith, filter_append, filter_eq_self.mpr fun r (hr : r ∈ named hostname ingress) => (mem_filter.mp hr).2,
      filter_eq_nil_iff.mpr fun r (hr : r ∈ rest hostname ingress) => by simp [hostname_of_mem_rest hr],
      append_nil]
  have hfall : fallback hostname (upsertIngress hostname service noTlsVerify ingress) = rest hostname ingress := by
    rw [fallback, hwith, filter_append,
      filter_eq_nil_iff.mpr fun r (hr : r ∈ named hostname ingress) => by simp [(mem_filter.mp hr).2],
      filter_eq_self.mpr fun r (hr : r ∈ rest hostname ingress) => by simp [hostname_of_mem_rest hr],
      nil_append]
  rw [upsertIngress_eq, hnamed, rest, hfall, if_pos (length_pos_of_ne_nil rest_ne_nil), ← upsertIngress_eq]

/-! ## Where requests go -/

variable {pathMatches} {path : String}

def webmailHost (domain : String) : String := "webmail." ++ domain

theorem hostMatches_webmailHost (domain host : String) :
    hostMatches (webmailHost domain) host ↔ webmailHost domain = host := by
  have hlist : (webmailHost domain).toList = 'w' :: ("ebmail.".toList ++ domain.toList) := String.toList_append
  have hno : hostMatches (webmailHost domain) host = (decide (webmailHost domain = host) || false) := by
    rw [hostMatches, hlist]
    rfl
  rw [hno, Bool.or_false, decide_eq_true_eq]

def Ordered (pathMatches : String → String → Bool) (ingress : List IngressRule) (host path : String) : Prop :=
  ∀ r, route pathMatches ingress host path = some r → r.hostname = none →
    ∀ x ∈ ingress, x.covers pathMatches host path → x.hostname = none

/-- Only requests for the hostname go elsewhere, and it can be repeated. -/
structure Upserted (pathMatches : String → String → Bool) (hostname service : String)
    (upsert : Option TunnelConfig → TunnelConfig) (config : Option TunnelConfig) : Prop where
  own : ∀ path, (route pathMatches (rulesOf (some (upsert config))) hostname path).map (·.service) = some service
  others : ∀ host, host ≠ hostname → ∀ path,
    route pathMatches (rulesOf (some (upsert config))) host path = route pathMatches (rulesOf config) host path
  catchAll : ∃ r ∈ (rulesOf (some (upsert config))).getLast?, ∀ host path, r.covers pathMatches host path
  again : upsert (some (upsert config)) = upsert config

/-- The webmail can be added without a change for other hostnames. -/
structure Receptive (pathMatches : String → String → Bool) (hostname service : String) (ingress : List IngressRule) :
    Prop where
  /-- The rules for other hostnames leave the webmail alone. -/
  own : ∀ path r, route pathMatches (named hostname ingress) hostname path = some r → r.service = service
  ordered : ∀ host, host ≠ hostname → ∀ path, Ordered pathMatches ingress host path
  matched : (∃ r ∈ ingress, r.hostname = none) ∨
    ∀ host, host ≠ hostname → ∀ path, (route pathMatches ingress host path).isSome
  /-- The last rule without a hostname is for all paths. -/
  last : ∀ r ∈ (fallback hostname ingress).getLast?, ∀ path, r.path.all (pathMatches · path)

theorem catchAll_iff : (∃ r ∈ (upsertIngress hostname service noTlsVerify ingress).getLast?,
      ∀ host path, r.covers pathMatches host path) ↔
    ∀ r ∈ (fallback hostname ingress).getLast?, ∀ path, r.path.all (pathMatches · path) := by
  have hlast : (upsertIngress hostname service noTlsVerify ingress).getLast? = (rest hostname ingress).getLast? := by
    rw [upsertIngress_eq, getLast?_append_of_ne_nil _ (cons_ne_nil _ _), getLast?_cons_of_ne_nil rest_ne_nil]
  rw [hlast, rest]
  split
  · next hpos =>
    obtain ⟨r, hr⟩ := getLast?_isSome.mpr (ne_nil_of_length_pos hpos) |> Option.isSome_iff_exists.mp
    have hnone := (mem_fallback.mp (mem_of_getLast? hr)).2
    simp [hr, IngressRule.covers, hnone]
  · next hzero =>
    have empty : fallback hostname ingress = [] := eq_nil_of_length_eq_zero (by omega)
    simp [empty, notFoundRule, IngressRule.covers]

section

variable (hplain : ∀ host, hostMatches hostname host ↔ hostname = host)

include hplain

theorem covers_webmailRule : (webmailRule hostname service noTlsVerify).covers pathMatches host path ↔
    hostname = host := by
  simp [IngressRule.covers, webmailRule, hplain]

theorem hostname_ne_of_covers (hhost : host ≠ hostname) (h : r.covers pathMatches host path) :
    r.hostname ≠ some hostname := by
  intro hr
  simp only [IngressRule.covers, hr, all_some, Bool.and_eq_true, hplain] at h
  exact hhost h.1.symm

theorem route_webmailHost : route pathMatches (upsertIngress hostname service noTlsVerify ingress)
    hostname path = (route pathMatches (named hostname ingress) hostname path).or
        (some (webmailRule hostname service noTlsVerify)) := by
  rw [route, upsertIngress_eq, find?_append, find?_cons_of_pos ((covers_webmailRule hplain).mpr rfl)]
  rfl

section

variable (hhost : host ≠ hostname)

include hhost

theorem route_of_ne : route pathMatches (upsertIngress hostname service noTlsVerify ingress) host path =
      route pathMatches (named hostname ingress ++ rest hostname ingress) host path := by
  have hno : ¬ (webmailRule hostname service noTlsVerify).covers pathMatches host path :=
    fun h => hhost ((covers_webmailRule hplain).mp h).symm
  rw [route, upsertIngress_eq, find?_append, find?_cons_of_neg hno, ← find?_append]
  rfl

theorem route_without : route pathMatches (ingress.filter (·.hostname ≠ some hostname)) host path =
      route pathMatches ingress host path :=
  find?_filter_of_forall fun _ _ h => decide_eq_true (hostname_ne_of_covers hplain hhost h)

theorem route_partition_iff : route pathMatches (named hostname ingress ++ fallback hostname ingress) host path =
      route pathMatches ingress host path ↔ Ordered pathMatches ingress host path := by
  have hsame : route pathMatches (ingress.filter (·.hostname ≠ some hostname)) host path =
      route pathMatches ingress host path := route_without hplain hhost
  rw [← hsame]
  refine find?_partition_iff.trans ⟨fun h r hr hnone x hx covers => ?_, fun h r hr hnone x hx covers => ?_⟩
  · have hx' : x ∈ ingress.filter (·.hostname ≠ some hostname) :=
      mem_filter.mpr ⟨hx, decide_eq_true (hostname_ne_of_covers hplain hhost covers)⟩
    simpa using h r (hsame.trans hr) (by rw [hnone]; rfl) x hx' covers
  · have hnone' : x.hostname = none :=
      h r (hsame.symm.trans hr) (by simpa using hnone) x (mem_filter.mp hx).1 covers
    rw [hnone']
    rfl

theorem route_of_ne_eq_iff : route pathMatches (upsertIngress hostname service noTlsVerify ingress) host path =
        route pathMatches ingress host path ↔ Ordered pathMatches ingress host path ∧
        ((∃ r ∈ ingress, r.hostname = none) ∨ (route pathMatches ingress host path).isSome) := by
  rw [route_of_ne hplain hhost]
  by_cases hunn : ∃ r ∈ ingress, r.hostname = none
  · have hrest : rest hostname ingress = fallback hostname ingress := by
      obtain ⟨r, hr⟩ := hunn
      exact if_pos (length_pos_of_mem (mem_fallback.mpr hr))
    rw [hrest, and_iff_left (.inl hunn), route_partition_iff hplain hhost]
  · have empty : fallback hostname ingress = [] :=
      eq_nil_iff_forall_not_mem.mpr fun r hr => hunn ⟨r, mem_fallback.mp hr⟩
    have hord : Ordered pathMatches ingress host path :=
      fun r hr hnone => absurd ⟨r, mem_of_find?_eq_some hr, hnone⟩ hunn
    have hkept := (route_partition_iff hplain hhost).mpr hord
    have hnew : route pathMatches (named hostname ingress ++ rest hostname ingress) host path =
        (route pathMatches ingress host path).or (some notFoundRule) := by
      rw [empty, append_nil] at hkept
      rw [rest, empty, ← hkept, route, find?_append]
      rfl
    rw [hnew, and_iff_right hord, or_iff_right hunn]
    cases route pathMatches ingress host path <;> simp

end

theorem own_iff : (∀ path, (route pathMatches (upsertIngress hostname service noTlsVerify ingress)
      hostname path).map (·.service) = some service) ↔
    ∀ path r, route pathMatches (named hostname ingress) hostname path = some r → r.service = service := by
  refine forall_congr' fun path => ?_
  rw [route_webmailHost hplain]
  cases route pathMatches (named hostname ingress) hostname path with
  | none => simp [webmailRule]
  | some => simp

theorem others_iff : (∀ host, host ≠ hostname → ∀ path,
      route pathMatches (upsertIngress hostname service noTlsVerify ingress) host path =
        route pathMatches ingress host path) ↔
    (∀ host, host ≠ hostname → ∀ path, Ordered pathMatches ingress host path) ∧ ((∃ r ∈ ingress, r.hostname = none) ∨
        ∀ host, host ≠ hostname → ∀ path, (route pathMatches ingress host path).isSome) := by
  constructor
  · intro h
    have hboth := fun host hhost path => (route_of_ne_eq_iff hplain hhost).mp (h host hhost path)
    refine ⟨fun host hhost path => (hboth host hhost path).1, ?_⟩
    refine or_iff_not_imp_left.mpr fun hno host hhost path => ?_
    exact (hboth host hhost path).2.resolve_left hno
  · rintro ⟨hord, matched⟩ host hhost path
    refine (route_of_ne_eq_iff hplain hhost).mpr ⟨hord host hhost path, ?_⟩
    exact matched.imp_right fun h => h host hhost path

end

/-- **`cf_upsert_tunnel_ingress` routes the webmail and nothing else** exactly if the rules are receptive. -/
theorem upserted_iff (pathMatches : String → String → Bool) (domain service : String) (noTlsVerify : Bool)
    (config : Option TunnelConfig) :
    Upserted pathMatches (webmailHost domain) service (upsertTunnelIngress (webmailHost domain) service noTlsVerify)
      config ↔ Receptive pathMatches (webmailHost domain) service (rulesOf config) := by
  have hplain := hostMatches_webmailHost domain
  constructor
  · rintro ⟨hown, other, hlast, -⟩
    rw [rulesOf_upsertTunnelIngress] at hown other hlast
    obtain ⟨hord, matched⟩ := (others_iff hplain).mp other
    exact ⟨(own_iff hplain).mp hown, hord, matched, catchAll_iff.mp hlast⟩
  · rintro ⟨hown, hord, matched, hlast⟩
    refine ⟨?_, ?_, ?_, ?_⟩
    · exact (own_iff hplain).mpr hown
    · exact (others_iff hplain).mpr ⟨hord, matched⟩
    · exact catchAll_iff.mpr hlast
    · rw [upsertTunnelIngress, rulesOf_upsertTunnelIngress, upsertIngress_upsertIngress]
      rfl

namespace Sample

def wildcard : TunnelConfig :=
  ⟨some [⟨some "*.example.com", none, "http://192.168.0.40:8080", none⟩, notFoundRule], []⟩

end Sample

/-- The rule for all hosts of the domain stays before that of the webmail. -/
theorem wildcard_takes_webmail : ¬ Upserted (fun pattern path => decide (pattern = path)) (webmailHost "example.com")
    "http://192.168.0.29:80" (upsertTunnelIngress (webmailHost "example.com") "http://192.168.0.29:80" false)
    (some Sample.wildcard) := by
  intro h
  have hown := h.own "/"
  revert hown
  decide

end Nexus.DomainsHelper
