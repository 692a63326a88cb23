import Nexus.Access
import Nexus.Resource

/-!
# The firewall overview

`pve_firewall_status` of `server/src/api/pve/firewall.rs` lists all PVE remotes. Its permission is on the path
`/resource/{remote}`, but the call has no parameter `remote`. Whether the router then denies the call or admits it, the
answer follows the privileges of the caller only if the call is admitted and the caller may audit every PVE remote
(`pveFirewallStatus_follows_iff`).
-/

namespace Nexus.Firewall

/-! ## Permissions of the router -/

inductive Component
  | text (s : String)
  | placeholder (parameter : String)

/-- What the router does with a path that has an unbound parameter. -/
inductive Policy
  | deny
  | allow
  deriving DecidableEq

def resolve (params : List (String × String)) : Component → Option String
  | .text s => some s
  | .placeholder parameter => params.lookup parameter

/-- `policy` is for a placeholder without a parameter. -/
def checkPermission (policy : Policy) (userInfo : CachedUserInfo) (auth : Authid) (params : List (String × String))
    (path : List Component) (required : UInt64) : Except ApiError Unit :=
  let admitted := auth = "root@pam" || match path.mapM (resolve params) with
    | some path => decide (userInfo.Holds auth path required)
    | none => policy = .allow
  if admitted then .ok () else .error (.forbidden "permission check failed")

/-! ## The call -/

variable {φ γ ν : Type}

structure RemoteFirewallStatus (φ ν : Type) where
  remote : String
  status : Option φ
  nodes : List ν

structure Responses (φ γ ν : Type) where
  cluster : String → Option (Except ApiError (Option φ × List γ))
  node : (String → Option (List γ)) → String → Option (Except ApiError (List (Except ApiError ν)))

def entry (responses : Responses φ γ ν) (remote : Remote) : RemoteFirewallStatus φ ν :=
  let guests := fun id => (responses.cluster id).bind fun r => r.toOption.map Prod.snd
  let nodes := responses.node guests remote.id
  { remote := remote.id
    status := match nodes with
      | some (.error _) => none
      | _ => (responses.cluster remote.id).bind fun r => r.toOption.bind Prod.fst
    nodes := match nodes with
      | some (.ok nodes) => nodes.filterMap Except.toOption
      | _ => [] }

def pveRemotes (remotes : RemotesConfig) : List Remote := (remotes.entries.filter (·.2.ty = .pve)).map Prod.snd

def pveFirewallStatus (policy : Policy) (userInfo : CachedUserInfo) (remotes : RemotesConfig)
    (responses : Responses φ γ ν) (auth : Authid) : Except ApiError (List (RemoteFirewallStatus φ ν)) := do
  checkPermission policy userInfo auth [] [.text "resource", .placeholder "remote"] privResourceAudit
  return (pveRemotes remotes).map (entry responses)

/-! ## What the answer should be -/

abbrev Audits (userInfo : CachedUserInfo) (auth : Authid) (remote : Remote) : Prop :=
  userInfo.Holds auth ["resource", remote.id] privResourceAudit

/-- There is one entry for each PVE remote that the caller audits. -/
def Follows (userInfo : CachedUserInfo) (remotes : RemotesConfig) (auth : Authid)
    (answer : Except ApiError (List (RemoteFirewallStatus φ ν))) : Prop :=
  ∃ entries, answer = .ok entries ∧ (entries.map RemoteFirewallStatus.remote).Nodup ∧
    ∀ name, name ∈ entries.map RemoteFirewallStatus.remote ↔
      ∃ remote ∈ pveRemotes remotes, remote.id = name ∧ Audits userInfo auth remote

theorem nodup_pveRemotes (remotes) : ((pveRemotes remotes).map Remote.id).Nodup := by
  have hids : (pveRemotes remotes).map Remote.id = (remotes.entries.filter (·.2.ty = .pve)).map Prod.fst := by
    rw [pveRemotes, List.map_map]
    exact List.map_congr_left fun p hp => remotes.id_eq p (List.mem_filter.mp hp).1
  rw [hids]
  exact remotes.keys_nodup.sublist (List.filter_sublist.map _)

/-- **For a caller who is no superuser, the answer follows the privileges exactly if the router admits the call and the
caller may audit every PVE remote.** -/
theorem pveFirewallStatus_follows_iff (policy : Policy) {userInfo : CachedUserInfo} {remotes : RemotesConfig}
    (responses : Responses φ γ ν) {auth : Authid} (hauth : auth ≠ "root@pam") :
    Follows userInfo remotes auth (pveFirewallStatus policy userInfo remotes responses auth) ↔
      policy = .allow ∧ ∀ remote ∈ pveRemotes remotes, Audits userInfo auth remote := by
  cases policy with
  | deny =>
    refine iff_of_false ?_ nofun
    rintro ⟨_, answer, _⟩
    simp [pveFirewallStatus, checkPermission, hauth, resolve, bind, Except.bind] at answer
  | allow =>
    have answer : pveFirewallStatus .allow userInfo remotes responses auth =
        .ok ((pveRemotes remotes).map (entry responses)) := by
      simp [pveFirewallStatus, checkPermission, hauth, resolve, bind, Except.bind, pure, Except.pure]
    have names : ((pveRemotes remotes).map (entry responses)).map RemoteFirewallStatus.remote =
        (pveRemotes remotes).map Remote.id := by
      rw [List.map_map]
      rfl
    have hnd := nodup_pveRemotes remotes
    simp only [answer, Follows, true_and, Except.ok.injEq, exists_eq_left', names, hnd]
    constructor
    · intro h remote hrem
      obtain ⟨other, hoth, hid, audits⟩ := (h remote.id).mp (List.mem_map_of_mem hrem)
      rwa [Audits, ← hid]
    · intro h name
      rw [List.mem_map]
      exact ⟨fun ⟨remote, hrem, hid⟩ => ⟨remote, hrem, hid, h remote hrem⟩,
        fun ⟨remote, hrem, hid, _⟩ => ⟨remote, hrem, hid⟩⟩

def twoRemotes : RemotesConfig where
  entries := [("north", ⟨.pve, "north"⟩), ("south", ⟨.pve, "south"⟩)]
  keys_nodup := by decide
  id_eq := by decide

def auditing (names : List String) : CachedUserInfo where
  lookupPrivs _ path := if path ∈ names.map (["resource", ·]) then privResourceAudit else 0
  anyPrivsBelow _ _ _ := .ok true

def silent : Responses Unit Unit Unit := ⟨fun _ => none, fun _ _ => none⟩

theorem pveFirewallStatus_audits_all : Follows (auditing ["north", "south"]) twoRemotes "joe@pve"
    (pveFirewallStatus .allow (auditing ["north", "south"]) twoRemotes silent "joe@pve") :=
  (pveFirewallStatus_follows_iff .allow silent (by decide)).mpr ⟨rfl, by decide⟩

/-- The call is denied, or it also has an entry for the remote that the caller may not audit. -/
theorem pveFirewallStatus_audits_one :
    Audits (auditing ["north"]) "joe@pve" ⟨.pve, "north"⟩ ∧ ¬ Audits (auditing ["north"]) "joe@pve" ⟨.pve, "south"⟩ ∧
      pveFirewallStatus .deny (auditing ["north"]) twoRemotes silent "joe@pve" =
        .error (.forbidden "permission check failed") ∧
      pveFirewallStatus .allow (auditing ["north"]) twoRemotes silent "joe@pve" =
        .ok [⟨"north", none, []⟩, ⟨"south", none, []⟩] := by
  refine ⟨by decide, by decide, rfl, rfl⟩

end Nexus.Firewall
