import Nexus.Users

/-!
# Tickets for consoles

Tickets of `server/src/api/nodes/termproxy.rs`, `api/remotes/shell.rs`, `api/pve/qemu.rs` and `api/pve/lxc.rs` have one
prefix and one key. What a ticket is for is only in the signed text. The websockets tell all consoles apart
(`Console.path_inj`); the check of `server/src/auth/mod.rs` takes path and port from its caller, and moves digits from
one to the other (`accepted_same_console_iff`).
-/

namespace Nexus.Consoles

open Lib Users String Except

structure Caller where
  authId : Users.Authid
  noSlash : '/' ∉ authId.text.toList

structure RemoteId where
  id : String
  noSlash : '/' ∉ id.toList
  deriving DecidableEq

inductive TermTicketType
  | lxc
  | qemuTerm
  | qemuVnc (ticket : String) (port : Int)
  deriving DecidableEq

inductive Content
  | empty
  | term (kind : TermTicketType)
  deriving DecidableEq

structure Ticket where
  content : Content
  aad : String
  deriving DecidableEq

def Ticket.verifyEmpty (ticket : Ticket) (aad : String) : Bool :=
  match ticket.content with
  | .empty => ticket.aad = aad
  | .term _ => false

def Ticket.verifyTerm (ticket : Ticket) (aad : String) : Bool :=
  match ticket.content with
  | .empty => false
  | .term _ => ticket.aad = aad

inductive Console
  | system (path : String) (port : UInt16)
  | shell (remote : RemoteId) (node : String)
  | lxc (remote : RemoteId) (vmid : UInt32)
  | qemu (remote : RemoteId) (vmid : UInt32)
  deriving DecidableEq

def encodeTermTicketPath (kind : String) (remote : RemoteId) (target : String) : String :=
  kind ++ remote.id ++ "/" ++ target

def Console.path : Console → String
  | .system path port => path ++ toString port.toNat
  | .shell remote node => encodeTermTicketPath "/shell/" remote node
  | .lxc remote vmid => encodeTermTicketPath "/lxc-shell/" remote (toString vmid.toNat)
  | .qemu remote vmid => encodeTermTicketPath "/qemu-shell/" remote (toString vmid.toNat)

/-! ## Issuing -/

def getUser (authId : Except ApiError Caller) : Except ApiError Users.Userid := do
  let caller ← authId
  if caller.authId.tokenname.isSome then throw (.other "API tokens cannot access this API endpoint")
  return caller.authId.user

variable (authId : Except ApiError Caller)

def createTermTicket (path : String) (content : Content) : Except ApiError Ticket := do
  let userid ← getUser authId
  return { content, aad := userid.text ++ path }

/-- Signs before it looks at the command. -/
def termproxy (cmd : Option String) (port : UInt16) : Except ApiError Ticket := do
  let userid ← getUser authId
  let ticket : Ticket := { content := .empty, aad := userid.text ++ "/system" ++ toString port.toNat }
  match cmd with
  | none | some "login" => return ticket
  | some "upgrade" => if userid.text = "root@pam" then return ticket else throw (.other "only root@pam can upgrade")
  | some _ => throw (.other "invalid command")

inductive Issue
  | termproxy (cmd : Option String) (port : UInt16)
  | shellTicket (remote : RemoteId) (node : String)
  | lxcShellTicket (remote : RemoteId) (vmid : UInt32)
  | qemuShellTicket (remote : RemoteId) (vmid : UInt32)
  | qemuVncTicket (remote : RemoteId) (vmid : UInt32) (answer : Except ApiError (String × Int))

def issue : Issue → Except ApiError Ticket
  | .termproxy cmd port => termproxy authId cmd port
  | .shellTicket remote node => createTermTicket authId (encodeTermTicketPath "/shell/" remote node) .empty
  | .lxcShellTicket remote vmid =>
    createTermTicket authId (encodeTermTicketPath "/lxc-shell/" remote (toString vmid.toNat)) (.term .lxc)
  | .qemuShellTicket remote vmid =>
    createTermTicket authId (encodeTermTicketPath "/qemu-shell/" remote (toString vmid.toNat)) (.term .qemuTerm)
  | .qemuVncTicket remote vmid answer => do
    let (ticket, port) ← answer
    createTermTicket authId (encodeTermTicketPath "/qemu-shell/" remote (toString vmid.toNat))
      (.term (.qemuVnc ticket port))

def Issue.console : Issue → Console
  | .termproxy _ port => .system "/system" port
  | .shellTicket remote node => .shell remote node
  | .lxcShellTicket remote vmid => .lxc remote vmid
  | .qemuShellTicket remote vmid | .qemuVncTicket remote vmid _ => .qemu remote vmid

/-! ## Checking -/

def privileges : List (String × UInt64) :=
  ["System.Audit", "System.Modify", "Sys.Console", "Sys.PowerManagement", "Resource.Audit", "Resource.Manage",
    "Resource.Modify", "Resource.Create", "Resource.Delete", "Resource.Migrate", "Access.Audit", "Access.Modify",
    "Realm.Allocate"].zipIdx.map fun entry => (entry.1, privBit entry.2)

def checkPathTicket (userInfo : CachedUserInfo) (authId : Users.Authid) (password : Option Ticket) (path privs : String)
    (port : UInt16) : Except ApiError (Option Bool) :=
  match password with
  | none => return none
  | some ticket =>
    if ticket.verifyEmpty (authId.text ++ path ++ toString port.toNat) then
      match privileges.find? (·.1 = privs) with
      | some (_, privilege) => do
        userInfo.checkPrivs authId.text ((Text.split '/' path).filter (· ≠ "")) privilege
        return some true
      | none => return some false
    else return some false

/-- Only the lower 16 bits of the port of the system websocket are used. -/
inductive Check
  | systemWebsocket (port : Int)
  | shellWebsocket (remote : RemoteId) (node : String)
  | lxcWebsocket (remote : RemoteId) (vmid : UInt32)
  | qemuWebsocket (remote : RemoteId) (vmid : UInt32)
  | pathTicket (path privs : String) (port : UInt16)

def upgradeToWebsocket (caller : Caller) (verify : String → Bool) (path : String) : Except ApiError (Option Bool) := do
  let userid ← getUser (.ok caller)
  return some (verify (userid.text ++ path))

def check (userInfo : CachedUserInfo) (caller : Caller) (ticket : Ticket) : Check → Except ApiError (Option Bool)
  | .systemWebsocket port =>
    upgradeToWebsocket caller ticket.verifyEmpty ("/system" ++ toString (UInt16.ofInt port).toNat)
  | .shellWebsocket remote node =>
    upgradeToWebsocket caller ticket.verifyEmpty (encodeTermTicketPath "/shell/" remote node)
  | .lxcWebsocket remote vmid =>
    upgradeToWebsocket caller ticket.verifyTerm (encodeTermTicketPath "/lxc-shell/" remote (toString vmid.toNat))
  | .qemuWebsocket remote vmid =>
    upgradeToWebsocket caller ticket.verifyTerm (encodeTermTicketPath "/qemu-shell/" remote (toString vmid.toNat))
  | .pathTicket path privs port => checkPathTicket userInfo caller.authId (some ticket) path privs port

/-- The port of a websocket is taken modulo `2^16`. -/
def Check.console : Check → Console
  | .systemWebsocket port => .system "/system" (UInt16.ofInt port)
  | .shellWebsocket remote node => .shell remote node
  | .lxcWebsocket remote vmid => .lxc remote vmid
  | .qemuWebsocket remote vmid => .qemu remote vmid
  | .pathTicket path _ port => .system path port

/-! ## The text of a ticket determines the console -/

/-- Tickets are issued for the console. -/
def Console.Issuable : Console → Prop
  | .system path _ => path = "/system"
  | _ => True

theorem issue_issuable : ∀ request : Issue, request.console.Issuable
  | .termproxy .. => rfl
  | .shellTicket .. | .lxcShellTicket .. | .qemuShellTicket .. | .qemuVncTicket .. => trivial

theorem Console.path_slash : ∀ {console : Console}, console.Issuable → ∃ rest, console.path.toList = '/' :: rest
  | .system _ _, rfl | .shell .., _ | .lxc .., _ | .qemu .., _ => ⟨_, by simp [path, encodeTermTicketPath]; rfl⟩

theorem encodeTermTicketPath_inj {kind target target' remote remote'}
    (h : encodeTermTicketPath kind remote target = encodeTermTicketPath kind remote' target') :
    remote = remote' ∧ target = target' := by
  have hlist := congrArg toList h
  simp only [encodeTermTicketPath, toList_append, List.append_assoc, List.append_cancel_left_eq] at hlist
  obtain ⟨hid, htgt⟩ := Text.append_cons_inj remote.noSlash remote'.noSlash hlist
  cases remote
  cases remote'
  cases String.toList_inj.mp hid
  exact ⟨rfl, String.toList_inj.mp htgt⟩

theorem toString_inj {m n : Nat} (h : toString m = toString n) : m = n := by
  have digits : Nat.toDigits 10 m = Nat.toDigits 10 n := ofList_injective h
  have value := congrArg (Nat.ofDigitChars 10 · 0) digits
  simpa using value

theorem Console.path_inj : ∀ {console console' : Console}, console.Issuable → console'.Issuable →
    console.path = console'.path → console = console'
  | .system _ port, .system _ port', rfl, rfl, h => by
    have hport := toString_inj ((append_right_inj _).mp h)
    rw [UInt16.toNat_inj.mp hport]
  | .shell .., .shell .., _, _, h => by
    obtain ⟨rfl, rfl⟩ := encodeTermTicketPath_inj h
    rfl
  | .lxc .., .lxc .., _, _, h | .qemu .., .qemu .., _, _, h => by
    obtain ⟨rfl, vmid⟩ := encodeTermTicketPath_inj h
    rw [UInt32.toNat_inj.mp (toString_inj vmid)]
  | .system .., .shell .., hc, hd, h | .system .., .lxc .., hc, hd, h | .system .., .qemu .., hc, hd, h
  | .shell .., .system .., hc, hd, h | .lxc .., .system .., hc, hd, h | .qemu .., .system .., hc, hd, h
  | .shell .., .lxc .., hc, hd, h | .shell .., .qemu .., hc, hd, h | .lxc .., .shell .., hc, hd, h
  | .lxc .., .qemu .., hc, hd, h | .qemu .., .shell .., hc, hd, h | .qemu .., .lxc .., hc, hd, h => by
    simp [Issuable] at hc hd
    simp [path, encodeTermTicketPath, ← toList_inj, *] at h

theorem getUser_eq_ok {caller userid} (h : getUser (.ok caller) = .ok userid) : userid.text = caller.authId.text := by
  cases token : caller.authId.tokenname <;> simp_all [getUser, Users.Authid.text, bind, Except.bind, pure, Except.pure,
    throw, throwThe, MonadExceptOf.throw]

theorem createTermTicket_aad {caller path content ticket}
    (h : createTermTicket (.ok caller) path content = .ok ticket) : ticket.aad = caller.authId.text ++ path := by
  obtain ⟨userid, huser, htick⟩ := bind_eq_ok.mp h
  cases htick
  rw [getUser_eq_ok huser]

theorem issue_aad {caller request ticket} (h : issue (.ok caller) request = .ok ticket) :
    ticket.aad = caller.authId.text ++ request.console.path := by
  cases request with
  | termproxy =>
    obtain ⟨userid, huser, htick⟩ := bind_eq_ok.mp h
    rw [← getUser_eq_ok huser, Issue.console, Console.path, ← append_assoc]
    revert htick
    dsimp only
    split <;> (try split) <;> rintro ⟨⟩ <;> rfl
  | shellTicket => exact createTermTicket_aad h
  | lxcShellTicket => exact createTermTicket_aad h
  | qemuShellTicket => exact createTermTicket_aad h
  | qemuVncTicket =>
    obtain ⟨_, _, h⟩ := bind_eq_ok.mp h
    exact createTermTicket_aad h

theorem Ticket.aad_of_verify {ticket : Ticket} {aad : String}
    (h : ticket.verifyEmpty aad ∨ ticket.verifyTerm aad) : ticket.aad = aad := by
  unfold verifyEmpty verifyTerm at h
  split at h <;> simp_all

theorem upgradeToWebsocket_aad {caller : Caller} {ticket : Ticket} {verify : String → Bool} {path : String}
    (hver : verify = ticket.verifyEmpty ∨ verify = ticket.verifyTerm)
    (h : upgradeToWebsocket caller verify path = .ok (some true)) : ticket.aad = caller.authId.text ++ path := by
  obtain ⟨userid, huser, aad⟩ := bind_eq_ok.mp h
  have aad : verify (userid.text ++ path) := by simpa [pure, Except.pure] using aad
  rw [← getUser_eq_ok huser]
  rcases hver with rfl | rfl
  · exact Ticket.aad_of_verify (.inl aad)
  · exact Ticket.aad_of_verify (.inr aad)

theorem check_aad {userInfo : CachedUserInfo} {caller : Caller} {ticket : Ticket} {request : Check}
    (h : check userInfo caller ticket request = .ok (some true)) :
    ticket.aad = caller.authId.text ++ request.console.path := by
  cases request with
  | systemWebsocket => exact upgradeToWebsocket_aad (.inl rfl) h
  | shellWebsocket => exact upgradeToWebsocket_aad (.inl rfl) h
  | lxcWebsocket => exact upgradeToWebsocket_aad (.inr rfl) h
  | qemuWebsocket => exact upgradeToWebsocket_aad (.inr rfl) h
  | pathTicket path =>
    simp only [check, checkPathTicket] at h
    split at h
    · next hver =>
      rw [Ticket.aad_of_verify (.inl hver), Check.console, Console.path, String.append_assoc]
    · simp [pure, Except.pure] at h

/-- **An accepted ticket is for the same user and console, except where `check_path_ticket` is asked for another path
than `/system`: then it never is.** -/
theorem accepted_same_console_iff {issuer caller : Caller} {request : Issue} {ticket : Ticket}
    (hissue : issue (.ok issuer) request = .ok ticket) {userInfo : CachedUserInfo} {request' : Check}
    (hcheck : check userInfo caller ticket request' = .ok (some true)) :
    (caller.authId.text = issuer.authId.text ∧ request'.console = request.console) ↔ request'.console.Issuable := by
  constructor
  · rintro ⟨_, hcons⟩
    exact hcons ▸ issue_issuable request
  · intro hiss
    have aad := (check_aad hcheck).symm.trans (issue_aad hissue)
    obtain ⟨rest, hrest⟩ := Console.path_slash hiss
    obtain ⟨rest', hrest'⟩ := Console.path_slash (issue_issuable request)
    have hlist := congrArg toList aad
    rw [toList_append, toList_append, hrest, hrest'] at hlist
    obtain ⟨htext, hpath⟩ := Text.append_cons_inj caller.noSlash issuer.noSlash hlist
    refine ⟨String.toList_inj.mp htext, Console.path_inj hiss (issue_issuable request) (String.toList_inj.mp ?_)⟩
    rw [hrest, hrest', hpath]

def alice : Caller := ⟨⟨⟨"alice", "pam"⟩, none⟩, by decide⟩

def allowing : CachedUserInfo := ⟨fun _ _ => privBit 2, fun _ _ _ => .ok true⟩

theorem websocket_same_console : alice.authId.text = alice.authId.text ∧
    (Check.systemWebsocket 40001).console = (Issue.termproxy none 40001).console :=
  (accepted_same_console_iff
    (show issue (.ok alice) (.termproxy none 40001) = .ok ⟨.empty, "alice@pam/system40001"⟩ by decide)
    (show check allowing alice ⟨.empty, "alice@pam/system40001"⟩ (.systemWebsocket 40001) = .ok (some true) by
      decide)).mpr rfl

/-- The console behind `/system4000` at port 1 is not the one at port 40001. -/
theorem checkPathTicket_moves_digits :
    issue (.ok alice) (.termproxy none 40001) = .ok ⟨.empty, "alice@pam/system40001"⟩ ∧
      check allowing alice ⟨.empty, "alice@pam/system40001"⟩ (.pathTicket "/system4000" "Sys.Console" 1) =
        .ok (some true) ∧
      (Check.pathTicket "/system4000" "Sys.Console" 1).console ≠ (Issue.termproxy none 40001).console := by
  decide

end Nexus.Consoles
