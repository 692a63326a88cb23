import Nexus.Realms.Requests

/-!
# Requests that fail

A request of `server/src/api/access/users.rs` or `server/src/api/config/access/ldap.rs` that fails leaves everything as
it was exactly if no step that can fail comes after a write (`failed_unchanged_iff`). There are two such steps.

* `create_user` saves the user before it checks who may set the password, and before it sets it.
* `update_ldap_realm` removes the password for the directory before it checks the connection.
-/

namespace Nexus.Users

open Lib Subscriptions Lib.OrderedMap Lib.Effect
open Realms (Domains LdapRealmConfig LdapUpdater DirectoryProperty RealmState Section)

/-! ## Users and tokens -/

structure Userid where
  (name realm : String)
  deriving DecidableEq

def Userid.text (userid : Userid) : String := userid.name ++ "@" ++ userid.realm

structure Authid where
  user : Userid
  tokenname : Option String
  deriving DecidableEq

def Authid.text (authId : Authid) : String :=
  match authId.tokenname with
  | none => authId.user.text
  | some tokenname => authId.user.text ++ "!" ++ tokenname

def Authid.isSuperuser (authId : Authid) : Bool := authId.tokenname.isNone && authId.user.text = "root@pam"

structure User where
  userid : Userid
  comment : Option String
  enable : Option Bool
  expire : Option Int
  (firstname lastname email : Option String)

structure ApiToken where
  tokenid : Authid

inductive UserSection
  | user (config : User)
  | token (config : ApiToken)

namespace UserSection

def id : UserSection → String
  | user config => config.userid.text
  | token config => config.tokenid.text

def asUser : UserSection → Option User
  | user config => some config
  | token _ => none

def asToken : UserSection → Option ApiToken
  | user _ => none
  | token config => some config

end UserSection

structure UserConfig where
  sections : OrderedMap String UserSection
  keyed : ∀ key found, sections.get? key = some found → found.id = key

namespace UserConfig

variable (users : UserConfig)

def contains (key : String) : Bool := (users.sections.get? key).isSome

def setUser (config : User) : UserConfig where
  sections := users.sections.insert config.userid.text (.user config)
  keyed key found hfound := by
    rw [get?_insert] at hfound
    split at hfound
    · next hkey =>
      cases hfound
      exact hkey.symm
    · exact users.keyed key found hfound

def remove (key : String) : UserConfig where
  sections := users.sections.remove key
  keyed key' found hfound := by
    rw [get?_remove] at hfound
    split at hfound
    · cases hfound
    · exact users.keyed key' found hfound

def lookupUser (userid : Userid) : Except ApiError User :=
  match users.sections.get? userid.text with
  | none => .error (.other s!"no such user '{userid.text}'")
  | some found =>
    match found.asUser with
    | some config => .ok config
    | none => .error (.other s!"got unexpected type 'token' for user '{userid.text}'")

def tokensOf (userid : Userid) : List ApiToken :=
  (users.sections.entries.filterMap fun entry => entry.2.asToken).filter fun token => token.tokenid.user = userid

end UserConfig

/-! ## What the handlers meet -/

structure UserUpdater where
  comment : Option String
  enable : Option Bool
  expire : Option Int
  (firstname lastname email : Option String)

inductive DeletableUserProperty
  | comment | enable | expire | firstname | lastname | email

inductive Request
  | createUser (password : Option String) (config : User)
  | updateUser (userid : Userid) (update : UserUpdater) (password : Option String)
      (delete : Option (List DeletableUserProperty)) (digest : Option String)
  | deleteUser (userid : Userid) (digest : Option String)
  | createLdapRealm (config : LdapRealmConfig) (password : Option String)
  | updateLdapRealm (realm : String) (update : LdapUpdater) (password : Option String)
      (delete : Option (List DirectoryProperty)) (digest : Option String)

structure State (Acl Tfa : Type) where
  users : UserConfig
  acl : Acl
  tfa : Tfa
  realms : RealmState
  passwords : OrderedMap Userid String
  tokenSecrets : OrderedMap Authid String

/-- The outcomes of the router, the authenticators and the libraries. -/
structure World (Acl Tfa : Type) where
  permission : Request → Except ApiError Unit
  authId : Option (Except ApiError Authid)
  userInfo : CachedUserInfo
  digest : UserConfig → String
  storePassword : Userid → String → Except ApiError Unit
  removePassword : Userid → Except ApiError Unit
  removeTfaUser : String → Tfa → Except ApiError Tfa
  deleteAuthid : Authid → Acl → Acl
  realms : Realms.External

variable {Acl Tfa : Type}

abbrev Handler (Acl Tfa : Type) := Effect (State Acl Tfa) ApiError

variable (w : World Acl Tfa) (authenticator : Authenticator) (userid : Userid)

def World.getAuthId : Except ApiError Authid :=
  match w.authId with
  | none => .error (.other "no authid available")
  | some parsed => parsed

/-! ## Authenticators -/

inductive Authenticator
  | pam | pdm | ldap | ad | openId

def lookupAuthenticator (domains : Domains) (realm : String) : Except ApiError Authenticator :=
  if realm = "pam" then .ok .pam
  else if realm = "pdm" then .ok .pdm
  else if (Realms.lookup Section.asLdap .ldap realm domains).isOk then .ok .ldap
  else if (Realms.lookup Section.asAd .ad realm domains).isOk then .ok .ad
  else if (Realms.lookup Section.asOpenId .openId realm domains).isOk then .ok .openId
  else .error (.other s!"unknown realm {realm}")

def Authenticator.storePassword (password : String) : Authenticator → Except ApiError Unit
  | .pam | .pdm => w.storePassword userid password
  | .ldap => .error (.http .notImplemented "storing passwords is not implemented for LDAP realms")
  | .ad => .error (.http .notImplemented "storing passwords is not implemented for Active Directory realms")
  | .openId => .error (.http .notImplemented "storing passwords is not implemented for OpenID realms")

def Authenticator.removePassword : Authenticator → Except ApiError Unit
  | .pam | .pdm => w.removePassword userid
  | .ldap => .error (.http .notImplemented "removing passwords is not implemented for LDAP realms")
  | .ad => .error (.http .notImplemented "removing passwords is not implemented for Active Directory realms")
  | .openId => .error (.http .notImplemented "storing passwords is not implemented for OpenID realms")

def findAuthenticator (realm : String) : Handler Acl Tfa Authenticator := do
  let domains ← .read fun s => s.realms.domains
  .ofExcept (lookupAuthenticator domains realm)

def storePassword (password : String) : Handler Acl Tfa Unit := do
  .ofExcept (authenticator.storePassword w userid password)
  .modify fun s => { s with passwords := s.passwords.insert userid password }

def removePassword (w : World Acl Tfa) (authenticator : Authenticator) (userid : Userid) : Handler Acl Tfa Unit := do
  .ofExcept (authenticator.removePassword w userid)
  .modify fun s => { s with passwords := s.passwords.remove userid }

def checkCredentials (selfService : Authid → Bool) (realm : String) : Except ApiError Unit := do
  let current ← w.getAuthId
  if !selfService current && realm = "pam" && !current.isSuperuser then
    .error (.other "only superuser can edit pam credentials!")
  else .ok ()

/-! ## The handlers for users -/

def checkNewUser (users : UserConfig) (userid : Userid) : Except ApiError Unit :=
  if users.contains userid.text then .error (.other s!"user '{userid.text}' already exists.") else .ok ()

def createPassword : Option String → Handler Acl Tfa Unit
  | none => return ()
  | some password => do
    .ofExcept (checkCredentials w (fun _ => false) userid.realm)
    storePassword w authenticator userid password

def createUser (password : Option String) (config : User) : Handler Acl Tfa Unit := do
  let users ← .read State.users
  .ofExcept (checkNewUser users config.userid)
  let authenticator ← findAuthenticator config.userid.realm
  .modify fun s => { s with users := users.setUser config }
  createPassword w authenticator config.userid password

def privAccessModify : UInt64 := privBit 11

def topLevelModifyAllowed (authId : Authid) : Bool :=
  w.userInfo.lookupPrivs authId.text ["access", "users"] &&& privAccessModify != 0

def expireNotAllowed : ApiError := .other "modifying expiration date not allowed"

def User.delete (allowed : Bool) (data : User) : DeletableUserProperty → Except ApiError User
  | .comment => .ok { data with comment := none }
  | .firstname => .ok { data with firstname := none }
  | .lastname => .ok { data with lastname := none }
  | .email => .ok { data with email := none }
  | .enable => .ok { data with enable := none }
  | .expire => if allowed then .ok { data with expire := none } else .error expireNotAllowed

def User.update (allowed : Bool) (data : User) (update : UserUpdater) : Except ApiError User :=
  let data := { data with
    comment := Realms.updatedComment update.comment data.comment
    enable := match update.enable with
      | some enable => if enable then none else some false
      | none => data.enable }
  match update.expire with
  | some expire =>
    if allowed then .ok { data with expire := if expire > 0 then some expire else none } else .error expireNotAllowed
  | none => .ok data

def updatedText : Option String → Option String → Option String
  | some text, _ => if text = "" then none else some text
  | none, stored => stored

def User.rename (data : User) (update : UserUpdater) : User :=
  { data with
    firstname := updatedText update.firstname data.firstname
    lastname := updatedText update.lastname data.lastname
    email := updatedText update.email data.email }

def updatePassword : Option String → Handler Acl Tfa Unit
  | none => return ()
  | some password => do
    .ofExcept (checkCredentials w (fun current => current.user = userid) userid.realm)
    let authenticator ← findAuthenticator userid.realm
    storePassword w authenticator userid password

def updateUser (update : UserUpdater) (password : Option String)
    (delete : Option (List DeletableUserProperty)) (digest : Option String) : Handler Acl Tfa Unit := do
  let authId ← .ofExcept w.getAuthId
  let users ← .read State.users
  .ofExcept (w.realms.detectModification (w.digest users) digest)
  let data ← .ofExcept (users.lookupUser userid)
  let allowed := topLevelModifyAllowed w authId
  let data ← .ofExcept ((delete.getD []).foldlM (User.delete allowed) data)
  let data ← .ofExcept (data.update allowed update)
  updatePassword w userid password
  .modify fun s => { s with users := users.setUser (data.rename update) }

def checkUserExists (users : UserConfig) (userid : Userid) : Except ApiError Unit :=
  if users.contains userid.text then .ok () else .error (.other s!"user '{userid.text}' does not exist.")

def removeTfa (w : World Acl Tfa) (userid : Userid) : Handler Acl Tfa Unit := do
  let tfa ← .read State.tfa
  let tfa ← .ofExcept (w.removeTfaUser userid.text tfa)
  .modify fun s => { s with tfa := tfa }

def deleteTokens (w : World Acl Tfa) (userid : Userid) :
    List ApiToken → UserConfig → Acl → Handler Acl Tfa (UserConfig × Acl)
  | [], users, acl => return (users, acl)
  | token :: tokens, users, acl =>
    match token.tokenid.tokenname with
    | none => deleteTokens w userid tokens users acl
    | some tokenname =>
      let tokenid : Authid := ⟨userid, some tokenname⟩
      if users.contains tokenid.text then do
        .modify fun s => { s with tokenSecrets := s.tokenSecrets.remove tokenid }
        deleteTokens w userid tokens (users.remove tokenid.text) (w.deleteAuthid tokenid acl)
      else .fail (.other s!"token '{tokenname}' of user '{userid.text}' does not exist.")

def purgeUser (w : World Acl Tfa) (authenticator : Authenticator) (userid : Userid) (users : UserConfig) :
    Handler Acl Tfa Unit := do
  (removePassword w authenticator userid).catching fun _ => return ()
  (removeTfa w userid).catching fun _ => return ()
  let acl ← .read State.acl
  let (users, acl) ← deleteTokens w userid (users.tokensOf userid) users (w.deleteAuthid ⟨userid, none⟩ acl)
  .modify fun s => { s with users := users, acl := acl }

def deleteUser (digest : Option String) : Handler Acl Tfa Unit := do
  let users ← .read State.users
  .ofExcept (w.realms.detectModification (w.digest users) digest)
  .ofExcept (checkUserExists users userid)
  let authenticator ← findAuthenticator userid.realm
  purgeUser w authenticator userid (users.remove userid.text)

def onRealms {α : Type} (m : Realms.Handler α) : Handler Acl Tfa α :=
  m.zoom State.realms fun realms s => { s with realms := realms }

def handle : Request → Handler Acl Tfa Unit
  | .createUser password config => createUser w password config
  | .updateUser userid update password delete digest => updateUser w userid update password delete digest
  | .deleteUser userid digest => deleteUser w userid digest
  | .createLdapRealm config password => onRealms (Realms.createLdapRealm w.realms config password)
  | .updateLdapRealm realm update password delete digest =>
    onRealms (Realms.updateLdapRealm w.realms realm update password delete digest)

def serve (request : Request) : Handler Acl Tfa Unit := do
  .ofExcept (w.permission request)
  handle w request

/-! ## The tokens of a user are found -/

variable {userid} {users : UserConfig} {token : ApiToken}

theorem UserSection.asToken_eq_some {found : UserSection} (h : found.asToken = some token) : found = .token token := by
  cases found <;> cases h
  rfl

theorem mem_tokensOf (h : token ∈ users.tokensOf userid) :
    token.tokenid.user = userid ∧ users.sections.get? token.tokenid.text = some (.token token) := by
  obtain ⟨hmem, huser⟩ := List.mem_filter.mp h
  obtain ⟨⟨key, found⟩, entry, htok⟩ := List.mem_filterMap.mp hmem
  obtain rfl := UserSection.asToken_eq_some htok
  have hget : users.sections.get? key = some (.token token) := get?_eq_some.mpr entry
  have hkey : token.tokenid.text = key := users.keyed key _ hget
  exact ⟨of_decide_eq_true huser, hkey ▸ hget⟩

theorem tokensOf_pairwise (users : UserConfig) (userid : Userid) :
    (users.tokensOf userid).Pairwise fun token token' => token.tokenid.text ≠ token'.tokenid.text := by
  have hkeys : users.sections.entries.Pairwise fun entry entry' => entry.1 ≠ entry'.1 :=
    List.pairwise_map.mp users.sections.keys_nodup
  have hkey : ∀ entry ∈ users.sections.entries, ∀ token, entry.2.asToken = some token →
    token.tokenid.text = entry.1 := by
    intro entry hent token htok
    have hid := users.keyed entry.1 entry.2 (get?_eq_some.mpr hent)
    rw [UserSection.asToken_eq_some htok] at hid
    exact hid
  refine List.Pairwise.filter _ (List.pairwise_filterMap.mpr (hkeys.imp_of_mem fun hent hent' hne => ?_))
  intro token htok token' htok'
  rw [hkey _ hent token htok, hkey _ hent' token' htok']
  exact hne

theorem sure_deleteTokens (w : World Acl Tfa) : ∀ tokens users acl,
    (∀ token ∈ tokens, token.tokenid.user = userid ∧ users.contains token.tokenid.text) →
    (tokens.Pairwise fun token token' => token.tokenid.text ≠ token'.tokenid.text) →
    (deleteTokens w userid tokens users acl).Sure
  | [], users, acl, _, _ => fun _ => ⟨(users, acl), rfl⟩
  | ⟨⟨user, tokenname⟩⟩ :: tokens, users, acl, found, hpair => by
    obtain ⟨⟨huser, first⟩, hrest⟩ := List.forall_mem_cons.mp found
    replace huser : userid = user := huser.symm
    subst huser
    obtain ⟨hne, other⟩ := List.pairwise_cons.mp hpair
    cases tokenname with
    | none => exact sure_deleteTokens w tokens users acl hrest other
    | some tokenname =>
      have hleft : ∀ token ∈ tokens, token.tokenid.user = userid ∧
          (users.remove (Authid.text ⟨userid, some tokenname⟩)).contains token.tokenid.text := by
        intro token htok
        refine ⟨(hrest token htok).1, ?_⟩
        show ((users.sections.remove _).get? token.tokenid.text).isSome
        rw [get?_remove, if_neg (hne token htok).symm]
        exact (hrest token htok).2
      show Effect.Sure (if users.contains _ then _ else _)
      rw [if_pos first]
      exact (Effect.Sure.modify _).bind fun _ => sure_deleteTokens w tokens _ _ hleft other

theorem sure_purgeUser (w : World Acl Tfa) (authenticator : Authenticator) (userid : Userid) (users : UserConfig) :
    (purgeUser w authenticator userid users).Sure := by
  have found : ∀ token ∈ users.tokensOf userid,
      token.tokenid.user = userid ∧ users.contains token.tokenid.text := by
    intro token htok
    obtain ⟨huser, hget⟩ := mem_tokensOf htok
    exact ⟨huser, by rw [UserConfig.contains, hget]; rfl⟩
  refine (Effect.Sure.catching fun _ _ => ⟨(), rfl⟩).bind fun _ => ?_
  refine (Effect.Sure.catching fun _ _ => ⟨(), rfl⟩).bind fun _ => ?_
  refine (Effect.Sure.read _).bind fun acl => ?_
  exact (sure_deleteTokens w _ users _ found (tokensOf_pairwise users userid)).bind fun _ => Effect.Sure.modify _

/-! ## Failures -/

def checkedConnection (ext : Realms.External) (r : RealmState) (realm : String) (update : LdapUpdater)
    (password : Option String) (delete : Option (List DirectoryProperty)) (config : LdapRealmConfig) :
    Realms.LdapConfig :=
  (config.updated update delete).connectionWithPassword ext (password.or
    ((Realms.passwordsAfter realm (delete.getD []) r.bindPasswords).get? (config.updated update delete).realm))

/-- Nothing that is checked after a write fails. -/
def ChecksFirst {Acl Tfa : Type} (w : World Acl Tfa) (s : State Acl Tfa) : Request → Prop
  | .createUser password config => checkNewUser s.users config.userid = .ok () →
    ∀ authenticator, lookupAuthenticator s.realms.domains config.userid.realm = .ok authenticator →
      ∀ text, password = some text → checkCredentials w (fun _ => false) config.userid.realm = .ok () ∧
        authenticator.storePassword w config.userid text = .ok ()
  | .updateLdapRealm realm update password delete digest =>
    w.realms.detectModification (w.realms.digest s.realms.domains) digest = .ok () →
      ∀ config, Realms.lookup Section.asLdap .ldap realm s.realms.domains = .ok config →
        .password ∈ delete.getD [] → s.realms.bindPasswords.get? realm ≠ none →
          w.realms.checkConnection (checkedConnection w.realms s.realms realm update password delete config) = .ok ()
  | _ => True

variable {w authenticator} {s t : State Acl Tfa} {realm : String} {password digest : Option String} {config : User}
  {delete : List DirectoryProperty} {ext : Realms.External} {r : RealmState}

theorem run_findAuthenticator : (findAuthenticator realm).run s = (lookupAuthenticator s.realms.domains realm, s) := rfl

theorem run_storePassword {password} : (storePassword w authenticator userid password).run s =
      Effect.after (authenticator.storePassword w userid password) s fun _ =>
        (.ok (), { s with passwords := s.passwords.insert userid password }) := by
  unfold storePassword
  rw [run_bind_of_eq (run_ofExcept _)]
  rfl

theorem setUser_ne (hnew : checkNewUser users config.userid = .ok ()) : users.setUser config ≠ users := by
  intro heq
  have hget : (users.setUser config).sections.get? config.userid.text = some (.user config) := by
    show (users.sections.insert _ _).get? _ = _
    rw [get?_insert, if_pos rfl]
  rw [heq] at hget
  rw [checkNewUser, UserConfig.contains, hget] at hnew
  cases hnew

theorem createPassword_atomic_iff (ht : t ≠ s) :
    Effect.Atomic s ((createPassword w authenticator userid password).run t) ↔
      ∀ text, password = some text → checkCredentials w (fun _ => false) userid.realm = .ok () ∧
        authenticator.storePassword w userid text = .ok () := by
  cases password with
  | none => exact ⟨fun _ => nofun, fun _ => atomic_ok ()⟩
  | some password =>
    show Effect.Atomic s ((Effect.ofExcept _ >>= fun _ => _).run t) ↔ _
    rw [run_bind_of_eq (run_ofExcept _), atomic_after_ne_iff ht]
    simp only [run_storePassword, atomic_after_ne_iff ht]
    constructor
    · rintro ⟨_, check, _, store, _⟩ text htext
      cases htext
      exact ⟨check, store⟩
    · intro h
      obtain ⟨check, store⟩ := h password rfl
      exact ⟨(), check, (), store, atomic_ok ()⟩

theorem createUser_atomic_iff :
    Effect.Atomic s ((createUser w password config).run s) ↔ ChecksFirst w s (.createUser password config) := by
  unfold createUser ChecksFirst
  rw [run_read_bind, run_bind_of_eq (run_ofExcept _), atomic_after_same_iff]
  refine ⟨fun h hnew => ?_, fun h _ hnew => ?_⟩
  all_goals
    have changed : { s with users := s.users.setUser config } ≠ s :=
      fun heq => setUser_ne hnew (congrArg State.users heq)
  · have created := h () hnew
    rw [run_bind_of_eq run_findAuthenticator, atomic_after_same_iff] at created
    exact fun authenticator found => (createPassword_atomic_iff changed).mp (created authenticator found)
  · rw [run_bind_of_eq run_findAuthenticator, atomic_after_same_iff]
    exact fun authenticator found => (createPassword_atomic_iff changed).mpr (h hnew authenticator found)

theorem updatePassword_atomic : Effect.Atomic s ((updatePassword w userid password).run s) := by
  cases password with
  | none => exact atomic_ok ()
  | some =>
    refine atomic_bind (run_ofExcept _) fun _ _ => ?_
    refine atomic_bind run_findAuthenticator fun authenticator _ => ?_
    rw [run_storePassword, atomic_after_same_iff]
    exact fun _ _ => atomic_ok ()

theorem updateUser_atomic {update} {delete : Option (List DeletableUserProperty)} :
    Effect.Atomic s ((updateUser w userid update password delete digest).run s) := by
  refine atomic_bind (run_ofExcept _) fun authId _ => ?_
  rw [run_read_bind]
  refine atomic_bind (run_ofExcept _) fun _ _ => ?_
  refine atomic_bind (run_ofExcept _) fun data _ => ?_
  refine atomic_bind (run_ofExcept _) fun data _ => ?_
  refine atomic_bind (run_ofExcept _) fun data _ => ?_
  exact updatePassword_atomic.bind_sure fun _ => Effect.Sure.modify _

theorem deleteUser_atomic : Effect.Atomic s ((deleteUser w userid digest).run s) := by
  unfold deleteUser
  rw [run_read_bind]
  refine atomic_bind (run_ofExcept _) fun _ _ => ?_
  refine atomic_bind (run_ofExcept _) fun _ _ => ?_
  refine atomic_bind run_findAuthenticator fun authenticator _ => ?_
  exact (sure_purgeUser w authenticator userid _).atomic

theorem onRealms_atomic_iff {m : Realms.Handler Unit} :
    Effect.Atomic s ((onRealms m).run s) ↔ Effect.Atomic s.realms (m.run s.realms) :=
  atomic_zoom_iff rfl fun _ => rfl

theorem createLdapRealm_atomic {config} : Effect.Atomic r ((Realms.createLdapRealm ext config password).run r) := by
  refine atomic_bind Realms.run_refuseExisting fun _ _ => ?_
  rw [Realms.run_connectAndSave, atomic_after_same_iff]
  exact fun _ _ => atomic_ok ()

theorem passwordsAfter_eq_self_iff {passwords} :
    Realms.passwordsAfter realm delete passwords = passwords ↔ (.password ∈ delete → passwords.get? realm = none) := by
  unfold Realms.passwordsAfter
  split
  · next hdel =>
    rw [remove_eq_self_iff]
    exact ⟨fun h _ => h, fun h => h hdel⟩
  · next hdel => exact ⟨fun _ h => absurd h hdel, fun _ => rfl⟩

theorem connectAndSave_atomic_iff {connection new} :
    Effect.Atomic r ((Realms.connectAndSave ext realm password connection new).run
      { r with bindPasswords := Realms.passwordsAfter realm delete r.bindPasswords }) ↔
      (.password ∈ delete → r.bindPasswords.get? realm ≠ none → ext.checkConnection connection = .ok ()) := by
  rw [Realms.run_connectAndSave, atomic_after_iff]
  constructor
  · rintro ⟨hsame, _⟩ hdel stored
    cases check : ext.checkConnection connection with
    | ok => rfl
    | error e =>
      have hkept := congrArg RealmState.bindPasswords (hsame e check)
      exact absurd (passwordsAfter_eq_self_iff.mp hkept hdel) stored
  · refine fun h => ⟨fun e herror => ?_, fun _ _ => atomic_ok ()⟩
    have hkept : Realms.passwordsAfter realm delete r.bindPasswords = r.bindPasswords := by
      refine passwordsAfter_eq_self_iff.mpr fun hdel => by_contra fun stored => ?_
      cases (h hdel stored).symm.trans herror
    rw [hkept]

theorem updateLdapRealm_atomic_iff {update} {delete : Option (List DirectoryProperty)} :
    Effect.Atomic s.realms ((Realms.updateLdapRealm w.realms realm update password delete digest).run s.realms) ↔
      ChecksFirst w s (.updateLdapRealm realm update password delete digest) := by
  rw [Realms.run_updateLdapRealm, atomic_after_same_iff]
  refine ⟨fun h hdig config hlook => ?_, fun h _ hdig => ?_⟩
  · exact connectAndSave_atomic_iff.mp (atomic_after_same_iff.mp (h () hdig) config hlook)
  · exact atomic_after_same_iff.mpr fun config hlook => connectAndSave_atomic_iff.mpr (h hdig config hlook)

/-- **A request that fails leaves everything as it was exactly if no step fails after a write.** -/
theorem failed_unchanged_iff (w : World Acl Tfa) (s : State Acl Tfa) (request : Request) :
    (∀ e, ((serve w request).run s).1 = .error e → ((serve w request).run s).2 = s) ↔
      (w.permission request = .ok () → ChecksFirst w s request) := by
  have hhand : Effect.Atomic s ((handle w request).run s) ↔ ChecksFirst w s request := by
    cases request with
    | createUser password config => exact createUser_atomic_iff
    | updateUser userid update password delete digest => exact iff_of_true updateUser_atomic trivial
    | deleteUser userid digest => exact iff_of_true deleteUser_atomic trivial
    | createLdapRealm config password => exact iff_of_true (onRealms_atomic_iff.mpr createLdapRealm_atomic) trivial
    | updateLdapRealm realm update password delete digest => exact onRealms_atomic_iff.trans updateLdapRealm_atomic_iff
  show Effect.Atomic s ((serve w request).run s) ↔ _
  rw [serve, run_bind_of_eq (run_ofExcept _), atomic_after_same_iff]
  exact ⟨fun h hperm => hhand.mp (h () hperm), fun h _ hperm => hhand.mpr (h hperm)⟩

def administrator : World Unit Unit where
  permission _ := .ok ()
  authId := some (.ok ⟨⟨"admin", "pdm"⟩, none⟩)
  userInfo := ⟨fun _ _ => privAccessModify, fun _ _ _ => .ok true⟩
  digest _ := ""
  storePassword _ _ := .ok ()
  removePassword _ := .ok ()
  removeTfaUser _ _ := .ok ()
  deleteAuthid _ _ := ()
  realms := ⟨Sample.digestCheck, fun _ => "", fun _ => false, fun _ => .ok (), fun _ => .ok []⟩

def admins : UserConfig :=
  (UserConfig.mk .empty fun _ _ hfound => by cases hfound).setUser ⟨⟨"root", "pam"⟩, none, none, none, none, none, none⟩
    |>.setUser ⟨⟨"admin", "pdm"⟩, none, none, none, none, none, none⟩

def adminsOnly : State Unit Unit := ⟨admins, (), (), ⟨.empty, .empty⟩, .empty, .empty⟩

def joe : User := ⟨⟨"joe", "pam"⟩, none, none, none, none, none, none⟩

/-- The request fails, and the user is there. -/
theorem created_without_password : ((serve administrator (.createUser (some "secret-password") joe)).run adminsOnly).1 =
        .error (.other "only superuser can edit pam credentials!") ∧
      ((serve administrator (.createUser (some "secret-password") joe)).run adminsOnly).2.users.contains "joe@pam" :=
  ⟨rfl, rfl⟩

end Nexus.Users
