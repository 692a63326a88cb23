import Nexus.Realms.Config

/-!
# The requests that change realms

The handlers of `server/src/api/config/access`: `pam.rs`, `pdm.rs`, `ldap.rs`, `ad.rs` and `openid.rs`. A request that
succeeds puts one section, and unsets the default realm if it is to be the new one, or it removes one section
(`writes_serve`).
-/

namespace Nexus.Realms

open Lib Subscriptions Lib.Effect

structure RealmState where
  domains : Domains
  bindPasswords : OrderedMap String String

abbrev Handler := Effect RealmState ApiError

/-! ## Common parts -/

def updatedComment : Option String → Option String → Option String
  | some comment, _ => if Text.trim comment = "" then none else some (Text.trim comment)
  | none, stored => stored

def updatedDefault (update : Option Bool) : Option Bool := if update = some true then some true else none

def makeRoom (default : Option Bool) (domains : Domains) : Domains :=
  if default = some true then unsetDefaultRealm domains else domains

def putSection (realm : String) (new : Section) : Handler Unit :=
  .modify fun s => { s with domains := (makeRoom new.default s.domains).insert realm new }

def storeLdapBindPassword (realm password : String) : Handler Unit :=
  .modify fun s => { s with bindPasswords := s.bindPasswords.insert realm password }

def removeLdapBindPassword (realm : String) : Handler Unit :=
  .modify fun s => { s with bindPasswords := s.bindPasswords.remove realm }

def checkDigest (ext : External) (digest : Option String) : Handler Unit := do
  let domains ← .read RealmState.domains
  .ofExcept (ext.detectModification (ext.digest domains) digest)

def lookupRealm {α : Type} (as : Section → Option α) (type : RealmType) (realm : String) : Handler α := do
  let domains ← .read RealmState.domains
  .ofExcept (lookup as type realm domains)

def checkNew (domains : Domains) (realm : String) : Except ApiError Unit :=
  if realmExists domains realm then .error (.http .badRequest s!"realm '{realm}' already exists.") else .ok ()

def refuseExisting (realm : String) : Handler Unit := do
  let domains ← .read RealmState.domains
  .ofExcept (checkNew domains realm)

/-! ## The built-in realms -/

structure BuiltinUpdater where
  comment : Option String
  default : Option Bool

inductive BuiltinProperty
  | comment
  | default

def BuiltinRealmConfig.delete (config : BuiltinRealmConfig) : BuiltinProperty → BuiltinRealmConfig
  | .comment => { config with comment := none }
  | .default => { config with default := none }

def BuiltinRealmConfig.update (config : BuiltinRealmConfig) (update : BuiltinUpdater) : BuiltinRealmConfig :=
  { config with comment := updatedComment update.comment config.comment, default := updatedDefault update.default }

def updateBuiltinRealm (as : Section → Option BuiltinRealmConfig) (type : RealmType)
    (make : BuiltinRealmConfig → Section) (ext : External) (update : BuiltinUpdater)
    (delete : Option (List BuiltinProperty)) (digest : Option String) : Handler Unit := do
  checkDigest ext digest
  let config ← lookupRealm as type type.text
  putSection type.text (make (((delete.getD []).foldl BuiltinRealmConfig.delete config).update update))

def updatePamRealm : External → BuiltinUpdater → Option (List BuiltinProperty) → Option String → Handler Unit :=
  updateBuiltinRealm Section.asPam .pam Section.pam

def updatePdmRealm : External → BuiltinUpdater → Option (List BuiltinProperty) → Option String → Handler Unit :=
  updateBuiltinRealm Section.asPdm .pdm Section.pdm

/-! ## OpenID realms -/

structure OpenIdUpdater where
  issuerUrl : Option String
  clientId : Option String
  scopes : Option String
  acrValues : Option String
  audiences : Option String
  prompt : Option String
  clientKey : Option String
  comment : Option String
  default : Option Bool
  autocreate : Option Bool

inductive OpenIdProperty
  | clientKey | comment | default | autocreate | scopes | prompt | acrValues | audiences

def OpenIdRealmConfig.delete (config : OpenIdRealmConfig) : OpenIdProperty → OpenIdRealmConfig
  | .clientKey => { config with clientKey := none }
  | .comment => { config with comment := none }
  | .default => { config with default := none }
  | .autocreate => { config with autocreate := none }
  | .scopes => { config with scopes := none }
  | .prompt => { config with prompt := none }
  | .acrValues => { config with acrValues := none }
  | .audiences => { config with audiences := none }

def OpenIdRealmConfig.update (config : OpenIdRealmConfig) (update : OpenIdUpdater) : OpenIdRealmConfig :=
  { config with
    comment := updatedComment update.comment config.comment
    default := updatedDefault update.default
    issuerUrl := update.issuerUrl.getD config.issuerUrl
    clientId := update.clientId.getD config.clientId
    clientKey := update.clientKey.or config.clientKey
    autocreate := update.autocreate.or config.autocreate
    scopes := update.scopes.or config.scopes
    prompt := update.prompt.or config.prompt
    acrValues := update.acrValues.or config.acrValues
    audiences := update.audiences.or config.audiences }

def createOpenIdRealm (config : OpenIdRealmConfig) : Handler Unit := do
  refuseExisting config.realm
  putSection config.realm (.openId config)

def updateOpenIdRealm (ext : External) (realm : String) (update : OpenIdUpdater) (delete : Option (List OpenIdProperty))
    (digest : Option String) : Handler Unit := do
  checkDigest ext digest
  let config ← lookupRealm Section.asOpenId .openId realm
  putSection realm (.openId (((delete.getD []).foldl OpenIdRealmConfig.delete config).update update))

def removeSection (ext : External) (realm : String) (digest : Option String) : Handler Unit := do
  checkDigest ext digest
  let domains ← .read RealmState.domains
  if realmExists domains realm then .modify fun s => { s with domains := s.domains.remove realm }
  else .fail (.http .notFound s!"realm '{realm}' does not exist.")

def deleteOpenIdRealm (ext : External) (realm : String) (digest : Option String) : Handler Unit :=
  removeSection ext realm digest

/-! ## LDAP and AD realms -/

structure DirectoryUpdater where
  server1 : Option String
  server2 : Option String
  port : Option Nat
  baseDn : Option String
  comment : Option String
  default : Option Bool
  mode : Option LdapMode
  verify : Option Bool
  bindDn : Option String
  filter : Option String
  syncDefaultsOptions : Option String
  syncAttributes : Option String
  userClasses : Option String

structure LdapUpdater extends DirectoryUpdater where
  userAttr : Option String

inductive DirectoryProperty
  | server2 | port | comment | default | verify | mode | bindDn | password | filter | syncDefaultsOptions
  | syncAttributes | userClasses
  deriving DecidableEq

def DirectoryConfig.delete (config : DirectoryConfig) : DirectoryProperty → DirectoryConfig
  | .server2 => { config with server2 := none }
  | .port => { config with port := none }
  | .comment => { config with comment := none }
  | .default => { config with default := none }
  | .verify => { config with verify := none }
  | .mode => { config with mode := none }
  | .bindDn => { config with bindDn := none }
  | .password => config
  | .filter => { config with filter := none }
  | .syncDefaultsOptions => { config with syncDefaultsOptions := none }
  | .syncAttributes => { config with syncAttributes := none }
  | .userClasses => { config with userClasses := none }

def deleteProperties (realm : String) (config : DirectoryConfig) : List DirectoryProperty → Handler DirectoryConfig
  | [] => return config
  | .password :: delete => do
    removeLdapBindPassword realm
    deleteProperties realm (config.delete .password) delete
  | property :: delete => deleteProperties realm (config.delete property) delete

def DirectoryConfig.update (config : DirectoryConfig) (update : DirectoryUpdater) : DirectoryConfig :=
  { config with
    server1 := update.server1.getD config.server1
    server2 := update.server2.or config.server2
    port := update.port.or config.port
    comment := updatedComment update.comment config.comment
    default := updatedDefault update.default
    mode := update.mode.or config.mode
    verify := update.verify.or config.verify
    bindDn := update.bindDn.or config.bindDn
    filter := update.filter.or config.filter
    syncDefaultsOptions := update.syncDefaultsOptions.or config.syncDefaultsOptions
    syncAttributes := update.syncAttributes.or config.syncAttributes
    userClasses := update.userClasses.or config.userClasses }

def LdapRealmConfig.update (config : LdapRealmConfig) (update : LdapUpdater) : LdapRealmConfig where
  toDirectoryConfig := config.toDirectoryConfig.update update.toDirectoryUpdater
  baseDn := update.baseDn.getD config.baseDn
  userAttr := update.userAttr.getD config.userAttr

def AdRealmConfig.update (config : AdRealmConfig) (update : DirectoryUpdater) : AdRealmConfig where
  toDirectoryConfig := config.toDirectoryConfig.update update
  baseDn := update.baseDn.or config.baseDn

def connectPassword (realm : String) : Option String → Handler (Option String)
  | some password => return some password
  | none => .read fun s => s.bindPasswords.get? realm

def storePassword (realm : String) : Option String → Handler Unit
  | some password => storeLdapBindPassword realm password
  | none => return ()

def connectAndSave (ext : External) (realm : String) (password : Option String) (connection : LdapConfig)
    (new : Section) : Handler Unit := do
  .ofExcept (ext.checkConnection connection)
  storePassword realm password
  putSection realm new

def createLdapRealm (ext : External) (config : LdapRealmConfig) (password : Option String) : Handler Unit := do
  refuseExisting config.realm
  connectAndSave ext config.realm password (config.connectionWithPassword ext password) (.ldap config)

def deleteLdapRealm (ext : External) (realm : String) (digest : Option String) : Handler Unit := do
  removeSection ext realm digest
  removeLdapBindPassword realm

def updateLdapRealm (ext : External) (realm : String) (update : LdapUpdater) (password : Option String)
    (delete : Option (List DirectoryProperty)) (digest : Option String) : Handler Unit := do
  checkDigest ext digest
  let config ← lookupRealm Section.asLdap .ldap realm
  let common ← deleteProperties realm config.toDirectoryConfig (delete.getD [])
  let config := { config with toDirectoryConfig := common }.update update
  let connect ← connectPassword config.realm password
  connectAndSave ext realm password (config.connectionWithPassword ext connect) (.ldap config)

def AdRealmConfig.completed (ext : External) (config : AdRealmConfig) (password : Option String) :
    Except ApiError AdRealmConfig :=
  match config.baseDn with
  | some _ => .ok config
  | none => (retrieveDefaultNamingContext ext (config.connectionWithPassword ext password)).map fun baseDn =>
    { config with baseDn := some baseDn }

def createAdRealm (ext : External) (config : AdRealmConfig) (password : Option String) : Handler Unit := do
  refuseExisting config.realm
  let config ← .ofExcept (config.completed ext password)
  connectAndSave ext config.realm password (config.connectionWithPassword ext password) (.ad config)

def updateAdRealm (ext : External) (realm : String) (update : DirectoryUpdater) (password : Option String)
    (delete : Option (List DirectoryProperty)) (digest : Option String) : Handler Unit := do
  checkDigest ext digest
  let config ← lookupRealm Section.asAd .ad realm
  let common ← deleteProperties realm config.toDirectoryConfig (delete.getD [])
  let config := { config with toDirectoryConfig := common }.update update
  let connect ← connectPassword config.realm password
  let config ← .ofExcept (config.completed ext connect)
  connectAndSave ext realm password (config.connectionWithPassword ext connect) (.ad config)

/-! ## What a request writes -/

inductive Endpoint
  | ldap | ad | openId

def Endpoint.manages : Endpoint → RealmType → Bool
  | .ldap, type | .ad, type => type = .ldap || type = .ad
  | .openId, type => type = .openId

inductive Request
  | updatePam (update : BuiltinUpdater) (delete : Option (List BuiltinProperty)) (digest : Option String)
  | updatePdm (update : BuiltinUpdater) (delete : Option (List BuiltinProperty)) (digest : Option String)
  | createOpenId (config : OpenIdRealmConfig)
  | updateOpenId (realm : String) (update : OpenIdUpdater) (delete : Option (List OpenIdProperty))
      (digest : Option String)
  | createLdap (config : LdapRealmConfig) (password : Option String)
  | updateLdap (realm : String) (update : LdapUpdater) (password : Option String)
      (delete : Option (List DirectoryProperty)) (digest : Option String)
  | createAd (config : AdRealmConfig) (password : Option String)
  | updateAd (realm : String) (update : DirectoryUpdater) (password : Option String)
      (delete : Option (List DirectoryProperty)) (digest : Option String)
  | delete (endpoint : Endpoint) (realm : String) (digest : Option String)

def serve (ext : External) : Request → Handler Unit
  | .updatePam update delete digest => updatePamRealm ext update delete digest
  | .updatePdm update delete digest => updatePdmRealm ext update delete digest
  | .createOpenId config => createOpenIdRealm config
  | .updateOpenId realm update delete digest => updateOpenIdRealm ext realm update delete digest
  | .createLdap config password => createLdapRealm ext config password
  | .updateLdap realm update password delete digest => updateLdapRealm ext realm update password delete digest
  | .createAd config password => createAdRealm ext config password
  | .updateAd realm update password delete digest => updateAdRealm ext realm update password delete digest
  | .delete .ldap realm digest | .delete .ad realm digest => deleteLdapRealm ext realm digest
  | .delete .openId realm digest => deleteOpenIdRealm ext realm digest

inductive Writes (ext : External) (request : Request) (domains : Domains) : Domains → Prop
  | nothing : Writes ext request domains domains
  | creates {realm new} (free : domains.get? realm = none) :
      Writes ext request domains ((makeRoom new.default domains).insert realm new)
  | updates {realm old new} (found : domains.get? realm = some old) (type : new.type = old.type) :
      Writes ext request domains ((makeRoom new.default domains).insert realm new)
  | removes {endpoint realm digest old}
      (delete : request = .delete endpoint realm digest)
      (current : ext.detectModification (ext.digest domains) digest = .ok ()) (found : domains.get? realm = some old) :
      Writes ext request domains (domains.remove realm)

variable {ext : External} {request : Request} {s t : RealmState} {realm : String} {digest : Option String} {α : Type}

theorem run_checkDigest : (checkDigest ext digest).run s =
    (ext.detectModification (ext.digest s.domains) digest, s) := rfl

variable {type : RealmType} {domains : Domains} {password : Option String} {connection : LdapConfig} {new : Section}
  {delete : Option (List DirectoryProperty)} {endpoint : Endpoint}

theorem run_lookupRealm {as : Section → Option α} :
    (lookupRealm as type realm).run s = (lookup as type realm s.domains, s) := rfl

theorem run_refuseExisting : (refuseExisting realm).run s = (checkNew s.domains realm, s) := rfl

theorem checkNew_eq_ok : checkNew domains realm = .ok () ↔ domains.get? realm = none := by
  unfold checkNew realmExists
  cases domains.get? realm <;> simp

def passwordsAfter (realm : String) (delete : List DirectoryProperty) (passwords : OrderedMap String String) :
    OrderedMap String String :=
  if .password ∈ delete then passwords.remove realm else passwords

theorem run_deleteProperties (realm) : ∀ (delete : List DirectoryProperty) (config : DirectoryConfig)
    (s : RealmState), (deleteProperties realm config delete).run s =
      (.ok (delete.foldl DirectoryConfig.delete config),
        { s with bindPasswords := passwordsAfter realm delete s.bindPasswords })
  | [], _, _ => rfl
  | property :: delete, config, s => by
    by_cases hprop : property = .password
    · subst hprop
      show (deleteProperties realm (config.delete .password) delete).run
        { s with bindPasswords := s.bindPasswords.remove realm } = _
      rw [run_deleteProperties realm delete]
      simp only [List.foldl_cons, passwordsAfter, List.mem_cons_self, if_true, OrderedMap.remove_remove, ite_self]
    · have hstep : deleteProperties realm config (property :: delete) =
          deleteProperties realm (config.delete property) delete := by
        cases property <;> first | rfl | exact absurd rfl hprop
      rw [hstep, run_deleteProperties realm delete]
      simp only [List.foldl_cons, passwordsAfter, List.mem_cons, Ne.symm hprop, false_or]

theorem run_connectPassword : (connectPassword realm password).run s =
    (.ok (password.or (s.bindPasswords.get? realm)), s) := by
  cases password <;> rfl

def passwordsWith (realm : String) (password : Option String) (passwords : OrderedMap String String) :
    OrderedMap String String :=
  password.elim passwords fun password => passwords.insert realm password

theorem run_storePassword : (storePassword realm password).run s =
    (.ok (), { s with bindPasswords := passwordsWith realm password s.bindPasswords }) := by
  cases password <;> rfl

theorem run_connectAndSave :
    (connectAndSave ext realm password connection new).run s = Effect.after (ext.checkConnection connection) s fun _ =>
      (.ok (), ⟨(makeRoom new.default s.domains).insert realm new, passwordsWith realm password s.bindPasswords⟩) := by
  unfold connectAndSave
  rw [run_bind_of_eq (run_ofExcept _)]
  refine congrArg _ (funext fun _ => ?_)
  rw [run_bind_of_ok run_storePassword]
  rfl

theorem run_update {as : Section → Option α} {next : α → Handler Unit} :
    (do checkDigest ext digest
        let config ← lookupRealm as type realm
        next config).run s =
      Effect.after (ext.detectModification (ext.digest s.domains) digest) s fun _ =>
        Effect.after (lookup as type realm s.domains) s fun config => (next config).run s := by
  rw [run_bind_of_eq run_checkDigest]
  refine congrArg _ (funext fun _ => ?_)
  rw [run_bind_of_eq run_lookupRealm]

def DirectoryConfig.without (config : DirectoryConfig) (delete : Option (List DirectoryProperty)) : DirectoryConfig :=
  (delete.getD []).foldl DirectoryConfig.delete config

def LdapRealmConfig.updated (config : LdapRealmConfig) (update : LdapUpdater)
    (delete : Option (List DirectoryProperty)) : LdapRealmConfig :=
  { config with toDirectoryConfig := config.toDirectoryConfig.without delete }.update update

theorem run_updateLdapRealm {update : LdapUpdater} :
    (updateLdapRealm ext realm update password delete digest).run s =
      Effect.after (ext.detectModification (ext.digest s.domains) digest) s fun _ =>
        Effect.after (lookup Section.asLdap .ldap realm s.domains) s fun config =>
          (connectAndSave ext realm password ((config.updated update delete).connectionWithPassword ext (password.or
            ((passwordsAfter realm (delete.getD []) s.bindPasswords).get? (config.updated update delete).realm)))
            (.ldap (config.updated update delete))).run
            { s with bindPasswords := passwordsAfter realm (delete.getD []) s.bindPasswords } := by
  refine run_update.trans (congrArg _ (funext fun _ => congrArg _ (funext fun config => ?_)))
  rw [run_bind_of_ok (run_deleteProperties _ _ _ _), run_bind_of_ok run_connectPassword]
  rfl

def AdRealmConfig.updated (config : AdRealmConfig) (update : DirectoryUpdater)
    (delete : Option (List DirectoryProperty)) : AdRealmConfig :=
  { config with toDirectoryConfig := config.toDirectoryConfig.without delete }.update update

theorem run_updateAdRealm {update : DirectoryUpdater} :
    (updateAdRealm ext realm update password delete digest).run s =
      Effect.after (ext.detectModification (ext.digest s.domains) digest) s fun _ =>
        Effect.after (lookup Section.asAd .ad realm s.domains) s fun config =>
          let passwords := passwordsAfter realm (delete.getD []) s.bindPasswords
          let connect := password.or (passwords.get? (config.updated update delete).realm)
          Effect.after ((config.updated update delete).completed ext connect) { s with bindPasswords := passwords }
            fun new => (connectAndSave ext realm password (new.connectionWithPassword ext connect) (.ad new)).run
              { s with bindPasswords := passwords } := by
  refine run_update.trans (congrArg _ (funext fun _ => congrArg _ (funext fun config => ?_)))
  rw [run_bind_of_ok (run_deleteProperties _ _ _ _), run_bind_of_ok run_connectPassword]
  exact run_bind_of_eq (run_ofExcept _)

theorem run_removeSection : (removeSection ext realm digest).run s =
    Effect.after (ext.detectModification (ext.digest s.domains) digest) s fun _ =>
      if realmExists s.domains realm then (.ok (), { s with domains := s.domains.remove realm })
      else (.error (.http .notFound s!"realm '{realm}' does not exist."), s) := by
  unfold removeSection
  rw [run_bind_of_eq run_checkDigest]
  refine congrArg _ (funext fun _ => ?_)
  rw [run_read_bind]
  split <;> rfl

def WritesTo (ext : External) (request : Request) (domains : Domains) (result : Except ApiError Unit × RealmState) :
    Prop :=
  Writes ext request domains result.2.domains

theorem writes_connectAndSave
    (hs : s.domains = domains) (h : Writes ext request domains ((makeRoom new.default domains).insert realm new)) :
    WritesTo ext request domains ((connectAndSave ext realm password connection new).run s) := by
  subst hs
  rw [run_connectAndSave]
  exact after_cases (WritesTo ext request s.domains) (fun _ _ => .nothing) fun _ _ => h

theorem writes_create {f} (h : s.domains.get? realm = none → WritesTo ext request s.domains ((f ()).run s)) :
    WritesTo ext request s.domains ((refuseExisting realm >>= f).run s) := by
  rw [run_bind_of_eq run_refuseExisting]
  exact after_cases (WritesTo ext request s.domains) (fun _ _ => .nothing) fun _ hnew => h (checkNew_eq_ok.mp hnew)

theorem writes_found {as : Section → Option α} {next : α → Except ApiError Unit × RealmState}
    (h : ∀ found config, s.domains.get? realm = some found → as found = some config →
      WritesTo ext request s.domains (next config)) :
    WritesTo ext request s.domains (Effect.after (ext.detectModification (ext.digest s.domains) digest) s fun _ =>
      Effect.after (lookup as type realm s.domains) s next) := by
  refine after_cases (WritesTo ext request s.domains) (fun _ _ => .nothing) fun _ _ => ?_
  refine after_cases (WritesTo ext request s.domains) (fun _ _ => .nothing) fun config hcfg => ?_
  obtain ⟨found, hfnd, has⟩ := lookup_eq_ok.mp hcfg
  exact h found config hfnd has

theorem writes_removeSection (hreq : request = .delete endpoint realm digest) :
    WritesTo ext request s.domains ((removeSection ext realm digest).run s) := by
  rw [run_removeSection]
  refine after_cases (WritesTo ext request s.domains) (fun _ _ => .nothing) fun _ hcur => ?_
  split
  · next known =>
    obtain ⟨old, hold⟩ := Option.isSome_iff_exists.mp known
    exact .removes hreq hcur hold
  · exact .nothing

theorem writes_deleteLdapRealm (hreq : request = .delete endpoint realm digest) :
    WritesTo ext request s.domains ((deleteLdapRealm ext realm digest).run s) := by
  have h : WritesTo ext request s.domains ((removeSection ext realm digest).run s) := writes_removeSection hreq
  rcases hrun : (removeSection ext realm digest).run s with ⟨outcome, t⟩
  rw [hrun] at h
  rw [deleteLdapRealm, run_bind_of_eq hrun]
  exact after_cases (WritesTo ext request s.domains) (fun _ _ => h) fun _ _ => h

theorem writes_updateBuiltinRealm {as : Section → Option BuiltinRealmConfig}
    {make : BuiltinRealmConfig → Section} {update : BuiltinUpdater} {delete : Option (List BuiltinProperty)}
    (hmake : ∀ found config new, as found = some config → (make new).type = found.type) :
    WritesTo ext request s.domains ((updateBuiltinRealm as type make ext update delete digest).run s) := by
  unfold updateBuiltinRealm
  rw [run_update]
  exact writes_found fun found config hfnd has => .updates hfnd (hmake found config _ has)

variable {config : AdRealmConfig} {found : Section}

theorem completed_eq_ok {ext new password} (h : config.completed ext password = .ok new) :
    new.toDirectoryConfig = config.toDirectoryConfig ∧ (config.baseDn ≠ none → new.baseDn = config.baseDn) ∧
      new.baseDn ≠ none := by
  unfold AdRealmConfig.completed at h
  cases hbase : config.baseDn with
  | some =>
    simp only [hbase] at h
    cases h
    exact ⟨rfl, fun _ => hbase, fun hnone => by cases hbase.symm.trans hnone⟩
  | none =>
    simp only [hbase] at h
    cases found : retrieveDefaultNamingContext ext (config.connectionWithPassword ext password) with
    | error =>
      rw [found] at h
      cases h
    | ok =>
      rw [found] at h
      cases h
      exact ⟨rfl, fun hne => absurd rfl hne, nofun⟩

theorem eq_of_asPam {config} (h : found.asPam = some config) : found = .pam config := by
  cases found <;> cases h
  rfl

theorem eq_of_asPdm {config} (h : found.asPdm = some config) : found = .pdm config := by
  cases found <;> cases h
  rfl

theorem eq_of_asOpenId {config} (h : found.asOpenId = some config) : found = .openId config := by
  cases found <;> cases h
  rfl

theorem eq_of_asLdap {config} (h : found.asLdap = some config) : found = .ldap config := by
  cases found <;> cases h
  rfl

theorem eq_of_asAd (h : found.asAd = some config) : found = .ad config := by
  cases found <;> cases h
  rfl

/-- **A request creates, updates or removes one section, or does nothing.** -/
theorem writes_serve (ext) (request) (s) : WritesTo ext request s.domains ((serve ext request).run s) := by
  cases request with
  | updatePam => exact writes_updateBuiltinRealm fun _ _ _ has => by rw [eq_of_asPam has]; rfl
  | updatePdm => exact writes_updateBuiltinRealm fun _ _ _ has => by rw [eq_of_asPdm has]; rfl
  | createOpenId => exact writes_create fun hnew => .creates hnew
  | updateOpenId realm update delete digest =>
    show WritesTo _ _ _ ((updateOpenIdRealm ext realm update delete digest).run s)
    unfold updateOpenIdRealm
    rw [run_update]
    exact writes_found fun _ _ found has => .updates found (by rw [eq_of_asOpenId has]; rfl)
  | createLdap => exact writes_create fun hnew => writes_connectAndSave rfl (.creates hnew)
  | updateLdap realm update password delete digest =>
    show WritesTo _ _ _ ((updateLdapRealm ext realm update password delete digest).run s)
    rw [run_updateLdapRealm]
    exact writes_found fun _ _ found has => writes_connectAndSave rfl (.updates found (by rw [eq_of_asLdap has]; rfl))
  | createAd config =>
    refine writes_create fun hnew => ?_
    rw [run_bind_of_eq (run_ofExcept _)]
    refine after_cases (WritesTo _ _ s.domains) (fun _ _ => .nothing) fun new hcomp => ?_
    have hrealm : new.realm = config.realm := congrArg DirectoryConfig.realm (completed_eq_ok hcomp).1
    exact writes_connectAndSave rfl (.creates (hrealm ▸ hnew))
  | updateAd realm update password delete digest =>
    show WritesTo _ _ _ ((updateAdRealm ext realm update password delete digest).run s)
    rw [run_updateAdRealm]
    refine writes_found fun _ _ found has => ?_
    refine after_cases (WritesTo _ _ s.domains) (fun _ _ => .nothing) fun _ _ => ?_
    exact writes_connectAndSave rfl (.updates found (by rw [eq_of_asAd has]; rfl))
  | delete endpoint =>
    cases endpoint with
    | ldap | ad => exact writes_deleteLdapRealm rfl
    | openId => exact writes_removeSection rfl

end Nexus.Realms
