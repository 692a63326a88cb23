import Nexus.Lib.Effect
import Nexus.Subscriptions.Pool

/-!
# The realms and their configuration

`lib/pdm-config/src/domains.rs`: the file `domains.cfg` has a section for every realm, and its type says what is in it.
A realm is looked up by its name and its type, but it can also be removed by its name only. Beside it, the passwords for
the directories of LDAP and AD realms are in a file of their own (`server/src/auth/ldap.rs`).
-/

namespace Nexus.Realms

open Lib

inductive RealmType
  | pam | pdm | openId | ad | ldap
  deriving DecidableEq

def RealmType.text : RealmType → String
  | .pam => "pam"
  | .pdm => "pdm"
  | .openId => "openid"
  | .ad => "ad"
  | .ldap => "ldap"

structure BuiltinRealmConfig where
  realm : String
  ty : RealmType
  comment : Option String
  default : Option Bool
  deriving DecidableEq

structure OpenIdRealmConfig where
  (realm issuerUrl clientId : String)
  (scopes acrValues audiences prompt clientKey comment : Option String)
  (default autocreate : Option Bool)
  usernameClaim : Option String
  deriving DecidableEq

inductive LdapMode
  | ldap | startTls | ldaps
  deriving DecidableEq

structure DirectoryConfig where
  (realm server1 : String)
  server2 : Option String
  port : Option Nat
  comment : Option String
  default : Option Bool
  mode : Option LdapMode
  verify : Option Bool
  (capath bindDn filter syncDefaultsOptions syncAttributes userClasses : Option String)
  deriving DecidableEq

structure LdapRealmConfig extends DirectoryConfig where
  (baseDn userAttr : String)
  deriving DecidableEq

structure AdRealmConfig extends DirectoryConfig where
  baseDn : Option String
  deriving DecidableEq

inductive Section
  | pam (config : BuiltinRealmConfig)
  | pdm (config : BuiltinRealmConfig)
  | openId (config : OpenIdRealmConfig)
  | ldap (config : LdapRealmConfig)
  | ad (config : AdRealmConfig)
  deriving DecidableEq

namespace Section

def type : Section → RealmType
  | pam _ => .pam
  | pdm _ => .pdm
  | openId _ => .openId
  | ldap _ => .ldap
  | ad _ => .ad

def default : Section → Option Bool
  | pam config | pdm config => config.default
  | openId config => config.default
  | ldap config => config.default
  | ad config => config.default

def clearDefault : Section → Section
  | pam config => pam { config with default := none }
  | pdm config => pdm { config with default := none }
  | openId config => openId { config with default := none }
  | ldap config => ldap { config with default := none }
  | ad config => ad { config with default := none }

@[simp] theorem type_clearDefault (section' : Section) : section'.clearDefault.type = section'.type := by
  cases section' <;> rfl

@[simp] theorem default_clearDefault (section' : Section) : section'.clearDefault.default = none := by
  cases section' <;> rfl

def asPam : Section → Option BuiltinRealmConfig
  | pam config => some config
  | _ => none

def asPdm : Section → Option BuiltinRealmConfig
  | pdm config => some config
  | _ => none

def asOpenId : Section → Option OpenIdRealmConfig
  | openId config => some config
  | _ => none

def asLdap : Section → Option LdapRealmConfig
  | ldap config => some config
  | _ => none

def asAd : Section → Option AdRealmConfig
  | ad config => some config
  | _ => none

end Section

/-! ## The file -/

abbrev Domains := OrderedMap String Section

def lookup {α : Type} (as : Section → Option α) (type : RealmType) (realm : String) (domains : Domains) :
    Except ApiError α :=
  match domains.get? realm with
  | none => .error (.other s!"no such {type.text} '{realm}'")
  | some found =>
    match as found with
    | some config => .ok config
    | none => .error (.other s!"got unexpected type '{found.type.text}' for {type.text} '{realm}'")

def unsetDefaultRealm (domains : Domains) : Domains := domains.mapValues fun _ => Section.clearDefault

def realmExists (domains : Domains) (realm : String) : Bool := (domains.get? realm).isSome

def defaultPam : BuiltinRealmConfig := ⟨"pam", .pam, some "Linux PAM standard authentication", none⟩

def defaultPdm : BuiltinRealmConfig := ⟨"pdm", .pdm, some "Proxmox Datacenter Manager authentication server", none⟩

def addMissing (realm : String) (new : Section) (domains : Domains) : Domains :=
  if realmExists domains realm then domains else domains.insert realm new

def addDefaultRealms (domains : Domains) : Domains :=
  addMissing "pdm" (.pdm defaultPdm) (addMissing "pam" (.pam defaultPam) domains)

theorem lookup_eq_ok {α : Type} {as} {type : RealmType} {realm domains}
    {config : α} : lookup as type realm domains = .ok config ↔
      ∃ found, domains.get? realm = some found ∧ as found = some config := by
  unfold lookup
  cases domains.get? realm with
  | none => simp
  | some found => cases h : as found <;> simp [h]

theorem get?_addMissing (realm) (realm') (new) (domains) : (addMissing realm new domains).get? realm' =
      if realm' = realm then some ((domains.get? realm).getD new) else domains.get? realm' := by
  unfold addMissing realmExists
  cases found : domains.get? realm with
  | none => exact OrderedMap.get?_insert _ _ _ _
  | some =>
    show domains.get? realm' = _
    split
    · next hrealm => rw [hrealm, found, Option.getD_some]
    · rfl

theorem get?_unsetDefaultRealm (domains) (realm) :
    (unsetDefaultRealm domains).get? realm = (domains.get? realm).map Section.clearDefault :=
  OrderedMap.get?_mapValues _ _ _

/-! ## Connections to a directory -/

structure LdapConfig where
  servers : List String
  port : Option Nat
  (userAttr baseDn : String)
  (bindDn bindPassword : Option String)
  tlsMode : LdapMode
  verifyCertificate : Bool
  additionalTrustedCertificates : Option (List String)
  certificateStorePath : Option String

structure External extends Subscriptions.DigestCheck String where
  digest : Domains → String
  isDir : String → Bool
  checkConnection : LdapConfig → Except ApiError Unit
  rootDseAttr : LdapConfig → Except String (List String)

variable (ext : External)

def lookupCaStoreOrCertPath : Option String → Option String × Option (List String)
  | none => (none, none)
  | some capath => if ext.isDir capath then (some capath, none) else (none, some [capath])

def DirectoryConfig.connection (config : DirectoryConfig) (userAttr baseDn : String)
    (password : Option String) : LdapConfig where
  servers := config.server1 :: config.server2.toList
  port := config.port
  userAttr := userAttr
  baseDn := baseDn
  bindDn := config.bindDn
  bindPassword := password
  tlsMode := config.mode.getD .ldap
  verifyCertificate := config.verify.getD false
  additionalTrustedCertificates := (lookupCaStoreOrCertPath ext config.capath).2
  certificateStorePath := (lookupCaStoreOrCertPath ext config.capath).1

def LdapRealmConfig.connectionWithPassword (config : LdapRealmConfig) (password : Option String) : LdapConfig :=
  config.toDirectoryConfig.connection ext config.userAttr config.baseDn password

def AdRealmConfig.connectionWithPassword (config : AdRealmConfig) (password : Option String) : LdapConfig :=
  config.toDirectoryConfig.connection ext "sAMAccountName" (config.baseDn.getD "") password

def retrieveDefaultNamingContext (connection : LdapConfig) : Except ApiError String :=
  match ext.rootDseAttr connection with
  | .ok (baseDn :: _) => .ok baseDn
  | .ok [] => .error (.other "server did not provide \x60defaultNamingContext\x60")
  | .error err => .error (.other s!"failed to determine base_dn: {err}")

end Nexus.Realms
