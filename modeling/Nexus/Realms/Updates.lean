import Nexus.Lib.PartialUpdate
import Nexus.Realms.Invariant

/-!
# What an update of a realm changes

An update that succeeds leaves the properties that it does not name as they are, but for two: `default` is deleted if it
is not set (`updatedDefault`), and the base of an AD realm that has none is asked for and stored (`updatesOnly_iff`).
-/

namespace Nexus.Realms

open Lib Subscriptions BuiltinRealmConfig Option Effect

/-! ## Properties -/

inductive Property
  | realm | ty | comment | default | issuerUrl | clientId | scopes | acrValues | audiences | prompt
  | clientKey | autocreate | usernameClaim | server1 | server2 | port | mode | verify | capath | bindDn
  | filter | syncDefaultsOptions | syncAttributes | userClasses | baseDn | userAttr | password
  deriving DecidableEq

inductive PropertyValue
  | text (value : String)
  | number (value : Nat)
  | flag (value : Bool)
  | type (value : RealmType)
  | mode (value : LdapMode)
  deriving DecidableEq

def BuiltinRealmConfig.get (config : BuiltinRealmConfig) : Property → Option PropertyValue
  | .realm => some (.text config.realm)
  | .ty => some (.type config.ty)
  | .comment => config.comment.map .text
  | .default => config.default.map .flag
  | _ => none

def OpenIdRealmConfig.get (config : OpenIdRealmConfig) : Property → Option PropertyValue
  | .realm => some (.text config.realm)
  | .issuerUrl => some (.text config.issuerUrl)
  | .clientId => some (.text config.clientId)
  | .scopes => config.scopes.map .text
  | .acrValues => config.acrValues.map .text
  | .audiences => config.audiences.map .text
  | .prompt => config.prompt.map .text
  | .clientKey => config.clientKey.map .text
  | .comment => config.comment.map .text
  | .default => config.default.map .flag
  | .autocreate => config.autocreate.map .flag
  | .usernameClaim => config.usernameClaim.map .text
  | _ => none

def DirectoryConfig.get (config : DirectoryConfig) : Property → Option PropertyValue
  | .realm => some (.text config.realm)
  | .server1 => some (.text config.server1)
  | .server2 => config.server2.map .text
  | .port => config.port.map .number
  | .comment => config.comment.map .text
  | .default => config.default.map .flag
  | .mode => config.mode.map .mode
  | .verify => config.verify.map .flag
  | .capath => config.capath.map .text
  | .bindDn => config.bindDn.map .text
  | .filter => config.filter.map .text
  | .syncDefaultsOptions => config.syncDefaultsOptions.map .text
  | .syncAttributes => config.syncAttributes.map .text
  | .userClasses => config.userClasses.map .text
  | _ => none

def LdapRealmConfig.get (config : LdapRealmConfig) : Property → Option PropertyValue
  | .baseDn => some (.text config.baseDn)
  | .userAttr => some (.text config.userAttr)
  | p => config.toDirectoryConfig.get p

def AdRealmConfig.get (config : AdRealmConfig) : Property → Option PropertyValue
  | .baseDn => config.baseDn.map .text
  | p => config.toDirectoryConfig.get p

def Section.get : Section → Property → Option PropertyValue
  | pam config | pdm config => config.get
  | openId config => config.get
  | ldap config => config.get
  | ad config => config.get

def propertyOf (s : RealmState) (realm : String) : Property → Option PropertyValue
  | .password => (s.bindPasswords.get? realm).map .text
  | p => (s.domains.get? realm).bind fun found => found.get p

/-! ## The properties that a request names -/

def BuiltinUpdater.sets (update : BuiltinUpdater) : Property → Bool
  | .comment => update.comment.isSome
  | .default => update.default.isSome
  | _ => false

def OpenIdUpdater.sets (update : OpenIdUpdater) : Property → Bool
  | .issuerUrl => update.issuerUrl.isSome
  | .clientId => update.clientId.isSome
  | .scopes => update.scopes.isSome
  | .acrValues => update.acrValues.isSome
  | .audiences => update.audiences.isSome
  | .prompt => update.prompt.isSome
  | .clientKey => update.clientKey.isSome
  | .comment => update.comment.isSome
  | .default => update.default.isSome
  | .autocreate => update.autocreate.isSome
  | _ => false

def DirectoryUpdater.sets (update : DirectoryUpdater) (password : Option String) : Property → Bool
  | .server1 => update.server1.isSome
  | .server2 => update.server2.isSome
  | .port => update.port.isSome
  | .baseDn => update.baseDn.isSome
  | .comment => update.comment.isSome
  | .default => update.default.isSome
  | .mode => update.mode.isSome
  | .verify => update.verify.isSome
  | .bindDn => update.bindDn.isSome
  | .filter => update.filter.isSome
  | .syncDefaultsOptions => update.syncDefaultsOptions.isSome
  | .syncAttributes => update.syncAttributes.isSome
  | .userClasses => update.userClasses.isSome
  | .password => password.isSome
  | _ => false

def LdapUpdater.sets (update : LdapUpdater) (password : Option String) : Property → Bool
  | .userAttr => update.userAttr.isSome
  | p => update.toDirectoryUpdater.sets password p

def BuiltinProperty.property : BuiltinProperty → Property
  | .comment => .comment
  | .default => .default

def OpenIdProperty.property : OpenIdProperty → Property
  | .clientKey => .clientKey
  | .comment => .comment
  | .default => .default
  | .autocreate => .autocreate
  | .scopes => .scopes
  | .prompt => .prompt
  | .acrValues => .acrValues
  | .audiences => .audiences

def DirectoryProperty.property : DirectoryProperty → Property
  | .server2 => .server2
  | .port => .port
  | .comment => .comment
  | .default => .default
  | .verify => .verify
  | .mode => .mode
  | .bindDn => .bindDn
  | .password => .password
  | .filter => .filter
  | .syncDefaultsOptions => .syncDefaultsOptions
  | .syncAttributes => .syncAttributes
  | .userClasses => .userClasses

theorem not_mem_map_property {D : Type} {name : D → Property} {p : Property} (hne : ∀ q, name q ≠ p) (delete : List D) :
    p ∉ delete.map name := by
  intro hmem
  obtain ⟨q, _, hq⟩ := List.mem_map.mp hmem
  exact hne q hq

namespace Request

def updated : Request → Option String
  | .updatePam .. => some "pam"
  | .updatePdm .. => some "pdm"
  | .updateOpenId realm .. | .updateLdap realm .. | .updateAd realm .. => some realm
  | _ => none

def sets : Request → Property → Bool
  | .updatePam update .. | .updatePdm update .. => update.sets
  | .updateOpenId _ update .. => update.sets
  | .updateLdap _ update password .. => update.sets password
  | .updateAd _ update password .. => update.sets password
  | _ => fun _ => false

def deletes : Request → List Property
  | .updatePam _ properties _ | .updatePdm _ properties _ => (properties.getD []).map BuiltinProperty.property
  | .updateOpenId _ _ properties _ => (properties.getD []).map OpenIdProperty.property
  | .updateLdap _ _ _ properties _ | .updateAd _ _ _ properties _ =>
    (properties.getD []).map DirectoryProperty.property
  | _ => []

def default : Request → Option Bool
  | .updatePam update .. | .updatePdm update .. => update.default
  | .updateOpenId _ update .. => update.default
  | .updateLdap _ update .. => update.default
  | .updateAd _ update .. => update.default
  | _ => none

def asksForBase : Request → Bool
  | .updateAd .. => true
  | _ => false

theorem sets_default (request : Request) : request.sets .default = request.default.isSome := by
  cases request <;> rfl

theorem baseDn_not_mem_deletes (request : Request) : .baseDn ∉ request.deletes := by
  cases request with
  | updatePam | updatePdm | updateOpenId | updateLdap | updateAd =>
    exact not_mem_map_property (fun q => by cases q <;> nofun) _
  | _ => exact List.not_mem_nil

end Request

/-- Other realms lose their `default` at most. -/
structure UpdatesOnly (request : Request) (realm : String) (s t : RealmState) : Prop where
  type : (t.domains.get? realm).map Section.type = (s.domains.get? realm).map Section.type
  properties : ChangesOnly request.sets request.deletes (propertyOf s realm) (propertyOf t realm)
  others : ∀ other, other ≠ realm → t.domains.get? other = s.domains.get? other ∨
    request.default = some true ∧ t.domains.get? other = (s.domains.get? other).map Section.clearDefault
  passwords : ∀ other, other ≠ realm → t.bindPasswords.get? other = s.bindPasswords.get? other

/-- The update names what it would change by itself. -/
structure NamesAll (s : RealmState) (realm : String) (request : Request) : Prop where
  default : request.sets .default ∨ .default ∈ request.deletes ∨ propertyOf s realm .default = none
  baseDn : request.asksForBase → request.sets .baseDn ∨ propertyOf s realm .baseDn ≠ none

/-! ## What becomes of a property -/

variable {p : Property}

theorem BuiltinRealmConfig.get_delete (config : BuiltinRealmConfig) (q : BuiltinProperty) (p : Property) :
    (config.delete q).get p = if p = q.property then none else config.get p := by
  cases q <;> cases p <;> rfl

theorem OpenIdRealmConfig.get_delete (config : OpenIdRealmConfig) (q : OpenIdProperty) (p : Property) :
    (config.delete q).get p = if p = q.property then none else config.get p := by
  cases q <;> cases p <;> rfl

theorem DirectoryConfig.get_delete (config : DirectoryConfig) (q : DirectoryProperty) (p : Property) :
    (config.delete q).get p = if p = q.property then none else config.get p := by
  cases q <;> cases p <;> rfl

variable {config : BuiltinRealmConfig} {update : BuiltinUpdater} {password : Option String}

theorem BuiltinRealmConfig.get_update
    (hset : update.sets p = false) (hp : p ≠ .default) : (config.update update).get p = config.get p := by
  cases p <;> simp_all [BuiltinRealmConfig.get, BuiltinRealmConfig.update, BuiltinUpdater.sets, updatedComment]

theorem OpenIdRealmConfig.get_update {config : OpenIdRealmConfig} {update : OpenIdUpdater}
    (hset : update.sets p = false) (hp : p ≠ .default) : (config.update update).get p = config.get p := by
  cases p <;> simp_all [OpenIdRealmConfig.get, OpenIdRealmConfig.update, OpenIdUpdater.sets, updatedComment]

theorem DirectoryConfig.get_update {config : DirectoryConfig} {update : DirectoryUpdater}
    (hset : update.sets password p = false) (hp : p ≠ .default) : (config.update update).get p = config.get p := by
  cases p <;> simp_all [DirectoryConfig.get, DirectoryConfig.update, DirectoryUpdater.sets, updatedComment]

theorem get_updatedDirectory {config : DirectoryConfig} {update : DirectoryUpdater}
    {delete : List DirectoryProperty} (hset : update.sets password p = false) (hp : p ≠ .default) :
    ((delete.foldl DirectoryConfig.delete config).update update).get p =
      if p ∈ delete.map DirectoryProperty.property then none else config.get p :=
  (DirectoryConfig.get_update hset hp).trans (get_foldl_delete DirectoryConfig.get_delete p delete config)

theorem Section.get_default (section' : Section) : section'.get .default = section'.default.map .flag := by
  cases section' <;> rfl

theorem Section.get_password (section' : Section) : section'.get .password = none := by
  cases section' <;> rfl

structure Updated (request : Request) (old new : Section) : Prop where
  type : new.type = old.type
  default : new.default = updatedDefault request.default
  get : ∀ p, p ≠ .default → p ≠ .baseDn → request.sets p = false →
    new.get p = if p ∈ request.deletes then none else old.get p
  baseDn : request.sets .baseDn = false →
    if request.asksForBase then new.get .baseDn ≠ none ∧ (old.get .baseDn ≠ none → new.get .baseDn = old.get .baseDn)
    else new.get .baseDn = old.get .baseDn

variable {request : Request} {s : RealmState} {realm : String} {old new : Section}
  {passwords : OrderedMap String String}

theorem Updated.get_default (h : Updated request old new) (hset : request.sets .default = false) :
    new.get .default = none := by
  rw [Request.sets_default, isSome_eq_false_iff, isNone_iff_eq_none] at hset
  rw [Section.get_default, h.default, hset]
  rfl

theorem Updated.forall_get_iff (h : Updated request old new) :
    (∀ p, request.sets p = false → new.get p = if p ∈ request.deletes then none else old.get p) ↔
      (request.sets .default ∨ .default ∈ request.deletes ∨ old.get .default = none) ∧
        (request.asksForBase → request.sets .baseDn ∨ old.get .baseDn ≠ none) := by
  constructor
  · intro hall
    constructor
    · by_cases hset : request.sets .default
      · exact .inl hset
      · have heq := hall .default (Bool.eq_false_of_not_eq_true hset)
        rw [h.get_default (Bool.eq_false_of_not_eq_true hset)] at heq
        split at heq
        · next deletes => exact .inr (.inl deletes)
        · exact .inr (.inr heq.symm)
    · intro hasks
      by_cases hset : request.sets .baseDn
      · exact .inl hset
      · have hbase := h.baseDn (Bool.eq_false_of_not_eq_true hset)
        rw [if_pos hasks] at hbase
        have heq := hall .baseDn (Bool.eq_false_of_not_eq_true hset)
        rw [if_neg request.baseDn_not_mem_deletes] at heq
        exact .inr (heq ▸ hbase.1)
  · rintro ⟨hdef, hasked⟩ p hset
    by_cases hp : p = .default
    · subst hp
      rw [h.get_default hset]
      rcases hdef with hset' | deletes | hnone
      · rw [hset] at hset'
        cases hset'
      · rw [if_pos deletes]
      · rw [hnone, ite_self]
    · by_cases hp' : p = .baseDn
      · subst hp'
        rw [if_neg request.baseDn_not_mem_deletes]
        have hbase := h.baseDn hset
        split at hbase
        · next hasks => exact hbase.2 ((hasked hasks).resolve_left (by simp [hset]))
        · exact hbase
      · exact h.get p hp hp' hset

theorem propertyOf_eq (found : s.domains.get? realm = some old) (hp : p ≠ .password) :
    propertyOf s realm p = old.get p := by
  cases p <;> first | exact absurd rfl hp | exact congrArg (Option.bind · _) found

theorem updatesOnly_put_iff (found : s.domains.get? realm = some old) (h : Updated request old new)
    (hother : ∀ other, other ≠ realm → passwords.get? other = s.bindPasswords.get? other)
    (hpass : request.sets .password = false →
      passwords.get? realm = if .password ∈ request.deletes then none else s.bindPasswords.get? realm) :
    UpdatesOnly request realm s ⟨(makeRoom new.default s.domains).insert realm new, passwords⟩ ↔
      NamesAll s realm request := by
  have hnew : ((makeRoom new.default s.domains).insert realm new).get? realm = some new := by
    rw [get?_put, if_pos rfl]
  have hprop : ChangesOnly request.sets request.deletes (propertyOf s realm)
      (propertyOf ⟨(makeRoom new.default s.domains).insert realm new, passwords⟩ realm) ↔
        ∀ p, request.sets p = false → new.get p = if p ∈ request.deletes then none else old.get p := by
    refine changesOnly_iff.trans (forall_congr' fun p => ?_)
    by_cases hp : p = .password
    · -- A section has no such property, and the passwords are as they should be.
      subst hp
      refine ⟨fun _ _ => ?_, fun _ hset => ?_⟩
      · rw [Section.get_password, Section.get_password, ite_self]
      · show (passwords.get? realm).map _ = if _ then none else (s.bindPasswords.get? realm).map _
        rw [hpass hset, apply_ite (Option.map PropertyValue.text), map_none]
    · rw [propertyOf_eq found hp, propertyOf_eq hnew hp]
  have names : (∀ p, request.sets p = false → new.get p = if p ∈ request.deletes then none else old.get p) ↔
      NamesAll s realm request := by
    rw [h.forall_get_iff, ← propertyOf_eq found (p := .default) nofun, ← propertyOf_eq found (p := .baseDn) nofun]
    exact ⟨fun hboth => ⟨hboth.1, hboth.2⟩, fun names => ⟨names.default, names.baseDn⟩⟩
  refine ⟨fun updates => names.mp (hprop.mp updates.properties), fun hall => ?_⟩
  refine ⟨?_, hprop.mpr (names.mpr hall), fun other hoth => ?_, hother⟩
  · rw [hnew, found]
    exact congrArg some h.type
  · rw [get?_put, if_neg hoth]
    split
    · next hdef =>
      refine .inr ⟨?_, rfl⟩
      rw [h.default, updatedDefault] at hdef
      by_contra hne
      rw [if_neg hne] at hdef
      cases hdef
    · exact .inl rfl

/-! ## The sections that the handlers put -/

variable {digest : Option String} {delete : Option (List BuiltinProperty)}

theorem updated_pam : Updated (.updatePam update delete digest) (.pam config)
      (.pam (((delete.getD []).foldl BuiltinRealmConfig.delete config).update update)) where
  type := rfl
  default := rfl
  get _ hp _ hset :=
    (get_update hset hp).trans (get_foldl_delete get_delete _ _ config)
  baseDn _ := rfl

theorem updated_pdm : Updated (.updatePdm update delete digest) (.pdm config)
      (.pdm (((delete.getD []).foldl BuiltinRealmConfig.delete config).update update)) where
  type := rfl
  default := rfl
  get _ hp _ hset :=
    (get_update hset hp).trans (get_foldl_delete get_delete _ _ config)
  baseDn _ := rfl

theorem updated_openId {config : OpenIdRealmConfig} {update : OpenIdUpdater} {delete : Option (List OpenIdProperty)} :
    Updated (.updateOpenId realm update delete digest) (.openId config)
      (.openId (((delete.getD []).foldl OpenIdRealmConfig.delete config).update update)) where
  type := rfl
  default := rfl
  get _ hp _ hset :=
    (OpenIdRealmConfig.get_update hset hp).trans (get_foldl_delete OpenIdRealmConfig.get_delete _ _ config)
  baseDn _ := rfl

theorem LdapRealmConfig.get_of_ne (config : LdapRealmConfig) (hbase : p ≠ .baseDn)
    (huser : p ≠ .userAttr) : config.get p = config.toDirectoryConfig.get p := by
  cases p <;> first | rfl | exact absurd rfl hbase | exact absurd rfl huser

theorem AdRealmConfig.get_of_ne (config : AdRealmConfig) (hbase : p ≠ .baseDn) :
    config.get p = config.toDirectoryConfig.get p := by
  cases p <;> first | rfl | exact absurd rfl hbase

theorem LdapUpdater.sets_of_ne (update : LdapUpdater) (huser : p ≠ .userAttr) :
    update.sets password p = update.toDirectoryUpdater.sets password p := by
  cases p <;> first | rfl | exact absurd rfl huser

theorem updated_ldap {config update} {delete : Option (List DirectoryProperty)} :
    Updated (.updateLdap realm update password delete digest) (.ldap config)
      (.ldap (config.updated update delete)) where
  type := rfl
  default := rfl
  get p hp hbase hset := by
    by_cases huser : p = .userAttr
    · subst huser
      have hnone : update.userAttr = none := isNone_iff_eq_none.mp (isSome_eq_false_iff.mp hset)
      refine Eq.trans ?_ (if_neg (not_mem_map_property (fun q => by cases q <;> nofun) _)).symm
      show some (PropertyValue.text (update.userAttr.getD config.userAttr)) = some (.text config.userAttr)
      rw [hnone, getD_none]
    · show (config.updated update delete).get p = if _ then none else config.get p
      rw [LdapRealmConfig.get_of_ne _ hbase huser, LdapRealmConfig.get_of_ne _ hbase huser]
      exact get_updatedDirectory ((update.sets_of_ne huser).symm.trans hset) hp
  baseDn hset := by
    have hnone : update.baseDn = none := isNone_iff_eq_none.mp (isSome_eq_false_iff.mp hset)
    show some (PropertyValue.text (update.baseDn.getD config.baseDn)) = some (.text config.baseDn)
    rw [hnone, getD_none]

theorem updated_ad {ext config new update} {delete : Option (List DirectoryProperty)} {connect}
    (hnew : (config.updated update delete).completed ext connect = .ok new) :
    Updated (.updateAd realm update password delete digest) (.ad config) (.ad new) := by
  obtain ⟨commits, hkept, hbase⟩ := completed_eq_ok hnew
  refine ⟨rfl, ?_, fun p hp hne hset => ?_, fun hset => ⟨?_, fun hold => ?_⟩⟩
  · exact congrArg DirectoryConfig.default commits
  · show new.get p = if _ then none else config.get p
    rw [AdRealmConfig.get_of_ne _ hne, AdRealmConfig.get_of_ne _ hne, commits]
    exact get_updatedDirectory hset hp
  · exact fun hnone => hbase (map_eq_none_iff.mp hnone)
  · have hnone : update.baseDn = none := isNone_iff_eq_none.mp (isSome_eq_false_iff.mp hset)
    have hsame : (config.updated update delete).baseDn = config.baseDn := by
      show update.baseDn.or config.baseDn = _
      rw [hnone, none_or]
    show new.baseDn.map _ = config.baseDn.map _
    rw [hkept (hsame ▸ fun h => hold (map_eq_none_iff.mpr h)), hsame]

/-! ## The updates -/

variable {other : String} {delete : List DirectoryProperty}

theorem get?_passwords_of_ne (hoth : other ≠ realm) :
    (passwordsWith realm password (passwordsAfter realm delete passwords)).get? other = passwords.get? other := by
  have after : (passwordsAfter realm delete passwords).get? other = passwords.get? other := by
    unfold passwordsAfter
    split
    · rw [OrderedMap.get?_remove, if_neg hoth]
    · rfl
  cases password with
  | none => exact after
  | some password =>
    show ((passwordsAfter realm delete passwords).insert realm password).get? other = _
    rw [OrderedMap.get?_insert, if_neg hoth, after]

theorem get?_passwords_of_not_set (hset : password.isSome = false) :
    (passwordsWith realm password (passwordsAfter realm delete passwords)).get? realm =
      if .password ∈ delete.map DirectoryProperty.property then none else passwords.get? realm := by
  rw [isSome_eq_false_iff, isNone_iff_eq_none] at hset
  subst hset
  have hmem : .password ∈ delete.map DirectoryProperty.property ↔ .password ∈ delete := by
    refine ⟨fun h => ?_, List.mem_map_of_mem (f := DirectoryProperty.property)⟩
    obtain ⟨q, hq, heq⟩ := List.mem_map.mp h
    cases q <;> first | cases heq; done | exact hq
  show (passwordsAfter realm delete passwords).get? realm = _
  rw [if_congr hmem rfl rfl]
  unfold passwordsAfter
  split
  · rw [OrderedMap.get?_remove, if_pos rfl]
  · rfl

variable {ext : External}

theorem updatesOnly_found {α : Type} {as : Section → Option α} {type : RealmType}
    {next : α → Except ApiError Unit × RealmState}
    (hrun : (serve ext request).run s = Effect.after (ext.detectModification (ext.digest s.domains) digest) s fun _ =>
      Effect.after (lookup as type realm s.domains) s next) (hok : ((serve ext request).run s).1 = .ok ())
    (h : ∀ found config, s.domains.get? realm = some found → as found = some config → (next config).1 = .ok () →
      (UpdatesOnly request realm s (next config).2 ↔ NamesAll s realm request)) :
    UpdatesOnly request realm s ((serve ext request).run s).2 ↔ NamesAll s realm request := by
  rw [hrun] at hok ⊢
  obtain ⟨_, _, hdig⟩ := after_of_ok hok
  rw [hdig] at hok ⊢
  obtain ⟨config, hlook, hnext⟩ := after_of_ok hok
  rw [hnext] at hok ⊢
  obtain ⟨found, hfnd, has⟩ := lookup_eq_ok.mp hlook
  exact h found config hfnd has hok

theorem updatesOnly_update (found : s.domains.get? realm = some old) (h : Updated request old new)
    (deletes : .password ∉ request.deletes) :
    UpdatesOnly request realm s { s with domains := (makeRoom new.default s.domains).insert realm new } ↔
      NamesAll s realm request :=
  updatesOnly_put_iff found h (fun _ _ => rfl) fun _ => (if_neg deletes).symm

theorem updatesOnly_connectAndSave
    {connection} (found : s.domains.get? realm = some old) (h : Updated request old new)
    (hsets : request.sets .password = password.isSome)
    (deletes : request.deletes = delete.map DirectoryProperty.property)
    (hok : ((connectAndSave ext realm password connection new).run
      { s with bindPasswords := passwordsAfter realm delete s.bindPasswords }).1 = .ok ()) :
    UpdatesOnly request realm s ((connectAndSave ext realm password connection new).run
      { s with bindPasswords := passwordsAfter realm delete s.bindPasswords }).2 ↔ NamesAll s realm request := by
  rw [run_connectAndSave] at hok ⊢
  obtain ⟨_, _, hsaved⟩ := after_of_ok hok
  rw [hsaved]
  refine updatesOnly_put_iff found h (fun _ other => get?_passwords_of_ne other) fun hset => ?_
  rw [deletes]
  exact get?_passwords_of_not_set (hsets.symm.trans hset)

/-- **An update that succeeds changes only what it names exactly if it names all that its handler changes.** -/
theorem updatesOnly_iff (ext : External) (s : RealmState) (request : Request) (realm : String)
    (hupdate : request.updated = some realm) (hok : ((serve ext request).run s).1 = .ok ()) :
    UpdatesOnly request realm s ((serve ext request).run s).2 ↔ NamesAll s realm request := by
  cases request with
  | updatePam update delete digest =>
    cases hupdate
    refine updatesOnly_found run_update hok fun found config hfnd has _ => ?_
    refine updatesOnly_update hfnd (eq_of_asPam has ▸ updated_pam) (not_mem_map_property (fun q => ?_) _)
    cases q <;> nofun
  | updatePdm update delete digest =>
    cases hupdate
    refine updatesOnly_found run_update hok fun found config hfnd has _ => ?_
    refine updatesOnly_update hfnd (eq_of_asPdm has ▸ updated_pdm) (not_mem_map_property (fun q => ?_) _)
    cases q <;> nofun
  | updateOpenId name update delete digest =>
    cases hupdate
    refine updatesOnly_found run_update hok fun found config hfnd has _ => ?_
    refine updatesOnly_update hfnd (eq_of_asOpenId has ▸ updated_openId) (not_mem_map_property (fun q => ?_) _)
    cases q <;> nofun
  | updateLdap name update password delete digest =>
    cases hupdate
    refine updatesOnly_found run_updateLdapRealm hok fun found config hfnd has hok => ?_
    exact updatesOnly_connectAndSave hfnd (eq_of_asLdap has ▸ updated_ldap) rfl rfl hok
  | updateAd name update password delete digest =>
    cases hupdate
    refine updatesOnly_found run_updateAdRealm hok fun found config hfnd has hok => ?_
    obtain ⟨new, hnew, hnext⟩ := after_of_ok hok
    rw [hnext] at hok ⊢
    exact updatesOnly_connectAndSave hfnd (eq_of_asAd has ▸ updated_ad hnew) rfl rfl hok
  | _ => cases hupdate

theorem pam_comment_updatesOnly : UpdatesOnly (.updatePam ⟨some "Console", none⟩ none none) "pam" builtins
      ((serve quiet (.updatePam ⟨some "Console", none⟩ none none)).run builtins).2 :=
  (updatesOnly_iff quiet builtins _ "pam" rfl rfl).mpr ⟨.inr (.inr (by decide)), nofun⟩

def commentSso : Request :=
  .updateOpenId "sso" ⟨none, none, none, none, none, none, none, some "Single sign-on", none, none⟩ none none

/-- With its new comment the realm is no longer the default. -/
theorem default_lost : ((serve quiet commentSso).run (step builtins (quiet, .createOpenId sso))).1 = .ok () ∧
      commentSso.sets .default = false ∧ .default ∉ commentSso.deletes ∧
      propertyOf (step builtins (quiet, .createOpenId sso)) "sso" .default = some (.flag true) ∧
      propertyOf ((serve quiet commentSso).run (step builtins (quiet, .createOpenId sso))).2 "sso" .default = none :=
  ⟨rfl, rfl, List.not_mem_nil, by decide, by decide⟩

end Nexus.Realms
