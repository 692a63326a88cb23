import Nexus.Access
import Nexus.Lib.Effect
import Nexus.Lib.OrderedMap
import Nexus.Lib.Text

/-!
# Prepared answers of the auto-installer

The prepared answers of `lib/pdm-config/src/auto_install.rs`, and what `server/src/api/auto_installer/mod.rs` computes
from them: `findConfig`, `incrementTemplateCounters` and, for the edits, `Edit.prepare`.
-/

namespace Nexus.AutoInstaller

open Lib (OrderedMap Text.trimEndBy)
open Lib.OrderedMap List

/-! ## Answers -/

structure I32 where
  val : Int
  lower : -2147483648 ≤ val
  upper : val ≤ 2147483647
  deriving DecidableEq

def I32.max : I32 := ⟨2147483647, by decide, by decide⟩

def I32.saturatingSucc (v : I32) : I32 :=
  if h : v.val < 2147483647 then ⟨v.val + 1, Int.le_trans v.lower (Int.le_add_one (Int.le_refl _)), h⟩ else v

/-- Fields that only the rendering reads are the `rest`. -/
structure PreparedConfig (Rest : Type) where
  id : String
  authorizedTokens : List String
  isDefault : Bool
  targetFilter : OrderedMap String String
  rootPasswordHashed : Option String
  (netdevFilter diskFilter : OrderedMap String String)
  (postHookBaseUrl postHookCertFp : Option String)
  templateCounters : OrderedMap String I32
  rest : Rest

structure Prepared (Rest : Type) extends OrderedMap String (PreparedConfig Rest) where
  id_eq : ∀ p ∈ entries, p.2.id = p.1

inductive DeletableProperty
  | targetFilter | netdevFilter | diskFilter | rootSshKeys | postHookBaseUrl | postHookCertFp
  | templateCounters | subscriptionKey

/-- What comes from elsewhere. -/
structure Env (Info Rest Answer : Type) where
  pointer : Info → String → Option String
  glob : String → Option (String → Bool)
  render : PreparedConfig Rest → Info → Except ApiError Answer
  (udevFilterKey templateCounterName : String → Bool)
  digest : Prepared Rest → String
  clear : DeletableProperty → Rest → Rest

variable {Info Rest Answer : Type} (env : Env Info Rest Answer) {content : Prepared Rest}

/-- Some prepared answer allows the token. -/
def Prepared.Lists (prepared : Prepared Rest) (token : String) : Prop :=
  ∃ p ∈ prepared.entries, token ∈ p.2.authorizedTokens

def Prepared.insert (prepared : Prepared Rest) (config : PreparedConfig Rest) : Prepared Rest :=
  ⟨prepared.toOrderedMap.insert config.id config, fun p hp => by
    rcases mem_insert.mp hp with rfl | ⟨-, hp⟩
    · rfl
    · exact prepared.id_eq p hp⟩

def Prepared.remove (prepared : Prepared Rest) (id : String) : Prepared Rest :=
  ⟨prepared.toOrderedMap.remove id, fun p hp => prepared.id_eq p (mem_remove.mp hp).2⟩

theorem Prepared.get?_insert (prepared : Prepared Rest) (config : PreparedConfig Rest) (id : String) :
    (prepared.insert config).get? id = if id = config.id then some config else prepared.get? id :=
  OrderedMap.get?_insert _ _ _ _

theorem Prepared.get?_remove (prepared : Prepared Rest) (id id' : String) :
    (prepared.remove id).get? id' = if id' = id then none else prepared.get? id' :=
  OrderedMap.get?_remove _ _ _

theorem Prepared.id_of_get? {prepared : Prepared Rest} {id : String} {config : PreparedConfig Rest}
    (h : prepared.get? id = some config) : config.id = id :=
  prepared.id_eq (id, config) (get?_eq_some.mp h)

theorem Prepared.lists_of_get? {prepared : Prepared Rest} {id token : String} {config : PreparedConfig Rest}
    (h : prepared.get? id = some config) (htok : token ∈ config.authorizedTokens) : prepared.Lists token :=
  ⟨(id, config), get?_eq_some.mp h, htok⟩

theorem Prepared.lists_insert {prepared : Prepared Rest} {config : PreparedConfig Rest} {token : String}
    (h : (prepared.insert config).Lists token) : token ∈ config.authorizedTokens ∨ prepared.Lists token := by
  obtain ⟨p, hp, htok⟩ := h
  rcases mem_insert.mp hp with rfl | ⟨-, hp⟩
  · exact .inl htok
  · exact .inr ⟨p, hp, htok⟩

theorem Prepared.lists_remove {prepared : Prepared Rest} {id token : String}
    (h : (prepared.remove id).Lists token) : prepared.Lists token := by
  obtain ⟨p, hp, htok⟩ := h
  exact ⟨p, (mem_remove.mp hp).2, htok⟩

/-! ## The answer for an installation -/

def matchedAll (info : Info) (config : PreparedConfig Rest) : Bool :=
  config.targetFilter.entries.all fun filter =>
    match env.pointer info filter.1 with
    | some value => match env.glob filter.2 with
      | some pattern => pattern value
      | none => false
    | none => false

def isMatch (tokenId : String) (info : Info) (config : PreparedConfig Rest) : Bool :=
  tokenId ∈ config.authorizedTokens && !config.isDefault && !config.targetFilter.entries.isEmpty &&
    matchedAll env info config

def findLoop (tokenId : String) (info : Info) :
    List (String × PreparedConfig Rest) → Option (PreparedConfig Rest) → Option (PreparedConfig Rest) →
      Option (PreparedConfig Rest) × Option (PreparedConfig Rest)
  | [], defaultAnswer, matched => (defaultAnswer, matched)
  | (_, p) :: prepared, defaultAnswer, matched =>
    if tokenId ∉ p.authorizedTokens then findLoop tokenId info prepared defaultAnswer matched
    else if p.isDefault then findLoop tokenId info prepared (some p) matched
    else if p.targetFilter.entries.isEmpty then findLoop tokenId info prepared defaultAnswer matched
    else if matchedAll env info p then
      match matched with
      | none => findLoop tokenId info prepared defaultAnswer (some p)
      | some _ => (defaultAnswer, matched)
    else findLoop tokenId info prepared defaultAnswer matched

def findConfig (prepared : Prepared Rest) (tokenId : String) (info : Info) : Option (PreparedConfig Rest) :=
  let (defaultAnswer, matched) := findLoop env tokenId info prepared.entries none none
  if matched.isSome then matched else defaultAnswer

def isFallback (tokenId : String) (config : PreparedConfig Rest) : Bool :=
  tokenId ∈ config.authorizedTokens && config.isDefault

theorem findLoop_cons (tokenId) (info) (id) (p : PreparedConfig Rest) (prepared) (defaultAnswer) (matched) :
    findLoop env tokenId info ((id, p) :: prepared) defaultAnswer matched =
      if isMatch env tokenId info p then
        if matched.isSome then (defaultAnswer, matched) else findLoop env tokenId info prepared defaultAnswer (some p)
      else findLoop env tokenId info prepared (if isFallback tokenId p then some p else defaultAnswer) matched := by
  rw [findLoop.eq_def]
  simp only [isMatch, isFallback]
  by_cases token : tokenId ∈ p.authorizedTokens
  · by_cases hdef : p.isDefault
    · simp [token, hdef]
    · by_cases empty : p.targetFilter.entries.isEmpty
      · simp [token, hdef, empty]
      · by_cases hmatched : matchedAll env info p <;> cases matched <;> simp [token, hdef, empty, hmatched]
  · simp [token]

theorem findLoop_matched (tokenId) (info) : ∀ (prepared : List (String × PreparedConfig Rest)) (defaultAnswer matched),
    (findLoop env tokenId info prepared defaultAnswer matched).2 =
      matched.or ((prepared.map Prod.snd).find? (isMatch env tokenId info))
  | [], _, matched => by simp [findLoop]
  | (_, p) :: prepared, defaultAnswer, matched => by
    rw [findLoop_cons, map_cons, find?_cons]
    by_cases hmatch : isMatch env tokenId info p
    · cases matched <;> simp [hmatch, findLoop_matched]
    · simp [hmatch, findLoop_matched]

theorem findLoop_default (tokenId) (info) : ∀ (prepared : List (String × PreparedConfig Rest)) (defaultAnswer matched),
    (∀ p ∈ prepared, isMatch env tokenId info p.2 = false) →
    (findLoop env tokenId info prepared defaultAnswer matched).1 =
      ((prepared.map Prod.snd).filter (isFallback tokenId)).getLast?.or defaultAnswer
  | [], _, _, _ => by simp [findLoop]
  | (_, p) :: prepared, defaultAnswer, matched, h => by
    obtain ⟨hp, latest⟩ := forall_mem_cons.mp h
    rw [findLoop_cons, hp, if_neg Bool.false_ne_true, findLoop_default tokenId info prepared _ _ latest, map_cons,
      filter_cons]
    split
    · rw [getLast?_cons, Option.some_or]
      cases ((prepared.map Prod.snd).filter (isFallback tokenId)).getLast? <;> rfl
    · rfl

theorem findConfig_eq (prepared) (tokenId) (info) :
    findConfig env prepared tokenId info = ((prepared.entries.map Prod.snd).find? (isMatch env tokenId info)).or
      ((prepared.entries.map Prod.snd).filter (isFallback tokenId)).getLast? := by
  unfold findConfig
  simp only [findLoop_matched, Option.none_or]
  cases hfind : (prepared.entries.map Prod.snd).find? (isMatch env tokenId info) with
  | some => rfl
  | none =>
    have hnone : ∀ p ∈ prepared.entries, isMatch env tokenId info p.2 = false := fun p hp =>
      Bool.eq_false_iff.mpr (find?_eq_none.mp hfind p.2 (mem_map_of_mem hp))
    simp [findLoop_default env tokenId info _ _ _ hnone]

variable {config : PreparedConfig Rest} {prepared : Prepared Rest} {tokenId : String} {info : Info}

theorem of_findConfig (h : findConfig env prepared tokenId info = some config) :
    config ∈ prepared.entries.map Prod.snd ∧ tokenId ∈ config.authorizedTokens := by
  rw [findConfig_eq, Option.or_eq_some_iff] at h
  rcases h with hfind | ⟨-, hlast⟩
  · have hmatch := find?_some hfind
    simp only [isMatch, Bool.and_eq_true, decide_eq_true_eq] at hmatch
    exact ⟨mem_of_find?_eq_some hfind, hmatch.1.1.1⟩
  · obtain ⟨hmem, hfall⟩ := mem_filter.mp (mem_of_getLast? hlast)
    exact ⟨hmem, of_decide_eq_true (Bool.and_eq_true_iff.mp hfall).1⟩

theorem get?_of_findConfig (h : findConfig env prepared tokenId info = some config) :
    prepared.get? config.id = some config := by
  obtain ⟨p, hp, rfl⟩ := mem_map.mp (of_findConfig env h).1
  rw [get?_eq_some, prepared.id_eq p hp]
  exact hp

/-- The rule for an answer that is not the default. -/
def Matches (tokenId : String) (info : Info) (config : PreparedConfig Rest) : Prop :=
  tokenId ∈ config.authorizedTokens ∧ config.isDefault = false ∧ config.targetFilter.entries ≠ [] ∧
    ∀ filter ∈ config.targetFilter.entries, ∃ value pattern,
      env.pointer info filter.1 = some value ∧ env.glob filter.2 = some pattern ∧ pattern value

theorem isMatch_eq_true : isMatch env tokenId info config ↔ Matches env tokenId info config := by
  have hall : matchedAll env info config ↔ ∀ filter ∈ config.targetFilter.entries, ∃ value pattern,
      env.pointer info filter.1 = some value ∧ env.glob filter.2 = some pattern ∧ pattern value := by
    rw [matchedAll, all_eq_true]
    refine forall₂_congr fun filter _ => ?_
    cases env.pointer info filter.1 with
    | none => simp
    | some => cases env.glob filter.2 <;> simp
  simp [isMatch, Matches, hall, and_assoc]

/-- **The first answer that matches is found, and without one the default if it lists the token; of several defaults it
is the last that does.** -/
theorem findConfig_selects (prepared : Prepared Rest) (tokenId : String) (info : Info) :
    let configs := prepared.entries.map Prod.snd
    (∀ before config after, configs = before ++ config :: after → Matches env tokenId info config →
      (∀ c ∈ before, ¬ Matches env tokenId info c) → findConfig env prepared tokenId info = some config) ∧
    ((∀ c ∈ configs, ¬ Matches env tokenId info c) →
      (∀ before config after, configs = before ++ config :: after → config.isDefault →
        tokenId ∈ config.authorizedTokens → (∀ c ∈ after, c.isDefault → tokenId ∉ c.authorizedTokens) →
        findConfig env prepared tokenId info = some config) ∧
      ((∀ c ∈ configs, c.isDefault → tokenId ∉ c.authorizedTokens) → findConfig env prepared tokenId info = none)) ∧
    ∀ config, findConfig env prepared tokenId info = some config → tokenId ∈ config.authorizedTokens := by
  intro configs
  have hnot : ∀ cs : List (PreparedConfig Rest), (∀ c ∈ cs, ¬ Matches env tokenId info c) →
      cs.find? (isMatch env tokenId info) = none := fun cs h =>
    find?_eq_none.mpr fun c hc hmatch => h c hc ((isMatch_eq_true env).mp hmatch)
  have hno : ∀ cs : List (PreparedConfig Rest), (∀ c ∈ cs, c.isDefault → tokenId ∉ c.authorizedTokens) →
      cs.filter (isFallback tokenId) = [] := fun cs h =>
    filter_eq_nil_iff.mpr fun c hc hfall => by
      obtain ⟨token, hdef⟩ := Bool.and_eq_true_iff.mp hfall
      exact h c hc hdef (of_decide_eq_true token)
  rw [findConfig_eq]
  refine ⟨fun before config after hconf hmatch hbef => ?_, fun hnone => ⟨?_, fun hdef => ?_⟩,
    fun config hcfg => (of_findConfig env (findConfig_eq env prepared tokenId info ▸ hcfg)).2⟩
  · rw [show prepared.entries.map Prod.snd = _ from hconf, find?_append, hnot before hbef,
      find?_cons_of_pos ((isMatch_eq_true env).mpr hmatch)]
    rfl
  · intro before config after hconf hdef token haft
    rw [hnot _ hnone, show prepared.entries.map Prod.snd = _ from hconf, filter_append,
      filter_cons_of_pos (by simp [isFallback, token, hdef]), hno after haft]
    simp
  · rw [hnot _ hnone, hno _ hdef]
    rfl

/-! ## Template counters -/

def PreparedConfig.incremented (config : PreparedConfig Rest) : PreparedConfig Rest :=
  { config with templateCounters := config.templateCounters.mapValues fun _ v => v.saturatingSucc }

def incrementTemplateCounters (prepared : Prepared Rest) (id : String) : Except ApiError (Prepared Rest) :=
  match prepared.get? id with
  | none => .error (.http .notFound ("no such prepared answer configuration: " ++ id))
  | some conf => .ok (prepared.insert conf.incremented)

theorem I32.lt_saturatingSucc {v} (h : v ≠ I32.max) : v.val < v.saturatingSucc.val := by
  have hlt : v.val < 2147483647 := by
    obtain ⟨val, lower, upper⟩ := v
    by_contra hnot
    obtain rfl : val = 2147483647 := by
      simp only at hnot
      omega
    exact h rfl
  rw [saturatingSucc, dif_pos hlt]
  exact Int.lt_add_one_iff.mpr (Int.le_refl _)

theorem I32.le_saturatingSucc (v : I32) : v.val ≤ v.saturatingSucc.val := by
  by_cases h : v = I32.max
  · rw [h]
    decide
  · exact Int.le_of_lt (lt_saturatingSucc h)

theorem PreparedConfig.get?_incremented {name w} (h : config.incremented.templateCounters.get? name = some w) :
    ∃ v, config.templateCounters.get? name = some v ∧ w = v.saturatingSucc := by
  rw [incremented, get?_mapValues, Option.map_eq_some_iff] at h
  obtain ⟨v, hv, rfl⟩ := h
  exact ⟨v, hv, rfl⟩

theorem get?_of_increment {id : String} (h : incrementTemplateCounters prepared id = .ok content) (id' : String) :
    content.get? id' = if id' = id then (prepared.get? id).map PreparedConfig.incremented else prepared.get? id' := by
  unfold incrementTemplateCounters at h
  split at h
  · cases h
  · next conf hconf =>
    cases h
    have hid : conf.incremented.id = id := show conf.id = id from Prepared.id_of_get? hconf
    rw [Prepared.get?_insert, hid, hconf]
    rfl

theorem lists_of_increment {id token : String}
    (h : incrementTemplateCounters prepared id = .ok content) (hlists : content.Lists token) :
    prepared.Lists token := by
  unfold incrementTemplateCounters at h
  split at h
  · cases h
  · next conf hconf =>
    cases h
    rcases Prepared.lists_insert hlists with htok | hlists
    · exact Prepared.lists_of_get? hconf htok
    · exact hlists

/-! ## Edits -/

structure Updater (Rest : Type) where
  authorizedTokens : Option (List String)
  isDefault : Option Bool
  targetFilter : Option (OrderedMap String String)
  rootPasswordHashed : Option String
  (netdevFilter diskFilter : Option (OrderedMap String String))
  (postHookBaseUrl postHookCertFp : Option String)
  templateCounters : Option (OrderedMap String I32)
  rest : Rest → Rest

inductive Edit (Rest : Type)
  | create (config : PreparedConfig Rest) (rootPassword : Option String)
  | update (id : String) (update : Updater Rest) (rootPassword : Option String) (delete : List DeletableProperty)
      (digest : Option String)
  | delete (id : String)

def Edit.id : Edit Rest → String
  | .create config _ => config.id
  | .update id _ _ _ _ => id
  | .delete id => id

def validateUdevFilterMap (map : OrderedMap String String) : Except ApiError Unit :=
  match map.entries.find? fun p => !env.udevFilterKey p.1 with
  | some (k, _) => .error (.http .badRequest ("invalid udev filter key: '" ++ k ++ "'"))
  | none => .ok ()

def templateCounterError : String × I32 → Option ApiError
  | (k, v) =>
    if !env.templateCounterName k then some (.http .badRequest ("invalid template counter name: '" ++ k ++ "'"))
    else if v.val < 0 then some (.http .badRequest ("template counter '" ++ k ++ "' must not be negative"))
    else none

def validateTemplateMap (map : OrderedMap String I32) : Except ApiError Unit :=
  match map.entries.findSome? (templateCounterError env) with
  | some error => .error error
  | none => .ok ()

def PreparedConfig.deleteProperty (config : PreparedConfig Rest) : DeletableProperty → PreparedConfig Rest
  | .targetFilter => { config with targetFilter := .empty }
  | .netdevFilter => { config with netdevFilter := .empty }
  | .diskFilter => { config with diskFilter := .empty }
  | .postHookBaseUrl => { config with postHookBaseUrl := none }
  | .postHookCertFp => { config with postHookCertFp := none }
  | .templateCounters => { config with templateCounters := .empty }
  | prop => { config with rest := env.clear prop config.rest }

/-- Whether a token is generated first, and what is refused after that. -/
inductive Draft (Rest : Type)
  | store (config : PreparedConfig Rest) (generate : Bool) (refusal : Option ApiError)
  | content (prepared : Prepared Rest)

def refusalOf (check : Except ApiError Unit) : Option ApiError :=
  match check with
  | .error error => some error
  | .ok _ => none

def defaultConflict (id : String) : ApiError :=
  .http .conflict ("configuration '" ++ id ++ "' is already the default answer")

def neverMatches : ApiError :=
  .http .badRequest "non-default answer requires at least one target-filter entry, otherwise it can never match"

/-- The hash of the password of a request, if it has one. -/
def hashedPassword (encryptPw : String → Except ApiError String) : Option String → Except ApiError (Option String)
  | some password => (encryptPw password).map some
  | none => .ok none

def createRefusal (prepared : Prepared Rest) (config : PreparedConfig Rest) (rootPassword : Option String) :
    Option ApiError :=
  if (prepared.get? config.id).isSome then
    some (.http .conflict ("configuration with ID " ++ config.id ++ " already exists"))
  else
    (if config.isDefault then (prepared.entries.find? (·.2.isDefault)).map fun p => defaultConflict p.2.id
      else if config.targetFilter.entries.isEmpty then some neverMatches else none).or
    (if rootPassword.isNone && config.rootPasswordHashed.isNone then
        some (.http .badRequest "either \x60root-password\x60 or \x60root-password-hashed\x60 must be set") else none)

def createPreparedAnswer (encryptPw : String → Except ApiError String) (prepared : Prepared Rest)
    (config : PreparedConfig Rest) (rootPassword : Option String) : Except ApiError (Draft Rest) :=
  match createRefusal prepared config rootPassword with
  | some error => .error error
  | none => do
    let hashed ← hashedPassword encryptPw rootPassword
    return .store { config with rootPasswordHashed := hashed.or config.rootPasswordHashed }
      config.authorizedTokens.isEmpty
      (refusalOf do
        validateUdevFilterMap env config.netdevFilter
        validateUdevFilterMap env config.diskFilter
        validateTemplateMap env config.templateCounters)

def PreparedConfig.updated (config : PreparedConfig Rest) (hashed : Option String) (update : Updater Rest) :
    PreparedConfig Rest where
  id := config.id
  authorizedTokens := update.authorizedTokens.getD config.authorizedTokens
  isDefault := update.isDefault.getD config.isDefault
  targetFilter := update.targetFilter.getD config.targetFilter
  rootPasswordHashed := (hashed.or update.rootPasswordHashed).or config.rootPasswordHashed
  netdevFilter := update.netdevFilter.getD config.netdevFilter
  diskFilter := update.diskFilter.getD config.diskFilter
  postHookBaseUrl := update.postHookBaseUrl.or config.postHookBaseUrl
  postHookCertFp := update.postHookCertFp.or config.postHookCertFp
  templateCounters := update.templateCounters.getD config.templateCounters
  rest := update.rest config.rest

def updateRefusal (prepared : Prepared Rest) (id : String) (update : Updater Rest) (digest : Option String) :
    Option ApiError :=
  if digest.any (· ≠ env.digest prepared) then
    some (.other "detected modified configuration - file changed by other user? Try again.")
  else if update.isDefault.getD false then
    (prepared.entries.find? fun p => p.2.isDefault && p.2.id ≠ id).map fun other => defaultConflict other.2.id
  else none

def updatePreparedAnswer (encryptPw : String → Except ApiError String) (prepared : Prepared Rest) (id : String)
    (update : Updater Rest) (rootPassword : Option String) (delete : List DeletableProperty) (digest : Option String) :
    Except ApiError (Draft Rest) :=
  match updateRefusal env prepared id update digest with
  | some error => .error error
  | none =>
    match prepared.get? id with
    | none => .error (.http .notFound ("no such prepared answer configuration: " ++ id))
    | some p =>
      let hashed := hashedPassword encryptPw rootPassword
      let config := (delete.foldl (·.deleteProperty env) p).updated hashed.toOption.join update
      .ok (.store config (update.authorizedTokens.any List.isEmpty) (refusalOf do
          let _ ← hashed
          (update.netdevFilter.map (validateUdevFilterMap env)).getD (.ok ())
          (update.diskFilter.map (validateUdevFilterMap env)).getD (.ok ())
          (update.templateCounters.map (validateTemplateMap env)).getD (.ok ())
          if !config.isDefault && config.targetFilter.entries.isEmpty then .error neverMatches else .ok ()))

def deletePreparedAnswer (prepared : Prepared Rest) (id : String) : Except ApiError (Draft Rest) :=
  if (prepared.get? id).isNone then .error (.http .notFound ("no such entry '\"" ++ id ++ "\"'"))
  else .ok (.content (prepared.remove id))

def Edit.prepare (encryptPw : String → Except ApiError String) (prepared : Prepared Rest) :
    Edit Rest → Except ApiError (Draft Rest)
  | .create config rootPassword => createPreparedAnswer env encryptPw prepared config rootPassword
  | .update id changes rootPassword properties digest =>
    updatePreparedAnswer env encryptPw prepared id changes rootPassword properties digest
  | .delete id => deletePreparedAnswer prepared id

def generatedToken (configId hex : String) : String := configId ++ "-" ++ hex

def Edit.Names (token : String) : Edit Rest → Prop
  | .create config _ =>
    token ∈ config.authorizedTokens ∨ config.authorizedTokens = [] ∧ ∃ hex, token = generatedToken config.id hex
  | .update id changes _ _ _ => ∃ tokens ∈ changes.authorizedTokens,
    token ∈ tokens ∨ tokens = [] ∧ ∃ hex, token = generatedToken id hex
  | .delete _ => False

theorem PreparedConfig.deleteProperties_fields (config : PreparedConfig Rest) (delete : List DeletableProperty) :
    (delete.foldl (·.deleteProperty env) config).id = config.id ∧
      (delete.foldl (·.deleteProperty env) config).authorizedTokens = config.authorizedTokens :=
  List.foldlRecOn (motive := fun config' : PreparedConfig Rest => config'.id = config.id ∧
    config'.authorizedTokens = config.authorizedTokens) delete _ ⟨rfl, rfl⟩ fun config' h prop _ => by
      cases prop <;> exact h

variable {env} {encryptPw : String → Except ApiError String} {edit : Edit Rest}

theorem store_of_prepare {generate : Bool} {refusal : Option ApiError}
    (h : edit.prepare env encryptPw prepared = .ok (.store config generate refusal)) : config.id = edit.id ∧
      (generate = false → ∀ token ∈ config.authorizedTokens, edit.Names token ∨ prepared.Lists token) ∧
      (generate → ∀ hex, edit.Names (generatedToken config.id hex)) := by
  cases edit with
  | create =>
    simp only [Edit.prepare, createPreparedAnswer] at h
    split at h
    · cases h
    · obtain ⟨hashed, -, h⟩ := Lib.bind_eq_ok.mp h
      cases h
      refine ⟨rfl, fun _ token htok => .inl (.inl htok), fun hnone hex => .inr ⟨?_, hex, rfl⟩⟩
      exact isEmpty_iff.mp hnone
  | update id changes _ delete =>
    simp only [Edit.prepare, updatePreparedAnswer] at h
    split at h
    · cases h
    · split at h
      · cases h
      · next p hp =>
        cases h
        obtain ⟨hid, htoks⟩ := PreparedConfig.deleteProperties_fields env p delete
        have hid : (delete.foldl (·.deleteProperty env) p).id = id := hid.trans (Prepared.id_of_get? hp)
        refine ⟨hid, fun hnot token htok => ?_, fun hnone hex => ?_⟩
        · simp only [PreparedConfig.updated] at htok
          cases hchanges : changes.authorizedTokens with
          | none =>
            rw [hchanges, Option.getD_none, htoks] at htok
            exact .inr (Prepared.lists_of_get? hp htok)
          | some tokens =>
            rw [hchanges, Option.getD_some] at htok
            exact .inl ⟨tokens, hchanges, .inl htok⟩
        · cases hchanges : changes.authorizedTokens with
          | none =>
            rw [hchanges] at hnone
            cases hnone
          | some tokens =>
            rw [hchanges] at hnone
            exact ⟨tokens, hchanges, .inr ⟨isEmpty_iff.mp hnone, hex, by rw [PreparedConfig.updated, hid]⟩⟩
  | delete =>
    simp only [Edit.prepare, deletePreparedAnswer] at h
    split at h <;> cases h

theorem content_of_prepare
    (h : edit.prepare env encryptPw prepared = .ok (.content content)) : content = prepared.remove edit.id := by
  cases edit with
  | create =>
    simp only [Edit.prepare, createPreparedAnswer] at h
    split at h
    · cases h
    · obtain ⟨hashed, -, h⟩ := Lib.bind_eq_ok.mp h
      cases h
  | update =>
    simp only [Edit.prepare, updatePreparedAnswer] at h
    split at h
    · cases h
    · split at h <;> cases h
  | delete =>
    simp only [Edit.prepare, deletePreparedAnswer] at h
    split at h
    · cases h
    · cases h
      rfl

end Nexus.AutoInstaller
