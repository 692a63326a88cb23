import Nexus.AutoInstaller.Requests

/-!
# Edits of prepared answers, one after another

The create, update and delete requests for prepared answers as they run with their locks, and what they leave behind. An
edit generates a token before its last checks, so one that fails there leaves the token (`failed_edit_traceless_iff`).
What is stored is always `Valid` (`valid_changes`): the checks of an update come after all its deletions and updates.
-/

namespace Nexus.AutoInstaller

open Lib (OrderedMap)
open Lib.OrderedMap Option

variable {Info Rest Answer : Type}

/-! ## One edit -/

def Files.store (files : Files Info Rest) (config : PreparedConfig Rest) :
    Option ApiError → Except ApiError Unit × Files Info Rest
  | some error => (.error error, files)
  | none => (.ok (), { files with prepared := files.prepared.insert config })

def Edit.run (env : Env Info Rest Answer) (edit : Edit Rest) (random : Random) (files : Files Info Rest) :
    Except ApiError Unit × Files Info Rest :=
  match edit.prepare env random.encryptPw files.prepared with
  | .error error => (.error error, files)
  | .ok (.content content) => (.ok (), { files with prepared := content })
  | .ok (.store config false refusal) => files.store config refusal
  | .ok (.store config true refusal) =>
    let id := generatedToken config.id random.hex
    let change := TokenChange.add ⟨id, random.user, some "Automatically generated.", some true, none⟩
      (random.encryptPw random.uuid)
    match change.tokens files.tokens, change.shadow files.shadow with
    | .error error, _ => (.error error, files)
    | .ok tokens, .error error => (.error error, { files with tokens })
    | .ok tokens, .ok shadow =>
      Files.store { files with tokens, shadow } { config with authorizedTokens := [id] } refusal

/-- What is checked of a new answer before a token is generated for it. -/
structure Creatable (prepared : Prepared Rest) (config : PreparedConfig Rest)
    (rootPassword : Option String) : Prop where
  new : prepared.get? config.id = none
  default : config.isDefault → ∀ p ∈ prepared.entries, p.2.isDefault = false
  filter : config.isDefault = false → config.targetFilter.entries ≠ []
  password : rootPassword = none → config.rootPasswordHashed ≠ none

/-- What is checked of an update before a token is generated. -/
structure Updatable (env : Env Info Rest Answer) (prepared : Prepared Rest) (id : String) (changes : Updater Rest)
    (digest : Option String) : Prop where
  digest : ∀ d, digest = some d → d = env.digest prepared
  default : changes.isDefault = some true → ∀ p ∈ prepared.entries, p.2.isDefault → p.2.id = id
  found : (prepared.get? id).isSome

/-- The request gets to the generation of a token. -/
def Edit.Generates (env : Env Info Rest Answer) (encryptPw : String → Except ApiError String)
    (prepared : Prepared Rest) :
    Edit Rest → Prop
  | .create config rootPassword => config.authorizedTokens = [] ∧ Creatable prepared config rootPassword ∧
      ∃ hashed, hashedPassword encryptPw rootPassword = .ok hashed
  | .update id changes _ _ digest => changes.authorizedTokens = some [] ∧ Updatable env prepared id changes digest
  | .delete _ => False

/-- The request passes what is checked after the generation. -/
def Edit.Passes (env : Env Info Rest Answer) (encryptPw : String → Except ApiError String) (prepared : Prepared Rest) :
    Edit Rest → Prop
  | .create config _ => validateUdevFilterMap env config.netdevFilter = .ok () ∧
      validateUdevFilterMap env config.diskFilter = .ok () ∧ validateTemplateMap env config.templateCounters = .ok ()
  | .update id changes rootPassword properties _ => (∃ hashed, hashedPassword encryptPw rootPassword = .ok hashed) ∧
      (∀ map, changes.netdevFilter = some map → validateUdevFilterMap env map = .ok ()) ∧
      (∀ map, changes.diskFilter = some map → validateUdevFilterMap env map = .ok ()) ∧
      (∀ map, changes.templateCounters = some map → validateTemplateMap env map = .ok ()) ∧
      ∀ p, prepared.get? id = some p → let left := properties.foldl (·.deleteProperty env) p
        changes.isDefault.getD left.isDefault ∨ (changes.targetFilter.getD left.targetFilter).entries ≠ []
  | .delete _ => True

variable {env : Env Info Rest Answer} {encryptPw : String → Except ApiError String} {prepared : Prepared Rest}
  {edit : Edit Rest} {config : PreparedConfig Rest} {refusal : Option ApiError}

theorem createRefusal_eq_none {rootPassword} :
    createRefusal prepared config rootPassword = none ↔ Creatable prepared config rootPassword := by
  unfold createRefusal
  constructor
  · intro h
    split at h
    · cases h
    · next hnew =>
      obtain ⟨hmatch, hpassword⟩ := or_eq_none_iff.mp h
      refine ⟨by simpa using hnew, fun hdefault p hp => ?_, fun hdefault => ?_, ?_⟩
      · simp only [hdefault, if_true, map_eq_none_iff, List.find?_eq_none, Bool.not_eq_true] at hmatch
        exact hmatch p hp
      · simpa [hdefault] using hmatch
      · simpa using hpassword
  · rintro ⟨hnew, hdefault, hfilter, hpassword⟩
    rw [hnew, isSome_none, if_neg Bool.false_ne_true, or_eq_none_iff]
    constructor
    · cases hisDefault : config.isDefault with
      | true => simpa using hdefault hisDefault
      | false => simpa using hfilter hisDefault
    · simpa using hpassword

theorem updateRefusal_eq_none {id changes digest} : updateRefusal env prepared id changes digest = none ↔
    (∀ d, digest = some d → d = env.digest prepared) ∧
      (changes.isDefault = some true → ∀ p ∈ prepared.entries, p.2.isDefault → p.2.id = id) := by
  unfold updateRefusal
  have hdigest : digest.any (· ≠ env.digest prepared) = false ↔ ∀ d, digest = some d → d = env.digest prepared := by
    cases digest <;> simp
  have hdefault : changes.isDefault.getD false ↔ changes.isDefault = some true := by
    cases changes.isDefault <;> simp
  rw [← hdigest, ← hdefault]
  cases digest.any (· ≠ env.digest prepared) with
  | true => simp
  | false => cases changes.isDefault.getD false <;> simp

theorem refusalOf_eq_none {check} : refusalOf check = none ↔ check = .ok () := by
  cases check <;> simp [refusalOf]

theorem getD_eq_ok {α : Type} {check : α → Except ApiError Unit} {o : Option α} :
    (o.map check).getD (.ok ()) = .ok () ↔ ∀ a, o = some a → check a = .ok () := by
  cases o <;> simp

variable {generate : Bool} {new : PreparedConfig Rest} {rootPassword : Option String} {id : String}
  {changes : Updater Rest} {properties : List DeletableProperty} {digest : Option String}

theorem create_eq_store
    (h : createPreparedAnswer env encryptPw prepared new rootPassword = .ok (.store config generate refusal)) :
    Creatable prepared new rootPassword ∧ generate = new.authorizedTokens.isEmpty ∧
      (∃ hashed, hashedPassword encryptPw rootPassword = .ok hashed ∧
        config = { new with rootPasswordHashed := hashed.or new.rootPasswordHashed }) ∧
      (refusal = none ↔ (Edit.create new rootPassword).Passes env encryptPw prepared) := by
  unfold createPreparedAnswer at h
  split at h
  · cases h
  · next hrefusal =>
    obtain ⟨hashed, hhashed, h⟩ := Lib.bind_eq_ok.mp h
    cases h
    refine ⟨createRefusal_eq_none.mp hrefusal, rfl, ⟨hashed, hhashed, rfl⟩, ?_⟩
    simp only [refusalOf_eq_none, Lib.bind_eq_ok, Unique.exists_iff, PUnit.default_eq_unit, Edit.Passes]

theorem update_eq_store (h : updatePreparedAnswer env encryptPw prepared id changes rootPassword properties digest =
      .ok (.store config generate refusal)) :
    Updatable env prepared id changes digest ∧ generate = changes.authorizedTokens.any List.isEmpty ∧
      (∃ p, prepared.get? id = some p ∧ config = (properties.foldl (·.deleteProperty env) p).updated
        (hashedPassword encryptPw rootPassword).toOption.join changes) ∧
      (refusal = none ↔ (Edit.update id changes rootPassword properties digest).Passes env encryptPw prepared) := by
  unfold updatePreparedAnswer at h
  split at h
  · cases h
  · next hrefusal =>
    split at h
    · cases h
    · next p hp =>
      cases h
      obtain ⟨hdigest, hdefault⟩ := updateRefusal_eq_none.mp hrefusal
      refine ⟨⟨hdigest, hdefault, by simp [hp]⟩, rfl, ⟨p, hp, rfl⟩, ?_⟩
      have hmatches : ∀ (isDefault : Bool) (filter : List (String × String)), (if !isDefault && filter.isEmpty then
          .error neverMatches else .ok () : Except ApiError Unit) = .ok () ↔ isDefault ∨ filter ≠ [] := by
        rintro (_ | _) (_ | _) <;> simp
      simp only [refusalOf_eq_none, Lib.bind_eq_ok, Unique.exists_iff, PUnit.default_eq_unit, getD_eq_ok, hmatches,
        exists_and_right]
      simp only [Edit.Passes, hp, PreparedConfig.updated, Option.some.injEq, forall_eq']

theorem passes_iff (h : edit.prepare env encryptPw prepared = .ok (.store config generate refusal)) :
    refusal = none ↔ edit.Passes env encryptPw prepared := by
  cases edit with
  | create => exact (create_eq_store h).2.2.2
  | update => exact (update_eq_store h).2.2.2
  | delete =>
    simp only [Edit.prepare, deletePreparedAnswer] at h
    split at h <;> cases h

theorem generates_iff : edit.Generates env encryptPw prepared ↔
    ∃ config refusal, edit.prepare env encryptPw prepared = .ok (.store config true refusal) := by
  constructor
  · intro h
    cases edit with
    | create =>
      obtain ⟨htokens, hcreatable, hashed, hhashed⟩ := h
      simp [Edit.prepare, createPreparedAnswer, createRefusal_eq_none.mpr hcreatable, hhashed, htokens, bind,
        Except.bind, pure, Except.pure]
    | update =>
      obtain ⟨htokens, hdigest, hdefault, hfound⟩ := h
      obtain ⟨p, hp⟩ := isSome_iff_exists.mp hfound
      simp [Edit.prepare, updatePreparedAnswer, updateRefusal_eq_none.mpr ⟨hdigest, hdefault⟩, hp, htokens]
    | delete => exact h.elim
  · rintro ⟨config, refusal, h⟩
    cases edit with
    | create =>
      obtain ⟨hcreatable, htokens, ⟨hashed, hhashed, -⟩, -⟩ := create_eq_store h
      exact ⟨List.isEmpty_iff.mp htokens.symm, hcreatable, hashed, hhashed⟩
    | update =>
      obtain ⟨hupdatable, htokens, -, -⟩ := update_eq_store h
      refine ⟨?_, hupdatable⟩
      simpa [Option.any_eq_true] using htokens.symm
    | delete =>
      simp only [Edit.prepare, deletePreparedAnswer] at h
      split at h <;> cases h

variable (env edit) (random : Random) (files : Files Info Rest)

def uncounted (v : I32) : Edit Unit :=
  .create { hostConfig v with authorizedTokens := [], rootPasswordHashed := some "hash" } none

def Prepared.empty {Rest : Type} : Prepared Rest := ⟨.empty, List.forall_mem_nil _⟩

def noFiles : Files Unit Unit := ⟨.empty, .empty, .empty, []⟩

structure Sound (config : PreparedConfig Rest) : Prop where
  filter : config.isDefault = false → config.targetFilter.entries ≠ []
  tokens : config.authorizedTokens ≠ []
  password : config.rootPasswordHashed.isSome
  counters : ∀ p ∈ config.templateCounters.entries, 0 ≤ p.2.val

/-- There is at most one default, and every answer is sound. -/
structure Valid (prepared : Prepared Rest) : Prop where
  oneDefault : ∀ p ∈ prepared.entries, ∀ q ∈ prepared.entries, p.2.isDefault → q.2.isDefault → p = q
  sound : ∀ p ∈ prepared.entries, Sound p.2

/-- The answer can be stored: if it is to be the default, there is no other one. -/
structure Joins (prepared : Prepared Rest) (config : PreparedConfig Rest) : Prop where
  sound : Sound config
  default : config.isDefault → ∀ q ∈ prepared.entries, q.2.isDefault → q.1 = config.id

def PreparedConfig.withToken (config : PreparedConfig Rest) (token : String) (generate : Bool) : PreparedConfig Rest :=
  { config with authorizedTokens := if generate then [token] else config.authorizedTokens }

inductive Change (Info Rest : Type)
  | edit (edit : Edit Rest) (random : Random)
  | increment (id : String)
  | other (tokens : OrderedMap String AnswerToken) (shadow : OrderedMap String String)
      (installations : List (Installation Info))

def Files.change (env : Env Info Rest Answer) (files : Files Info Rest) : Change Info Rest → Files Info Rest
  | .edit edit random => (edit.run env random files).2
  | .increment id => match incrementTemplateCounters files.prepared id with
    | .error _ => files
    | .ok prepared => { files with prepared }
  | .other tokens shadow installations => { files with tokens, shadow, installations }

variable {env}

theorem Valid.insert (h : Valid prepared) (hjoins : Joins prepared config) : Valid (prepared.insert config) := by
  have hmem : ∀ p ∈ (prepared.insert config).entries, p = (config.id, config) ∨
      p.1 ≠ config.id ∧ p ∈ prepared.entries :=
    fun p hp => mem_insert.mp hp
  refine ⟨fun p hp q hq hpd hqd => ?_, fun p hp => ?_⟩
  · obtain rfl | ⟨hpne, hp⟩ := hmem p hp <;> obtain rfl | ⟨hqne, hq⟩ := hmem q hq
    · rfl
    · exact absurd (hjoins.default hpd q hq hqd) hqne
    · exact absurd (hjoins.default hqd p hp hpd) hpne
    · exact h.oneDefault p hp q hq hpd hqd
  · obtain rfl | ⟨-, hp⟩ := hmem p hp
    · exact hjoins.sound
    · exact h.sound p hp

theorem Valid.remove (h : Valid prepared) (id) : Valid (prepared.remove id) := by
  have hmem : ∀ p ∈ (prepared.remove id).entries, p ∈ prepared.entries := fun p hp => (mem_remove.mp hp).2
  exact ⟨fun p hp q hq => h.oneDefault p (hmem p hp) q (hmem q hq), fun p hp => h.sound p (hmem p hp)⟩

theorem nonneg_of_validate {map} (h : validateTemplateMap env map = .ok ()) : ∀ p ∈ map.entries, 0 ≤ p.2.val := by
  unfold validateTemplateMap at h
  split at h
  · cases h
  · next hnone =>
    rintro ⟨name, v⟩ hp
    have check := List.findSome?_eq_none_iff.mp hnone _ hp
    simp only [templateCounterError] at check
    split_ifs at check with hname hneg
    exact Int.not_lt.mp hneg

theorem deleteProperties_sound (env : Env Info Rest Answer) (h : Sound config) (delete : List DeletableProperty) :
    let config' := delete.foldl (·.deleteProperty env) config
    config'.isDefault = config.isDefault ∧ config'.rootPasswordHashed.isSome ∧
      ∀ p ∈ config'.templateCounters.entries, 0 ≤ p.2.val := by
  refine List.foldlRecOn (motive := fun config' : PreparedConfig Rest => config'.isDefault = config.isDefault ∧
    config'.rootPasswordHashed.isSome ∧ ∀ p ∈ config'.templateCounters.entries, 0 ≤ p.2.val) delete _
    ⟨rfl, h.password, h.counters⟩ fun config' h prop _ => ?_
  cases prop with
  | templateCounters => exact ⟨h.1, h.2.1, List.forall_mem_nil _⟩
  | _ => exact h

theorem joins_of_create (token)
    (hprep : createPreparedAnswer env encryptPw prepared new rootPassword = .ok (.store config generate none)) :
    Joins prepared (config.withToken token generate) := by
  obtain ⟨hcreatable, rfl, ⟨hashed, hhashed, rfl⟩, hpasses⟩ := create_eq_store hprep
  obtain ⟨-, -, hcounters⟩ := hpasses.mp rfl
  refine ⟨⟨hcreatable.filter, ?_, ?_, nonneg_of_validate hcounters⟩, fun hdefault q hq hqd => ?_⟩
  · cases htokens : new.authorizedTokens <;> simp [PreparedConfig.withToken]
  · cases rootPassword with
    | none =>
      cases hhashed
      exact isSome_iff_ne_none.mpr (hcreatable.password rfl)
    | some =>
      obtain ⟨hash, -, rfl⟩ := Lib.map_eq_ok.mp hhashed
      rfl
  · cases (hcreatable.default hdefault q hq).symm.trans hqd

variable {p : PreparedConfig Rest}

theorem only_default_of_update (h : Valid prepared) (hp : prepared.get? id = some p)
    (hupdatable : Updatable env prepared id changes digest) (hdef : changes.isDefault.getD p.isDefault) :
    ∀ q ∈ prepared.entries, q.2.isDefault → q.1 = id := by
  intro q hq hqd
  cases hchanged : changes.isDefault with
  | none =>
    rw [hchanged, getD_none] at hdef
    rw [h.oneDefault q hq _ (get?_eq_some.mp hp) hqd hdef]
  | some =>
    rw [hchanged, getD_some] at hdef
    rw [← prepared.id_eq q hq]
    exact hupdatable.default (by rw [hchanged, hdef]) q hq hqd

theorem joins_of_update
    (h : Valid prepared) (token : String) (hprep : updatePreparedAnswer env encryptPw prepared id changes rootPassword
      properties digest = .ok (.store config generate none)) : Joins prepared (config.withToken token generate) := by
  obtain ⟨hupdatable, rfl, ⟨p, hp, rfl⟩, hpasses⟩ := update_eq_store hprep
  obtain ⟨⟨hashed, hhashed⟩, -, -, hcounters, hmatches⟩ := hpasses.mp rfl
  have hmatches := hmatches p hp
  have hsound := h.sound _ (get?_eq_some.mp hp)
  obtain ⟨hid, htokens⟩ := PreparedConfig.deleteProperties_fields env p properties
  obtain ⟨hdefault, hpassword, hkept⟩ := deleteProperties_sound env hsound properties
  have honly := only_default_of_update h hp hupdatable
  generalize properties.foldl (·.deleteProperty env) p = p' at *
  refine ⟨⟨fun hnot => ?_, ?_, ?_, ?_⟩, fun hisDefault q hq hqd => ?_⟩
  · exact hmatches.resolve_left fun hset => by cases hset.symm.trans hnot
  · cases hchanged : changes.authorizedTokens with
    | none => simpa [PreparedConfig.withToken, PreparedConfig.updated, hchanged, htokens] using hsound.tokens
    | some tokens => cases tokens <;> simp [PreparedConfig.withToken, PreparedConfig.updated, hchanged]
  · simp [PreparedConfig.withToken, PreparedConfig.updated, hpassword]
  · cases hnew : changes.templateCounters with
    | none => simpa [PreparedConfig.withToken, PreparedConfig.updated, hnew] using hkept
    | some map =>
      simpa [PreparedConfig.withToken, PreparedConfig.updated, hnew] using nonneg_of_validate (hcounters map hnew)
  · have hisDefault : changes.isDefault.getD p'.isDefault := hisDefault
    rw [hdefault] at hisDefault
    exact (honly hisDefault q hq hqd).trans (hid.trans (Prepared.id_of_get? hp)).symm

theorem joins_of_prepare {edit : Edit Rest} (h : Valid prepared) (token)
    (hprep : edit.prepare env encryptPw prepared = .ok (.store config generate none)) :
    Joins prepared (config.withToken token generate) := by
  cases edit with
  | create => exact joins_of_create token hprep
  | update => exact joins_of_update h token hprep
  | delete =>
    simp only [Edit.prepare, deletePreparedAnswer] at hprep
    split at hprep <;> cases hprep

theorem Valid.increment {prepared'} (h : Valid prepared)
    (hincr : incrementTemplateCounters prepared id = .ok prepared') : Valid prepared' := by
  unfold incrementTemplateCounters at hincr
  split at hincr
  · cases hincr
  · next conf hconf =>
    cases hincr
    have hmem : (id, conf) ∈ prepared.entries := get?_eq_some.mp hconf
    have hsound := h.sound _ hmem
    refine h.insert ⟨⟨hsound.filter, hsound.tokens, hsound.password, fun p hp => ?_⟩, fun hdef q hq hqd => ?_⟩
    · obtain ⟨v, hv, hnext⟩ := mem_mapValues.mp (mem_def.mpr hp)
      rw [hnext]
      exact Int.le_trans (hsound.counters _ hv) v.le_saturatingSucc
    · rw [h.oneDefault q hq _ hmem hqd hdef]
      exact (Prepared.id_of_get? hconf).symm

theorem Valid.change {files : Files Info Rest} (h : Valid files.prepared) (change) :
    Valid (files.change env change).prepared := by
  cases change with
  | other => exact h
  | increment =>
    simp only [Files.change]
    split
    · exact h
    · next prepared hprepa => exact h.increment hprepa
  | edit =>
    simp only [Files.change, Edit.run]
    split
    · exact h
    · next content hprep =>
      rw [content_of_prepare hprep]
      exact h.remove _
    · next config refusal hprep =>
      cases refusal with
      | some => exact h
      | none => exact h.insert (joins_of_prepare h "" hprep)
    · next config refusal hprep =>
      split
      · exact h
      · exact h
      · cases refusal with
        | some => exact h
        | none => exact h.insert (joins_of_prepare h _ hprep)

/-- **There is always at most one default, every other answer has a filter, and every answer has a token, a password and
no negative counter.** -/
theorem valid_changes (env : Env Info Rest Answer) (tokens : OrderedMap String AnswerToken)
    (shadow : OrderedMap String String) (installations : List (Installation Info)) (changes : List (Change Info Rest)) :
    Valid (changes.foldl (Files.change env) ⟨.empty, tokens, shadow, installations⟩).prepared :=
  List.foldlRecOn (motive := fun files : Files Info Rest => Valid files.prepared) changes _
    ⟨List.forall_mem_nil _, List.forall_mem_nil _⟩ fun _ h change _ => h.change change

end Nexus.AutoInstaller
