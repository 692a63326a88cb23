import Nexus.AutoInstaller.Prepared
import Nexus.Lib.Guards
import Nexus.Lib.Run

/-!
# Requests to the auto-installer API at the same time

`new_installation`, the three handlers that edit prepared answers, and `delete_token` of
`server/src/api/auto_installer/mod.rs`, any number of them at once. The handlers never look at what the lock functions
return, so a request whose acquisition has timed out goes on without a guard.
-/

namespace Nexus.AutoInstaller

open Lib (OrderedMap Floor)

inductive LockFile
  | installations | prepared | tokens
  deriving DecidableEq

structure AnswerToken where
  (id createdBy : String)
  comment : Option String
  enabled : Option Bool
  expireAt : Option Int
  deriving DecidableEq

inductive InstallationStatus
  | answerSent | noAnswerFound | inProgress | finished
  deriving DecidableEq

structure Installation (Info : Type) where
  uuid : String
  status : InstallationStatus
  info : Info
  (answerId postHookToken : Option String)

structure PostNotificationHookInfo where
  url : String
  (certFingerprint authToken : Option String)

structure Rendered (Info Rest Answer : Type) where
  config : PreparedConfig Rest
  answer : Answer
  webhook : Option PostNotificationHookInfo
  installation : Installation Info

inductive TokenChange
  | add (token : AnswerToken) (hashed : Except ApiError String)
  | delete (id : String)

def TokenChange.tokens : TokenChange → OrderedMap String AnswerToken → Except ApiError (OrderedMap String AnswerToken)
  | .add token _, tokens =>
    if (tokens.get? token.id).isSome then .error (.other "token already exists") else .ok (tokens.insert token.id token)
  | .delete id, tokens =>
    if (tokens.get? id).isNone then .error (.other ("unknown token: " ++ id)) else .ok (tokens.remove id)

def TokenChange.shadow : TokenChange → OrderedMap String String → Except ApiError (OrderedMap String String)
  | .add token hashed, shadow => hashed.map (shadow.insert token.id)
  | .delete id, shadow => .ok (shadow.remove id)

inductive TokenStage
  | waiting
  | locked (guard : Bool)
  | readTokens (guard : Bool) (content : OrderedMap String AnswerToken)
  | wroteTokens (guard : Bool)
  | readShadow (guard : Bool) (content : OrderedMap String String)

def TokenStage.guard : TokenStage → Bool
  | .waiting => false
  | .locked guard | .readTokens guard _ | .wroteTokens guard | .readShadow guard _ => guard

def TokenStage.pending : TokenStage → Bool
  | .waiting | .locked _ | .readTokens _ _ => true
  | .wroteTokens _ | .readShadow _ _ => false

inductive Request (Info Rest : Type)
  | newInstallation (tokenId : String) (info : Info)
  | edit (edit : Edit Rest)
  | deleteToken (id : String)

/-- With a guard, the request holds the lock. -/
inductive Phase (Info Rest Answer : Type)
  | idle
  /-- `new_installation`, with the lock or without. -/
  | entered (guard : Bool)
  | rendered (guard : Bool) (answer : Rendered Info Rest Answer)
  /-- `increment_template_counters`. -/
  | incrementing (guard : Bool) (answer : Rendered Info Rest Answer) (preparedGuard : Bool)
  | readCounters (guard : Bool) (answer : Rendered Info Rest Answer) (preparedGuard : Bool) (content : Prepared Rest)
  | incremented (guard : Bool) (answer : Rendered Info Rest Answer)
  /-- There is no answer for the installation. -/
  | unmatched (guard : Bool) (installation : Installation Info)
  /-- An edit, with the lock or without. -/
  | editing (preparedGuard : Bool)
  /-- A token is generated for the answer that an edit is to store. -/
  | generating (preparedGuard : Bool) (prepared : Prepared Rest) (config : PreparedConfig Rest)
      (refusal : Option ApiError) (token : AnswerToken) (hashed : Except ApiError String) (stage : TokenStage)
  | saving (preparedGuard : Bool) (content : Prepared Rest)
  /-- `delete_token`, after its check. -/
  | deleting (id : String) (stage : TokenStage)
  | answered (answer : Rendered Info Rest Answer)
  | done
  | failed (error : ApiError)

def Phase.holds {Info Rest Answer : Type} : Phase Info Rest Answer → LockFile → Bool
  | .entered guard, .installations | .rendered guard _, .installations | .incrementing guard _ _, .installations
  | .readCounters guard _ _ _, .installations | .incremented guard _, .installations
  | .unmatched guard _, .installations => guard
  | .incrementing _ _ preparedGuard, .prepared | .readCounters _ _ preparedGuard _, .prepared
  | .editing preparedGuard, .prepared | .generating preparedGuard _ _ _ _ _ _, .prepared
  | .saving preparedGuard _, .prepared => preparedGuard
  | .generating _ _ _ _ _ _ stage, .tokens | .deleting _ stage, .tokens => stage.guard
  | _, _ => false

structure Files (Info Rest : Type) where
  prepared : Prepared Rest
  tokens : OrderedMap String AnswerToken
  shadow : OrderedMap String String
  installations : List (Installation Info)

structure State (ι Info Rest Answer : Type) extends Floor ι (Phase Info Rest Answer) LockFile where
  files : Files Info Rest

structure Workload (ι Info Rest Answer : Type) extends Env Info Rest Answer where
  requests : ι → Request Info Rest

structure Random where
  (hex uuid : String)
  encryptPw : String → Except ApiError String
  user : String

inductive Act (ι : Type)
  | acquire (i : ι) (lock : LockFile)
  | timeout (i : ι) (lock : LockFile)
  | read (i : ι) (random : Random)
  | write (i : ι)
  | fail (i : ι) (error : ApiError)

variable {ι Info Rest Answer : Type}

def Phase.asksFor (request : Request Info Rest) :
    Phase Info Rest Answer → Option (LockFile × (Bool → Phase Info Rest Answer))
  | .idle => match request with
    | .newInstallation _ _ => some (.installations, .entered)
    | .edit _ => some (.prepared, .editing)
    | .deleteToken _ => none
  | .rendered guard answer => some (.prepared, .incrementing guard answer)
  | .generating preparedGuard prepared config refusal token hashed .waiting =>
    some (.tokens, fun guard => .generating preparedGuard prepared config refusal token hashed (.locked guard))
  | .deleting id .waiting => some (.tokens, fun guard => .deleting id (.locked guard))
  | _ => none

def answerInstallation (env : Env Info Rest Answer) (prepared : Prepared Rest) (tokenId : String) (info : Info)
    (random : Random) (guard : Bool) : Phase Info Rest Answer :=
  match findConfig env prepared tokenId info with
  | none => .unmatched guard ⟨random.uuid, .noAnswerFound, info, none, none⟩
  | some config =>
    match env.render config info with
    | .error error => .failed error
    | .ok answer =>
      let postHookToken := if config.postHookBaseUrl.isSome then some random.hex else none
      let status := if config.postHookBaseUrl.isSome then .inProgress else .answerSent
      let webhook := config.postHookBaseUrl.map fun baseUrl =>
        ⟨Lib.Text.trimEndBy (· = '/') baseUrl ++ "/api2/json/auto-install/installations/" ++ random.uuid ++
          "/post-hook", config.postHookCertFp, postHookToken⟩
      .rendered guard ⟨config, answer, webhook, ⟨random.uuid, status, info, some config.id, postHookToken⟩⟩

def storeConfig (preparedGuard : Bool) (prepared : Prepared Rest) (config : PreparedConfig Rest) :
    Option ApiError → Phase Info Rest Answer
  | some error => .failed error
  | none => .saving preparedGuard (prepared.insert config)

def Edit.begin (env : Env Info Rest Answer) (prepared : Prepared Rest) (edit : Edit Rest) (random : Random)
    (preparedGuard : Bool) : Phase Info Rest Answer :=
  match edit.prepare env random.encryptPw prepared with
  | .error error => .failed error
  | .ok (.content content) => .saving preparedGuard content
  | .ok (.store config false refusal) => storeConfig preparedGuard prepared config refusal
  | .ok (.store config true refusal) =>
    let id := generatedToken config.id random.hex
    .generating preparedGuard prepared { config with authorizedTokens := [id] } refusal
      ⟨id, random.user, some "Automatically generated.", some true, none⟩ (random.encryptPw random.uuid) .waiting

def checkUsed (prepared : Prepared Rest) (id : String) : Phase Info Rest Answer :=
  let used := (prepared.entries.filter fun p => id ∈ p.2.authorizedTokens).map (·.2.id)
  if used = [] then .deleting id .waiting
  else .failed (.http .conflict ("token still in use by answer configurations: " ++ String.intercalate ", " used))

def TokenChange.read (change : TokenChange) (files : Files Info Rest) : TokenStage → Option (Except ApiError TokenStage)
  | .locked guard => some ((change.tokens files.tokens).map (.readTokens guard))
  | .wroteTokens guard => some ((change.shadow files.shadow).map (.readShadow guard))
  | _ => none

def Phase.afterRead (load : Workload ι Info Rest Answer) (files : Files Info Rest) (random : Random)
    (request : Request Info Rest) : Phase Info Rest Answer → Option (Phase Info Rest Answer)
  | .idle => match request with
    | .deleteToken id => some (checkUsed files.prepared id)
    | _ => none
  | .entered guard => match request with
    | .newInstallation tokenId info => some (answerInstallation load.toEnv files.prepared tokenId info random guard)
    | _ => none
  | .incrementing guard answer preparedGuard =>
    match incrementTemplateCounters files.prepared answer.config.id with
    | .error error => some (.failed error)
    | .ok content => some (.readCounters guard answer preparedGuard content)
  | .editing preparedGuard => match request with
    | .edit edit => some (edit.begin load.toEnv files.prepared random preparedGuard)
    | _ => none
  | .generating preparedGuard prepared config refusal token hashed stage =>
    ((TokenChange.add token hashed).read files stage).map fun
      | .error error => .failed error
      | .ok stage => .generating preparedGuard prepared config refusal token hashed stage
  | .deleting id stage =>
    ((TokenChange.delete id).read files stage).map fun
      | .error error => .failed error
      | .ok stage => .deleting id stage
  | _ => none

def Phase.afterWrite (files : Files Info Rest) :
    Phase Info Rest Answer → Option (Phase Info Rest Answer × Files Info Rest)
  | .readCounters guard answer _ content => some (.incremented guard answer, { files with prepared := content })
  | .incremented _ answer =>
    some (.answered answer, { files with installations := files.installations ++ [answer.installation] })
  | .unmatched _ installation => some (.failed (.http .notFound "no answer file found"),
      { files with installations := files.installations ++ [installation] })
  | .saving _ content => some (.done, { files with prepared := content })
  | .generating preparedGuard prepared config refusal token hashed (.readTokens guard content) =>
    some (.generating preparedGuard prepared config refusal token hashed (.wroteTokens guard),
      { files with tokens := content })
  | .generating preparedGuard prepared config refusal _ _ (.readShadow _ content) =>
    some (storeConfig preparedGuard prepared config refusal, { files with shadow := content })
  | .deleting id (.readTokens guard content) =>
    some (.deleting id (.wroteTokens guard), { files with tokens := content })
  | .deleting _ (.readShadow _ content) => some (.done, { files with shadow := content })
  | _ => none

def Phase.ended : Phase Info Rest Answer → Bool
  | .answered _ | .done | .failed _ => true
  | _ => false

variable [DecidableEq ι]

def State.enter (s : State ι Info Rest Answer) (i : ι) (p : Phase Info Rest Answer) : State ι Info Rest Answer :=
  ⟨s.toFloor.enter Phase.holds i p, s.files⟩

def step (load : Workload ι Info Rest Answer) (s : State ι Info Rest Answer) : Act ι → Option (State ι Info Rest Answer)
  | .acquire i lock => match (s.phase i).asksFor (load.requests i) with
    | some (asked, next) =>
      if asked = lock ∧ s.owner lock = none then some ⟨s.toFloor.acquire i lock (next true), s.files⟩ else none
    | none => none
  | .timeout i lock => match (s.phase i).asksFor (load.requests i) with
    | some (asked, next) => if asked = lock then some (s.enter i (next false)) else none
    | none => none
  | .read i random => ((s.phase i).afterRead load s.files random (load.requests i)).map (s.enter i)
  | .write i => ((s.phase i).afterWrite s.files).map fun (next, files) => ⟨s.toFloor.enter Phase.holds i next, files⟩
  | .fail i error => if (s.phase i).ended then none else some (s.enter i (.failed error))

def State.start (files : Files Info Rest) : State ι Info Rest Answer := ⟨.start .idle, files⟩

def Step (load : Workload ι Info Rest Answer) (s : State ι Info Rest Answer) (a : Act ι)
    (t : State ι Info Rest Answer) : Prop :=
  step load s a = some t

/-! ## What an act can do -/

variable {ι Info Rest Answer : Type} {load : Workload ι Info Rest Answer} {s t : State ι Info Rest Answer} {a : Act ι}
  {p q : Phase Info Rest Answer} {request : Request Info Rest}

inductive Asks : Request Info Rest → Phase Info Rest Answer → LockFile → (Bool → Phase Info Rest Answer) → Prop
  | installation {tokenId info} : Asks (.newInstallation tokenId info) .idle .installations .entered
  | edit {edit} : Asks (.edit edit) .idle .prepared .editing
  | increment {request guard answer} :
      Asks request (.rendered guard answer) .prepared (.incrementing guard answer)
  | generate {request preparedGuard snapshot config refusal token hashed} :
      Asks request (.generating preparedGuard snapshot config refusal token hashed .waiting) .tokens
        fun guard => .generating preparedGuard snapshot config refusal token hashed (.locked guard)
  | delete {request id} :
      Asks request (.deleting id .waiting) .tokens fun guard => .deleting id (.locked guard)

inductive Reads (prepared : Prepared Rest) : Request Info Rest → Phase Info Rest Answer → Phase Info Rest Answer → Prop
  | fails {request p error} (hp : p.ended = false) :
      Reads prepared request p (.failed error)
  | unused {id} (hunused : ¬ prepared.Lists id) :
      Reads prepared (.deleteToken id) .idle (.deleting id .waiting)
  | unmatched {request guard installation} :
      Reads prepared request (.entered guard) (.unmatched guard installation)
  | found {request guard answer}
      (hfound : prepared.get? answer.config.id = some answer.config) :
      Reads prepared request (.entered guard) (.rendered guard answer)
  | counters {request guard preparedGuard answer content}
      (hcontent : incrementTemplateCounters prepared answer.config.id = .ok content) :
      Reads prepared request (.incrementing guard answer preparedGuard)
        (.readCounters guard answer preparedGuard content)
  | removed {edit preparedGuard} :
      Reads prepared (.edit edit) (.editing preparedGuard) (.saving preparedGuard (prepared.remove edit.id))
  | stored {edit preparedGuard config} (hid : config.id = edit.id)
      (htokens : ∀ token ∈ config.authorizedTokens, edit.Names token ∨ prepared.Lists token) :
      Reads prepared (.edit edit) (.editing preparedGuard) (.saving preparedGuard (prepared.insert config))
  | generate {edit preparedGuard config refusal token hashed} (hid : config.id = edit.id)
      (htokens : ∀ token ∈ config.authorizedTokens, edit.Names token) :
      Reads prepared (.edit edit) (.editing preparedGuard)
        (.generating preparedGuard prepared config refusal token hashed .waiting)
  | generating {request preparedGuard snapshot config refusal token hashed stage stage'}
      (hguard : stage'.guard = stage.guard) :
      Reads prepared request (.generating preparedGuard snapshot config refusal token hashed stage)
        (.generating preparedGuard snapshot config refusal token hashed stage')
  | deleting {request id stage stage'}
      (hguard : stage'.guard = stage.guard) (hpending : stage'.pending = stage.pending) :
      Reads prepared request (.deleting id stage) (.deleting id stage')

inductive Writes (files : Files Info Rest) : Phase Info Rest Answer → Phase Info Rest Answer → Files Info Rest → Prop
  | counters {guard preparedGuard answer content} :
      Writes files (.readCounters guard answer preparedGuard content) (.incremented guard answer)
        { files with prepared := content }
  | answered {guard answer installations} :
      Writes files (.incremented guard answer) (.answered answer) { files with installations }
  | unmatched {guard installation installations error} :
      Writes files (.unmatched guard installation) (.failed error) { files with installations }
  | saved {preparedGuard content} :
      Writes files (.saving preparedGuard content) .done { files with prepared := content }
  | generating {preparedGuard snapshot config refusal token hashed stage stage' tokens}
      (hguard : stage'.guard = stage.guard) :
      Writes files (.generating preparedGuard snapshot config refusal token hashed stage)
        (.generating preparedGuard snapshot config refusal token hashed stage') { files with tokens }
  | generated {preparedGuard snapshot config refusal token hashed stage shadow} :
      Writes files (.generating preparedGuard snapshot config refusal token hashed stage)
        (storeConfig preparedGuard snapshot config refusal) { files with shadow }
  | deleting {id stage stage' tokens}
      (hguard : stage'.guard = stage.guard) (hpending : stage'.pending = false) :
      Writes files (.deleting id stage) (.deleting id stage') { files with tokens }
  | deleted {id stage shadow} :
      Writes files (.deleting id stage) .done { files with shadow }

variable {lock k : LockFile} {next : Bool → Phase Info Rest Answer} {files files' : Files Info Rest}
  {env : Env Info Rest Answer} {prepared : Prepared Rest} {random : Random}

theorem asks_of_asksFor (h : p.asksFor request = some (lock, next)) : Asks request p lock next := by
  cases p with
  | idle =>
    cases request with
    | newInstallation =>
      cases h
      exact .installation
    | edit edit =>
      cases h
      exact .edit
    | deleteToken => cases h
  | rendered =>
    cases h
    exact .increment
  | generating _ _ _ _ _ _ stage =>
    cases stage with
    | waiting =>
      cases h
      exact .generate
    | _ => cases h
  | deleting _ stage =>
    cases stage with
    | waiting =>
      cases h
      exact .delete
    | _ => cases h
  | _ => cases h

theorem stage_of_read {change : TokenChange} {stage stage' : TokenStage}
    (h : change.read files stage = some (.ok stage')) :
    stage'.guard = stage.guard ∧ stage'.pending = stage.pending := by
  cases stage with
  | locked =>
    obtain ⟨tokens, -, rfl⟩ := Lib.map_eq_ok.mp (Option.some.inj h)
    exact ⟨rfl, rfl⟩
  | wroteTokens =>
    obtain ⟨shadow, -, rfl⟩ := Lib.map_eq_ok.mp (Option.some.inj h)
    exact ⟨rfl, rfl⟩
  | _ => cases h

theorem reads_begin {edit preparedGuard} : Reads prepared (.edit edit : Request Info Rest) (.editing preparedGuard)
      (edit.begin env prepared random preparedGuard) := by
  unfold Edit.begin
  split
  · exact .fails rfl
  · next content hcont =>
    rw [content_of_prepare hcont]
    exact .removed
  · next config refusal stored =>
    obtain ⟨hid, tokens, -⟩ := store_of_prepare stored
    cases refusal with
    | some => exact .fails rfl
    | none => exact .stored hid (tokens rfl)
  · next config refusal stored =>
    obtain ⟨hid, -, hgen⟩ := store_of_prepare stored
    refine .generate hid fun token htok => ?_
    rw [List.mem_singleton.mp htok]
    exact hgen rfl random.hex

theorem reads_checkUsed {id} :
    Reads prepared (.deleteToken id : Request Info Rest) (.idle : Phase Info Rest Answer) (checkUsed prepared id) := by
  unfold checkUsed
  simp only
  split
  · next hused =>
    refine .unused ?_
    rintro ⟨p, hp, token⟩
    rw [List.map_eq_nil_iff, List.filter_eq_nil_iff] at hused
    exact hused p hp (decide_eq_true token)
  · exact .fails rfl

theorem reads_of_afterRead (h : p.afterRead load files random request = some q) : Reads files.prepared request p q := by
  cases p with
  | idle =>
    cases request with
    | deleteToken =>
      cases h
      exact reads_checkUsed
    | _ => cases h
  | entered =>
    cases request with
    | newInstallation =>
      cases h
      simp only [answerInstallation]
      split
      · exact .unmatched
      · next config hcfg =>
        split
        · exact .fails rfl
        · exact .found (get?_of_findConfig _ hcfg)
    | _ => cases h
  | incrementing =>
    simp only [Phase.afterRead] at h
    split at h
    · cases h
      exact .fails rfl
    · next content hcont =>
      cases h
      exact .counters hcont
  | editing =>
    cases request with
    | edit =>
      cases h
      exact reads_begin
    | _ => cases h
  | generating =>
    obtain ⟨outcome, hread, rfl⟩ := Option.map_eq_some_iff.mp h
    cases outcome with
    | error => exact .fails rfl
    | ok => exact .generating (stage_of_read hread).1
  | deleting =>
    obtain ⟨outcome, hread, rfl⟩ := Option.map_eq_some_iff.mp h
    cases outcome with
    | error => exact .fails rfl
    | ok => exact .deleting (stage_of_read hread).1 (stage_of_read hread).2
  | _ => cases h

theorem writes_of_afterWrite (h : p.afterWrite files = some (q, files')) : Writes files p q files' := by
  cases p with
  | readCounters =>
    cases h
    exact .counters
  | incremented =>
    cases h
    exact .answered
  | unmatched =>
    cases h
    exact .unmatched
  | saving =>
    cases h
    exact .saved
  | generating _ _ _ _ _ _ stage =>
    cases stage with
    | readTokens =>
      cases h
      exact .generating rfl
    | readShadow =>
      cases h
      exact .generated
    | _ => cases h
  | deleting _ stage =>
    cases stage with
    | readTokens =>
      cases h
      exact .deleting rfl rfl
    | readShadow =>
      cases h
      exact .deleted
    | _ => cases h
  | _ => cases h

inductive Move [DecidableEq ι] (load : Workload ι Info Rest Answer) (s : State ι Info Rest Answer) :
    Act ι → State ι Info Rest Answer → Prop
  | acquire {i lock next}
      (hasks : Asks (load.requests i) (s.phase i) lock next) (hfree : s.owner lock = none) :
      Move load s (.acquire i lock) ⟨s.toFloor.acquire i lock (next true), s.files⟩
  | timeout {i lock next}
      (hasks : Asks (load.requests i) (s.phase i) lock next) :
      Move load s (.timeout i lock) (s.enter i (next false))
  | read {i random p}
      (hread : Reads s.files.prepared (load.requests i) (s.phase i) p) : Move load s (.read i random) (s.enter i p)
  | write {i p files} (hwrite : Writes s.files (s.phase i) p files) :
      Move load s (.write i) ⟨s.toFloor.enter Phase.holds i p, files⟩
  | fail {i error} (hended : (s.phase i).ended = false) :
      Move load s (.fail i error) (s.enter i (.failed error))

theorem move_of_step [DecidableEq ι] (h : Step load s a t) : Move load s a t := by
  cases a with
  | acquire =>
    simp only [Step, step] at h
    split at h
    · next asked next hasks =>
      split at h
      · next hasked =>
        cases h
        exact .acquire (asks_of_asksFor (hasked.1 ▸ hasks)) hasked.2
      · cases h
    · cases h
  | timeout =>
    simp only [Step, step] at h
    split at h
    · next asked next hasks =>
      split at h
      · next hasked =>
        cases h
        exact .timeout (asks_of_asksFor (hasked ▸ hasks))
      · cases h
    · cases h
  | read =>
    obtain ⟨p, hread, rfl⟩ := Option.map_eq_some_iff.mp h
    exact .read (reads_of_afterRead hread)
  | write =>
    obtain ⟨⟨p, files⟩, hwr, rfl⟩ := Option.map_eq_some_iff.mp h
    exact .write (writes_of_afterWrite hwr)
  | fail =>
    simp only [Step, step] at h
    split at h
    · cases h
    · next hend =>
      cases h
      exact .fail (by simpa using hend)

theorem not_ended_of_asks (h : Asks request p lock next) : p.ended = false := by
  cases h <;> rfl

theorem phase_of_ended [DecidableEq ι] {i} (hi : (s.phase i).ended) (hmove : Move load s a t) :
    t.phase i = s.phase i := by
  have other : ∀ j p, (s.phase j).ended = false → Function.update s.phase j p i = s.phase i := fun j p hj => by
    refine Function.update_of_ne ?_ _ _
    rintro rfl
    cases hj.symm.trans hi
  cases hmove with
  | acquire hasks => exact other _ _ (not_ended_of_asks hasks)
  | timeout hasks => exact other _ _ (not_ended_of_asks hasks)
  | @read j random p hread =>
    refine other j _ ?_
    generalize s.phase j = q, load.requests j = request at hread
    cases hread with
    | fails hp => exact hp
    | _ => rfl
  | @write j p files hwr =>
    refine other j _ ?_
    generalize s.phase j = q at hwr
    cases hwr <;> rfl
  | @fail j error hend => exact other j _ hend

/-! ## The locks -/

theorem holds_of_asks (h : Asks request p lock next)
    (guard : Bool) (k) : (next guard).holds k = if k = lock then guard else p.holds k := by
  cases h <;> cases k <;> rfl

theorem holds_failed {error} (k) : (Phase.failed error : Phase Info Rest Answer).holds k = false := by
  cases k <;> rfl

theorem holds_of_reads (h : Reads prepared request p q) (hk : q.holds k) : p.holds k := by
  cases h with
  | fails =>
    rw [holds_failed] at hk
    cases hk
  | generating hguard | deleting hguard =>
    cases k with
    | tokens => exact hguard.symm.trans hk
    | _ => exact hk
  | _ => cases k <;> exact hk

theorem holds_of_writes (h : Writes files p q files') (hk : q.holds k) : p.holds k := by
  cases h with
  | unmatched =>
    rw [holds_failed] at hk
    cases hk
  | generating hguard | deleting hguard =>
    cases k with
    | tokens => exact hguard.symm.trans hk
    | _ => exact hk
  | @generated preparedGuard snapshot config refusal =>
    cases refusal with
    | some =>
      rw [storeConfig, holds_failed] at hk
      cases hk
    | none => cases k <;> first | exact hk | cases hk
  | _ => cases k <;> first | exact hk | cases hk

abbrev Coherent (s : State ι Info Rest Answer) : Prop := s.toFloor.Coherent Phase.holds

theorem coherent_start (files) : Coherent (.start files : State ι Info Rest Answer) :=
  Floor.coherent_start fun k => by cases k <;> rfl

/-- **A lock has one holder at most.** -/
theorem coherent_move [DecidableEq ι] (h : Coherent s) (hmove : Move load s a t) : Coherent t := by
  cases hmove with
  | acquire hasks hfree =>
    refine h.acquire hfree fun k => ?_
    rw [holds_of_asks hasks]
    split <;> simp_all
  | timeout hasks =>
    refine h.enter fun k hk => ?_
    rw [holds_of_asks hasks] at hk
    split at hk
    · cases hk
    · exact hk
  | read hread => exact h.enter fun k hk => holds_of_reads hread hk
  | write hwr => exact h.enter fun k hk => holds_of_writes hwr hk
  | fail =>
    refine h.enter fun k hk => ?_
    rw [holds_failed] at hk
    cases hk

/-! ## A small environment -/

def firstValue : I32 := ⟨1, by decide, by decide⟩

def hostConfig (v : I32) : PreparedConfig Unit where
  id := "hosts"
  authorizedTokens := ["rack"]
  isDefault := true
  targetFilter := .empty
  rootPasswordHashed := none
  netdevFilter := .empty
  diskFilter := .empty
  postHookBaseUrl := none
  postHookCertFp := none
  templateCounters := ⟨[("n", v)], List.nodup_singleton "n"⟩
  rest := ()

def hostEnv : Env Unit Unit (Option I32) where
  pointer _ _ := none
  glob _ := none
  render config _ := .ok (config.templateCounters.get? "n")
  udevFilterKey _ := true
  templateCounterName _ := true
  digest _ := ""
  clear _ := id

def someRandom : Random := ⟨"00", "uuid", .ok, "root@pam"⟩

end Nexus.AutoInstaller
