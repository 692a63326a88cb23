import Mathlib.Data.List.Sort
import Nexus.AutoInstaller.Edits

/-!
# Installations and their post hooks

`new_installation`, `handle_post_hook`, `list_installations` and `delete_installation` of
`server/src/api/auto_installer/mod.rs`, one after the other and with the locks, on the directory of installations. A
post hook is accepted once, and with the token of the answer (`postHook_authentic`). A request for an answer leaves a
record, unless the answer that was found cannot be rendered (`newInstallation_recorded_iff`).
-/

namespace Nexus.AutoInstaller

open Lib (OrderedMap)
open Lib.OrderedMap List

variable {Info Rest Answer Data : Type}

/-! ## The handlers -/

structure Record (Info Data : Type) extends Installation Info where
  postHookData : Option Data

structure Installed (Info Rest Data : Type) where
  prepared : Prepared Rest
  dir : OrderedMap String (Record Info Data)
  uuid_eq : ∀ p ∈ dir.entries, p.2.uuid = p.1

namespace Installed

variable (s : Installed Info Rest Data)

def save (r : Record Info Data) : Installed Info Rest Data :=
  ⟨s.prepared, s.dir.insert r.uuid r, fun p hp => by
    rcases mem_insert.mp hp with rfl | ⟨-, hp⟩
    · rfl
    · exact s.uuid_eq p hp⟩

def start (prepared : Prepared Rest) : Installed Info Rest Data :=
  ⟨prepared, .empty, fun _ h => absurd h not_mem_nil⟩

def removeInstallation (uuid : String) : Installed Info Rest Data :=
  ⟨s.prepared, s.dir.remove uuid, fun p hp => s.uuid_eq p (mem_remove.mp hp).2⟩

def readInstallations (s : Installed Info Rest Data) : List (Record Info Data) :=
  (s.dir.entries.map Prod.snd).insertionSort fun a b => a.uuid ≤ b.uuid

def newInstallation (env : Env Info Rest Answer) (random : Random) (tokenId : String) (info : Info)
    (s : Installed Info Rest Data) : Except ApiError (Rendered Info Rest Answer) × Installed Info Rest Data :=
  match answerInstallation env s.prepared tokenId info random true with
  | .unmatched _ installation => (.error (.http .notFound "no answer file found"), s.save ⟨installation, none⟩)
  | .rendered _ answer =>
    match incrementTemplateCounters s.prepared answer.config.id with
    | .error error => (.error error, s)
    | .ok prepared => (.ok answer, { s with prepared }.save ⟨answer.installation, none⟩)
  | .failed error => (.error error, s)
  | _ => (.error (.other ""), s) -- there is no other outcome (`newInstallation_cases`)

def handlePostHook (uuid token : String) (data : Data) (s : Installed Info Rest Data) :
    Except ApiError Unit × Installed Info Rest Data :=
  let notFound := (.error (.http .notFound ("installation " ++ uuid ++ " not found")), s)
  match s.readInstallations.find? fun r => r.uuid = uuid ∧ r.status = .inProgress ∧ r.postHookData.isNone with
  | none => notFound
  | some install =>
    let stored := install.postHookToken.getD ""
    if stored = "" ∨ stored.utf8ByteSize ≠ token.utf8ByteSize ∨ stored ≠ token then notFound
    else (.ok (), s.save { install with status := .finished, postHookData := some data, postHookToken := none })

def listInstallations (s : Installed Info Rest Data) : List (Record Info Data) :=
  s.readInstallations.map fun r => { r with postHookToken := none }

def deleteInstallation (uuid : String) (s : Installed Info Rest Data) :
    Except ApiError Unit × Installed Info Rest Data :=
  if (s.dir.get? uuid).isSome then (.ok (), s.removeInstallation uuid)
  else (.error (.http .notFound ("no such entry " ++ uuid)), s)

theorem newInstallation_cases (env : Env Info Rest Answer) (random : Random) (tokenId : String) (info : Info)
    (s : Installed Info Rest Data) :
    (findConfig env s.prepared tokenId info = none ∧ newInstallation env random tokenId info s =
      (.error (.http .notFound "no answer file found"),
        s.save ⟨⟨random.uuid, .noAnswerFound, info, none, none⟩, none⟩)) ∨
    (∃ config error, findConfig env s.prepared tokenId info = some config ∧ env.render config info = .error error ∧
      newInstallation env random tokenId info s = (.error error, s)) ∨
    ∃ answer prepared, findConfig env s.prepared tokenId info = some answer.config ∧
      env.render answer.config info = .ok answer.answer ∧ prepared = s.prepared.insert answer.config.incremented ∧
      answer.installation.uuid = random.uuid ∧ answer.installation.info = info ∧
      (∀ token, answer.installation.postHookToken = some token → ∃ hook, answer.webhook = some hook ∧
        hook.authToken = some token) ∧ newInstallation env random tokenId info s =
        (.ok answer, { s with prepared }.save ⟨answer.installation, none⟩) := by
  generalize hnew : newInstallation env random tokenId info s = outcome
  cases hfind : findConfig env s.prepared tokenId info with
  | none =>
    simp only [newInstallation, answerInstallation, hfind] at hnew
    exact .inl ⟨rfl, hnew.symm⟩
  | some config =>
    refine .inr ?_
    cases hrend : env.render config info with
    | error error =>
      simp only [newInstallation, answerInstallation, hfind, hrend] at hnew
      exact .inl ⟨config, error, rfl, hrend, hnew.symm⟩
    | ok =>
      simp only [newInstallation, answerInstallation, hfind, hrend, incrementTemplateCounters,
        get?_of_findConfig env hfind] at hnew
      refine .inr ⟨_, _, ?_, ?_, rfl, ?_, ?_, ?_, hnew.symm⟩
      · rfl
      · exact hrend
      · rfl
      · rfl
      · intro token htok
        cases hurl : config.postHookBaseUrl with
        | none => simp [hurl] at htok
        | some => exact ⟨_, rfl, by simpa [hurl] using htok⟩

theorem get?_save (r) (uuid) : (s.save r).dir.get? uuid = if uuid = r.uuid then some r else s.dir.get? uuid :=
  get?_insert _ _ _ _

theorem get?_save_self (r) : (s.save r).dir.get? r.uuid = some r := by
  rw [get?_save, if_pos rfl]

end Installed

/-! ## One request for an answer -/

/-- Nothing changes but the record of the request, and the counters of the answer if one is returned. -/
structure KeepsRest (env : Env Info Rest Answer) (uuid tokenId : String) (info : Info) (s t : Installed Info Rest Data)
    (result : Except ApiError (Rendered Info Rest Answer)) : Prop where
  records : ∀ other, other ≠ uuid → t.dir.get? other = s.dir.get? other
  counted : ∀ answer, result = .ok answer → findConfig env s.prepared tokenId info = some answer.config ∧
    t.prepared.toOrderedMap = s.prepared.mapValues fun id conf =>
      if id = answer.config.id then conf.incremented else conf
  uncounted : ∀ error, result = .error error → t.prepared = s.prepared

open Installed

/-- **A request leaves a record exactly if no answer is found or the one that is found can be rendered**, and in any
case it counts an answer once that it returns and changes nothing else. -/
theorem newInstallation_recorded_iff (env : Env Info Rest Answer) (random : Random) (tokenId : String) (info : Info)
    (s : Installed Info Rest Data) (hfresh : s.dir.get? random.uuid = none) :
    let outcome := s.newInstallation env random tokenId info
    KeepsRest env random.uuid tokenId info s outcome.2 outcome.1 ∧
      ((∃ record, outcome.2.dir.get? random.uuid = some record ∧ record.info = info) ↔
        ∀ config, findConfig env s.prepared tokenId info = some config →
          ∃ answer, env.render config info = .ok answer) := by
  intro outcome
  obtain ⟨hfind, hnew⟩ | ⟨config, error, hfind, hrend, hnew⟩ |
    ⟨answer, prepared, hfind, hrend, rfl, huuid, hinfo, -, hnew⟩ :=
    newInstallation_cases env random tokenId info s
  · simp only [outcome, hnew]
    refine ⟨⟨fun other hne => ?_, fun answer h => (by cases h), fun error _ => rfl⟩,
      iff_of_true ⟨_, get?_save_self _ _, rfl⟩ fun config hcfg => absurd (hfind.symm.trans hcfg) (by simp)⟩
    rw [get?_save, if_neg hne]
  · simp only [outcome, hnew]
    refine ⟨⟨fun other _ => rfl, fun answer h => (by cases h), fun error _ => rfl⟩, iff_of_false ?_ fun h => ?_⟩
    · rintro ⟨record, hrec, -⟩
      cases hfresh.symm.trans hrec
    · obtain ⟨answer, hans⟩ := h config hfind
      cases hrend.symm.trans hans
  · simp only [outcome, hnew]
    refine ⟨⟨fun other hne => ?_, ?_, fun error h => (by cases h)⟩,
      iff_of_true ⟨⟨answer.installation, none⟩, ?_, hinfo⟩ fun config hcfg => ?_⟩
    · rw [get?_save, if_neg (by rwa [huuid])]
    · rintro _ ⟨⟩
      exact ⟨hfind, insert_eq_mapValues PreparedConfig.incremented (get?_of_findConfig env hfind)⟩
    · exact huuid ▸ get?_save_self _ _
    · cases hfind.symm.trans hcfg
      exact ⟨_, hrend⟩

/-! ## Sequences of requests -/

inductive HookEvent (Info Rest Data : Type)
  | newInstallation (random : Random) (tokenId : String) (info : Info)
  | handlePostHook (uuid token : String) (data : Data)
  | listInstallations
  | deleteInstallation (uuid : String)
  /-- Any other change of `prepared.cfg`. -/
  | edit (prepared : Prepared Rest)

def HookEvent.generated : HookEvent Info Rest Data → List String
  | .newInstallation random _ _ => [random.uuid]
  | _ => []

/-- `uuids` are those generated so far, `issued` the token in the answer for an installation, and `accepted` the
installation of each hook that was accepted. -/
structure History (Info Rest Data : Type) where
  files : Installed Info Rest Data
  uuids : List String
  issued : String → Option String
  accepted : List String

namespace History

def start (prepared : Prepared Rest) : History Info Rest Data := ⟨.start prepared, [], fun _ => none, []⟩

def step (env : Env Info Rest Answer) (h : History Info Rest Data) : HookEvent Info Rest Data → History Info Rest Data
  | .newInstallation random tokenId info =>
    let (result, files) := h.files.newInstallation env random tokenId info
    let issued := match result with
      | .ok answer => Function.update h.issued random.uuid (answer.webhook.bind (·.authToken))
      | .error _ => h.issued
    ⟨files, h.uuids ++ [random.uuid], issued, h.accepted⟩
  | .handlePostHook uuid token data =>
    let (result, files) := h.files.handlePostHook uuid token data
    { h with files, accepted := if result.isOk then h.accepted ++ [uuid] else h.accepted }
  | .listInstallations => h
  | .deleteInstallation uuid => { h with files := (h.files.deleteInstallation uuid).2 }
  | .edit prepared => { h with files.prepared := prepared }

def run (env : Env Info Rest Answer) (h : History Info Rest Data) (events : List (HookEvent Info Rest Data)) :
    History Info Rest Data :=
  events.foldl (step env) h

end History

/-- The status stays, or goes from in progress to finished. -/
def Advances (before after : InstallationStatus) : Prop := after = before ∨ before = .inProgress ∧ after = .finished

/-! ## The invariant -/

theorem handlePostHook_cases (s : Installed Info Rest Data) (uuid token : String) (data : Data) :
    (∃ error, s.handlePostHook uuid token data = (.error error, s)) ∨
      ∃ r r', s.dir.get? uuid = some r ∧ r.status = .inProgress ∧ r.postHookToken = some token ∧ r'.uuid = uuid ∧
        r'.status = .finished ∧ s.handlePostHook uuid token data = (.ok (), s.save r') := by
  unfold Installed.handlePostHook
  simp only
  split
  · exact .inl ⟨_, rfl⟩
  · next install hfind =>
    have found := find?_some hfind
    simp only [decide_eq_true_eq] at found
    obtain ⟨rfl, hstat, -⟩ := found
    split
    · exact .inl ⟨_, rfl⟩
    · next hsame =>
      simp only [not_or, not_not] at hsame
      obtain ⟨hne, -, htok⟩ := hsame
      obtain ⟨p, hp, rfl⟩ := mem_map.mp ((mem_insertionSort _).mp (mem_of_find?_eq_some hfind))
      refine .inr ⟨p.2, { p.2 with status := .finished, postHookData := some data, postHookToken := none },
        ?_, hstat, ?_,
        rfl, rfl, rfl⟩
      · rw [get?_eq_some, s.uuid_eq p hp]
        exact hp
      · cases stored : p.2.postHookToken with
        | none => simp [stored] at hne
        | some => simpa [stored] using htok

structure Authentic (h : History Info Rest Data) : Prop where
  known : ∀ uuid r, h.files.dir.get? uuid = some r → uuid ∈ h.uuids
  accepted_known : ∀ uuid ∈ h.accepted, uuid ∈ h.uuids
  pending : ∀ uuid r, h.files.dir.get? uuid = some r → r.status = .inProgress →
    (∀ token, r.postHookToken = some token → h.issued uuid = some token) ∧ uuid ∉ h.accepted
  once : h.accepted.Nodup

variable {env : Env Info Rest Answer} {h : History Info Rest Data} {event : HookEvent Info Rest Data} {uuid : String}
  {r : Record Info Data}

variable (env h event) in
theorem uuids_step : (h.step env event).uuids = h.uuids ++ event.generated := by
  cases event <;> simp [History.step, HookEvent.generated]

/-- What there is of an installation after a request was there before, or is new, or has been finished. -/
theorem record_step (hr : (h.step env event).files.dir.get? uuid = some r) : h.files.dir.get? uuid = some r ∨
    (uuid ∈ event.generated ∧ ∀ token, r.postHookToken = some token → (h.step env event).issued uuid = some token) ∨
    ∃ r₀, h.files.dir.get? uuid = some r₀ ∧ r₀.status = .inProgress ∧ r.status = .finished := by
  cases event with
  | newInstallation random tokenId info =>
    obtain ⟨-, hnew⟩ | ⟨config, error, -, -, hnew⟩ | ⟨answer, prepared, -, -, -, huuid, -, htok, hnew⟩ :=
      newInstallation_cases env random tokenId info h.files
    · simp only [History.step, hnew, get?_save] at hr
      split at hr
      · next he =>
        cases hr
        exact .inr (.inl ⟨mem_singleton.mpr he, fun token h => by cases h⟩)
      · exact .inl hr
    · simp only [History.step, hnew] at hr
      exact .inl hr
    · simp only [History.step, hnew, get?_save] at hr ⊢
      split at hr
      · next he =>
        cases hr
        refine .inr (.inl ⟨mem_singleton.mpr (he.trans huuid), fun token h => ?_⟩)
        obtain ⟨hook, hhook, hauth⟩ := htok token h
        rw [he.trans huuid, Function.update_self, hhook]
        exact hauth
      · exact .inl hr
  | handlePostHook uuid' token data =>
    obtain ⟨error, handle⟩ | ⟨r₀, r', hr₀, status, -, rfl, hfin, handle⟩ :=
      handlePostHook_cases h.files uuid' token data
    · simp only [History.step, handle] at hr
      exact .inl hr
    · simp only [History.step, handle, get?_save] at hr
      split at hr
      · next he =>
        cases hr
        exact .inr (.inr ⟨r₀, he ▸ hr₀, status, hfin⟩)
      · exact .inl hr
  | listInstallations => exact .inl hr
  | deleteInstallation =>
    simp only [History.step, Installed.deleteInstallation] at hr
    split at hr
    · rw [Installed.removeInstallation, get?_remove] at hr
      exact .inl (by split at hr <;> [cases hr; exact hr])
    · exact .inl hr
  | edit => exact .inl hr

variable (env h event) in
theorem accepted_step : (h.step env event).accepted = h.accepted ∨
    ∃ uuid r r', (h.step env event).accepted = h.accepted ++ [uuid] ∧ h.files.dir.get? uuid = some r ∧
      r.status = .inProgress ∧ (h.step env event).files.dir.get? uuid = some r' ∧ r'.status = .finished := by
  cases event with
  | handlePostHook uuid token data =>
    obtain ⟨error, handle⟩ | ⟨r, r', hr, status, -, rfl, hfin, handle⟩ :=
      handlePostHook_cases h.files uuid token data
    · exact .inl (by simp [History.step, handle, Except.isOk, Except.toBool])
    · refine .inr ⟨_, r, r', ?_, hr, status, ?_, hfin⟩
      · simp [History.step, handle, Except.isOk, Except.toBool]
      · simp only [History.step, handle]
        exact get?_save_self _ _
  | _ => exact .inl rfl

theorem issued_step (hold : uuid ∉ event.generated) : (h.step env event).issued uuid = h.issued uuid := by
  cases event with
  | newInstallation random tokenId info =>
    simp only [History.step]
    cases (h.files.newInstallation env random tokenId info).1 with
    | error => rfl
    | ok => exact Function.update_of_ne (fun he => hold (mem_singleton.mpr he)) _ _
  | _ => rfl

theorem Authentic.step (ha : Authentic h) (hfr : ∀ uuid ∈ event.generated, uuid ∉ h.uuids) :
    Authentic (h.step env event) where
  known := by
    intro uuid r hr
    rw [uuids_step, mem_append]
    rcases record_step hr with hold | ⟨hnew, -⟩ | ⟨r₀, hold, -⟩
    · exact .inl (ha.known uuid r hold)
    · exact .inr hnew
    · exact .inl (ha.known uuid r₀ hold)
  accepted_known := by
    intro uuid huuid
    rw [uuids_step]
    refine mem_append_left _ ?_
    rcases accepted_step env h event with hacc | ⟨new, r, r', hacc, hr, -⟩
    · exact ha.accepted_known uuid (hacc ▸ huuid)
    · rcases mem_append.mp (hacc ▸ huuid) with hold | hnew
      · exact ha.accepted_known uuid hold
      · exact mem_singleton.mp hnew ▸ ha.known new r hr
  pending := by
    intro uuid r hr status
    have hnot : uuid ∉ h.accepted → uuid ∉ (h.step env event).accepted := by
      intro hold
      rcases accepted_step env h event with hacc | ⟨new, _, r', hacc, -, -, hr', hfin⟩
      · rwa [hacc]
      · rw [hacc, mem_append, mem_singleton, not_or]
        refine ⟨hold, ?_⟩
        rintro rfl
        cases hr.symm.trans hr'
        cases status.symm.trans hfin
    rcases record_step hr with hold | ⟨hnew, token⟩ | ⟨-, -, -, hfin⟩
    · obtain ⟨issued, hnone⟩ := ha.pending uuid r hold status
      rw [issued_step fun hnew => hfr uuid hnew (ha.known uuid r hold)]
      exact ⟨issued, hnot hnone⟩
    · exact ⟨token, hnot fun hacc => hfr uuid hnew (ha.accepted_known uuid hacc)⟩
    · cases status.symm.trans hfin
  once := by
    rcases accepted_step env h event with hacc | ⟨new, r, -, hacc, hr, status, -⟩
    · exact hacc ▸ ha.once
    · rw [hacc, ← concat_eq_append]
      exact ha.once.concat (ha.pending new r hr status).2

/-! ## Runs -/

variable (env)

theorem Authentic.run : ∀ (events : List (HookEvent Info Rest Data)) {h : History Info Rest Data}, Authentic h →
    (h.uuids ++ events.flatMap HookEvent.generated).Nodup → Authentic (h.run env events) ∧
      (h.run env events).uuids = h.uuids ++ events.flatMap HookEvent.generated
  | [], h, ha, _ => ⟨ha, (append_nil _).symm⟩
  | event :: events, h, ha, hdist => by
    rw [flatMap_cons, ← append_assoc] at hdist ⊢
    have hnew := (nodup_append.mp (nodup_append.mp hdist).1).2.2
    rw [← uuids_step env] at hdist ⊢
    exact Authentic.run events (ha.step fun uuid hgen hold => hnew uuid hold uuid hgen rfl) hdist

theorem advances_run {status} :
    ∀ (events : List (HookEvent Info Rest Data)) {h : History Info Rest Data}, uuid ∈ h.uuids →
      (h.uuids ++ events.flatMap HookEvent.generated).Nodup →
      (∀ r, h.files.dir.get? uuid = some r → Advances status r.status) →
      ∀ r, (h.run env events).files.dir.get? uuid = some r → Advances status r.status
  | [], _, _, _, hstat => hstat
  | event :: events, h, huuid, hdist, hstat => by
    rw [flatMap_cons, ← append_assoc] at hdist
    have hnew := (nodup_append.mp (nodup_append.mp hdist).1).2.2
    rw [← uuids_step env] at hdist
    refine advances_run events (by rw [uuids_step]; exact mem_append_left _ huuid) hdist fun r hr => ?_
    rcases record_step hr with hold | ⟨hgen, -⟩ | ⟨r₀, hold, hprog, hfin⟩
    · exact hstat r hold
    · exact absurd rfl (hnew uuid huuid uuid hgen)
    · rcases hstat r₀ hold with he | ⟨-, he⟩
      · exact .inr ⟨he.symm.trans hprog, hfin⟩
      · cases hprog.symm.trans he

/-- **The status of an installation changes only from in progress to finished, at most one post hook is accepted for it,
and only with the token of its answer; no list has a token in it.** -/
theorem postHook_authentic (prepared : Prepared Rest) (before after : List (HookEvent Info Rest Data))
    (hdistinct : ((before ++ after).flatMap HookEvent.generated).Nodup) :
    let h := History.run env (.start prepared) before
    let h' := h.run env after
    (∀ uuid r r', h.files.dir.get? uuid = some r → h'.files.dir.get? uuid = some r' → Advances r.status r'.status) ∧
    h'.accepted.Nodup ∧
    (∀ uuid token data, (h'.files.handlePostHook uuid token data).1 = .ok () → h'.issued uuid = some token) ∧
    ∀ r ∈ h'.files.listInstallations, r.postHookToken = none := by
  intro h h'
  rw [flatMap_append] at hdistinct
  have start : Authentic (.start prepared : History Info Rest Data) :=
    ⟨fun _ _ h => (by cases h), fun _ h => absurd h not_mem_nil, fun _ _ h => (by cases h), nodup_nil⟩
  obtain ⟨ha, huuids⟩ := start.run env before (nodup_append.mp hdistinct).1
  rw [show before.flatMap HookEvent.generated = h.uuids from huuids.symm] at hdistinct
  have ha' : Authentic h' := (ha.run env after hdistinct).1
  refine ⟨fun uuid r r' hr hr' => ?_, ha'.once, fun uuid token data hok => ?_, fun r hr => ?_⟩
  · refine advances_run env after (ha.known uuid r hr) hdistinct (fun r₀ hr₀ => ?_) r' hr'
    cases hr.symm.trans hr₀
    exact .inl rfl
  · obtain ⟨error, handle⟩ | ⟨r, r', hr, status, htok, -⟩ := handlePostHook_cases h'.files uuid token data
    · rw [handle] at hok
      cases hok
    · exact (ha'.pending uuid r hr status).1 token htok
  · obtain ⟨_, -, rfl⟩ := mem_map.mp hr
    rfl

/-! ## Samples -/

def hookedHosts : Prepared Unit :=
  Prepared.empty.insert { hostConfig firstValue with postHookBaseUrl := some "https://pdm/" }

/-- The hook is accepted, and then not again. -/
theorem postHook_authentic_hosts :
    let h := History.run hostEnv (.start hookedHosts)
      [.newInstallation someRandom "rack" (), .handlePostHook "uuid" "00" 1]
    h.accepted = ["uuid"] ∧ h.issued "uuid" = some "00" ∧ ¬ (h.files.handlePostHook "uuid" "00" 2).1.isOk ∧
      ∀ r ∈ h.files.listInstallations, r.postHookToken = none :=
  ⟨rfl, rfl, by decide, (postHook_authentic hostEnv hookedHosts [.newInstallation someRandom "rack" ()]
    [.handlePostHook "uuid" "00" 1] (by decide)).2.2.2⟩

theorem newInstallation_recorded_hosts :
    let outcome := (Installed.start hookedHosts : Installed Unit Unit Unit).newInstallation hostEnv someRandom "rack" ()
    (∃ answer, outcome.1 = .ok answer) ∧ ∃ record, outcome.2.dir.get? "uuid" = some record ∧ record.info = () :=
  ⟨⟨_, rfl⟩, (newInstallation_recorded_iff hostEnv someRandom "rack" () (.start hookedHosts) rfl).2.mpr
    fun _ _ => ⟨_, rfl⟩⟩

/-- The name that is rendered for the machine has a control character in it, and the request leaves no record. -/
theorem unrendered_installation_lost : let error := ApiError.other "rendered 'fqdn' contains control characters"
    let env : Env Unit Unit (Option I32) := { hostEnv with render := fun _ _ => .error error }
    let outcome := (Installed.start hookedHosts : Installed Unit Unit Unit).newInstallation env someRandom "rack" ()
    outcome.1 = .error error ∧ outcome.2.dir.entries = [] :=
  ⟨rfl, rfl⟩

end Nexus.AutoInstaller
