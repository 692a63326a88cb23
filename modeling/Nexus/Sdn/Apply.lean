import Nexus.Sdn.Client

/-!
# Applying an SDN transaction

`apply_and_release` of `LockedSdnClients` in `server/src/sdn_client.rs` always waits for all answers (`Answers`) and
returns an error if a reload has failed, but a remote on which applying failed, or which returned a UPID that cannot be
parsed, is only logged (`applyAndRelease_reports_iff`).
-/

namespace Nexus.Sdn

open Option

/-! ## UPIDs and tasks -/

structure PveUpid where
  (node raw : String)

structure RemoteUpid where
  remote : String
  remoteType : RemoteType
  upid : String

structure Formats where
  (safeId pveUpid pbsUpid : String → Bool)

def deduceType (formats : Formats) (rawUpid : String) : Except ApiError RemoteType :=
  if formats.pveUpid rawUpid then .ok .pve
  else if formats.pbsUpid rawUpid then .ok .pbs
  else .error (.other ("invalid upid: " ++ rawUpid))

def RemoteUpid.tryFrom (formats : Formats) (remote upid : String) : Except ApiError RemoteUpid :=
  if formats.safeId remote then (deduceType formats upid).map (⟨remote, ·, upid⟩)
  else .error (.other "bad remote id in remote upid")

structure TaskStatus where
  isRunning : Bool
  finishedSuccessfully : Option Bool

def ClientError.toApiError : ClientError → ApiError
  | .api _ message | .badApi message | .other message => .other message

/-- `none` while it goes on polling. -/
def pollTask (upid : RemoteUpid) : List (Except ClientError TaskStatus) → Option (Except ApiError RemoteUpid)
  | [] => none
  | .error error :: _ => some (.error error.toApiError)
  | .ok status :: later =>
    if status.isRunning then pollTask upid later
    else if status.finishedSuccessfully = some true then some (.ok upid)
    else some (.error (.other ("task did not finish successfully on remote " ++ upid.remote)))

variable {C : Type} {poll : Option (Except ApiError RemoteUpid)}

/-! ## Applying -/

/-- The answers so far. -/
structure Answers (C : Type) where
  sdnApply : LockedSdnClient C → Option (Except ClientError PveUpid)
  getTaskStatus : LockedSdnClient C → String → String → List (Except ClientError TaskStatus)

structure Arrivals (clients : List (LockedSdnClient C)) where
  applied : List (LockedSdnClient C)
  applied_perm : applied.Perm clients
  reloaded : List (Option (Except ApiError RemoteUpid)) → List (Option (Except ApiError RemoteUpid))
  reloaded_perm : ∀ reloads, (reloaded reloads).Perm reloads

def waitAll {α : Type} : List (Option α) → Option (List α)
  | [] => some []
  | none :: _ => none
  | some a :: futures => (waitAll futures).map (a :: ·)

def reloadOf (formats : Formats) (answers : Answers C) :
    LockedSdnClient C × Except ClientError PveUpid → Option (Option (Except ApiError RemoteUpid))
  | (client, .ok upid) =>
    match RemoteUpid.tryFrom formats client.remoteId upid.raw with
    | .error _ => none
    | .ok remoteUpid => some (pollTask remoteUpid (answers.getTaskStatus client upid.node remoteUpid.upid))
  | (_, .error _) => none

def applyAndRelease (formats : Formats) (answers : Answers C) {clients : List (LockedSdnClient C)}
    (arrivals : Arrivals clients) : Option (Except ApiError Unit) :=
  match waitAll (arrivals.applied.map fun client => (answers.sdnApply client).map (client, ·)) with
  | none => none
  | some applied =>
    match waitAll (arrivals.reloaded (applied.filterMap (reloadOf formats answers))) with
    | none => none
    | some results =>
      if results.any fun result => !result.isOk then
        some (.error (.other "failed to apply configuration on at least one remote"))
      else some (.ok ())

/-! ## What is waited for -/

theorem waitAll_eq_some {α : Type} : ∀ {futures : List (Option α)} {as : List α},
    waitAll futures = some as ↔ futures = as.map some
  | [], as => by
    rw [waitAll]
    cases as <;> simp
  | none :: futures, as => by
    rw [waitAll]
    cases as <;> simp
  | some a :: futures, as => by
    rw [waitAll]
    cases as with
    | nil => simp
    | cons b as =>
      rw [map_eq_some_iff]
      constructor
      · rintro ⟨as', h, e⟩
        cases e
        rw [waitAll_eq_some.mp h]
        rfl
      · intro h
        obtain ⟨rfl, hfut⟩ : a = b ∧ futures = as.map some := by simpa using h
        exact ⟨as, waitAll_eq_some.mpr hfut, rfl⟩

theorem waitAll_isSome_iff {α : Type} : ∀ {futures : List (Option α)},
    (waitAll futures).isSome ↔ ∀ future ∈ futures, future.isSome
  | [] => by simp [waitAll]
  | none :: futures => by simp [waitAll]
  | some a :: futures => by simp [waitAll, waitAll_isSome_iff]

variable (formats : Formats) (answers : Answers C)

def Started (client : LockedSdnClient C) (upid : PveUpid) (remoteUpid : RemoteUpid) : Prop :=
  answers.sdnApply client = some (.ok upid) ∧ RemoteUpid.tryFrom formats client.remoteId upid.raw = .ok remoteUpid

def Polled (client : LockedSdnClient C) (poll : Option (Except ApiError RemoteUpid)) : Prop :=
  ∃ upid remoteUpid, Started formats answers client upid remoteUpid ∧
    pollTask remoteUpid (answers.getTaskStatus client upid.node remoteUpid.upid) = poll

/-- The reload ended well. -/
def Reloaded (client : LockedSdnClient C) : Prop := ∃ upid, Polled formats answers client (some (.ok upid))

/-- Every call and every task comes to an end. -/
def Finished (clients : List (LockedSdnClient C)) : Prop :=
  ∀ client ∈ clients, (answers.sdnApply client).isSome ∧ ∀ poll, Polled formats answers client poll → poll.isSome

variable {formats answers}

theorem Polled.unique {client poll'} :
    Polled formats answers client poll → Polled formats answers client poll' → poll = poll'
  | ⟨upid, remoteUpid, ⟨happ, parsed⟩, hpoll⟩, ⟨upid', remoteUpid', ⟨happ', parsed'⟩, hpoll'⟩ => by
    cases happ.symm.trans happ'
    cases parsed.symm.trans parsed'
    exact hpoll.symm.trans hpoll'

theorem reloadOf_eq_some {client answer} (hans : answers.sdnApply client = some answer) :
    reloadOf formats answers (client, answer) = some poll ↔ Polled formats answers client poll := by
  cases answer with
  | error =>
    refine ⟨fun h => (by cases h), ?_⟩
    rintro ⟨upid, remoteUpid, ⟨apply, -⟩, -⟩
    cases hans.symm.trans apply
  | ok upid =>
    cases parsed : RemoteUpid.tryFrom formats client.remoteId upid.raw with
    | error =>
      simp only [reloadOf, parsed]
      refine ⟨fun h => (by cases h), ?_⟩
      rintro ⟨upid', remoteUpid, ⟨apply, parsed'⟩, -⟩
      cases hans.symm.trans apply
      cases parsed.symm.trans parsed'
    | ok remoteUpid =>
      simp only [reloadOf, parsed, some.injEq]
      refine ⟨fun h => ⟨upid, remoteUpid, ⟨hans, parsed⟩, h⟩, ?_⟩
      rintro ⟨upid', remoteUpid', ⟨apply, parsed'⟩, hpoll⟩
      cases hans.symm.trans apply
      cases parsed.symm.trans parsed'
      exact hpoll

variable {clients : List (LockedSdnClient C)} (arrivals : Arrivals clients)
  {applied : List (LockedSdnClient C × Except ClientError PveUpid)}

section

variable (h : waitAll (arrivals.applied.map fun client => (answers.sdnApply client).map (client, ·)) = some applied)

include h

theorem mem_applied {p} : p ∈ applied ↔ p.1 ∈ clients ∧ answers.sdnApply p.1 = some p.2 := by
  obtain ⟨client, answer⟩ := p
  have hmem : some (client, answer) ∈ applied.map some ↔ (client, answer) ∈ applied := by simp
  rw [← hmem, ← waitAll_eq_some.mp h]
  constructor
  · intro hp
    obtain ⟨client', hcl, e⟩ := List.mem_map.mp hp
    obtain ⟨answer', hans, e⟩ := map_eq_some_iff.mp e
    cases e
    exact ⟨arrivals.applied_perm.mem_iff.mp hcl, hans⟩
  · rintro ⟨hcl, hans⟩
    refine List.mem_map.mpr ⟨client, arrivals.applied_perm.mem_iff.mpr hcl, ?_⟩
    simp [hans]

theorem mem_reloads : poll ∈ arrivals.reloaded (applied.filterMap (reloadOf formats answers)) ↔
      ∃ client ∈ clients, Polled formats answers client poll := by
  rw [(arrivals.reloaded_perm _).mem_iff, List.mem_filterMap]
  constructor
  · rintro ⟨⟨client, answer⟩, hp, hpoll⟩
    obtain ⟨hcl, hans⟩ := (mem_applied arrivals h).mp hp
    exact ⟨client, hcl, (reloadOf_eq_some hans).mp hpoll⟩
  · rintro ⟨client, hcl, policy⟩
    obtain ⟨upid, remoteUpid, ⟨happ, parsed⟩, hpoll⟩ := policy
    exact ⟨(client, .ok upid), (mem_applied arrivals h).mpr ⟨hcl, happ⟩,
      (reloadOf_eq_some happ).mpr ⟨upid, remoteUpid, ⟨happ, parsed⟩, hpoll⟩⟩

end

theorem waitAll_applied_isSome_iff :
    (waitAll (arrivals.applied.map fun client => (answers.sdnApply client).map (client, ·))).isSome ↔
      ∀ client ∈ clients, (answers.sdnApply client).isSome := by
  rw [waitAll_isSome_iff]
  constructor
  · intro h client hcl
    have hfut := h _ (List.mem_map_of_mem (arrivals.applied_perm.mem_iff.mpr hcl))
    rwa [isSome_map] at hfut
  · intro h future hfut
    obtain ⟨client, hcl, rfl⟩ := List.mem_map.mp hfut
    rw [isSome_map]
    exact h client (arrivals.applied_perm.mem_iff.mp hcl)

section

variable (h : waitAll (arrivals.applied.map fun client => (answers.sdnApply client).map (client, ·)) = some applied)

include h

theorem waitAll_reloads_isSome_iff :
    (waitAll (arrivals.reloaded (applied.filterMap (reloadOf formats answers)))).isSome ↔
      ∀ client ∈ clients, ∀ poll, Polled formats answers client poll → poll.isSome := by
  rw [waitAll_isSome_iff]
  constructor
  · intro hall client hcl poll policy
    exact hall poll ((mem_reloads arrivals h).mpr ⟨client, hcl, policy⟩)
  · intro hall poll hpoll
    obtain ⟨client, hcl, policy⟩ := (mem_reloads arrivals h).mp hpoll
    exact hall client hcl poll policy

theorem mem_results {results}
    (hres : waitAll (arrivals.reloaded (applied.filterMap (reloadOf formats answers))) = some results) {result} :
    result ∈ results ↔ ∃ client ∈ clients, Polled formats answers client (some result) := by
  rw [← mem_reloads arrivals h, waitAll_eq_some.mp hres]
  simp

end

variable (formats answers) in
theorem applyAndRelease_cases : (applyAndRelease formats answers arrivals = none ∧ ¬ Finished formats answers clients) ∨
    Finished formats answers clients ∧ ∃ result, applyAndRelease formats answers arrivals = some result ∧
      (result = .ok () ↔ ∀ client ∈ clients, ∀ error, ¬ Polled formats answers client (some (.error error))) := by
  unfold applyAndRelease
  cases happlied : waitAll (arrivals.applied.map fun client => (answers.sdnApply client).map (client, ·)) with
  | none =>
    refine .inl ⟨rfl, fun hfin => ?_⟩
    have hall := (waitAll_applied_isSome_iff arrivals).mpr fun client hcl => (hfin client hcl).1
    rw [happlied] at hall
    cases hall
  | some applied =>
    simp only
    cases hrel : waitAll (arrivals.reloaded (applied.filterMap (reloadOf formats answers))) with
    | none =>
      refine .inl ⟨rfl, fun hfin => ?_⟩
      have hall := (waitAll_reloads_isSome_iff arrivals happlied).mpr fun client hcl =>
        (hfin client hcl).2
      rw [hrel] at hall
      cases hall
    | some results =>
      have hansw := (waitAll_applied_isSome_iff arrivals).mp (isSome_of_eq_some happlied)
      have hend := (waitAll_reloads_isSome_iff arrivals happlied).mp (isSome_of_eq_some hrel)
      refine .inr ⟨fun client hcl => ⟨hansw client hcl, hend client hcl⟩, ?_⟩
      by_cases herr : (results.any fun result => !result.isOk)
      · refine ⟨_, if_pos herr, fun h => (by cases h), fun h => ?_⟩
        obtain ⟨result, hres, hnot⟩ := List.any_eq_true.mp herr
        obtain ⟨client, hcl, polled⟩ := (mem_results arrivals happlied hrel).mp hres
        cases result with
        | ok => cases hnot
        | error error => exact absurd polled (h client hcl error)
      · refine ⟨_, if_neg herr, fun _ client hcl error polled => herr ?_, fun _ => rfl⟩
        exact List.any_eq_true.mpr ⟨_, (mem_results arrivals happlied hrel).mpr ⟨client, hcl, polled⟩, rfl⟩

variable (formats answers) in
/-- **`apply_and_release` returns when all reload tasks have ended, and says whether every remote was reloaded, exactly
if a reload was polled for every remote or one that was polled has failed.** -/
theorem applyAndRelease_reports_iff : ((applyAndRelease formats answers arrivals).isSome ↔
      Finished formats answers clients) ∧ ((∀ result ∈ applyAndRelease formats answers arrivals,
        (result = .ok () ↔ ∀ client ∈ clients, Reloaded formats answers client)) ↔ (Finished formats answers clients →
        (∀ client ∈ clients, ∃ upid remoteUpid, Started formats answers client upid remoteUpid) ∨
          ∃ client ∈ clients, ∃ error, Polled formats answers client (some (.error error)))) := by
  rcases applyAndRelease_cases formats answers arrivals with
    ⟨hnone, hnot⟩ | ⟨hfin, result, hsome, hres⟩
  · simp [hnone, hnot]
  · refine ⟨by simp [hsome, hfin], fun h _ => ?_, fun h r hr => ?_⟩
    · by_cases hfail : ∃ client ∈ clients, ∃ error, Polled formats answers client (some (.error error))
      · exact .inr hfail
      · have hok : result = .ok () := hres.mpr fun client hcl error polled =>
          hfail ⟨client, hcl, error, polled⟩
        refine .inl fun client hcl => ?_
        obtain ⟨_, upid, remoteUpid, started, -⟩ := (h result hsome).mp hok client hcl
        exact ⟨upid, remoteUpid, started⟩
    · cases hsome.symm.trans hr
      rw [hres]
      constructor
      · intro hok client hcl
        rcases h hfin with started | ⟨client', hcl', error, polled⟩
        · obtain ⟨upid, remoteUpid, started⟩ := started client hcl
          have polled : Polled formats answers client _ := ⟨upid, remoteUpid, started, rfl⟩
          obtain ⟨answer, hans⟩ := isSome_iff_exists.mp ((hfin client hcl).2 _ polled)
          rw [hans] at polled
          cases answer with
          | error error => exact absurd polled (hok client hcl error)
          | ok upid => exact ⟨upid, polled⟩
        · exact absurd polled (hok client' hcl' error)
      · intro hrel client hcl error polled
        obtain ⟨upid, hok⟩ := hrel client hcl
        cases hok.unique polled

def anyFormats : Formats := ⟨fun _ => true, fun _ => true, fun _ => true⟩

def failingAnswers : Answers Unit := ⟨fun _ => some (.error (.api 500 "no quorum")), fun _ _ _ => []⟩

/-- **A failed apply call is not reported.** -/
theorem failed_apply_returns_ok : applyAndRelease anyFormats failingAnswers
        (⟨[⟨0, "token", "east", ()⟩], .refl _, id, fun _ => .refl _⟩ : Arrivals [⟨0, "token", "east", ()⟩]) =
      some (.ok ()) ∧ ¬ Reloaded anyFormats failingAnswers ⟨0, "token", "east", ()⟩ := by
  refine ⟨by decide, ?_⟩
  rintro ⟨_, upid, remoteUpid, ⟨apply, -⟩, -⟩
  cases apply

end Nexus.Sdn
