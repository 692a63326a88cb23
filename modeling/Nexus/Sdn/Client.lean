import Nexus.Access
import Nexus.Resource

/-!
# SDN transactions over several remotes

`LockedSdnClients` of `server/src/sdn_client.rs`. A transaction is known by the calls that it makes, and requests at the
same time come in any order. Every lock is handed to one final call, unless a name that is not a known remote comes
after one that was locked (`transaction_handsBack_iff`).
-/

namespace Nexus.Sdn

open List

/-! ## Clients and calls -/

inductive ClientError
  | api (status : Nat) (message : String)
  | badApi (message : String)
  | other (message : String)

structure LockedSdnClient (C : Type) where
  lock : Nat
  (lockToken remoteId : String)
  data : C

/-- The calls that are about a lock. -/
inductive Call
  | acquired (lock : Nat)
  | change (lock : Nat)
  | release (lock : Nat)
  | rollbackAndRelease (lock : Nat)
  | applyAndRelease (lock : Nat)
  deriving DecidableEq

def Call.lock : Call → Nat
  | .acquired lock | .change lock | .release lock | .rollbackAndRelease lock | .applyAndRelease lock => lock

def Call.isFinal : Call → Bool
  | .acquired _ | .change _ => false
  | _ => true

variable {C : Type}

/-! ## Locking -/

def getRemote (config : RemotesConfig) (id : String) : Except ApiError Remote :=
  match config.get? id with
  | none => .error (.http .notFound ("no such node '" ++ id ++ "'"))
  | some remote =>
    if remote.ty = .pve then .ok remote else .error (.other ("remote \"" ++ id ++ "\" is not a pve remote"))

def lockError (remote : Remote) : ClientError → ApiError
  | .api 501 _ => .other ("remote " ++ remote.id ++
      " does not support the sdn locking api, please upgrade to PVE 9 or newer!")
  | _ => .other ("could not lock sdn configuration for remote " ++ remote.id)

def lockAll (config : RemotesConfig) (acquire : Nat → Remote → Except ClientError String) (n : Nat)
    (clients : List (LockedSdnClient C)) : List (String × C) → Except ApiError (List (LockedSdnClient C)) × List Call
  | [] => (.ok clients, [])
  | (remoteName, context) :: remoteNames =>
    match getRemote config remoteName with
    -- the function is left here, without a word about `clients`
    | .error error => (.error error, [])
    | .ok remote =>
      match acquire n remote with
      | .ok lockToken =>
        let (result, calls) :=
          lockAll config acquire (n + 1) (clients ++ [⟨n, lockToken, remoteName, context⟩]) remoteNames
        (result, .acquired n :: calls)
      | .error error => (.error (lockError remote error), clients.map (.release ·.lock))

def fromRemoteNames (config : RemotesConfig) (acquire : Nat → Remote → Except ClientError String)
    (remoteNames : List (String × C)) : Except ApiError (List (LockedSdnClient C)) × List Call :=
  let (result, calls) := lockAll config acquire 0 [] remoteNames
  (result.map (·.mergeSort fun a b => a.remoteId ≤ b.remoteId), calls)

/-! ## Changing and applying -/

structure Round (clients : List (LockedSdnClient C)) where
  callback : LockedSdnClient C → Except ClientError Unit
  changes : List (LockedSdnClient C)
  changes_of : ∀ c ∈ changes, c ∈ clients
  rollbacks : List (LockedSdnClient C)
  rollbacks_perm : rollbacks.Perm clients

def forEach {clients : List (LockedSdnClient C)} (round : Round clients) :
    Except ApiError (List (LockedSdnClient C)) × List Call :=
  let changes := round.changes.map (.change ·.lock)
  if clients.any fun c => !(round.callback c).isOk then
    (.error (.other "running the transaction failed on at least one remote!"),
      changes ++ round.rollbacks.map (.rollbackAndRelease ·.lock))
  else (.ok clients, changes)

def commit {clients : List (LockedSdnClient C)} (applied : List (LockedSdnClient C)) : List (Round clients) → List Call
  | [] => applied.map (.applyAndRelease ·.lock)
  | round :: rounds =>
    match forEach round with
    | (.error _, calls) => calls
    | (.ok _, calls) => calls ++ commit applied rounds

structure Course (C : Type) where
  rounds : ∀ clients : List (LockedSdnClient C), List (Round clients)
  applied : List (LockedSdnClient C) → List (LockedSdnClient C)
  applied_perm : ∀ clients, (applied clients).Perm clients

def transaction (config : RemotesConfig) (acquire : Nat → Remote → Except ClientError String)
    (remoteNames : List (String × C)) (course : Course C) : List Call :=
  match fromRemoteNames config acquire remoteNames with
  | (.error _, calls) => calls
  | (.ok clients, calls) => calls ++ commit (course.applied clients) (course.rounds clients)

/-! ## Handing back -/

/-- Each lock is given back once, and nothing is changed after that. -/
def HandsBack (calls : List Call) : Prop :=
  ∀ lock, .acquired lock ∈ calls → ∃ before final after, calls = before ++ final :: after ∧
    final.isFinal ∧ final.lock = lock ∧ (∀ c ∈ before ++ after, c.isFinal → c.lock ≠ lock) ∧
    ∀ c ∈ after, ∀ other, c ≠ .change other

variable {calls : List Call} {n : Nat} {remoteNames : List (String × C)} {clients : List (LockedSdnClient C)}

theorem handsBack_append {finals} (hcalls : ∀ c ∈ calls, c.isFinal = false)
    (hfinals : ∀ c ∈ finals, c.isFinal) (hnd : (finals.map Call.lock).Nodup)
    (hall : ∀ lock, .acquired lock ∈ calls → lock ∈ finals.map Call.lock) : HandsBack (calls ++ finals) := by
  intro lock h
  have hlock : lock ∈ finals.map Call.lock := by
    rcases mem_append.mp h with h | h
    · exact hall lock h
    · cases hfinals _ h
  obtain ⟨final, hfin, rfl⟩ := mem_map.mp hlock
  obtain ⟨before, after, rfl⟩ := append_of_mem hfin
  refine ⟨calls ++ before, final, after, by simp, hfinals _ hfin, rfl, fun c hc hf => ?_, fun c hc other e => ?_⟩
  · -- the locks of the final calls are all different
    have hoth : c ∈ before ∨ c ∈ after := by
      rcases mem_append.mp hc with hc | hc
      · rcases mem_append.mp hc with hc | hc
        · cases (hcalls c hc).symm.trans hf
        · exact .inl hc
      · exact .inr hc
    rw [map_append, map_cons, nodup_append] at hnd
    obtain ⟨-, hnd, hapart⟩ := hnd
    rcases hoth with hc | hc
    · exact hapart _ (mem_map_of_mem hc) _ mem_cons_self
    · exact fun e => (nodup_cons.mp hnd).1 (e ▸ mem_map_of_mem hc)
  · subst e
    cases hfinals _ (mem_append_right _ (mem_cons_of_mem _ hc))

variable {config : RemotesConfig} {acquire : Nat → Remote → Except ClientError String}

def Known (config : RemotesConfig) (remoteName : String) : Prop := ∃ remote, getRemote config remoteName = .ok remote

def NumberedFrom (n : Nat) (clients : List (LockedSdnClient C)) : Prop :=
  clients.map (·.lock) = List.range' n clients.length

/-- The first name that is not known comes after `n` others. -/
def StopsAfter (config : RemotesConfig) (n : Nat) (remoteNames : List (String × C)) : Prop :=
  ∃ known p later, remoteNames = known ++ p :: later ∧ known.length = n ∧ (∀ q ∈ known, Known config q.1) ∧
    ¬ Known config p.1

theorem StopsAfter.cons {p} (hp : Known config p.1) :
    StopsAfter config n remoteNames → StopsAfter config (n + 1) (p :: remoteNames)
  | ⟨known, q, later, names, hlen, hknown, hq⟩ =>
    ⟨p :: known, q, later, by rw [names]; rfl, by rw [length_cons, hlen], forall_mem_cons.mpr ⟨hp, hknown⟩, hq⟩

/-- How the locking loop ends. -/
inductive Ends (config : RemotesConfig) (acquire : Nat → Remote → Except ClientError String)
    (clients new : List (LockedSdnClient C)) (remoteNames : List (String × C)) :
    Except ApiError (List (LockedSdnClient C)) × List Call → Prop
  | locked : (∀ p ∈ remoteNames, Known config p.1) →
      Ends config acquire clients new remoteNames (.ok (clients ++ new), new.map (.acquired ·.lock))
  | refused (error : ApiError) : (∃ n remote failure, acquire n remote = .error failure) →
      Ends config acquire clients new remoteNames
        (.error error, new.map (.acquired ·.lock) ++ (clients ++ new).map (.release ·.lock))
  | unknown (error : ApiError) : StopsAfter config new.length remoteNames →
      Ends config acquire clients new remoteNames (.error error, new.map (.acquired ·.lock))

theorem lockAll_ends (config) (acquire) :
    ∀ (remoteNames : List (String × C)) (n : Nat) (clients : List (LockedSdnClient C)), ∃ new, NumberedFrom n new ∧
      Ends config acquire clients new remoteNames (lockAll config acquire n clients remoteNames)
  | [], n, clients => by
    have ends : Ends config acquire clients [] ([] : List (String × C)) (.ok (clients ++ []), []) := .locked (by simp)
    rw [append_nil] at ends
    exact ⟨[], rfl, ends⟩
  | (remoteName, context) :: remoteNames, n, clients => by
    unfold lockAll
    cases hrem : getRemote config remoteName with
    | error error =>
      refine ⟨[], rfl, .unknown error ⟨[], _, _, rfl, rfl, by simp, ?_⟩⟩
      rintro ⟨remote, h⟩
      cases hrem.symm.trans h
    | ok remote =>
      cases hacq : acquire n remote with
      | error error =>
        have ends : Ends config acquire clients [] ((remoteName, context) :: remoteNames)
            (.error (lockError remote error), [] ++ (clients ++ []).map fun c : LockedSdnClient C => .release c.lock) :=
          .refused _ ⟨n, remote, error, hacq⟩
        rw [append_nil, nil_append] at ends
        exact ⟨[], rfl, by simpa only [hacq] using ends⟩
      | ok lockToken =>
        let client : LockedSdnClient C := ⟨n, lockToken, remoteName, context⟩
        obtain ⟨new, hnumb, hends⟩ := lockAll_ends config acquire remoteNames (n + 1) (clients ++ [client])
        refine ⟨client :: new, ?_, ?_⟩
        · simpa [NumberedFrom, range'_succ, client] using hnumb
        · simp only [hacq]
          generalize lockAll config acquire (n + 1) (clients ++ [client]) remoteNames = outcome at hends
          have append : clients ++ [client] ++ new = clients ++ client :: new := by simp
          cases hends with
          | locked hknown =>
            rw [append]
            exact .locked (forall_mem_cons.mpr ⟨⟨remote, hrem⟩, hknown⟩)
          | refused error href =>
            rw [append]
            exact .refused error href
          | unknown error stop => exact .unknown error (stop.cons ⟨remote, hrem⟩)

/-! ### From the locked clients to the last call -/

def ChangesThenFinals (clients : List (LockedSdnClient C)) (calls : List Call) : Prop :=
  ∃ changes finals, calls = changes ++ finals ∧ (∀ c ∈ changes, ∃ lock, c = .change lock) ∧
    (∀ c ∈ finals, c.isFinal) ∧ (finals.map Call.lock).Perm (clients.map (·.lock))

theorem changesThenFinals_of_perm {order : List (LockedSdnClient C)} (changes : List (LockedSdnClient C))
    {final : Nat → Call} (hfin : ∀ lock, (final lock).isFinal) (hlock : ∀ lock, (final lock).lock = lock)
    (horder : order.Perm clients) :
    ChangesThenFinals clients (changes.map (.change ·.lock) ++ order.map fun c => final c.lock) := by
  refine ⟨_, _, rfl, fun c hc => ?_, fun c hc => ?_, ?_⟩
  · obtain ⟨client, -, rfl⟩ := mem_map.mp hc
    exact ⟨client.lock, rfl⟩
  · obtain ⟨client, -, rfl⟩ := mem_map.mp hc
    exact hfin client.lock
  · rw [map_map]
    simpa [Function.comp_def, hlock] using horder.map LockedSdnClient.lock

theorem changesThenFinals_commit {applied : List (LockedSdnClient C)} (happlied : applied.Perm clients) :
    ∀ rounds : List (Round clients), ChangesThenFinals clients (commit applied rounds)
  | [] => changesThenFinals_of_perm [] (fun _ => rfl) (fun _ => rfl) happlied
  | round :: rounds => by
    obtain ⟨changes, finals, hcalls, hchanges, hfinals, hlocks⟩ := changesThenFinals_commit happlied rounds
    rw [commit]
    by_cases hfail : (clients.any fun c => !(round.callback c).isOk)
    · simp only [forEach, hfail, if_true]
      exact changesThenFinals_of_perm round.changes (fun _ => rfl) (fun _ => rfl) round.rollbacks_perm
    · simp only [forEach, hfail, hcalls]
      refine ⟨round.changes.map (.change ·.lock) ++ changes, finals, (append_assoc _ _ _).symm, fun c hc => ?_,
        hfinals, hlocks⟩
      rcases mem_append.mp hc with hc | hc
      · obtain ⟨client, -, rfl⟩ := mem_map.mp hc
        exact ⟨client.lock, rfl⟩
      · exact hchanges c hc

theorem NumberedFrom.nodup (h : NumberedFrom n clients) : (clients.map (·.lock)).Nodup := by
  rw [h]
  exact nodup_range'

theorem handsBack_of_changesThenFinals {new}
    (hnumb : NumberedFrom n new) (hperm : clients.Perm new) (h : ChangesThenFinals clients calls) :
    HandsBack (new.map (.acquired ·.lock) ++ calls) := by
  obtain ⟨changes, finals, rfl, hchanges, hfinals, hlocks⟩ := h
  have hlocks : (finals.map Call.lock).Perm (new.map (·.lock)) := hlocks.trans (hperm.map _)
  rw [← append_assoc]
  refine handsBack_append (fun c hc => ?_) hfinals (hlocks.nodup_iff.mpr hnumb.nodup) fun lock hacq => ?_
  · rcases mem_append.mp hc with hc | hc
    · obtain ⟨client, -, rfl⟩ := mem_map.mp hc
      rfl
    · obtain ⟨lock, rfl⟩ := hchanges c hc
      rfl
  · rcases mem_append.mp hacq with hacq | hacq
    · obtain ⟨client, hcl, e⟩ := mem_map.mp hacq
      cases e
      exact hlocks.mem_iff.mpr (mem_map_of_mem hcl)
    · obtain ⟨_, e⟩ := hchanges _ hacq
      cases e

/-! ### The result -/

/-- A name that is not known is seen before anything is locked. -/
def UnknownOnlyFirst (config : RemotesConfig) (remoteNames : List (String × C)) : Prop :=
  (∀ p ∈ remoteNames, Known config p.1) ∨ ∃ p ∈ remoteNames.head?, ¬ Known config p.1

theorem unknownOnlyFirst_of_stopsAfter_zero (h : StopsAfter config 0 remoteNames) :
    UnknownOnlyFirst config remoteNames := by
  obtain ⟨known, p, later, rfl, hlen, -, hp⟩ := h
  obtain rfl : known = [] := eq_nil_of_length_eq_zero hlen
  exact .inr ⟨p, rfl, hp⟩

theorem eq_zero_of_stopsAfter (h : UnknownOnlyFirst config remoteNames)
    (stops : StopsAfter config n remoteNames) : n = 0 := by
  obtain ⟨known, p, later, rfl, rfl, hknown, hp⟩ := stops
  rcases h with hall | ⟨q, hq, hnot⟩
  · exact absurd (hall p (by simp)) hp
  · cases known with
    | nil => rfl
    | cons =>
      cases hq
      exact absurd (hknown q mem_cons_self) hnot

theorem handsBack_transaction (course : Course C)
    (h : UnknownOnlyFirst config remoteNames) : HandsBack (transaction config acquire remoteNames course) := by
  obtain ⟨new, hnumb, hends⟩ := lockAll_ends config acquire remoteNames 0 []
  unfold transaction fromRemoteNames
  generalize lockAll config acquire 0 [] remoteNames = outcome at hends
  cases hends with
  | locked =>
    exact handsBack_of_changesThenFinals hnumb (mergeSort_perm _ _)
      (changesThenFinals_commit (course.applied_perm _) _)
  | refused =>
    exact handsBack_of_changesThenFinals hnumb (List.Perm.refl _)
      (changesThenFinals_of_perm [] (fun _ => rfl) (fun _ => rfl) (List.Perm.refl _))
  | unknown _ stops =>
    obtain rfl : new = [] := eq_nil_of_length_eq_zero (eq_zero_of_stopsAfter h stops)
    intro lock hlock
    cases hlock

def noChanges : Course C := ⟨fun _ => [], id, fun _ => List.Perm.refl _⟩

theorem unknownOnlyFirst_of_handsBack (h : HandsBack (transaction config (fun _ _ => .ok "") remoteNames noChanges)) :
    UnknownOnlyFirst config remoteNames := by
  obtain ⟨new, hnumb, hends⟩ := lockAll_ends config (fun _ _ => .ok "") remoteNames 0 []
  unfold transaction fromRemoteNames at h
  generalize lockAll config (fun _ _ => .ok "") 0 [] remoteNames = outcome at h hends
  cases hends with
  | locked hall => exact .inl hall
  | refused _ href =>
    obtain ⟨_, _, _, e⟩ := href
    cases e
  | unknown _ stops =>
    cases new with
    | nil => exact unknownOnlyFirst_of_stopsAfter_zero stops
    | cons client new =>
      obtain ⟨before, final, after, hcalls, hfin, -⟩ := h client.lock mem_cons_self
      have hmem : final ∈ (client :: new).map (.acquired ·.lock) := by
        rw [show (client :: new).map (.acquired ·.lock) = before ++ final :: after from hcalls]
        exact mem_append_right _ mem_cons_self
      obtain ⟨_, -, rfl⟩ := mem_map.mp hmem
      cases hfin

/-- **Every lock that is acquired is handed to one final call, and nothing is changed after it, unless a name that is
not known comes after the first one.** -/
theorem transaction_handsBack_iff (config : RemotesConfig) (remoteNames : List (String × C)) :
    (∀ acquire course, HandsBack (transaction config acquire remoteNames course)) ↔
      UnknownOnlyFirst config remoteNames :=
  ⟨fun h => unknownOnlyFirst_of_handsBack (h _ _), fun h _ course => handsBack_transaction course h⟩

def oneRemote : RemotesConfig := ⟨⟨[("east", ⟨.pve, "east"⟩)], by decide⟩, by decide⟩

/-- The second name is not known, and the lock of the first remote is dropped. -/
theorem lock_dropped_at_unknown_remote :
    transaction oneRemote (fun _ _ => .ok "token") [("east", ()), ("west", ())] noChanges = [.acquired 0] ∧
      ¬ HandsBack (transaction oneRemote (fun _ _ => .ok "token") [("east", ()), ("west", ())] noChanges) := by
  have hcalls :
      transaction oneRemote (fun _ _ => .ok "token") [("east", ()), ("west", ())] noChanges = [.acquired 0] := by
    decide
  refine ⟨hcalls, fun h => ?_⟩
  obtain ⟨before, final, after, heq, hfin, -⟩ := h 0 (by rw [hcalls]; exact mem_cons_self)
  have hmem : final ∈ [Call.acquired 0] := by
    rw [← hcalls, heq]
    exact mem_append_right _ mem_cons_self
  cases mem_singleton.mp hmem
  cases hfin

end Nexus.Sdn
