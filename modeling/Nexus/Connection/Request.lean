import Nexus.Connection.Clients

/-!
# A request to a remote

The loop `try_request!` of `server/src/connection.rs`. `tryRequest` is the loop over offered clients, `drive` runs it
with the generator while others interfere (`drive_eq_tryLoop`). `tryRequest_atMostOnce_iff` says when a request reaches
a server at most once.
-/

namespace Nexus.Connection

open List Option

/-! ## The loop -/

inductive Outcome (ρ : Type)
  /-- `Error::Connect`: the request did not reach the server. -/
  | connect (err : String)
  /-- `Error::Client`: the connection failed later. -/
  | client (err : String)
  /-- Any other result, an answer of the server or another error. -/
  | result (r : Except String ρ)
  /-- Nothing came back within the timeout. -/
  | timeout
  deriving DecidableEq

def Outcome.mayBeProcessed {ρ : Type} : Outcome ρ → Bool
  | .connect _ => false
  | _ => true

inductive RequestError
  | connect (err : String)
  | client (err : String)
  | other (err : String)

/-- A client, and how an attempt with it would end. -/
structure Offer (ρ : Type) where
  client : TryClient
  backOff : Option Nat
  outcome : Outcome ρ

def Offer.backsOff {ρ : Type} (o : Offer ρ) : Bool := o.backOff.any (0 < ·)

inductive ConnectionState
  | reachable
  | unreachable (err : String)
  deriving DecidableEq

structure LoopState (ρ : Type) where
  lastErr : Option RequestError
  timedOut : Bool
  connectRetry : Option TryClient
  first : Bool
  attempts : List (TryClient × Outcome ρ)
  marks : List (String × ConnectionState)

def LoopState.start {ρ : Type} : LoopState ρ := ⟨none, false, none, true, [], []⟩

def RequestError.toString : RequestError → String
  | .connect err => err
  | .client err => err
  | .other err => err

variable {ρ : Type}

def LoopState.failed (l : LoopState ρ) (c : TryClient) : LoopState ρ :=
  let err := match l.timedOut, l.lastErr with
    | true, _ => some "request timed out"
    | false, some err => some err.toString
    | false, none => none
  { l with
    first := false
    marks := match err with
      | some err => l.marks ++ [(c.hostname, .unreachable err)]
      | none => l.marks }

def attempt (isIdempotent : Bool) (c : TryClient) (outcome : Outcome ρ) (l : LoopState ρ) :
    Option (Except RequestError ρ) × LoopState ρ :=
  let l := { l with lastErr := none, timedOut := false, attempts := l.attempts ++ [(c, outcome)] }
  match outcome with
  | .connect err =>
    let l := if l.first then { l with connectRetry := some c } else l
    (none, { l with lastErr := some (.connect err) }.failed c)
  | .client err =>
    if isIdempotent then (none, { l with lastErr := some (.client err) }.failed c)
    else (some (.error (.client err)), l)
  | .result r =>
    let l := if !c.reachable then { l with marks := l.marks ++ [(c.hostname, .reachable)] } else l
    (some (r.mapError .other), l)
  | .timeout => (none, { l with timedOut := true }.failed c)

def tryLoop (isIdempotent : Bool) : List (Offer ρ) → LoopState ρ → Option (Except RequestError ρ) × LoopState ρ
  | [], l => (none, l)
  | o :: os, l =>
    if o.backsOff then tryLoop isIdempotent os l
    else match attempt isIdempotent o.client o.outcome l with
      | (some r, l) => (some r, l)
      | (none, l) => tryLoop isIdempotent os l

def LoopState.giveUp (l : LoopState ρ) : Except RequestError ρ :=
  match l.lastErr with
  | some err => .error err
  | none =>
    if l.timedOut then .error (.other "failed to perform API request: timed out")
    else .error (.other "failed to perform API request: unknown error")

def finish (retry : Outcome ρ) (l : LoopState ρ) : Except RequestError ρ × LoopState ρ :=
  match l.connectRetry with
  | some c =>
    let l := { l with attempts := l.attempts ++ [(c, retry)] }
    match retry with
    | .timeout => (l.giveUp, l)
    | .connect err => (.error (.connect err), l)
    | .client err => (.error (.client err), l)
    | .result r =>
      let l := match r with
        | .ok _ => { l with marks := l.marks ++ [(c.hostname, .reachable)] }
        | .error _ => l
      (r.mapError .other, l)
  | none => (l.giveUp, l)

def tryRequest (isIdempotent : Bool) (remoteBackOff : Option (Nat × String)) (offers : List (Offer ρ))
    (retry : Outcome ρ) : Except RequestError ρ × LoopState ρ :=
  match remoteBackOff with
  | some (backOffTime, lastError) =>
    if 0 < backOffTime then (.error (.connect lastError), .start)
    else run
  | none => run
where
  /-- The request, once the remote may be contacted. -/
  run : Except RequestError ρ × LoopState ρ :=
    match tryLoop isIdempotent offers .start with
    | (some r, l) => (r, l)
    | (none, l) => finish retry l

/-! ## The attempts of a request that must not be repeated -/

def Outcome.stops : Outcome ρ → Bool
  | .client _ => true
  | .result _ => true
  | .connect _ => false
  | .timeout => false

def attempted : List (Outcome ρ) → List (Outcome ρ)
  | [] => []
  | o :: os => if o.stops then [o] else o :: attempted os

def liveOutcomes (offers : List (Offer ρ)) : List (Outcome ρ) := (offers.filter (!·.backsOff)).map (·.outcome)

theorem liveOutcomes_cons (o : Offer ρ) (os : List (Offer ρ)) :
    liveOutcomes (o :: os) = if o.backsOff then liveOutcomes os else o.outcome :: liveOutcomes os := by
  cases hb : o.backsOff <;> simp [liveOutcomes, hb]

def LoopState.outcomes (l : LoopState ρ) : List (Outcome ρ) := l.attempts.map (·.2)

@[simp] theorem LoopState.start_outcomes : (LoopState.start : LoopState ρ).outcomes = [] := rfl

@[simp] theorem LoopState.start_first : (LoopState.start : LoopState ρ).first := rfl

@[simp] theorem LoopState.start_connectRetry : (LoopState.start : LoopState ρ).connectRetry = none := rfl

variable (c : TryClient) (o : Outcome ρ) (l : LoopState ρ)

theorem attempt_outcomes : (attempt false c o l).2.outcomes = l.outcomes ++ [o] := by
  cases o with
  | connect => cases hf : l.first <;> simp [attempt, LoopState.failed, LoopState.outcomes, hf]
  | client => simp [attempt, LoopState.outcomes]
  | result => cases hr : c.reachable <;> simp [attempt, LoopState.outcomes, hr]
  | timeout => simp [attempt, LoopState.failed, LoopState.outcomes]

theorem attempt_isSome : (attempt false c o l).1.isSome = o.stops := by
  cases o <;> simp [attempt, Outcome.stops]

theorem attempt_connectRetry (hs : o.stops = false) :
    (attempt false c o l).2.connectRetry = (if l.first && !o.mayBeProcessed then some c else l.connectRetry) ∧
      (attempt false c o l).2.first = false := by
  cases o with
  | connect => cases hf : l.first <;> simp [attempt, LoopState.failed, Outcome.mayBeProcessed, hf]
  | client => cases hs
  | result => cases hs
  | timeout => simp [attempt, LoopState.failed, Outcome.mayBeProcessed]

theorem tryLoop_spec : ∀ (offers : List (Offer ρ)) (l : LoopState ρ),
    (tryLoop false offers l).2.outcomes = l.outcomes ++ attempted (liveOutcomes offers) ∧
      (tryLoop false offers l).1.isSome = (liveOutcomes offers).any Outcome.stops
  | [], l => by simp [tryLoop, liveOutcomes, attempted]
  | o :: os, l => by
    rw [liveOutcomes_cons, tryLoop]
    cases hb : o.backsOff with
    | true => simpa using tryLoop_spec os l
    | false =>
      have hout := attempt_outcomes o.client o.outcome l
      have hsome := attempt_isSome o.client o.outcome l
      rcases hatt : attempt false o.client o.outcome l with ⟨_ | r, l'⟩
      · simp only [hatt, isSome_none] at hout hsome
        obtain ⟨ih₁, ih₂⟩ := tryLoop_spec os l'
        simp [attempted, ← hsome, ih₁, ih₂, hout]
      · simp only [hatt, isSome_some] at hout hsome
        simp [attempted, ← hsome, hout]

theorem tryLoop_connectRetry : ∀ (offers : List (Offer ρ)) (l : LoopState ρ),
    (liveOutcomes offers).any Outcome.stops = false → (tryLoop false offers l).2.connectRetry.isSome =
        (l.connectRetry.isSome || (l.first && (liveOutcomes offers).head?.any (!·.mayBeProcessed)))
  | [], l, _ => by simp [tryLoop, liveOutcomes]
  | o :: os, l, h => by
    rw [liveOutcomes_cons] at h ⊢
    rw [tryLoop]
    cases hb : o.backsOff with
    | true =>
      rw [hb] at h
      simpa using tryLoop_connectRetry os l h
    | false =>
      simp only [hb, Bool.false_eq_true, if_false, any_cons, Bool.or_eq_false_iff] at h
      obtain ⟨retry, first⟩ := attempt_connectRetry o.client o.outcome l h.1
      have hsome := attempt_isSome o.client o.outcome l
      rcases hatt : attempt false o.client o.outcome l with ⟨_ | r, l'⟩
      · simp only [hatt] at retry first
        have ih := tryLoop_connectRetry os l' h.2
        rw [retry, first] at ih
        simp only [ih, Bool.false_eq_true, if_false, head?_cons, any_some, Bool.false_and, Bool.or_false]
        cases l.first <;> cases o.outcome.mayBeProcessed <;> simp
      · simp [hatt, h.1] at hsome

def remoteBacksOff (remoteBackOff : Option (Nat × String)) : Bool := remoteBackOff.any (0 < ·.1)

theorem tryRequest_of_not_backsOff {isIdempotent : Bool} {remoteBackOff : Option (Nat × String)}
    {offers : List (Offer ρ)} {retry : Outcome ρ} (h : remoteBacksOff remoteBackOff = false) :
    tryRequest isIdempotent remoteBackOff offers retry = tryRequest.run isIdempotent offers retry := by
  cases remoteBackOff with
  | none => rfl
  | some => simp_all [tryRequest, remoteBacksOff]

def retried (live : List (Outcome ρ)) (retry : Outcome ρ) : List (Outcome ρ) :=
  if !live.any Outcome.stops && live.head?.any (!·.mayBeProcessed) then [retry] else []

theorem finish_outcomes (retry : Outcome ρ) (l : LoopState ρ) :
    (finish retry l).2.outcomes = l.outcomes ++ if l.connectRetry.isSome then [retry] else [] := by
  cases hc : l.connectRetry with
  | none => simp [finish, hc]
  | some =>
    cases retry with
    | connect => simp [finish, hc, LoopState.outcomes]
    | client => simp [finish, hc, LoopState.outcomes]
    | result r => cases r <;> simp [finish, hc, LoopState.outcomes]
    | timeout => simp [finish, hc, LoopState.outcomes]

theorem tryRequest_outcomes (remoteBackOff : Option (Nat × String)) (offers : List (Offer ρ)) (retry : Outcome ρ) :
    (tryRequest false remoteBackOff offers retry).2.outcomes = if remoteBacksOff remoteBackOff then []
      else attempted (liveOutcomes offers) ++ retried (liveOutcomes offers) retry := by
  have hrun : (tryRequest.run false offers retry).2.outcomes =
      attempted (liveOutcomes offers) ++ retried (liveOutcomes offers) retry := by
    obtain ⟨hout, hsome⟩ := tryLoop_spec offers LoopState.start
    have hretry := tryLoop_connectRetry offers LoopState.start
    rcases hloop : tryLoop false offers LoopState.start with ⟨_ | r, l⟩
    · simp only [hloop, isSome_none] at hout hsome hretry
      rw [tryRequest.run, hloop, finish_outcomes, hout, hretry hsome.symm, retried, ← hsome]
      simp
    · simp only [hloop, isSome_some] at hout hsome
      rw [tryRequest.run, hloop, retried, ← hsome]
      simpa using hout
  cases hgate : remoteBacksOff remoteBackOff with
  | false => rw [tryRequest_of_not_backsOff hgate, hrun]; rfl
  | true =>
    cases remoteBackOff with
    | none => cases hgate
    | some => simp_all [tryRequest, remoteBacksOff]

/-! ## Reaching a server at most once -/

def processedCount (outcomes : List (Outcome ρ)) : Nat := outcomes.countP Outcome.mayBeProcessed

variable {pre os live : List (Outcome ρ)}

theorem attempted_append (h : ∀ o ∈ pre, o.mayBeProcessed = false) :
    attempted (pre ++ os) = pre ++ attempted os ∧ (pre ++ os).any Outcome.stops = os.any Outcome.stops := by
  induction pre with
  | nil => simp
  | cons o _ ih =>
    obtain ⟨ho, hpre⟩ := forall_mem_cons.mp h
    obtain ⟨ih₁, ih₂⟩ := ih hpre
    cases o with
    | connect => exact ⟨by simp [attempted, Outcome.stops, ih₁], by simpa [Outcome.stops] using ih₂⟩
    | client => cases ho
    | result => cases ho
    | timeout => cases ho

theorem processedCount_of_connect (h : ∀ o ∈ os, o.mayBeProcessed = false) : processedCount os = 0 :=
  countP_eq_zero.mpr fun o ho => by simp [h o ho]

theorem processedCount_attempted_eq_zero : processedCount (attempted os) = 0 ↔ ∀ o ∈ os, o.mayBeProcessed = false := by
  induction os with
  | nil => simp [attempted, processedCount]
  | cons o =>
    cases o <;> simp_all [Outcome.mayBeProcessed, Outcome.stops, attempted, processedCount]

theorem processedCount_append : processedCount (pre ++ os) = processedCount pre + processedCount os :=
  countP_append

theorem first_processed_unique {pre' post post' o o'}
    (h : pre ++ o :: post = pre' ++ o' :: post') (hpre : ∀ a ∈ pre, a.mayBeProcessed = false)
    (hpre' : ∀ a ∈ pre', a.mayBeProcessed = false) (ho : o.mayBeProcessed) (ho' : o'.mayBeProcessed) :
    pre = pre' ∧ o = o' ∧ post = post' := by
  rcases append_eq_append_iff.mp h with ⟨_ | ⟨a, as⟩, rfl, hrest⟩ | ⟨_ | ⟨a, as⟩, rfl, hrest⟩
  · simp_all
  · obtain ⟨rfl, -⟩ := List.cons.inj hrest
    simp [hpre' o (by simp)] at ho
  · simp_all
  · obtain ⟨rfl, -⟩ := List.cons.inj hrest
    simp [hpre o' (by simp)] at ho'

theorem processedCount_retried_timeout {post retry}
    (hpre : ∀ o ∈ pre, o.mayBeProcessed = false) (hpost : ∀ o ∈ post, o.mayBeProcessed = false) :
    processedCount (retried (pre ++ .timeout :: post) retry) = 0 ↔ (pre ≠ [] → retry.mayBeProcessed = false) := by
  have hstop : (pre ++ .timeout :: post).any Outcome.stops = false := by
    rw [(attempted_append hpre).2, any_cons, ← append_nil post, (attempted_append hpost).2]
    rfl
  cases pre with
  | nil => simp [retried, Outcome.mayBeProcessed, processedCount]
  | cons o pre =>
    have hretried : retried (o :: pre ++ .timeout :: post) retry = [retry] := by
      rw [retried, hstop]
      simp [hpre o (by simp)]
    rw [hretried]
    cases hr : retry.mayBeProcessed <;> simp [processedCount, hr]

theorem processedCount_le_one_iff {retry} : processedCount (attempted live ++ retried live retry) ≤ 1 ↔
      ∀ pre post, live = pre ++ .timeout :: post → (∀ o ∈ pre, o.mayBeProcessed = false) →
        (∀ o ∈ post, o.mayBeProcessed = false) ∧ (pre ≠ [] → retry.mayBeProcessed = false) := by
  cases hfind : live.find? Outcome.mayBeProcessed with
  | none =>
    -- no attempt of the loop gets past connecting, the retry alone may
    have hall : ∀ o ∈ live, o.mayBeProcessed = false := by simpa using find?_eq_none.mp hfind
    have hretry : processedCount (retried live retry) ≤ 1 := by
      unfold retried
      split
      · exact countP_le_length
      · exact Nat.zero_le 1
    rw [processedCount_append, processedCount_attempted_eq_zero.mpr hall]
    refine ⟨fun _ pre post hlive _ => ?_, fun _ => by omega⟩
    cases hall .timeout (by simp [hlive])
  | some o =>
    obtain ⟨ho, pre, post, rfl, hpre⟩ := find?_eq_some_iff_append.mp hfind
    have hpre : ∀ a ∈ pre, a.mayBeProcessed = false := by simpa using hpre
    rw [processedCount_append, (attempted_append hpre).1, processedCount_append, processedCount_of_connect hpre]
    by_cases htime : o = .timeout
    · subst htime
      have count : processedCount (attempted (.timeout :: post)) = processedCount (attempted post) + 1 := by
        exact countP_cons_of_pos rfl
      rw [count]
      constructor
      · intro hle pre' post' hlive hpre'
        obtain ⟨rfl, -, rfl⟩ := first_processed_unique hlive hpre hpre' rfl rfl
        have hpost := processedCount_attempted_eq_zero.mp (show processedCount (attempted post) = 0 by omega)
        exact ⟨hpost, (processedCount_retried_timeout hpre hpost).mp (by omega)⟩
      · intro h
        obtain ⟨hpost, hretry⟩ := h pre post rfl hpre
        have hzero := processedCount_attempted_eq_zero.mpr hpost
        have hretried := (processedCount_retried_timeout hpre hpost).mpr hretry
        omega
    · -- the loop returns here
      have stops : o.stops := by cases o <;> simp_all [Outcome.mayBeProcessed, Outcome.stops]
      have hretried : retried (pre ++ o :: post) retry = [] := by simp [retried, stops]
      have hone : processedCount (attempted (o :: post)) = 1 := by simp [attempted, stops, processedCount, ho]
      rw [hretried, hone]
      refine ⟨fun _ pre' post' hlive hpre' => ?_, fun _ => Nat.le_refl 1⟩
      exact absurd (first_processed_unique hlive hpre hpre' ho rfl).2.1 htime

/-- **A request that is not idempotent reaches a server at most once exactly if no attempt gets past connecting after
the first one that did has timed out.** -/
theorem tryRequest_atMostOnce_iff (remoteBackOff : Option (Nat × String)) (offers : List (Offer ρ))
    (retry : Outcome ρ) : processedCount (tryRequest false remoteBackOff offers retry).2.outcomes ≤ 1 ↔
      (remoteBacksOff remoteBackOff = false →
        ∀ pre post, liveOutcomes offers = pre ++ .timeout :: post → (∀ o ∈ pre, o.mayBeProcessed = false) →
          (∀ o ∈ post, o.mayBeProcessed = false) ∧ (pre ≠ [] → retry.mayBeProcessed = false)) := by
  rw [tryRequest_outcomes]
  cases remoteBacksOff remoteBackOff with
  | true => simp [processedCount]
  | false => simpa using processedCount_le_one_iff

/-! ## The loop with its generator -/

structure ReachabilityCache (κ : Type) where
  hostIsReachable : κ → String → Bool
  hostTimeToNextTry : κ → String → Int → Option (Nat × String)
  markHostReachable : κ → String → ConnectionState → κ

structure Shared (κ : Type) where
  cache : κ
  state : MultiClientState

/-- What others did before, the time, and how an attempt would end. -/
structure Round (κ ρ : Type) where
  interfere : Shared κ → Shared κ
  now : Int
  outcome : Outcome ρ

variable {κ : Type} (ops : ReachabilityCache κ) (isIdempotent : Bool)

def Round.offer (e : Round κ ρ) (w : Shared κ) (c : TryClient) : Offer ρ :=
  ⟨c, (ops.hostTimeToNextTry w.cache c.hostname e.now).map (·.1), e.outcome⟩

/-- `none` if the given rounds end before the loop does. -/
def drive : List (Round κ ρ) → TryClients → Shared κ → LoopState ρ →
    Option (Option (Except RequestError ρ) × LoopState ρ)
  | [], _, _, _ => none
  | e :: es, g, w, l =>
    let w := e.interfere w
    match g.next w.state (ops.hostIsReachable w.cache) with
    | (none, _, _) => some (none, l)
    | (some c, g, state) =>
      if (e.offer ops w c).backsOff then drive es g { w with state } l
      else match attempt isIdempotent c e.outcome l with
        | (some r, l) => some (some r, l)
        | (none, l') =>
          let marks := l'.marks.drop l.marks.length
          drive es g ⟨marks.foldl (fun cache m => ops.markHostReachable cache m.1 m.2) w.cache, state⟩ l'

def request (remoteBackOff : Option (Nat × String)) (rounds : List (Round κ ρ)) (w : Shared κ) (retry : Outcome ρ) :
    Option (Except RequestError ρ × LoopState ρ) :=
  if remoteBacksOff remoteBackOff then some (tryRequest isIdempotent remoteBackOff [] retry)
  else match drive ops isIdempotent rounds .start w .start with
    | none => none
    | some (some r, l) => some (r, l)
    | some (none, l) => some (finish retry l)

variable {ops isIdempotent}

theorem drive_eq_tryLoop : ∀ {rounds} {g} {w} {l}
    {out : Option (Except RequestError ρ) × LoopState ρ}, drive ops isIdempotent rounds g w l = some out →
    ∃ offers, (∀ o ∈ offers, ∃ e ∈ rounds, o.outcome = e.outcome) ∧ tryLoop isIdempotent offers l = out
  | [], _, _, _, _, h => by cases h
  | e :: es, g, w, l, out, h => by
    simp only [drive] at h
    split at h
    · next =>
      cases h
      exact ⟨[], by simp, rfl⟩
    · next c g' state _ =>
      -- the offer of this round comes before those of the later rounds
      have hcons : ∀ offers, (∀ o ∈ offers, ∃ e' ∈ es, o.outcome = e'.outcome) →
          ∀ o ∈ e.offer ops (e.interfere w) c :: offers, ∃ e' ∈ e :: es, o.outcome = e'.outcome := by
        intro offers hof o ho
        rcases mem_cons.mp ho with rfl | ho
        · exact ⟨e, by simp, rfl⟩
        · obtain ⟨e', he', heq⟩ := hof o ho
          exact ⟨e', by simp [he'], heq⟩
      split at h
      · next hb =>
        obtain ⟨offers, hof, hloop⟩ := drive_eq_tryLoop h
        exact ⟨_, hcons offers hof, by rw [tryLoop, if_pos hb, hloop]⟩
      · next hb =>
        split at h
        · next r l' hatt =>
          cases h
          refine ⟨_, hcons [] (by simp), ?_⟩
          rw [tryLoop, if_neg hb]
          simp only [Round.offer, hatt]
        · next l' hatt =>
          obtain ⟨offers, hof, hloop⟩ := drive_eq_tryLoop h
          refine ⟨_, hcons offers hof, ?_⟩
          rw [tryLoop, if_neg hb]
          simpa only [Round.offer, hatt] using hloop

variable {remoteBackOff : Option (Nat × String)} {rounds : List (Round κ ρ)} {w : Shared κ} {retry : Outcome ρ}
  {out : Except RequestError ρ × LoopState ρ}

theorem request_eq_tryRequest (h : request ops isIdempotent remoteBackOff rounds w retry = some out) :
    ∃ offers, (∀ o ∈ offers, ∃ e ∈ rounds, o.outcome = e.outcome) ∧
      tryRequest isIdempotent remoteBackOff offers retry = out := by
  simp only [request] at h
  split at h
  · exact ⟨[], by simp, some.inj h⟩
  · next hgate =>
    split at h
    · cases h
    · next r l drive =>
      obtain ⟨offers, hof, hloop⟩ := drive_eq_tryLoop drive
      refine ⟨offers, hof, ?_⟩
      rw [tryRequest_of_not_backsOff (by simpa using hgate), tryRequest.run, hloop]
      exact some.inj h
    · next l drive =>
      obtain ⟨offers, hof, hloop⟩ := drive_eq_tryLoop drive
      refine ⟨offers, hof, ?_⟩
      rw [tryRequest_of_not_backsOff (by simpa using hgate), tryRequest.run, hloop]
      exact some.inj h

/-- **A request that must not be repeated is processed at most once as long as no attempt times out**, whatever other
requests do to the shared state in the meantime. -/
theorem request_atMostOnce
    (h : request ops false remoteBackOff rounds w retry = some out) (htime : ∀ e ∈ rounds, e.outcome ≠ .timeout) :
    processedCount out.2.outcomes ≤ 1 := by
  obtain ⟨offers, hof, rfl⟩ := request_eq_tryRequest h
  have hlive : ∀ o ∈ liveOutcomes offers, o ≠ .timeout := by
    intro o ho
    obtain ⟨offer, hmem, rfl⟩ := mem_map.mp ho
    obtain ⟨e, he, heq⟩ := hof offer (mem_of_mem_filter hmem)
    exact heq ▸ htime e he
  rw [tryRequest_outcomes]
  split
  · exact Nat.zero_le 1
  · exact processedCount_le_one_iff.mpr fun pre post parts => absurd rfl (hlive .timeout (by simp [parts]))

def plainCache : ReachabilityCache (List String) where
  hostIsReachable unreachable host := !unreachable.contains host
  hostTimeToNextTry _ _ _ := none
  markHostReachable unreachable host
    | .reachable => unreachable.filter (· ≠ host)
    | .unreachable _ => host :: unreachable

theorem request_atMostOnce_second :
    let returned := request plainCache false none [⟨id, 0, .connect "refused"⟩, ⟨id, 60, .result (.ok ())⟩]
      ⟨[], ⟨0, ["a", "b"], by decide⟩⟩ .timeout
    returned.isSome ∧ ∀ out ∈ returned, processedCount out.2.outcomes ≤ 1 :=
  ⟨rfl, fun _ h => request_atMostOnce h (by simp)⟩

/-- A `POST`: the first endpoint times out and the second answers, so that both may have processed it. -/
theorem request_timeout_delivers_twice : ¬ ∀ out, request plainCache false none
        [⟨id, 0, .timeout⟩, ⟨id, 60, .result (.ok ())⟩] ⟨[], ⟨0, ["a", "b"], by decide⟩⟩ .timeout = some out →
      processedCount out.2.outcomes ≤ 1 := by
  intro h
  exact absurd (h _ rfl) (by decide)

end Nexus.Connection
