import Mathlib.Data.UInt
import Nexus.ApiCache
import Nexus.Lib.Run

/-!
# The locations of a remote

`get_location_info_for_remote` of `server/src/location_cache.rs` for one remote, by any number of calls at a time. A
location is stored with the time of the call, also the one that a call has read from the cache because its fetch has
failed. So the age of an entry is that of its location if each location is stored in the second it was sampled
(`cached_location_young`), and an outage makes an old location new (`outage_renews_location`).
-/

namespace Nexus.LocationCache

variable {α : Type}

/-- What a fetch has found, with the time of its answer. -/
structure Located (α : Type) where
  info : α
  sampledAt : Int
deriving DecidableEq

inductive Call (α : Type)
  | fetching
  | held (info : Option (Located α))
  | stamped (info : Option (Located α)) (now : Int)
  /-- Answered from the cache at `now`, without a fetch. -/
  | hit (maxAge : UInt64) (now : Int) (location : Located α)
  | returned (info : Option (Located α))
  | failed
deriving DecidableEq

structure State (α : Type) where
  now : Int
  entry : Option (CacheEntry (Option (Located α)))
  calls : List (Call α)

inductive Act (α : Type)
  | tick (seconds : Nat)
  | start (maxAge : UInt64)
  | fetched (i : Nat) (info : Option α)
  | fetchFailed (i : Nat)
  | stamp (i : Nat)
  | update (i : Nat)
  /-- The lock of the cache cannot be had. -/
  | fail (i : Nat)

namespace State

variable (s : State α)

/-- A stored null cannot be read. The maximum age is clamped to an `i64`. -/
def getCachedLocationInfo (maxAge : UInt64) : Option (Located α) :=
  match (CacheLook.mk (.ok s.entry) s.now).getWithMaxAge (min maxAge.toNat (2 ^ 63 - 1) : Nat) with
  | .ok (some info) => info
  | _ => none

def setCall (i : Nat) (call : Call α) : State α := { s with calls := s.calls.set i call }

def updateCachedLocationInfo (i : Nat) (info : Option (Located α)) (now : Int) : State α :=
  match (CacheLook.mk (.ok s.entry) s.now).setIfNewer now with
  | .error _ => s.setCall i .failed
  | .ok none => { s.setCall i (.returned info) with entry := some ⟨now, info⟩ }
  | .ok (some existing) => s.setCall i (.returned (existing.or info))

/-- The steps of `get_location_info_for_remote`. -/
def step : Act α → State α
  | .tick seconds => { s with now := s.now + seconds }
  | .start maxAge => match s.getCachedLocationInfo maxAge with
    | some cached => { s with calls := s.calls ++ [.hit maxAge s.now cached] }
    | none => { s with calls := s.calls ++ [.fetching] }
  | .fetched i info => match s.calls[i]? with
    | some .fetching => s.setCall i (.held (info.map (⟨·, s.now⟩)))
    | _ => s
  | .fetchFailed i => match s.calls[i]? with
    | some .fetching => s.setCall i (.held (s.getCachedLocationInfo (2 ^ 64 - 1)))
    | _ => s
  | .stamp i => match s.calls[i]? with
    | some (.held info) => s.setCall i (.stamped info s.now)
    | _ => s
  | .update i => match s.calls[i]? with
    | some (.stamped info now) => s.updateCachedLocationInfo i info now
    | _ => s
  | .fail i => s.setCall i .failed

/-- A location gets the time at which it was sampled. -/
def Prompt : Act α → Prop
  | .stamp i => ∀ v, s.calls[i]? = some (.held (some v)) → v.sampledAt = s.now
  | _ => True

def PromptStep (a : Act α) (t : State α) : Prop := s.Prompt a ∧ s.step a = t

def start (now : Int) : State α := ⟨now, none, []⟩

end State

/-! ## The invariant -/

def Call.Ok : Call α → Prop
  | .stamped info now => ∀ v, info = some v → v.sampledAt = now
  | .hit maxAge now v => v.sampledAt ≤ now ∧ now - v.sampledAt < maxAge.toNat
  | _ => True

structure Dated (s : State α) : Prop where
  entry : ∀ e v, s.entry = some e → e.value = some v → v.sampledAt = e.timestamp
  calls : ∀ c ∈ s.calls, c.Ok

namespace Dated

variable {s : State α} {c : Call α}

theorem setCall (h : Dated s) (i : Nat) (hc : c.Ok) : Dated (s.setCall i c) := by
  refine ⟨h.entry, fun c' hc' => ?_⟩
  rcases List.mem_or_eq_of_mem_set hc' with hc' | rfl
  · exact h.calls c' hc'
  · exact hc

theorem concat (h : Dated s) (hc : c.Ok) : Dated { s with calls := s.calls ++ [c] } :=
  ⟨h.entry, List.forall_mem_append.mpr ⟨h.calls, List.forall_mem_singleton.mpr hc⟩⟩

theorem getCachedLocationInfo (h : Dated s) {maxAge v}
    (hget : s.getCachedLocationInfo maxAge = some v) : v.sampledAt ≤ s.now ∧ s.now - v.sampledAt < maxAge.toNat := by
  unfold State.getCachedLocationInfo CacheLook.getWithMaxAge at hget
  cases he : s.entry with
  | none => simp [he, Except.map] at hget
  | some e =>
    cases hexp : e.isExpired s.now (min maxAge.toNat (2 ^ 63 - 1) : Nat) with
    | true => simp only [he, Except.map, hexp, if_true, reduceCtorEq] at hget
    | false =>
      have hvalue : e.value = some v := by simpa only [he, Except.map, hexp, Bool.false_eq_true, if_false] using hget
      have hage := CacheEntry.isExpired_eq_false hexp
      rw [h.entry e v he hvalue]
      omega

theorem updateCachedLocationInfo (h : Dated s) (i : Nat) {info now}
    (hinfo : ∀ v, info = some v → v.sampledAt = now) : Dated (s.updateCachedLocationInfo i info now) := by
  unfold State.updateCachedLocationInfo
  split
  · exact h.setCall i trivial
  · refine ⟨fun e v he hv => ?_, (h.setCall i (c := .returned info) trivial).calls⟩
    cases he
    exact hinfo v hv
  · exact h.setCall i trivial

theorem step (h : Dated s) {a} (prompt : s.Prompt a) : Dated (s.step a) := by
  cases a with
  | tick => exact ⟨h.entry, h.calls⟩
  | start =>
    simp only [State.step]
    split
    · next cached hget => exact h.concat (h.getCachedLocationInfo hget)
    · exact h.concat trivial
  | fetched i => simp only [State.step]; split <;> [exact h.setCall i trivial; exact h]
  | fetchFailed i => simp only [State.step]; split <;> [exact h.setCall i trivial; exact h]
  | stamp i =>
    simp only [State.step]
    split
    · next info hi =>
      refine h.setCall i fun v hv => prompt v ?_
      rw [hi, hv]
    · exact h
  | update i =>
    simp only [State.step]
    split
    · next info now hi => exact h.updateCachedLocationInfo i (h.calls _ (List.mem_of_getElem? hi))
    · exact h
  | fail i => exact h.setCall i trivial

end Dated

/-- **If each location gets the time at which it was sampled, one that is answered from the cache for a maximum age was
sampled less than that many seconds ago.** -/
theorem cached_location_young {start : Int} {acts : List (Act α)} {s : State α}
    (hrun : Lib.Run State.PromptStep (.start start) acts s) {maxAge : UInt64} {now : Int}
    {v : Located α} (hhit : .hit maxAge now v ∈ s.calls) : v.sampledAt ≤ now ∧ now - v.sampledAt < maxAge.toNat := by
  have hdated : Dated s := by
    refine hrun.invariant ?_ ⟨fun _ _ he => absurd he (Option.not_mem_none _), List.forall_mem_nil _⟩
    rintro s a _ h ⟨prompt, rfl⟩
    exact h.step prompt
  exact hdated.calls _ hhit

namespace Sample

def asked : List (Act Nat) := [.start 3600, .fetched 0 (some 48), .stamp 0, .update 0]

def askedTwice : List (Act Nat) := asked ++ [.tick 50, .start 3600]

/-- The remote is away for more than a day. -/
def outage : List (Act Nat) := asked ++ [.tick 100000, .start 3600, .fetchFailed 1, .stamp 1, .update 1, .start 3600]

end Sample

theorem cached_location_young_sample : let s := Sample.askedTwice.foldl State.step (.start 10)
    .hit 3600 60 ⟨48, 10⟩ ∈ s.calls ∧ (10 : Int) ≤ 60 ∧ 60 - 10 < ((3600 : UInt64).toNat : Int) := by
  intro s
  have hhit : .hit 3600 60 ⟨48, 10⟩ ∈ s.calls := List.mem_cons_of_mem _ List.mem_cons_self
  have hrun : Lib.Run State.PromptStep (.start 10) Sample.askedTwice s := by
    refine .cons ⟨trivial, rfl⟩ (.cons ⟨trivial, rfl⟩ (.cons ⟨fun v hv => ?_, rfl⟩ (.cons ⟨trivial, rfl⟩
      (.cons ⟨trivial, rfl⟩ (.cons ⟨trivial, rfl⟩ (.nil _))))))
    cases hv
    rfl
  exact ⟨hhit, cached_location_young hrun hhit⟩

/-- The location of second 10 is answered from the cache as one of the last hour, more than a day later. -/
theorem outage_renews_location : (Sample.outage.foldl State.step (.start 10)).calls =
    [.returned (some ⟨48, 10⟩), .returned (some ⟨48, 10⟩), .hit 3600 100010 ⟨48, 10⟩] := by
  decide +kernel

end Nexus.LocationCache
