import Mathlib.Algebra.Order.Group.Int
import Nexus.Lib.OrderedMap
import Nexus.Lib.Run

/-!
# Collecting metrics

The task of `server/src/metric_collection/remote_collection_task.rs`, and the part of `rrd_task.rs` that stores the
metrics. The time of the most recent datapoint is computed anew from every response, beginning with 0, so a response
without datapoints sends it back (`empty_response_resets`, `cursor_monotone_iff`).
-/

namespace Nexus.Metrics

open Lib List

variable {T : Type*}

/-! ## Storing -/

def futureDatapointTolerance : Int := 60

structure Stored (T : Type*) where
  mostRecent : Int
  datapoints : List T

def storeDatapoint (timestampOf : T → Int) (futureCutoff : Int) (acc : Stored T) (dataPoint : T) : Stored T :=
  if futureCutoff < timestampOf dataPoint then acc
  else ⟨max acc.mostRecent (timestampOf dataPoint), acc.datapoints ++ [dataPoint]⟩

def storeDatapoints (timestampOf : T → Int) (data : List T) (requestAt : Int) : Stored T :=
  data.foldl (storeDatapoint timestampOf (requestAt + futureDatapointTolerance)) ⟨0, []⟩

/-! ## Collecting -/

structure RemoteStatus where
  mostRecentDatapoint : Int
  lastCollection : Option Int
  error : Option String

def RemoteStatus.default : RemoteStatus := ⟨0, none, none⟩

inductive Outcome (T : Type*)
  | collected (data : List T)
  | failed (error : String)
  | lost

structure Reply (T : Type*) where
  requestAt : Int
  outcome : Outcome T

def fetchSingleRemote (timestampOf : T → Int) (status : RemoteStatus) (reply : Reply T) : RemoteStatus × List T :=
  match reply.outcome with
  | .collected data =>
    let result := storeDatapoints timestampOf data reply.requestAt
    (⟨result.mostRecent, some reply.requestAt, none⟩, result.datapoints)
  | .failed error => ({ status with error := some error }, [])
  | .lost => (status, [])

structure Collector (T : Type*) where
  remoteStatus : OrderedMap String RemoteStatus
  rrd : List (String × T)

namespace Collector

variable (c : Collector T)

def status (remote : String) : RemoteStatus := (c.remoteStatus.get? remote).getD .default

def cursor (remote : String) : Int := (c.status remote).mostRecentDatapoint

def minCollectionInterval : Int := 10

def defaultCollectionInterval : Int := 600

def due (remotes toFetch : List String) (now : Int) : List String :=
  toFetch.filter fun remote =>
    ¬now - (c.status remote).lastCollection.getD 0 < minCollectionInterval ∧ remote ∈ remotes

/-- The order in which the tasks end does not matter. -/
def fetchRemotes (timestampOf : T → Int) (c : Collector T) (remotes toFetch : List String) (now : Int)
    (replies : String → Reply T) : Collector T :=
  let fetched := fun remote => fetchSingleRemote timestampOf (c.status remote) (replies remote)
  ⟨(c.due remotes toFetch now).foldl (fun m remote => m.insert remote (fetched remote).1) c.remoteStatus,
    c.rrd ++ (c.due remotes toFetch now).flatMap fun remote => (fetched remote).2.map fun p => (remote, p)⟩

def overdue (remotes : List String) (now leftUntilScheduled : Int) : List String :=
  remotes.filter fun remote =>
    defaultCollectionInterval <
      now - ((c.remoteStatus.get? remote).bind RemoteStatus.lastCollection).getD 0 + leftUntilScheduled

def cleanupRemovedRemotes (remotes : List String) : Collector T :=
  { c with remoteStatus := c.remoteStatus.retain fun remote _ => remote ∈ remotes }

end Collector

inductive Event (T : Type*)
  | tick (remotes : List String) (now : Int) (replies : String → Reply T)
  | trigger (remotes : List String) (remote : Option String) (now : Int) (replies : String → Reply T)
  | startup (remotes : List String) (now leftUntilScheduled : Int) (replies : String → Reply T)

namespace Collector

def handle (timestampOf : T → Int) (c : Collector T) : Event T → Collector T
  | .tick remotes now replies =>
    fetchRemotes timestampOf (c.cleanupRemovedRemotes remotes) remotes remotes now replies
  | .trigger remotes (some remote) now replies => fetchRemotes timestampOf c remotes [remote] now replies
  | .trigger remotes none now replies => fetchRemotes timestampOf c remotes remotes now replies
  | .startup remotes now leftUntilScheduled replies =>
    fetchRemotes timestampOf c remotes (c.overdue remotes now leftUntilScheduled) now replies

end Collector

/-! ## One collection -/

variable {timestampOf : T → Int} {requestAt cutoff x : Int} {data : List T} {p : T} {status : RemoteStatus}
  {reply : Reply T}

theorem le_foldl_storeDatapoint : ∀ (data : List T) (acc : Stored T),
    x ≤ (data.foldl (storeDatapoint timestampOf cutoff) acc).mostRecent ↔
      x ≤ acc.mostRecent ∨ ∃ p ∈ data, timestampOf p ≤ cutoff ∧ x ≤ timestampOf p
  | [], acc => by simp
  | p :: data, acc => by
    rw [foldl_cons, le_foldl_storeDatapoint data, exists_mem_cons_iff, ← or_assoc]
    refine or_congr_left ?_
    unfold storeDatapoint
    split
    · next future => exact ⟨.inl, fun h => h.resolve_right fun hp => absurd hp.1 (not_le.mpr future)⟩
    · next future => rw [le_max_iff, and_iff_right (not_lt.mp future)]

theorem mem_foldl_storeDatapoint {q} : ∀ (data : List T) (acc : Stored T),
    q ∈ (data.foldl (storeDatapoint timestampOf cutoff) acc).datapoints ↔
      q ∈ acc.datapoints ∨ q ∈ data ∧ timestampOf q ≤ cutoff
  | [], acc => by simp
  | p :: data, acc => by
    rw [foldl_cons, mem_foldl_storeDatapoint data]
    unfold storeDatapoint
    split
    · next future =>
      rw [mem_cons]
      refine or_congr_right (and_congr_left fun hq => ⟨.inr, fun h => h.resolve_left ?_⟩)
      rintro rfl
      exact absurd hq (not_le.mpr future)
    · next future =>
      rw [mem_append, mem_singleton, mem_cons, or_assoc]
      refine or_congr_right ?_
      constructor
      · rintro (rfl | ⟨hq, hle⟩)
        · exact ⟨.inl rfl, not_lt.mp future⟩
        · exact ⟨.inr hq, hle⟩
      · rintro ⟨rfl | hq, hle⟩
        · exact .inl rfl
        · exact .inr ⟨hq, hle⟩

theorem le_storeDatapoints : x ≤ (storeDatapoints timestampOf data requestAt).mostRecent ↔
    x ≤ 0 ∨ ∃ p ∈ data, timestampOf p ≤ requestAt + futureDatapointTolerance ∧ x ≤ timestampOf p :=
  le_foldl_storeDatapoint data ⟨0, []⟩

theorem timestamp_le_storeDatapoints (hp : p ∈ (storeDatapoints timestampOf data requestAt).datapoints) :
    timestampOf p ≤ (storeDatapoints timestampOf data requestAt).mostRecent := by
  obtain hp | hp := (mem_foldl_storeDatapoint data ⟨0, []⟩).mp hp
  · cases hp
  · exact le_storeDatapoints.mpr (.inr ⟨p, hp.1, hp.2, le_rfl⟩)

def Reply.Advances (timestampOf : T → Int) (reply : Reply T) (start : Int) : Prop :=
  ∀ data, reply.outcome = .collected data → start ≤ 0 ∨
    ∃ p ∈ data, timestampOf p ≤ reply.requestAt + futureDatapointTolerance ∧ start ≤ timestampOf p

theorem le_fetchSingleRemote :
    status.mostRecentDatapoint ≤ (fetchSingleRemote timestampOf status reply).1.mostRecentDatapoint ↔
      reply.Advances timestampOf status.mostRecentDatapoint := by
  obtain ⟨requestAt, outcome⟩ := reply
  cases outcome with
  | collected data =>
    refine le_storeDatapoints.trans ⟨fun h data' hdata => ?_, fun h => h data rfl⟩
    cases hdata
    exact h
  | failed => exact iff_of_true le_rfl nofun
  | lost => exact iff_of_true le_rfl nofun

theorem timestamp_le_fetchSingleRemote (hp : p ∈ (fetchSingleRemote timestampOf status reply).2) :
    timestampOf p ≤ (fetchSingleRemote timestampOf status reply).1.mostRecentDatapoint := by
  obtain ⟨requestAt, outcome⟩ := reply
  cases outcome with
  | collected => exact timestamp_le_storeDatapoints hp
  | failed => cases hp
  | lost => cases hp

/-! ## The start time of a remote -/

namespace Collector

variable {c : Collector T} {remotes toFetch : List String} {now : Int} {replies : String → Reply T} {remote : String}

theorem status_fetchRemotes : (fetchRemotes timestampOf c remotes toFetch now replies).status remote =
    if remote ∈ c.due remotes toFetch now then (fetchSingleRemote timestampOf (c.status remote) (replies remote)).1
    else c.status remote := by
  unfold fetchRemotes status
  simp only
  rw [OrderedMap.get?_foldl_insert_at fun remote =>
    (fetchSingleRemote timestampOf ((c.remoteStatus.get? remote).getD .default) (replies remote)).1]
  split <;> rfl

theorem status_cleanup (remotes) (remote) : (c.cleanupRemovedRemotes remotes).status remote =
    if remote ∈ remotes then c.status remote else .default := by
  unfold status cleanupRemovedRemotes
  simp only
  rw [OrderedMap.get?_retain_key]
  by_cases h : remote ∈ remotes <;> simp [h]

theorem cursor_le_fetchRemotes :
    c.cursor remote ≤ (fetchRemotes timestampOf c remotes toFetch now replies).cursor remote ↔
    (remote ∈ c.due remotes toFetch now → (replies remote).Advances timestampOf (c.cursor remote)) := by
  unfold cursor
  rw [status_fetchRemotes]
  split
  · next hdue => exact le_fetchSingleRemote.trans ⟨fun h _ => h, fun h => h hdue⟩
  · next hdue => exact iff_of_true le_rfl fun h => absurd h hdue

/-- No stored point is newer than the cursor. -/
def Covered (timestampOf : T → Int) (c : Collector T) (remote : String) : Prop :=
  ∀ p, (remote, p) ∈ c.rrd → timestampOf p ≤ c.cursor remote

theorem covered_fetchRemotes (hold : ∀ p, (remote, p) ∈ c.rrd →
      timestampOf p ≤ (fetchRemotes timestampOf c remotes toFetch now replies).cursor remote) :
    (fetchRemotes timestampOf c remotes toFetch now replies).Covered timestampOf remote := by
  intro p hp
  obtain hp | hp := mem_append.mp hp
  · exact hold p hp
  · obtain ⟨r, hdue, hp⟩ := mem_flatMap.mp hp
    obtain ⟨q, hq, he⟩ := mem_map.mp hp
    cases he
    rw [cursor, status_fetchRemotes, if_pos hdue]
    exact timestamp_le_fetchSingleRemote hq

end Collector

/-! ## Events -/

def Event.Drops (remote : String) : Event T → Prop
  | .tick remotes _ _ => remote ∉ remotes
  | _ => False

def Event.replies : Event T → String → Reply T
  | .tick _ _ replies => replies
  | .trigger _ _ _ replies => replies
  | .startup _ _ _ replies => replies

namespace Collector

def asked (c : Collector T) : Event T → List String
  | .tick remotes now _ => c.due remotes remotes now
  | .trigger remotes (some remote) now _ => c.due remotes [remote] now
  | .trigger remotes none now _ => c.due remotes remotes now
  | .startup remotes now leftUntilScheduled _ => c.due remotes (c.overdue remotes now leftUntilScheduled) now

/-- The cursor is not dropped, and no answer sets it back. -/
structure KeepsCursor (timestampOf : T → Int) (c : Collector T) (remote : String) (e : Event T) : Prop where
  dropped : e.Drops remote → c.cursor remote ≤ 0
  asked : remote ∈ c.asked e → (e.replies remote).Advances timestampOf (c.cursor remote)

variable {c : Collector T} {remote : String}

theorem mem_due {remotes toFetch now} : remote ∈ c.due remotes toFetch now ↔
    remote ∈ toFetch ∧ ¬now - (c.status remote).lastCollection.getD 0 < minCollectionInterval ∧ remote ∈ remotes := by
  rw [due, mem_filter, decide_eq_true_iff]

/-- **One event.** -/
theorem cursor_le_handle_iff (e) :
    c.cursor remote ≤ (c.handle timestampOf e).cursor remote ↔ c.KeepsCursor timestampOf remote e := by
  cases e with
  | tick remotes now =>
    rw [handle]
    have status := c.status_cleanup remotes remote
    by_cases configured : remote ∈ remotes
    · rw [if_pos configured] at status
      have hcursor : (c.cleanupRemovedRemotes remotes).cursor remote = c.cursor remote := congrArg _ status
      have hdue : remote ∈ (c.cleanupRemovedRemotes remotes).due remotes remotes now ↔
          remote ∈ c.due remotes remotes now := by
        rw [mem_due, mem_due, status]
      rw [← hcursor, cursor_le_fetchRemotes, hcursor, hdue]
      exact ⟨fun h => ⟨fun hdrops => absurd configured hdrops, h⟩, fun h => h.asked⟩
    · rw [if_neg configured] at status
      have hdue : remote ∉ (c.cleanupRemovedRemotes remotes).due remotes remotes now :=
        fun h => configured (mem_due.mp h).1
      rw [cursor.eq_1 (fetchRemotes _ _ _ _ _ _), status_fetchRemotes, if_neg hdue, status]
      exact ⟨fun h => ⟨fun _ => h, fun h => absurd (mem_due.mp h).1 configured⟩, fun h => h.dropped configured⟩
  | trigger _ target =>
    cases target with
    | some => exact cursor_le_fetchRemotes.trans ⟨fun h => ⟨nofun, h⟩, fun h => h.asked⟩
    | none => exact cursor_le_fetchRemotes.trans ⟨fun h => ⟨nofun, h⟩, fun h => h.asked⟩
  | startup => exact cursor_le_fetchRemotes.trans ⟨fun h => ⟨nofun, h⟩, fun h => h.asked⟩

theorem covered_handle (h : c.Covered timestampOf remote) {e}
    (hle : c.cursor remote ≤ (c.handle timestampOf e).cursor remote) :
    (c.handle timestampOf e).Covered timestampOf remote := by
  have hold : ∀ p, (remote, p) ∈ c.rrd → timestampOf p ≤ (c.handle timestampOf e).cursor remote :=
    fun p hp => (h p hp).trans hle
  cases e with
  | tick => exact covered_fetchRemotes hold
  | trigger _ target =>
    cases target with
    | some => exact covered_fetchRemotes hold
    | none => exact covered_fetchRemotes hold
  | startup => exact covered_fetchRemotes hold

def run (timestampOf : T → Int) (c : Collector T) (events : List (Event T)) : Collector T :=
  events.foldl (handle timestampOf) c

/-- **The start time of a remote does not go back** exactly if no event sends it back. -/
theorem cursor_monotone_iff (timestampOf : T → Int) (c : Collector T) (remote : String) (events : List (Event T)) :
    ((∀ before after, before <+: after → after <+: events →
        (c.run timestampOf before).cursor remote ≤ (c.run timestampOf after).cursor remote) ↔
      ∀ before e, before ++ [e] <+: events → (c.run timestampOf before).KeepsCursor timestampOf remote e) ∧
    (c.Covered timestampOf remote →
      (∀ before e, before ++ [e] <+: events → (c.run timestampOf before).KeepsCursor timestampOf remote e) →
      ∀ before, before <+: events → (c.run timestampOf before).Covered timestampOf remote) := by
  refine ⟨?_, fun hcov hkeeps before => ?_⟩
  · simp only [← cursor_le_handle_iff]
    exact monotone_iff (fun c => cursor c remote) events
  · induction before using List.reverseRecOn with
    | nil => exact fun _ => hcov
    | append_singleton before e ih =>
      intro hpref
      have hnext : c.run timestampOf (before ++ [e]) = (c.run timestampOf before).handle timestampOf e := by
        rw [run, foldl_append]
        rfl
      rw [hnext]
      exact covered_handle (ih ((prefix_append before [e]).trans hpref))
        ((cursor_le_handle_iff e).mpr (hkeeps before e hpref))

/-- A remote sends datapoints, and has none the next time. -/
theorem empty_response_resets :
    let reply := fun (requestAt : Int) (data : List Int) (_ : String) => (⟨requestAt, .collected data⟩ : Reply Int)
    let c := run id (⟨.empty, []⟩ : Collector Int) [.tick ["pve"] 1000 (reply 1000 [940, 950])]
    c.cursor "pve" = 950 ∧ (c.handle id (.tick ["pve"] 1600 (reply 1600 []))).cursor "pve" = 0 := by
  decide

end Collector

end Nexus.Metrics
