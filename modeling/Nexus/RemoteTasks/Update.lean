import Nexus.RemoteTasks.Archive

/-!
# Updating and reading the task cache

`update` puts finished tasks into the journal and running ones into the active file, and moves the cutoffs of the
fetched nodes, here without its loops: `UpdateArgs.write_written`, `UpdateArgs.write_active`, `UpdateArgs.write_cutoff`.
-/

namespace Nexus.RemoteTasks

open Lib List

/-! ## Active tasks -/

def insertTask (m : List TaskCacheItem) (t : TaskCacheItem) : List TaskCacheItem := t :: m.filter (·.upid ≠ t.upid)

def removeTask (m : List TaskCacheItem) (u : RemoteUpid) : List TaskCacheItem := m.filter (·.upid ≠ u)

structure UpdateArgs where
  newTasks : List TaskCacheItem
  nodeSuccessful : Node → Bool
  dropTracked : Finset RemoteUpid

def UpdateArgs.running (u : UpdateArgs) : List TaskCacheItem := u.newTasks.filter fun t => !t.finished

def UpdateArgs.finished (u : UpdateArgs) : List TaskCacheItem := u.newTasks.filter (·.finished)

def UpdateArgs.activeTasks (u : UpdateArgs) (active : List TaskCacheItem) : List TaskCacheItem :=
  u.running.foldl insertTask ((active.filter (·.upid ∉ u.dropTracked)).foldl insertTask [])

def LastOf (t : TaskCacheItem) : List TaskCacheItem → Prop
  | [] => False
  | s :: ts => LastOf t ts ∨ (s = t ∧ ∀ r ∈ ts, r.upid ≠ t.upid)

variable {t : TaskCacheItem}

theorem LastOf.mem : ∀ {ts}, LastOf t ts → t ∈ ts
  | _ :: _, .inl h => mem_cons_of_mem _ h.mem
  | _ :: _, .inr h => h.1 ▸ mem_cons_self

theorem exists_lastOf {u} : ∀ {ts}, (∃ t ∈ ts, t.upid = u) → ∃ t, LastOf t ts ∧ t.upid = u
  | [], h => by simp at h
  | s :: ts, h => by
    by_cases hts : ∃ t ∈ ts, t.upid = u
    · obtain ⟨t, ht, hu⟩ := exists_lastOf hts
      exact ⟨t, .inl ht, hu⟩
    · obtain ⟨t, ht, rfl⟩ := h
      rcases mem_cons.mp ht with rfl | ht
      · exact ⟨t, .inr ⟨rfl, fun r hr e => hts ⟨r, hr, e⟩⟩, rfl⟩
      · exact absurd ⟨t, ht, rfl⟩ hts

theorem lastOf_of_nodup : ∀ {ts}, (ts.map (·.upid)).Nodup → t ∈ ts → LastOf t ts
  | s :: ts, hn, ht => by
    obtain ⟨hs, hn⟩ := nodup_cons.mp hn
    rcases mem_cons.mp ht with rfl | ht
    · exact .inr ⟨rfl, fun r hr e => hs (mem_map.mpr ⟨r, hr, e⟩)⟩
    · exact .inl (lastOf_of_nodup hn ht)

theorem mem_foldl_insertTask : ∀ {ts m}, t ∈ ts.foldl insertTask m ↔ LastOf t ts ∨ (t ∈ m ∧ ∀ s ∈ ts, s.upid ≠ t.upid)
  | [], m => by simp [LastOf]
  | s :: ts, m => by
    rw [foldl_cons, mem_foldl_insertTask, forall_mem_cons]
    simp only [insertTask, LastOf, mem_cons, mem_filter, ne_eq, decide_not, Bool.not_eq_eq_eq_not,
      Bool.not_true, decide_eq_false_iff_not]
    constructor
    · rintro (h | ⟨rfl | ⟨hm, hne⟩, hts⟩)
      · exact .inl (.inl h)
      · exact .inl (.inr ⟨rfl, hts⟩)
      · exact .inr ⟨hm, fun e => hne e.symm, hts⟩
    · rintro ((h | ⟨rfl, hts⟩) | ⟨hm, hne, hts⟩)
      · exact .inl h
      · exact .inr ⟨.inl rfl, hts⟩
      · exact .inr ⟨.inr ⟨hm, fun e => hne e.symm⟩, hts⟩

theorem nodup_foldl_insertTask : ∀ (ts : List TaskCacheItem) {m : List TaskCacheItem}, (m.map (·.upid)).Nodup →
    ((ts.foldl insertTask m).map (·.upid)).Nodup
  | [], _, h => h
  | s :: ts, m, h => by
    refine nodup_foldl_insertTask ts (nodup_cons.mpr ⟨?_, h.sublist ?_⟩)
    · simp
    · exact filter_sublist.map _

section

variable {u : UpdateArgs} {active : List TaskCacheItem}

theorem mem_activeTasks : t ∈ u.activeTasks active ↔
    LastOf t u.running ∨ (LastOf t (active.filter (·.upid ∉ u.dropTracked)) ∧ ∀ s ∈ u.running, s.upid ≠ t.upid) := by
  simp [UpdateArgs.activeTasks, mem_foldl_insertTask]

theorem nodup_activeTasks : ((u.activeTasks active).map (·.upid)).Nodup :=
  nodup_foldl_insertTask _ (nodup_foldl_insertTask _ nodup_nil)

end

/-! ## Writing to the journal -/

def i64Max : Int := 2 ^ 63 - 1

/-- Tasks of a PBS remote count for `localhost`. -/
def TaskCache.nodeOf (cache : TaskCache) (upid : RemoteUpid) : Option Node :=
  (cache.nativeNode upid).map fun node =>
    (upid.remote, match upid.remoteType with
      | .pve => node
      | .pbs => "localhost")

variable (cache : TaskCache) (nodeSuccessful : Node → Bool)

def moveCutoff (updateFn : Int → Option Int → Int) (state : State) (task : TaskCacheItem) : State :=
  match cache.nodeOf task.upid with
  | none => state
  | some n => if nodeSuccessful n then state.updateCutoffTimestamp n (updateFn task.starttime) else state

def raiseTo (starttime : Int) (existing : Option Int) : Int := max (existing.getD 0) starttime

def lowerTo (starttime : Int) (existing : Option Int) : Int := min (existing.getD i64Max) starttime

structure JournalWrite where
  (written active : List TaskCacheItem)
  state : State

def JournalWrite.finish (w : JournalWrite) (task : TaskCacheItem) : JournalWrite where
  written := if (cache.nodeOf task.upid).isSome then w.written ++ [task] else w.written
  active := removeTask w.active task.upid
  state := moveCutoff cache nodeSuccessful raiseTo w.state task

def writeTasksToJournal (finished active : List TaskCacheItem) (state : State) : JournalWrite :=
  let w := finished.foldl (JournalWrite.finish cache nodeSuccessful) ⟨[], active, state⟩
  { w with state := w.active.foldl (moveCutoff cache nodeSuccessful lowerTo) w.state }

/-! ### What is written -/

variable {cache nodeSuccessful}

def starttimesOf (cache : TaskCache) (n : Node) (ts : List TaskCacheItem) : List Int :=
  (ts.filter fun t => cache.nodeOf t.upid = some n).map (·.starttime)

theorem mem_starttimesOf {n ts s} :
    s ∈ starttimesOf cache n ts ↔ ∃ t ∈ ts, cache.nodeOf t.upid = some n ∧ t.starttime = s := by
  simp [starttimesOf, and_assoc]

def moved (updateFn : Int → Option Int → Int) (starttimes : List Int) (c : Option Int) : Option Int :=
  starttimes.foldl (fun c s => some (updateFn s c)) c

theorem State.updateCutoffTimestamp_cutoff (s : State) (n m : Node) (f : Option Int → Int) :
    (s.updateCutoffTimestamp n f).cutoff m = if n = m then some (f (s.cutoff n)) else s.cutoff m := by
  simp only [State.updateCutoffTimestamp, Function.update_apply, eq_comm]

theorem foldl_moveCutoff_cutoff (f : Int → Option Int → Int) (n : Node) : ∀ ts s,
    (ts.foldl (moveCutoff cache nodeSuccessful f) s).cutoff n =
      if nodeSuccessful n then moved f (starttimesOf cache n ts) (s.cutoff n) else s.cutoff n
  | [], s => by simp [starttimesOf, moved]
  | t :: ts, s => by
    rw [foldl_cons, foldl_moveCutoff_cutoff f n ts]
    cases h : cache.nodeOf t.upid with
    | none => simp [moveCutoff, h, starttimesOf]
    | some m =>
      by_cases hmn : m = n
      · subst hmn
        by_cases hs : nodeSuccessful m <;>
          simp [moveCutoff, h, hs, State.updateCutoffTimestamp_cutoff, starttimesOf, moved]
      · by_cases hs : nodeSuccessful m <;>
          simp [moveCutoff, h, hs, hmn, State.updateCutoffTimestamp_cutoff, starttimesOf]

theorem foldl_moveCutoff_trackedTasks (f) : ∀ (ts : List TaskCacheItem) (s : State),
    (ts.foldl (moveCutoff cache nodeSuccessful f) s).trackedTasks = s.trackedTasks
  | [], _ => rfl
  | t :: ts, s => by
    rw [foldl_cons, foldl_moveCutoff_trackedTasks f ts]
    cases h : cache.nodeOf t.upid with
    | none => simp [moveCutoff, h]
    | some n => by_cases hn : nodeSuccessful n <;> simp [moveCutoff, h, hn, State.updateCutoffTimestamp]

theorem foldl_finish : ∀ (ts : List TaskCacheItem) (w : JournalWrite),
    ts.foldl (JournalWrite.finish cache nodeSuccessful) w =
      ⟨w.written ++ ts.filter fun t => (cache.nodeOf t.upid).isSome, w.active.filter fun t => ∀ s ∈ ts, t.upid ≠ s.upid,
        ts.foldl (moveCutoff cache nodeSuccessful raiseTo) w.state⟩
  | [], w => by simp
  | t :: ts, w => by
    rw [foldl_cons, foldl_finish ts]
    refine JournalWrite.mk.injEq .. |>.mpr ⟨?_, ?_, rfl⟩
    · by_cases h : (cache.nodeOf t.upid).isSome <;> simp [JournalWrite.finish, h]
    · simp only [JournalWrite.finish, removeTask, filter_filter]
      refine filter_congr fun x _ => ?_
      simp [Bool.and_comm]

/-! ### Moved cutoffs -/

theorem moved_raiseTo : ∀ l c, moved raiseTo l c = if l = [] then c else some (l.foldl max (c.getD 0))
  | [], _ => rfl
  | s :: l, c => by
    have ih := moved_raiseTo l (some (raiseTo s c))
    simp only [moved, foldl_cons] at ih ⊢
    rw [ih]
    by_cases h : l = [] <;> simp [h, raiseTo]

theorem moved_lowerTo : ∀ l c, moved lowerTo l c = if l = [] then c else some (l.foldl min (c.getD i64Max))
  | [], _ => rfl
  | s :: l, c => by
    have ih := moved_lowerTo l (some (lowerTo s c))
    simp only [moved, foldl_cons] at ih ⊢
    rw [ih]
    by_cases h : l = [] <;> simp [h, lowerTo]

variable {b m : Int} {l : List Int} {c : Option Int}

theorem foldl_max_le : ∀ {l : List Int} {c : Int}, l.foldl max c ≤ b ↔ c ≤ b ∧ ∀ s ∈ l, s ≤ b
  | [], c => by simp
  | s :: l, c => by
    rw [foldl_cons, foldl_max_le, forall_mem_cons, max_le_iff, and_assoc]

theorem foldl_min_le : ∀ {l : List Int} {c : Int}, l.foldl min c ≤ b ↔ c ≤ b ∨ ∃ s ∈ l, s ≤ b
  | [], c => by simp
  | s :: l, c => by
    rw [foldl_cons, foldl_min_le, exists_mem_cons_iff, min_le_iff, or_assoc]

theorem foldl_max_mem : ∀ (l : List Int) (c : Int), l.foldl max c = c ∨ l.foldl max c ∈ l
  | [], _ => .inl rfl
  | s :: l, c => by
    rcases foldl_max_mem l (max c s) with h | h
    · rw [foldl_cons, h]
      rcases max_choice c s with e | e <;> simp [e]
    · exact .inr (mem_cons_of_mem s h)

theorem moved_raiseTo_mem (h : moved raiseTo l c = some m) : c = some m ∨ m ∈ l ∨ (m = 0 ∧ l ≠ []) := by
  rw [moved_raiseTo] at h
  split at h
  · exact .inl h
  · next hl =>
    obtain rfl := Option.some.inj h
    rcases foldl_max_mem l (c.getD 0) with e | hm
    · cases c with
      | none => exact .inr (.inr ⟨e, hl⟩)
      | some => exact .inl (congrArg some e.symm)
    · exact .inr (.inl hm)

theorem lt_of_lt_moved_raiseTo {a} (h : moved raiseTo l c = some m)
    (ha : a < m) (h0 : 0 ≤ a) : (∃ r, c = some r ∧ a < r) ∨ ∃ s ∈ l, a < s := by
  rw [moved_raiseTo] at h
  split at h
  · exact .inl ⟨m, h, ha⟩
  · have hm : l.foldl max (c.getD 0) = m := Option.some.inj h
    by_contra hno
    obtain ⟨hc, hl⟩ := not_or.mp hno
    have hle : l.foldl max (c.getD 0) ≤ a := by
      refine foldl_max_le.mpr ⟨?_, fun s hs => ?_⟩
      · cases c with
        | none => exact h0
        | some r =>
          by_contra hr
          exact hc ⟨r, rfl, lt_of_not_ge hr⟩
      · by_contra hsa
        exact hl ⟨s, hs, lt_of_not_ge hsa⟩
    omega

theorem moved_raiseTo_eq_none (h : moved raiseTo l c = none) : c = none ∧ l = [] := by
  rw [moved_raiseTo] at h
  split at h
  · next hl => exact ⟨h, hl⟩
  · cases h

theorem le_of_moved_lowerTo (h : moved lowerTo l c = some m) : (∀ s ∈ l, m ≤ s) ∧ ∀ r, c = some r → m ≤ r := by
  rw [moved_lowerTo] at h
  split at h
  · next hl =>
    refine ⟨by simp [hl], fun r hr => ?_⟩
    rw [hr] at h
    exact le_of_eq (Option.some.inj h).symm
  · obtain rfl := Option.some.inj h
    refine ⟨fun s hs => foldl_min_le.mpr (.inr ⟨s, hs, Int.le_refl s⟩), fun r hr => ?_⟩
    exact foldl_min_le.mpr (.inl (by rw [hr]; exact Int.le_refl r))

/-! ## Updating -/

variable (cache)

def applyJournalIfTooLarge (fs : Files) : Files :=
  if (fs.journal.map cache.lineSize).sum > cache.journalMaxSize then applyJournal fs else fs

def UpdateArgs.write (u : UpdateArgs) (fs : Files) : JournalWrite :=
  writeTasksToJournal cache u.nodeSuccessful u.finished (u.activeTasks fs.active)
    { fs.state with trackedTasks := fs.state.trackedTasks \ u.dropTracked }

def UpdateArgs.remaining (u : UpdateArgs) (active : List TaskCacheItem) : List TaskCacheItem :=
  (u.activeTasks active).filter fun t => ∀ s ∈ u.finished, t.upid ≠ s.upid

theorem mem_remaining {u : UpdateArgs} {active : List TaskCacheItem} : t ∈ u.remaining active ↔
    t ∈ u.activeTasks active ∧ ∀ s ∈ u.finished, t.upid ≠ s.upid := by
  simp [UpdateArgs.remaining]

variable (u : UpdateArgs) (fs : Files)

include u fs

theorem UpdateArgs.write_written :
    (u.write cache fs).written = u.finished.filter fun t => (cache.nodeOf t.upid).isSome := by
  simp [UpdateArgs.write, writeTasksToJournal, foldl_finish]

theorem UpdateArgs.write_active : (u.write cache fs).active = u.remaining fs.active := by
  simp [UpdateArgs.write, writeTasksToJournal, foldl_finish, UpdateArgs.remaining]

theorem UpdateArgs.write_trackedTasks :
    (u.write cache fs).state.trackedTasks = fs.state.trackedTasks \ u.dropTracked := by
  simp [UpdateArgs.write, writeTasksToJournal, foldl_finish, foldl_moveCutoff_trackedTasks]

theorem UpdateArgs.write_cutoff (n) : (u.write cache fs).state.cutoff n = if u.nodeSuccessful n then
      moved lowerTo (starttimesOf cache n (u.remaining fs.active))
        (moved raiseTo (starttimesOf cache n u.finished) (fs.state.cutoff n)) else fs.state.cutoff n := by
  simp only [UpdateArgs.write, writeTasksToJournal, foldl_finish, foldl_moveCutoff_cutoff]
  split <;> rfl

def UpdateArgs.store (u : UpdateArgs) (fs : Files) : Files :=
  let w := u.write cache fs
  { fs with
    journal := fs.journal ++ w.written
    active := sortDesc compareTasks w.active
    state := w.state }

def update (u : UpdateArgs) (fs : Files) : Files := applyJournalIfTooLarge cache (u.store cache fs)

theorem update_cases : update cache u fs = u.store cache fs ∨ update cache u fs = applyJournal (u.store cache fs) := by
  unfold update applyJournalIfTooLarge
  split
  · exact .inr rfl
  · exact .inl rfl

theorem mem_update_active : t ∈ (update cache u fs).active ↔ t ∈ u.remaining fs.active := by
  rcases update_cases cache u fs with e | e <;> rw [e]
  · simp [UpdateArgs.store, UpdateArgs.write_active]
  · simp [UpdateArgs.store, UpdateArgs.write_active]

def addTrackedTask (task : TaskCacheItem) (fs : Files) : Files :=
  { fs with
    active := sortDesc compareTasks (fs.active ++ [task])
    state := { fs.state with trackedTasks := insert task.upid fs.state.trackedTasks } }

/-! ## Reading -/

inductive GetTasks
  | all
  | active

def getTasks : GetTasks → Files → List TaskCacheItem
  | .all, fs => merge compareTasks (sortedJournal fs.journal) (fs.active ++ fs.archived)
  | .active, fs => fs.active

end Nexus.RemoteTasks
