import Nexus.RemoteTasks.Repair

/-!
# No gap in the fetched history

Fetch cycles read the cutoff of a node without the lock, fetch its tasks and update the cache later. Below the cutoff
every task of the node is to be recorded as finished (`Frontier`). It is if a node without a cutoff is fetched far
enough back, and gets its first cutoff from a fetch that returned tasks (`noGap_of_run`), and need not be otherwise
(`tracked_task_leaves_gap`).
-/

namespace Nexus.RemoteTasks

open Lib List Function UpdateArgs

/-! ## What stays recorded -/

def Recorded (fs : Files) (x : TaskCacheItem) : Prop :=
  ∃ r, (r ∈ fs.journal ∨ r ∈ fs.archived) ∧ r.finished ∧ SameTask r x

def oldestBound (fs : Files) : Option Int := fs.archive.files.getLast?.map (·.starttime)

def Covered (fs : Files) (x : TaskCacheItem) : Prop :=
  Recorded fs x ∨ ∃ b, oldestBound fs = some b ∧ x.starttime < b

variable {fs : Files} {x y : TaskCacheItem} {r : TaskCacheItem}

theorem Covered.congr (h : Covered fs x) (e : SameTask x y) : Covered fs y := by
  obtain ⟨hu, hs⟩ := e
  unfold Covered Recorded SameTask at h ⊢
  rwa [hu, hs] at h

theorem exists_home {t} : ∀ {files},
    files.Pairwise (fun f g => g.starttime < f.starttime) → (∃ g ∈ files, g.starttime ≤ t.starttime) →
    ∃ f ∈ files, Home files t f
  | [], _, h => by simp at h
  | f :: gs, hd, h => by
    by_cases hf : f.starttime ≤ t.starttime
    · exact ⟨f, mem_cons_self, (home_newest hd).mpr hf⟩
    · obtain ⟨g, hg, hgt⟩ := h
      rcases mem_cons.mp hg with rfl | hg
      · exact absurd hgt hf
      · obtain ⟨k, hk, hhome⟩ := exists_home (pairwise_cons.mp hd).2 ⟨g, hg, hgt⟩
        exact ⟨k, mem_cons_of_mem f hk, (home_older hd hk).mpr ⟨by omega, hhome⟩⟩

theorem oldestBound_applyJournal (fs) : oldestBound (applyJournal fs) = oldestBound fs := by
  unfold oldestBound
  rw [applyJournal_files, getLast?_map, Option.map_map]
  refine congrArg (Option.map · _) (funext fun f => ?_)
  simp

theorem mem_archived_applyJournal (h : r ∈ fs.archived) : r ∈ (applyJournal fs).archived := by
  obtain ⟨f, hf, hr⟩ := mem_archived.mp h
  refine mem_archived.mpr ⟨_, by rw [applyJournal_files]; exact mem_map.mpr ⟨f, hf, rfl⟩, ?_⟩
  rw [mergeSingleArchiveFile_tasks]
  exact mem_merge_left _ _ hr

theorem exists_archived_applyJournal (h : r ∈ fs.journal) (hold : ∃ g ∈ fs.archive.files, g.starttime ≤ r.starttime) :
    r ∈ (applyJournal fs).archived ∨ ∃ y ∈ fs.archived, SameTask y r := by
  obtain ⟨f, hf, hhome⟩ := exists_home fs.archive.descending hold
  have hadded : r ∈ (sortedJournal fs.journal).filter (Home fs.archive.files · f) :=
    mem_filter.mpr ⟨mem_sortedJournal.mpr h, by simpa using hhome⟩
  rcases mem_merge_or_sameTask f.tasks hadded with hm | ⟨y, hy, e⟩
  · refine .inl (mem_archived.mpr ⟨_, by rw [applyJournal_files]; exact mem_map.mpr ⟨f, hf, rfl⟩, ?_⟩)
    rwa [mergeSingleArchiveFile_tasks]
  · exact .inr ⟨y, mem_archived.mpr ⟨f, hf, hy⟩, e⟩

theorem lt_oldestBound (hne : fs.archive.files ≠ []) (h : ¬ ∃ g ∈ fs.archive.files, g.starttime ≤ x.starttime) :
    ∃ b, oldestBound fs = some b ∧ x.starttime < b := by
  have hlast := getLast?_eq_some_getLast hne
  refine ⟨(fs.archive.files.getLast hne).starttime, by rw [oldestBound, hlast]; rfl, ?_⟩
  by_contra hle
  exact h ⟨_, getLast_mem hne, by omega⟩

theorem covered_applyJournal (hne : fs.archive.files ≠ []) (hfin : RecordsHold (·.finished) fs)
    (h : Covered fs x) : Covered (applyJournal fs) x := by
  rcases h with ⟨r, hr, hfr, hs⟩ | hold
  · rcases hr with hr | hr
    · by_cases hb : ∃ g ∈ fs.archive.files, g.starttime ≤ x.starttime
      · rcases exists_archived_applyJournal hr (hs.2 ▸ hb) with ha | ⟨y, hy, hyr⟩
        · exact .inl ⟨r, .inr ha, hfr, hs⟩
        · exact .inl ⟨y, .inr (mem_archived_applyJournal hy), hfin.archived y hy, hyr.1.trans hs.1, hyr.2.trans hs.2⟩
      · exact .inr (by rw [oldestBound_applyJournal]; exact lt_oldestBound hne hb)
    · exact .inl ⟨r, .inr (mem_archived_applyJournal hr), hfr, hs⟩
  · exact .inr (by rwa [oldestBound_applyJournal])

/-! ## The node and its fetch cycles -/

inductive Phase
  | idle
  | read (state : State)
  | fetched (since : Int) (fromCutoff : Bool) (tasks : List TaskCacheItem)

structure Fetching (ι : Type) where
  history : List TaskCacheItem
  files : Files
  phase : ι → Phase

inductive FetchAct (ι : Type)
  | start (t : TaskCacheItem)
  | finish (upid : RemoteUpid) (status : Option String) (endtime : Int)
  | readState (i : ι)
  | fetch (i : ι) (now : Int)
  | update (i : ι) (u : UpdateArgs)
  | fail (i : ι) (u : UpdateArgs)
  | skip (i : ι)
  | addTrackedTask (task : TaskCacheItem)
  | applyJournal

def finishTask (upid : RemoteUpid) (status : Option String) (endtime : Int) (t : TaskCacheItem) : TaskCacheItem :=
  if t.upid = upid ∧ t.finished = false then { t with status, endtime := some endtime } else t

theorem sameTask_finishTask (upid) (status) (endtime : Int) (t) : SameTask (finishTask upid status endtime t) t := by
  unfold finishTask
  split <;> exact ⟨rfl, rfl⟩

variable {ι : Type} [DecidableEq ι] (cache : TaskCache) (n : Node)

inductive FetchStep : Fetching ι → FetchAct ι → Fetching ι → Prop
  | start (s : Fetching ι) (t : TaskCacheItem) (running : t.endtime = none) (own : cache.nodeOf t.upid = some n)
      (epoch : 0 ≤ t.starttime) (last : ∀ x ∈ s.history, x.starttime ≤ t.starttime)
      (new : ∀ x ∈ s.history, x.upid ≠ t.upid) : FetchStep s (.start t) { s with history := s.history ++ [t] }
  | finish (s : Fetching ι) (upid : RemoteUpid) (status : Option String) (endtime : Int) :
      FetchStep s (.finish upid status endtime) { s with history := s.history.map (finishTask upid status endtime) }
  | readState (s : Fetching ι) (i : ι) :
      FetchStep s (.readState i) { s with phase := Function.update s.phase i (.read s.files.state) }
  | fetch (s : Fetching ι) (i : ι) (now : Int) {state : State} (h : s.phase i = .read state) :
      FetchStep s (.fetch i now) { s with
        phase := Function.update s.phase i (.fetched (fetchSince state now n) (state.cutoff n).isSome
          (s.history.filter fun t => fetchSince state now n ≤ t.starttime)) }
  | update (s : Fetching ι) (i : ι) (u : UpdateArgs) {since : Int} {fromCutoff : Bool} {tasks : List TaskCacheItem}
      (h : s.phase i = .fetched since fromCutoff tasks) (success : u.nodeSuccessful n)
      (brings : ∀ t, t ∈ u.newTasks ∧ cache.nodeOf t.upid = some n ↔ t ∈ tasks) :
      FetchStep s (.update i u)
        { s with files := update cache u s.files, phase := Function.update s.phase i .idle }
  | fail (s : Fetching ι) (i : ι) (u : UpdateArgs) {state : State} (h : s.phase i = .read state)
      (failed : u.nodeSuccessful n = false) (brings : ∀ t ∈ u.newTasks, cache.nodeOf t.upid ≠ some n) :
      FetchStep s (.fail i u)
        { s with files := update cache u s.files, phase := Function.update s.phase i .idle }
  | skip (s : Fetching ι) (i : ι) : FetchStep s (.skip i) { s with phase := Function.update s.phase i .idle }
  | addTrackedTask (s : Fetching ι) (task : TaskCacheItem)
      (started : cache.nodeOf task.upid = some n → ∃ x ∈ s.history, SameTask x task) :
      FetchStep s (.addTrackedTask task) { s with files := addTrackedTask task s.files }
  | applyJournal (s : Fetching ι) : FetchStep s .applyJournal { s with files := applyJournal s.files }

/-! ## Frontiers -/

variable {ι : Type} {s t : Fetching ι} {c since : Int} {fromCutoff : Bool} {tasks : List TaskCacheItem}

/-- Below `c` every task of the node is covered. -/
structure Frontier (s : Fetching ι) (c : Int) : Prop where
  covered : ∀ x ∈ s.history, x.starttime < c → Covered s.files x
  reached : ∃ x ∈ s.history, c ≤ x.starttime

/-- All tasks of the node from `since` on, except for later ones. -/
structure FetchedFrom (s : Fetching ι) (since : Int) (fromCutoff : Bool) (tasks : List TaskCacheItem) : Prop where
  frontier : fromCutoff → Frontier s since
  started : ∀ t ∈ tasks, ∃ x ∈ s.history, SameTask x t
  distinct : (tasks.map (·.upid)).Nodup
  complete : ∀ x ∈ s.history, since ≤ x.starttime → (∃ t ∈ tasks, SameTask t x) ∨ ∀ t ∈ tasks, t.starttime ≤ x.starttime

structure MovesOn (s t : Fetching ι) : Prop where
  kept : ∀ x ∈ s.history, ∃ y ∈ t.history, SameTask y x
  new : ∀ y ∈ t.history, (∃ x ∈ s.history, SameTask x y) ∨ ∀ x ∈ s.history, x.starttime ≤ y.starttime
  covered : ∀ x, Covered s.files x → Covered t.files x

theorem Frontier.le (h : Frontier s c) {c'} (hle : c' ≤ c) : Frontier s c' := by
  obtain ⟨x, hx, hcx⟩ := h.reached
  exact ⟨fun y hy hlt => h.covered y hy (by omega), x, hx, by omega⟩

theorem Frontier.movesOn (h : Frontier s c) (hm : MovesOn s t) : Frontier t c := by
  obtain ⟨x₀, hx₀, hcx₀⟩ := h.reached
  refine ⟨fun y hy hlt => ?_, ?_⟩
  · rcases hm.new y hy with ⟨x, hx, hs⟩ | latest
    · have hlt' : x.starttime < c := hs.2 ▸ hlt
      exact (hm.covered x (h.covered x hx hlt')).congr hs
    · have := latest x₀ hx₀
      omega
  · obtain ⟨y, hy, hs⟩ := hm.kept x₀ hx₀
    exact ⟨y, hy, by rw [hs.2]; exact hcx₀⟩

theorem FetchedFrom.movesOn (h : FetchedFrom s since fromCutoff tasks) (hm : MovesOn s t) :
    FetchedFrom t since fromCutoff tasks := by
  refine ⟨fun hk => (h.frontier hk).movesOn hm, fun r hr => ?_, h.distinct, fun y hy hsince => ?_⟩
  · obtain ⟨x, hx, hs⟩ := h.started r hr
    obtain ⟨y, hy, hs'⟩ := hm.kept x hx
    exact ⟨y, hy, hs'.1.trans hs.1, hs'.2.trans hs.2⟩
  · rcases hm.new y hy with ⟨x, hx, hs⟩ | latest
    · rcases h.complete x hx (hs.2 ▸ hsince) with ⟨r, hr, hrs⟩ | hle
      · exact .inl ⟨r, hr, hrs.1.trans hs.1, hrs.2.trans hs.2⟩
      · exact .inr fun r hr => hs.2 ▸ hle r hr
    · refine .inr fun r hr => ?_
      obtain ⟨x, hx, hs⟩ := h.started r hr
      exact hs.2 ▸ latest x hx

/-! ## Updates -/

variable {cache n} {u : UpdateArgs}

variable (cache) in
theorem finished_op_journal (op : Op) (h : RecordsHold (·.finished) fs) :
    ∀ t ∈ op.journal cache fs, t.finished := by
  intro t ht
  rcases mem_op_journal op ht with hold | ⟨_, -, hf⟩
  · exact h.journal t hold
  · exact (mem_filter.mp hf).2

theorem covered_store (h : Covered fs x) : Covered (u.store cache fs) x := by
  rcases h with ⟨r, hr, hrest⟩ | hold
  · refine .inl ⟨r, ?_, hrest⟩
    exact hr.imp (fun hj => mem_append_left _ hj) id
  · exact .inr hold

theorem covered_store_of_finished (hr : r ∈ u.finished)
    (hn : cache.nodeOf r.upid = some n) (hs : SameTask r x) : Covered (u.store cache fs) x := by
  have written : r ∈ (u.write cache fs).written := by
    rw [write_written]
    exact mem_filter.mpr ⟨hr, by simp [hn]⟩
  exact .inl ⟨r, .inl (mem_append_right _ written), (mem_filter.mp hr).2, hs⟩

theorem covered_update (hne : fs.archive.files ≠ []) (hfin : RecordsHold (·.finished) fs)
    (h : Covered (u.store cache fs) x) : Covered (update cache u fs) x := by
  have stored : RecordsHold (·.finished) (u.store cache fs) :=
    ⟨finished_op_journal cache (.update u) hfin, hfin.archived⟩
  rcases update_cases cache u fs with e | e <;> rw [e]
  · exact h
  · exact covered_applyJournal hne stored h

theorem mem_remaining_of_running (hf : FetchedFrom s since fromCutoff tasks)
    (hb : ∀ t, t ∈ u.newTasks ∧ cache.nodeOf t.upid = some n ↔ t ∈ tasks) (hr : r ∈ tasks)
    (hrun : r.finished = false) (active) : r ∈ u.remaining active := by
  obtain ⟨hnew, hn⟩ := (hb r).mpr hr
  -- a new task with the UPID of `r` is of the node too, so it was fetched, and is `r`
  have unique : ∀ q ∈ u.newTasks, q.upid = r.upid → q = r := by
    intro q hq e
    have hq' : q ∈ tasks := (hb q).mp ⟨hq, e ▸ hn⟩
    exact inj_on_of_nodup_map hf.distinct hq' hr e
  have running : r ∈ u.running := mem_filter.mpr ⟨hnew, by simp [hrun]⟩
  obtain ⟨q, hlast, e⟩ := exists_lastOf ⟨r, running, rfl⟩
  obtain rfl := unique q (mem_filter.mp hlast.mem).1 e
  refine mem_remaining.mpr ⟨mem_activeTasks.mpr (.inl hlast), fun q' hq' e' => ?_⟩
  obtain ⟨hmem, hfin⟩ := mem_filter.mp hq'
  rw [unique q' hmem e'.symm, hrun] at hfin
  cases hfin

/-! ## The invariant -/

variable {i : ι} {p : Phase} {phase : ι → Phase} {files : Files}

def PhaseOk (n : Node) (s : Fetching ι) : Phase → Prop
  | .idle => True
  | .read state => ∀ c, state.cutoff n = some c → Frontier s c
  | .fetched since fromCutoff tasks => FetchedFrom s since fromCutoff tasks

theorem PhaseOk.movesOn (h : PhaseOk n s p) (hm : MovesOn s t) : PhaseOk n t p := by
  cases p with
  | idle => trivial
  | read => exact fun c hc => (h c hc).movesOn hm
  | fetched => exact FetchedFrom.movesOn h hm

/-- **The cutoff is a frontier**, and what keeps it one. -/
structure Coherent (cache : TaskCache) (n : Node) (s : Fetching ι) : Prop where
  cutoff : ∀ c, s.files.state.cutoff n = some c → Frontier s c
  own : ∀ x ∈ s.history, cache.nodeOf x.upid = some n
  epoch : ∀ x ∈ s.history, 0 ≤ x.starttime
  distinct : (s.history.map (·.upid)).Nodup
  archive : s.files.archive.files ≠ []
  finished : RecordsHold (·.finished) s.files
  active : ∀ t ∈ s.files.active, cache.nodeOf t.upid = some n → ∃ x ∈ s.history, SameTask x t
  phase : ∀ i, PhaseOk n s (s.phase i)

/-- A node gets its first cutoff from a fetch that went back far enough. -/
def FirstCutoffFetched (cache : TaskCache) (n : Node) (s : Fetching ι) : FetchAct ι → Prop
  | .update i u => ∀ since fromCutoff tasks, s.phase i = .fetched since fromCutoff tasks →
      (fromCutoff = false → ∀ b, oldestBound s.files = some b → since ≤ b) ∧
      (s.files.state.cutoff n = none → tasks = [] → ∀ t ∈ u.remaining s.files.active, cache.nodeOf t.upid ≠ some n)
  | _ => True

section

variable (hi : Coherent cache n s)

include hi

theorem active_of_remaining (hf : ∀ t ∈ u.newTasks, cache.nodeOf t.upid = some n →
    ∃ x ∈ s.history, SameTask x t) : ∀ t ∈ u.remaining s.files.active, cache.nodeOf t.upid = some n →
    ∃ x ∈ s.history, SameTask x t := by
  intro t ht hn
  rcases mem_activeTasks.mp (mem_remaining.mp ht).1 with hr | ⟨ha, -⟩
  · exact hf t (mem_filter.mp hr.mem).1 hn
  · exact hi.active t (mem_filter.mp ha.mem).1 hn

theorem reached_of_write (hs : u.nodeSuccessful n)
    (hf : ∀ t ∈ u.newTasks, cache.nodeOf t.upid = some n → ∃ x ∈ s.history, SameTask x t) {c}
    (hc : (u.write cache s.files).state.cutoff n = some c) : ∃ x ∈ s.history, c ≤ x.starttime := by
  rw [write_cutoff, if_pos hs] at hc
  obtain ⟨hle, hle'⟩ := le_of_moved_lowerTo hc
  have started : ∀ r ∈ starttimesOf cache n u.finished, ∃ x ∈ s.history, x.starttime = r := by
    intro r hr
    obtain ⟨t, ht, hn, rfl⟩ := mem_starttimesOf.mp hr
    obtain ⟨x, hx, hsame⟩ := hf t (mem_filter.mp ht).1 hn
    exact ⟨x, hx, hsame.2⟩
  cases hr : moved raiseTo (starttimesOf cache n u.finished) (s.files.state.cutoff n) with
  | some m =>
    have hcm := hle' m hr
    rcases moved_raiseTo_mem hr with hm | hm | ⟨rfl, hne⟩
    · obtain ⟨x, hx, hmx⟩ := (hi.cutoff m hm).reached
      exact ⟨x, hx, by omega⟩
    · obtain ⟨x, hx, rfl⟩ := started m hm
      exact ⟨x, hx, hcm⟩
    · obtain ⟨r, hr⟩ := exists_mem_of_ne_nil _ hne
      obtain ⟨x, hx, rfl⟩ := started r hr
      have := hi.epoch x hx
      exact ⟨x, hx, by omega⟩
  | none =>
    -- nothing finished and no cutoff before: the cutoff comes from an active task
    rw [hr, moved_lowerTo] at hc
    split at hc
    · cases hc
    · next hne =>
      obtain ⟨r, hr⟩ := exists_mem_of_ne_nil _ hne
      obtain ⟨t, ht, hn, rfl⟩ := mem_starttimesOf.mp hr
      obtain ⟨x, hx, hsame⟩ := active_of_remaining hi hf t ht hn
      exact ⟨x, hx, by rw [hsame.2]; exact hle _ hr⟩

theorem exists_fetched_of_lt_write (hf : FetchedFrom s since fromCutoff tasks)
    (hs : u.nodeSuccessful n) (hb : ∀ t, t ∈ u.newTasks ∧ cache.nodeOf t.upid = some n ↔ t ∈ tasks)
    (first : s.files.state.cutoff n = none → tasks = [] →
      ∀ t ∈ u.remaining s.files.active, cache.nodeOf t.upid ≠ some n)
    (hc : (u.write cache s.files).state.cutoff n = some c) (hx : x ∈ s.history) (hlt : x.starttime < c) :
    (∃ r, s.files.state.cutoff n = some r ∧ x.starttime < r) ∨ ∃ t ∈ tasks, x.starttime < t.starttime := by
  rw [write_cutoff, if_pos hs] at hc
  obtain ⟨hle, hle'⟩ := le_of_moved_lowerTo hc
  have fetched : ∀ t ∈ u.finished, cache.nodeOf t.upid = some n → t ∈ tasks := fun t ht hn =>
    (hb t).mp ⟨(mem_filter.mp ht).1, hn⟩
  cases hr : moved raiseTo (starttimesOf cache n u.finished) (s.files.state.cutoff n) with
  | some m =>
    have hxm : x.starttime < m := lt_of_lt_of_le hlt (hle' m hr)
    rcases lt_of_lt_moved_raiseTo hr hxm (hi.epoch x hx) with hold | ⟨r, hr, hxr⟩
    · exact .inl hold
    · obtain ⟨t, ht, hn, rfl⟩ := mem_starttimesOf.mp hr
      exact .inr ⟨t, fetched t ht hn, hxr⟩
  | none =>
    obtain ⟨hnone, hfin⟩ := moved_raiseTo_eq_none hr
    have hne : tasks ≠ [] := by
      intro empty
      have hrem : starttimesOf cache n (u.remaining s.files.active) = [] := by
        refine eq_nil_iff_forall_not_mem.mpr fun r hr => ?_
        obtain ⟨t, ht, hn, -⟩ := mem_starttimesOf.mp hr
        exact first hnone empty t ht hn
      rw [hr, hrem] at hc
      cases hc
    obtain ⟨t, ht⟩ := exists_mem_of_ne_nil _ hne
    obtain ⟨hnew, hn⟩ := (hb t).mpr ht
    have hrun : t.finished = false := by
      by_contra finished
      have hmem : t.starttime ∈ starttimesOf cache n u.finished :=
        mem_starttimesOf.mpr ⟨t, mem_filter.mpr ⟨hnew, by simpa using finished⟩, hn, rfl⟩
      rw [hfin] at hmem
      cases hmem
    have hrem := mem_remaining_of_running hf hb ht hrun s.files.active
    exact .inr ⟨t, ht, lt_of_lt_of_le hlt (hle _ (mem_starttimesOf.mpr ⟨t, hrem, hn, rfl⟩))⟩

/-- **The cutoff that an update writes is a frontier.** -/
theorem frontier_write (hf : FetchedFrom s since fromCutoff tasks)
    (hs : u.nodeSuccessful n) (hb : ∀ t, t ∈ u.newTasks ∧ cache.nodeOf t.upid = some n ↔ t ∈ tasks)
    (hfar : fromCutoff = false → ∀ b, oldestBound s.files = some b → since ≤ b)
    (first : s.files.state.cutoff n = none → tasks = [] →
      ∀ t ∈ u.remaining s.files.active, cache.nodeOf t.upid ≠ some n)
    (hc : (u.write cache s.files).state.cutoff n = some c) (phase : ι → Phase) :
    Frontier { s with files := update cache u s.files, phase } c := by
  have stays : ∀ x, Covered s.files x → Covered (update cache u s.files) x := fun x hx =>
    covered_update hi.archive hi.finished (covered_store hx)
  refine ⟨fun x hx hlt => ?_, reached_of_write hi hs (fun t ht hn => hf.started t ((hb t).mp ⟨ht, hn⟩)) hc⟩
  rcases exists_fetched_of_lt_write hi hf hs hb first hc hx hlt with ⟨r, hr, hxr⟩ | ⟨y, hy, hxy⟩
  · exact stays x ((hi.cutoff r hr).covered x hx hxr)
  · by_cases hsince : since ≤ x.starttime
    · rcases hf.complete x hx hsince with ⟨t, ht, hsame⟩ | hle
      · obtain ⟨hnew, hn⟩ := (hb t).mpr ht
        cases hfin : t.finished with
        | true =>
          have hmem : t ∈ u.finished := mem_filter.mpr ⟨hnew, hfin⟩
          exact covered_update hi.archive hi.finished (covered_store_of_finished hmem hn hsame)
        | false =>
          -- the task remains active, so that the cutoff does not exceed its start
          have hrem := mem_remaining_of_running hf hb ht hfin s.files.active
          rw [write_cutoff, if_pos hs] at hc
          have hct := (le_of_moved_lowerTo hc).1 _ (mem_starttimesOf.mpr ⟨t, hrem, hn, rfl⟩)
          have := hsame.2
          omega
      · have := hle y hy
        omega
    · cases hk : fromCutoff with
      | true => exact stays x ((hf.frontier hk).covered x hx (by omega))
      | false =>
        have hlast := getLast?_eq_some_getLast hi.archive
        have hold : oldestBound s.files = some (s.files.archive.files.getLast hi.archive).starttime := by
          rw [oldestBound, hlast]
          rfl
        have := hfar hk _ hold
        exact stays x (.inr ⟨_, hold, by omega⟩)

/-! ### Steps -/

theorem Coherent.of_history {history}
    (hm : MovesOn s { s with history }) (own : ∀ x ∈ history, cache.nodeOf x.upid = some n)
    (epoch : ∀ x ∈ history, 0 ≤ x.starttime) (distinct : (history.map (·.upid)).Nodup) :
    Coherent cache n { s with history } where
  cutoff c hc := (hi.cutoff c hc).movesOn hm
  own := own
  epoch := epoch
  distinct := distinct
  archive := hi.archive
  finished := hi.finished
  active t ht hn := by
    obtain ⟨x, hx, hs⟩ := hi.active t ht hn
    obtain ⟨y, hy, hs'⟩ := hm.kept x hx
    exact ⟨y, hy, hs'.1.trans hs.1, hs'.2.trans hs.2⟩
  phase i := (hi.phase i).movesOn hm

theorem Coherent.of_files (hcov : ∀ x, Covered s.files x → Covered files x)
    (cutoff : ∀ c, files.state.cutoff n = some c → Frontier { s with files, phase } c)
    (archive : files.archive.files ≠ []) (finished : RecordsHold (·.finished) files)
    (active : ∀ t ∈ files.active, cache.nodeOf t.upid = some n → ∃ x ∈ s.history, SameTask x t)
    (hph : ∀ i, phase i = s.phase i ∨ PhaseOk n { s with files, phase } (phase i)) :
    Coherent cache n { s with files, phase } where
  cutoff := cutoff
  own := hi.own
  epoch := hi.epoch
  distinct := hi.distinct
  archive := archive
  finished := finished
  active := active
  phase i := by
    have hm : MovesOn s { s with files, phase } :=
      ⟨fun x hx => ⟨x, hx, rfl, rfl⟩, fun x hx => .inl ⟨x, hx, rfl, rfl⟩, hcov⟩
    rcases hph i with e | h
    · exact (e ▸ hi.phase i).movesOn hm
    · exact h

end

theorem Frontier.of_files (h : Frontier s c)
    (hcov : ∀ x, Covered s.files x → Covered files x) : Frontier { s with files, phase } c :=
  ⟨fun x hx hlt => hcov x (h.covered x hx hlt), h.reached⟩

section

variable (hi : Coherent cache n s)

include hi

theorem archive_update : (update cache u s.files).archive.files ≠ [] := by
  have h : (u.store cache s.files).archive.files ≠ [] := hi.archive
  rcases update_cases cache u s.files with e | e <;> rw [e]
  · exact h
  · rw [applyJournal_files]
    simpa using h

theorem coherent_start (own : cache.nodeOf x.upid = some n)
    (epoch : 0 ≤ x.starttime) (last : ∀ y ∈ s.history, y.starttime ≤ x.starttime)
    (new : ∀ y ∈ s.history, y.upid ≠ x.upid) : Coherent cache n { s with history := s.history ++ [x] } := by
  refine hi.of_history ⟨fun y hy => ⟨y, mem_append_left _ hy, rfl, rfl⟩, fun y hy => ?_, fun _ h => h⟩
    (fun y hy => ?_) (fun y hy => ?_) ?_
  · rcases mem_append.mp hy with hy | hy
    · exact .inl ⟨y, hy, rfl, rfl⟩
    · rw [mem_singleton.mp hy]
      exact .inr last
  · rcases mem_append.mp hy with hy | hy
    · exact hi.own y hy
    · rwa [mem_singleton.mp hy]
  · rcases mem_append.mp hy with hy | hy
    · exact hi.epoch y hy
    · rwa [mem_singleton.mp hy]
  · rw [map_append, nodup_append]
    refine ⟨hi.distinct, by simp, fun a ha b hb => ?_⟩
    obtain ⟨y, hy, rfl⟩ := mem_map.mp ha
    obtain rfl : b = x.upid := by simpa using hb
    exact new y hy

theorem coherent_finish (upid) (status) (endtime : Int) :
    Coherent cache n { s with history := s.history.map (finishTask upid status endtime) } := by
  have same := sameTask_finishTask upid status endtime
  refine hi.of_history ⟨fun y hy => ⟨_, mem_map.mpr ⟨y, hy, rfl⟩, same y⟩, fun y hy => ?_, fun _ h => h⟩
    (fun y hy => ?_) (fun y hy => ?_) ?_
  · obtain ⟨x, hx, rfl⟩ := mem_map.mp hy
    exact .inl ⟨x, hx, (same x).1.symm, (same x).2.symm⟩
  · obtain ⟨x, hx, rfl⟩ := mem_map.mp hy
    rw [(same x).1]
    exact hi.own x hx
  · obtain ⟨x, hx, rfl⟩ := mem_map.mp hy
    rw [(same x).2]
    exact hi.epoch x hx
  · rw [map_map]
    have upids : (fun t : TaskCacheItem => t.upid) ∘ finishTask upid status endtime = fun t => t.upid :=
      funext fun x => (same x).1
    rw [upids]
    exact hi.distinct

theorem coherent_fetch {state} (h : s.phase i = .read state) (now : Int) :
    PhaseOk n s (.fetched (fetchSince state now n) (state.cutoff n).isSome
      (s.history.filter fun t => fetchSince state now n ≤ t.starttime)) := by
  have hread : PhaseOk n s (.read state) := h ▸ hi.phase i
  refine ⟨fun hk => ?_, fun t ht => ⟨t, (mem_filter.mp ht).1, rfl, rfl⟩,
    hi.distinct.sublist (filter_sublist.map _), fun x hx hsince => ?_⟩
  · obtain ⟨c, hc⟩ := Option.isSome_iff_exists.mp hk
    have e : fetchSince state now n = c := by rw [fetchSince, hc]; rfl
    rw [e]
    exact hread c hc
  · exact .inl ⟨x, mem_filter.mpr ⟨hx, by simpa using hsince⟩, rfl, rfl⟩

end

variable [DecidableEq ι]

theorem update_phase {Q : Phase → Prop} (h : Q p) (j : ι) :
    Function.update s.phase i p j = s.phase j ∨ Q (Function.update s.phase i p j) := by
  by_cases hj : j = i
  · subst hj
    exact .inr (by simpa using h)
  · exact .inl (Function.update_of_ne hj _ _)

theorem Coherent.of_phase (hi : Coherent cache n s) (h : PhaseOk n s p) :
    Coherent cache n { s with phase := Function.update s.phase i p } :=
  hi.of_files (fun _ h => h) (fun c hc => (hi.cutoff c hc).of_files fun _ h => h) hi.archive hi.finished hi.active
    (update_phase (h.movesOn ⟨fun x hx => ⟨x, hx, rfl, rfl⟩, fun x hx => .inl ⟨x, hx, rfl, rfl⟩, fun _ h => h⟩))

theorem Coherent.of_update (hi : Coherent cache n s)
    (hnew : ∀ t ∈ u.newTasks, cache.nodeOf t.upid = some n → ∃ x ∈ s.history, SameTask x t)
    (hc : ∀ c, (u.write cache s.files).state.cutoff n = some c →
      Frontier { s with files := update cache u s.files, phase := Function.update s.phase i .idle } c) :
    Coherent cache n { s with files := update cache u s.files, phase := Function.update s.phase i .idle } := by
  refine hi.of_files (fun x hx => covered_update hi.archive hi.finished (covered_store hx)) (fun c h => ?_)
    (archive_update hi) (recordsHold_apply (.update u) hi.finished (finished_op_journal cache (.update u) hi.finished))
    (fun t ht => active_of_remaining hi hnew t ((mem_update_active cache u s.files).mp ht)) (update_phase trivial)
  obtain ⟨c', hc', hle⟩ := of_update_cutoff cache s.files u h
  exact (hc c' hc').le hle

theorem coherent_step {a} (hst : FetchStep cache n s a t) (first : FirstCutoffFetched cache n s a)
    (hi : Coherent cache n s) : Coherent cache n t := by
  cases hst with
  | start _ _ own epoch last new => exact coherent_start hi own epoch last new
  | finish upid status endtime => exact coherent_finish hi upid status endtime
  | readState => exact hi.of_phase hi.cutoff
  | fetch _ now h => exact hi.of_phase (coherent_fetch hi h now)
  | update i _ h success brings =>
    have hf : PhaseOk n s (.fetched _ _ _) := h ▸ hi.phase i
    obtain ⟨hfar, hnone⟩ := first _ _ _ h
    exact hi.of_update (fun r hr hn => hf.started r ((brings r).mp ⟨hr, hn⟩))
      fun c hc => frontier_write hi hf success brings hfar hnone hc _
  | fail _ _ _ failed brings =>
    refine hi.of_update (fun r hr hn => absurd hn (brings r hr)) fun c hc => ?_
    rw [UpdateArgs.write_cutoff, failed] at hc
    exact (hi.cutoff c hc).of_files fun x hx => covered_update hi.archive hi.finished (covered_store hx)
  | skip => exact hi.of_phase trivial
  | addTrackedTask task started =>
    refine hi.of_files (fun _ h => h) (fun c hc => (hi.cutoff c hc).of_files fun _ h => h) hi.archive
      ⟨hi.finished.journal, hi.finished.archived⟩ (fun r hr hn => ?_) (fun i => .inl rfl)
    have hmem : r ∈ s.files.active ++ [task] := by simpa [addTrackedTask] using hr
    rcases mem_append.mp hmem with hmem | hmem
    · exact hi.active r hmem hn
    · rw [mem_singleton.mp hmem] at hn ⊢
      exact started hn
  | applyJournal =>
    have stays : ∀ x, Covered s.files x → Covered (applyJournal s.files) x := fun x =>
      covered_applyJournal hi.archive hi.finished
    refine hi.of_files stays (fun c hc => ?_) ?_
      (recordsHold_apply .applyJournal hi.finished (finished_op_journal cache .applyJournal hi.finished)) hi.active
      (fun i => .inl rfl)
    · obtain ⟨c', hc', hle⟩ := of_repaired hc
      exact ((hi.cutoff c' hc').of_files stays).le hle
    · rw [applyJournal_files]
      simpa using hi.archive

/-! ## The result -/

/-- Every task below the cutoff is recorded as finished, or too old. -/
def NoGap {ι : Type} (n : Node) (s : Fetching ι) : Prop :=
  ∀ c, s.files.state.cutoff n = some c → ∀ x ∈ s.history, x.starttime < c → Covered s.files x

/-- Nothing is known of the node yet. -/
structure Fresh {ι : Type} (cache : TaskCache) (n : Node) (s : Fetching ι) : Prop where
  history : s.history = []
  archive : s.files.archive.files ≠ []
  finished : RecordsHold (·.finished) s.files
  active : ∀ t ∈ s.files.active, cache.nodeOf t.upid ≠ some n
  cutoff : s.files.state.cutoff n = none
  phase : ∀ i, s.phase i = .idle

theorem Fresh.coherent {ι : Type} {s : Fetching ι} (h : Fresh cache n s) :
    Coherent cache n s where
  cutoff c hc := by simp [h.cutoff] at hc
  own := by simp [h.history]
  epoch := by simp [h.history]
  distinct := by simp [h.history]
  archive := h.archive
  finished := h.finished
  active t ht hn := absurd hn (h.active t ht)
  phase i := by
    rw [h.phase i]
    trivial

/-- **There is no gap when the node gets its first cutoff from a fetch that went as far back as the archive and, unless
no task of the node is active, returned tasks.** -/
theorem noGap_of_run {ι : Type} [DecidableEq ι] {cache : TaskCache} {n : Node} {s t : Fetching ι}
    {as : List (FetchAct ι)} (hs : Fresh cache n s)
    (h : Run (fun s a t => FetchStep cache n s a t ∧ FirstCutoffFetched cache n s a) s as t) : NoGap n t := by
  have coherent : Coherent cache n t :=
    h.invariant (fun _ _ _ hi hst => coherent_step hst.1 hst.2 hi) hs.coherent
  exact fun c hc => (coherent.cutoff c hc).covered

/-! ### Runs of a node -/

def freshFetching : Fetching Nat := ⟨[], init tenSecondCache 20 Files.empty, fun _ => .idle⟩

theorem fresh_freshFetching : Fresh tenSecondCache ("remote", "node") freshFetching where
  history := rfl
  archive := by decide
  finished := ⟨by decide, by decide⟩
  active := by decide
  cutoff := rfl
  phase _ := rfl

theorem brings_of_eq {newTasks : List TaskCacheItem} (e : newTasks = tasks)
    (own : ∀ t ∈ tasks, cache.nodeOf t.upid = some n) :
    ∀ t, t ∈ newTasks ∧ cache.nodeOf t.upid = some n ↔ t ∈ tasks := by
  intro t
  rw [e]
  exact ⟨And.left, fun h => ⟨h, own t h⟩⟩

def firstFetch : List (FetchAct Nat) :=
  [.start (sampleTask "a" 25 none), .finish (sampleTask "a" 25 none).upid none 26,
    .start (sampleTask "b" 28 none), .finish (sampleTask "b" 28 none).upid none 29, .readState 0, .fetch 0 40,
    .update 0 ⟨[sampleTask "a" 25 (some 26), sampleTask "b" 28 (some 29)], fun _ => true, ∅⟩]

theorem noGap_of_firstFetch : ∃ t, Run (fun s a t => FetchStep tenSecondCache ("remote", "node") s a t ∧
      FirstCutoffFetched tenSecondCache ("remote", "node") s a) freshFetching firstFetch t ∧
    t.files.state.cutoff ("remote", "node") = some 28 ∧ NoGap ("remote", "node") t := by
  refine Run.exists_imp (P := fun t => t.files.state.cutoff ("remote", "node") = some 28) ?_
    fun t run hc => ⟨hc, noGap_of_run fresh_freshFetching run⟩
  refine ⟨_, .cons ⟨.start _ _ rfl rfl (by decide) (by decide) (by decide), trivial⟩ (.cons ⟨.finish _ _ _ _, trivial⟩
    (.cons ⟨.start _ _ rfl rfl (by decide) (by decide) (by decide), trivial⟩
    (.cons ⟨.finish _ _ _ _, trivial⟩ (.cons ⟨.readState _ _, trivial⟩ (.cons ⟨.fetch _ _ _ rfl, trivial⟩
    (.cons ⟨.update _ _ _ rfl rfl (brings_of_eq (by decide) (by decide)), ?_⟩ (.nil _))))))), by decide⟩
  intro since fromCutoff tasks h
  obtain ⟨rfl, rfl, rfl⟩ := Phase.fetched.inj h
  refine ⟨fun _ b hb => ?_, fun _ he => absurd he (by decide)⟩
  obtain rfl := Option.some.inj hb
  decide

def otherTask : TaskCacheItem := ⟨⟨"other", .pve, "o", by decide⟩, 22, none, some 23⟩

/-- A task of second 25 starts and finishes after the fetch, and one of second 30 is tracked. The cutoff becomes 30, and
the task of second 25 is recorded nowhere. -/
theorem tracked_task_leaves_gap : ∃ t, Run (FetchStep tenSecondCache ("remote", "node")) freshFetching
      [.readState 0, .fetch 0 24, .start (sampleTask "a" 25 none), .finish (sampleTask "a" 25 none).upid none 26,
        .start (sampleTask "b" 30 none), .addTrackedTask (sampleTask "b" 30 none),
        .update 0 ⟨[otherTask], fun _ => true, ∅⟩] t ∧
    t.files.state.cutoff ("remote", "node") = some 30 ∧ ¬ NoGap ("remote", "node") t := by
  refine Run.exists_imp (P := fun t => t.files.state.cutoff ("remote", "node") = some 30 ∧
    sampleTask "a" 25 (some 26) ∈ t.history ∧ t.files.journal = [otherTask] ∧ t.files.archived = [] ∧
    oldestBound t.files = some 0) ?_ ?_
  · refine ⟨_, .cons (.readState _ _) (.cons (.fetch _ _ _ rfl)
      (.cons (.start _ _ rfl rfl (by decide) (by decide) (by decide)) (.cons (.finish _ _ _ _)
      (.cons (.start _ _ rfl rfl (by decide) (by decide) (by decide)) (.cons (.addTrackedTask _ _ fun _ => ?_)
      (.cons (.update _ _ _ rfl rfl fun t => ?_) (.nil _))))))), by decide, by decide, by decide, by decide, by decide⟩
    · exact ⟨sampleTask "b" 30 none, by decide, rfl, rfl⟩
    · refine ⟨fun ⟨ht, hn⟩ => ?_, fun ht => absurd ht not_mem_nil⟩
      rw [mem_singleton.mp ht] at hn
      exact absurd hn (by decide)
  · rintro t - ⟨hc, hmem, hj, ha, ho⟩
    refine ⟨hc, fun h => ?_⟩
    rcases h 30 hc _ hmem (by decide) with ⟨r, hr, -, hs⟩ | ⟨b, hb, hlt⟩
    · rw [hj, ha] at hr
      rcases hr with hr | hr
      · rw [mem_singleton.mp hr] at hs
        exact absurd hs (by decide)
      · exact absurd hr not_mem_nil
    · rw [ho] at hb
      obtain rfl := Option.some.inj hb
      exact absurd hlt (by decide)

end Nexus.RemoteTasks
