import Nexus.RemoteTasks.ArchiveFiles
import Nexus.RemoteTasks.Journal

/-!
# Interrupted updates

An update appends the finished tasks to the journal, replaces the active file and then the state file. Here the journal
is its bytes (`Disk`), and an update may be interrupted after any of them (`Progress`). Without interruptions every run
on the bytes is one on records (`files_run`). `update_again` says exactly when calling an update again leaves no trace;
a torn line makes the next one undecodable (`torn_append_loses_task`).
-/

namespace Nexus.RemoteTasks

open Lib List UpdateArgs

/-! ## Calling an update again -/

variable {cache : TaskCache} {u : UpdateArgs} {fs fs' : Files} {t : TaskCacheItem}

structure Begun (cache : TaskCache) (u : UpdateArgs) (fs fs' : Files) : Prop where
  active : fs'.active = fs.active ∨ fs'.active = sortDesc compareTasks (u.remaining fs.active)
  state : fs'.state = fs.state ∨ fs'.state = (u.write cache fs).state

theorem nodup_remaining (u : UpdateArgs) (active : List TaskCacheItem) : ((u.remaining active).map (·.upid)).Nodup :=
  nodup_activeTasks.sublist (filter_sublist.map _)

theorem mem_remaining_remaining (active : List TaskCacheItem) :
    t ∈ u.remaining (sortDesc compareTasks (u.remaining active)) ↔ t ∈ u.remaining active := by
  constructor
  · intro ht
    obtain ⟨ha, hf⟩ := mem_remaining.mp ht
    rcases mem_activeTasks.mp ha with hr | ⟨hl, -⟩
    · exact mem_remaining.mpr ⟨mem_activeTasks.mpr (.inl hr), hf⟩
    · exact (mem_sortDesc _ _).mp (mem_filter.mp hl.mem).1
  · intro ht
    obtain ⟨ha, hf⟩ := mem_remaining.mp ht
    refine mem_remaining.mpr ⟨mem_activeTasks.mpr ?_, hf⟩
    rcases mem_activeTasks.mp ha with hr | ⟨hl, hne⟩
    · exact .inl hr
    · have nodup :
          (((sortDesc compareTasks (u.remaining active)).filter (·.upid ∉ u.dropTracked)).map (·.upid)).Nodup := by
        have perm := (perm_sortDesc compareTasks (u.remaining active)).map (·.upid)
        exact (perm.nodup_iff.mpr (nodup_remaining u active)).sublist (filter_sublist.map _)
      refine .inr ⟨lastOf_of_nodup nodup (mem_filter.mpr ⟨(mem_sortDesc _ _).mpr ht, ?_⟩), hne⟩
      exact (mem_filter.mp hl.mem).2

theorem Begun.mem_remaining_iff (h : Begun cache u fs fs') :
    t ∈ u.remaining fs'.active ↔ t ∈ u.remaining fs.active := by
  rcases h.active with e | e <;> rw [e]
  exact mem_remaining_remaining _

theorem desc_sortDesc {ts} (h : (ts.map (·.upid)).Nodup) : Desc taskKey (sortDesc compareTasks ts) := by
  have perm := (perm_sortDesc compareTasks ts).map (·.upid)
  have distinct : (sortDesc compareTasks ts).Pairwise fun a b => a.upid ≠ b.upid :=
    pairwise_map.mp (perm.nodup_iff.mpr h)
  refine ((pairwise_sortDesc compareTasks_eq ts).and distinct).imp fun ⟨hle, hne⟩ => ?_
  exact lt_of_le_of_ne hle fun e => hne (taskKey_eq_iff.mp e).2.symm

theorem Begun.active_eq (h : Begun cache u fs fs') : sortDesc compareTasks (u.remaining fs'.active) =
    sortDesc compareTasks (u.remaining fs.active) :=
  (desc_sortDesc (nodup_remaining u _)).eq_of_mem_iff (desc_sortDesc (nodup_remaining u _)) fun t => by
    rw [mem_sortDesc, mem_sortDesc, h.mem_remaining_iff]

theorem moved_lowerTo_congr {l l'} (h : ∀ s, s ∈ l ↔ s ∈ l') (c) : moved lowerTo l c = moved lowerTo l' c := by
  have hnil : l = [] ↔ l' = [] := by simp only [eq_nil_iff_forall_not_mem, h]
  have hmin : l.foldl min (c.getD i64Max) = l'.foldl min (c.getD i64Max) :=
    eq_of_forall_ge_iff fun b => by simp only [foldl_min_le, h]
  simp only [moved_lowerTo, hnil, hmin]

theorem foldl_min_max_again (l r : List Int) (c : Int) :
    l.foldl min (r.foldl max (l.foldl min (r.foldl max c))) = l.foldl min (r.foldl max c) := by
  refine eq_of_forall_ge_iff fun b => ?_
  simp only [foldl_min_le, foldl_max_le]
  tauto

theorem moved_again (l r : List Int) (c : Option Int) :
    moved lowerTo l (moved raiseTo r (moved lowerTo l (moved raiseTo r c))) = moved lowerTo l (moved raiseTo r c) := by
  simp only [moved_lowerTo, moved_raiseTo]
  by_cases hl : l = [] <;> by_cases hr : r = []
  · simp [hl, hr]
  · simpa [hl, hr] using foldl_min_max_again [] r _
  · simpa [hl, hr] using foldl_min_max_again l [] _
  · simp [hl, hr, foldl_min_max_again]

theorem Begun.state_eq (h : Begun cache u fs fs') : (u.write cache fs').state = (u.write cache fs).state := by
  have starttimes : ∀ n s, s ∈ starttimesOf cache n (u.remaining fs'.active) ↔
      s ∈ starttimesOf cache n (u.remaining fs.active) := by
    intro n s
    simp only [mem_starttimesOf, h.mem_remaining_iff]
  have cutoff : (u.write cache fs').state.cutoff = (u.write cache fs).state.cutoff := by
    funext n
    rw [write_cutoff, moved_lowerTo_congr (starttimes n)]
    rcases h.state with e | e
    · rw [write_cutoff, e]
    · by_cases hn : u.nodeSuccessful n
      · rw [if_pos hn, e, write_cutoff, if_pos hn, moved_again]
      · rw [if_neg hn, e]
  have tracked : (u.write cache fs').state.trackedTasks = (u.write cache fs).state.trackedTasks := by
    rw [write_trackedTasks]
    rcases h.state with e | e
    · rw [write_trackedTasks, e]
    · rw [e, write_trackedTasks, sdiff_idem]
  exact State.mk.injEq .. |>.mpr ⟨cutoff, tracked⟩

/-! ## The journal as bytes -/

structure Disk where
  archive : Archive
  journal : List UInt8
  active : List TaskCacheItem
  state : State

/-- How far an update got. -/
inductive Progress
  | appended (k : Nat)
  | activeReplaced
  | stateReplaced

def UpdateArgs.recorded (cache : TaskCache) (u : UpdateArgs) : List TaskCacheItem :=
  u.finished.filter fun t => (cache.nodeOf t.upid).isSome

variable (d : Codec) (cache : TaskCache) (u : UpdateArgs)

def Disk.files (disk : Disk) : Files := ⟨disk.archive, d.readJournal disk.journal, disk.active, disk.state⟩

def Disk.interrupted (disk : Disk) (p : Progress) : Disk :=
  let w := u.write cache (disk.files d)
  match p with
  | .appended k => { disk with journal := disk.journal ++ (d.lines w.written).take k }
  | .activeReplaced =>
    { disk with journal := disk.journal ++ d.lines w.written, active := sortDesc compareTasks w.active }
  | .stateReplaced =>
    { disk with
      journal := disk.journal ++ d.lines w.written
      active := sortDesc compareTasks w.active
      state := w.state }

def Disk.applyJournal (disk : Disk) : Disk :=
  let fs := RemoteTasks.applyJournal (disk.files d)
  ⟨fs.archive, [], fs.active, fs.state⟩

def Disk.stored (disk : Disk) : Disk := disk.interrupted d cache u .stateReplaced

def Disk.update (disk : Disk) : Disk :=
  let stored := disk.stored d cache u
  if stored.journal.length > cache.journalMaxSize then stored.applyJournal d else stored

variable {d cache u} {disk : Disk}

@[simp] theorem Disk.files_applyJournal : (disk.applyJournal d).files d = RemoteTasks.applyJournal (disk.files d) := rfl

theorem lines_append (ts) (ts') : d.lines (ts ++ ts') = d.lines ts ++ d.lines ts' := flatMap_append

theorem length_lines (h : ∀ t, cache.lineSize t = (d.line t).length) (ts) :
    (d.lines ts).length = (ts.map cache.lineSize).sum := by
  rw [Codec.lines, length_flatMap, funext h]

/-- On whole lines this is the update of the records. -/
theorem files_update {ts} (hj : disk.journal = d.lines ts) (hsize : ∀ t, cache.lineSize t = (d.line t).length) :
    (disk.update d cache u).files d = RemoteTasks.update cache u (disk.files d) := by
  have lines : (disk.stored d cache u).journal = d.lines (ts ++ (u.write cache (disk.files d)).written) := by
    rw [lines_append, ← hj]
    rfl
  have records : (disk.files d).journal = ts := by
    rw [Disk.files, hj, readJournal_lines_nil]
  have journal : d.readJournal (disk.stored d cache u).journal = (u.store cache (disk.files d)).journal := by
    rw [lines, readJournal_lines_nil, UpdateArgs.store, records]
  have stored : (disk.stored d cache u).files d = u.store cache (disk.files d) :=
    Files.mk.injEq .. |>.mpr ⟨rfl, journal, rfl, rfl⟩
  have size : (disk.stored d cache u).journal.length =
      ((u.store cache (disk.files d)).journal.map cache.lineSize).sum := by
    rw [← journal, lines, readJournal_lines_nil, length_lines hsize]
  simp only [Disk.update, RemoteTasks.update, applyJournalIfTooLarge, size]
  split
  · rw [Disk.files_applyJournal, stored]
  · exact stored

/-! ### Runs on the bytes -/

variable (d) in
def TaskCache.measured (cache : TaskCache) : TaskCache := { cache with lineSize := fun t => (d.line t).length }

def Disk.empty : Disk := ⟨Files.empty.archive, [], [], State.empty⟩

variable (d cache)

def Op.truncates : Op → Disk → Bool
  | .applyJournal, _ => true
  | .rotate now, disk => rotationDue cache now disk.archive.files
  | _, _ => false

def Op.applyDisk : Op → Disk → Disk
  | .update u, disk => disk.update d cache u
  | op, disk =>
    let fs := op.apply cache (disk.files d)
    ⟨fs.archive, if op.truncates cache disk then [] else disk.journal, fs.active, fs.state⟩

variable {d cache}

theorem files_mk {journal} (h : d.readJournal journal = fs.journal) :
    Disk.files d ⟨fs.archive, journal, fs.active, fs.state⟩ = fs := by
  rw [Disk.files, h]

theorem files_applyDisk (hsize : ∀ t, cache.lineSize t = (d.line t).length) {ts}
    (hj : disk.journal = d.lines ts) (op : Op) : (op.applyDisk d cache disk).files d = op.apply cache (disk.files d) ∧
      ∃ ts', (op.applyDisk d cache disk).journal = d.lines ts' := by
  cases op with
  | init => exact ⟨files_mk (Eq.symm init_journal), ts, hj⟩
  | update u =>
    refine ⟨files_update hj hsize, ?_⟩
    simp only [Op.applyDisk, Disk.update]
    split
    · exact ⟨[], rfl⟩
    · refine ⟨ts ++ (u.write cache (disk.files d)).written, ?_⟩
      rw [lines_append, ← hj]
      rfl
  | addTrackedTask => exact ⟨rfl, ts, hj⟩
  | applyJournal => exact ⟨rfl, [], rfl⟩
  | rotate now =>
    by_cases hd : rotationDue cache now (disk.files d).archive.files
    · refine ⟨files_mk ((congrArg d.readJournal (if_pos hd)).trans ?_), [], if_pos hd⟩
      rw [Op.apply, rotate_journal, startRotation_of_due hd]
      rfl
    · refine ⟨files_mk ((congrArg d.readJournal (if_neg hd)).trans ?_), ts, (if_neg hd).trans hj⟩
      rw [Op.apply, rotate_journal, startRotation_of_not_due (by simpa using hd)]
      rfl

/-- **The cache on bytes and the cache on records come to the same in every run.** -/
theorem files_run (d : Codec) (cache : TaskCache) (ops : List Op) :
    (ops.foldl (fun disk op => op.applyDisk d (cache.measured d) disk) Disk.empty).files d =
      ops.foldl (fun fs op => op.apply (cache.measured d) fs) Files.empty := by
  suffices h : ∀ (disk : Disk) ts, disk.journal = d.lines ts →
      (ops.foldl (fun disk op => op.applyDisk d (cache.measured d) disk) disk).files d =
        ops.foldl (fun fs op => op.apply (cache.measured d) fs) (disk.files d) from h Disk.empty [] rfl
  induction ops with
  | nil => exact fun _ _ _ => rfl
  | cons op _ ih =>
    intro disk ts hj
    obtain ⟨hfiles, ts', hj'⟩ := files_applyDisk (d := d)
      (fun t => show (cache.measured d).lineSize t = _ from rfl) hj op
    rw [foldl_cons, foldl_cons, ih _ ts' hj', hfiles]

/-! ## What is found after an update was called again -/

variable (d : Codec)

def Progress.bytes (ts : List TaskCacheItem) : Progress → List UInt8
  | .appended k => (d.lines ts).take k
  | .activeReplaced => d.lines ts
  | .stateReplaced => d.lines ts

/-- The records whose lines are whole, and what there is of the next. -/
def Progress.cut (ts : List TaskCacheItem) : Progress → List TaskCacheItem × List UInt8
  | .appended k => cutOff d ts k
  | .activeReplaced => (ts, [])
  | .stateReplaced => (ts, [])

/-- What is found of records whose append got to `p` after a line without an end, and was then made again. -/
def foundAgain (tail : List UInt8) (ts : List TaskCacheItem) (p : Progress) : List TaskCacheItem :=
  let (whole, torn) := p.cut d ts
  if whole = [] then foundAfter (tail ++ torn) ts
  else if fromUtf8 tail = none then [] else foundAfter tail whole ++ foundAfter torn ts

variable {d : Codec} {cache : TaskCache} {u : UpdateArgs} {p : Progress} {ts : List TaskCacheItem} {tail : List UInt8}

theorem bytes_eq (ts) : p.bytes d ts = d.lines (p.cut d ts).1 ++ (p.cut d ts).2 := by
  cases p with
  | appended k => exact take_lines ts k
  | activeReplaced => exact (append_nil _).symm
  | stateReplaced => exact (append_nil _).symm

theorem cut_torn (ts) : (p.cut d ts).2 = [] ∨ Torn (p.cut d ts).2 := by
  cases p with
  | appended k => exact cutOff_torn ts k
  | activeReplaced => exact .inl rfl
  | stateReplaced => exact .inl rfl

theorem cut_subset (ts) : (p.cut d ts).1 ⊆ ts := by
  cases p with
  | appended k => exact (cutOff_isPrefix ts k).subset
  | activeReplaced => exact Subset.refl ts
  | stateReplaced => exact Subset.refl ts

theorem torn_append {torn} (h : tail = [] ∨ Torn tail) (h' : torn = [] ∨ Torn torn) :
    tail ++ torn = [] ∨ Torn (tail ++ torn) := by
  rcases h with rfl | h
  · exact h'
  · refine .inr (h.append ?_)
    rcases h' with rfl | h'
    · exact not_mem_nil
    · exact h'.noNewline

/-- **An append that was cut off is made again.** -/
theorem readJournal_again (htail : tail = [] ∨ Torn tail) (hne : ts ≠ []) :
    d.readJournal (tail ++ (p.bytes d ts ++ d.lines ts)) = foundAgain d tail ts p := by
  have once : ∀ {tail}, tail = [] ∨ Torn tail → d.readJournal (tail ++ d.lines ts) = foundAfter tail ts := by
    intro tail h
    have lines := readJournal_tail (d := d) h hne []
    rw [append_nil, show d.readJournal [] = [] from rfl, append_nil] at lines
    rw [lines, foundAfter]
    split <;> rfl
  simp only [foundAgain, bytes_eq, append_assoc]
  by_cases hnil : (p.cut d ts).1 = []
  · rw [if_pos hnil, hnil, ← once (torn_append htail (cut_torn ts)), append_assoc]
    rfl
  · rw [if_neg hnil, readJournal_tail htail hnil, once (cut_torn ts)]

theorem mem_of_mem_foundAgain (h : t ∈ foundAgain d tail ts p) : t ∈ ts := by
  simp only [foundAgain] at h
  split at h
  · exact mem_of_mem_foundAfter h
  · split at h
    · exact absurd h not_mem_nil
    · exact (mem_append.mp h).elim (fun h => cut_subset ts (mem_of_mem_foundAfter h)) mem_of_mem_foundAfter

theorem begun_interrupted : Begun cache u (disk.files d) ((disk.interrupted d cache u p).files d) := by
  cases p with
  | appended => exact ⟨.inl rfl, .inl rfl⟩
  | activeReplaced => exact ⟨.inr (by rw [← write_active cache]; rfl), .inl rfl⟩
  | stateReplaced => exact ⟨.inr (by rw [← write_active cache]; rfl), .inr rfl⟩

theorem archive_interrupted : (disk.interrupted d cache u p).archive = disk.archive := by
  cases p <;> rfl

theorem journal_interrupted :
    (disk.interrupted d cache u p).journal = disk.journal ++ p.bytes d (u.recorded cache) := by
  cases p <;> simp only [Disk.interrupted, Progress.bytes, write_written] <;> rfl

theorem journal_stored : (disk.stored d cache u).journal = disk.journal ++ d.lines (u.recorded cache) :=
  journal_interrupted

theorem files_stored : (disk.stored d cache u).files d = ⟨disk.archive, d.readJournal (disk.stored d cache u).journal,
    sortDesc compareTasks (u.remaining disk.active), (u.write cache (disk.files d)).state⟩ :=
  Files.mk.injEq .. |>.mpr ⟨rfl, rfl, congrArg _ (write_active cache u (disk.files d)), rfl⟩

theorem files_again : ((disk.interrupted d cache u p).stored d cache u).files d = { (disk.stored d cache u).files d with
      journal := d.readJournal ((disk.interrupted d cache u p).stored d cache u).journal } := by
  have begun : Begun cache u (disk.files d) ((disk.interrupted d cache u p).files d) := begun_interrupted
  rw [files_stored, files_stored, begun.state_eq, archive_interrupted]
  exact Files.mk.injEq .. |>.mpr ⟨rfl, rfl, begun.active_eq, rfl⟩

/-! ## What is read of files with a journal -/

/-- Readers and fetches cannot tell the files apart. -/
structure Agree (fs fs' : Files) : Prop where
  tasks : ∀ t, t ∈ getTasks .all fs ↔ t ∈ getTasks .all fs'
  trackedTasks : fs.state.trackedTasks = fs'.state.trackedTasks
  cutoff : fs.state.cutoff = fs'.state.cutoff

/-- The record is archived, or it is in the journal and, if that is applied, not older than every archive file. -/
def Files.Records (fs : Files) (journal : TaskCacheItem → Prop) (applied : Prop) (t : TaskCacheItem) : Prop :=
  t ∈ fs.archived ∨ journal t ∧ (applied → ∃ f ∈ fs.archive.files, f.starttime ≤ t.starttime)

/-- A running task is listed unless the journal, not applied yet, has a record of it. -/
def Unhidden (journal : TaskCacheItem → Prop) (applied : Prop) (t : TaskCacheItem) : Prop :=
  applied ∨ ∀ r, journal r → ¬ SameTask r t

/-- Applying the journal meets a corrupted archive file that begins at `b` or before. -/
def Files.Resets (fs : Files) (journal : TaskCacheItem → Prop) (applied : Prop) (b : Int) : Prop :=
  applied ∧ ∃ f ∈ fs.archive.files, f.corrupted ∧ f.starttime ≤ b ∧
    ∃ t, journal t ∧ Home fs.archive.files t f

def Files.settled (fs : Files) (applied : Prop) [Decidable applied] : Files :=
  if applied then RemoteTasks.applyJournal fs else fs

variable {journal : List TaskCacheItem} {applied applied' : Prop} [Decidable applied] [Decidable applied']

theorem desc_sortedJournal_of_consistent (h : Consistent journal) : Desc taskKey (sortedJournal journal) :=
  desc_dedup_sortDesc compareTasks compareTasks_eq fun a ha b hb e =>
    h a ha b hb (taskKey_eq_iff_sameTask.mp e)

theorem mem_getTasks_all (h : Consistent (fs.journal ++ fs.archived)) (active : Desc taskKey fs.active) :
    t ∈ getTasks .all fs ↔ t ∈ fs.journal ∨ t ∈ fs.archived ∨ (t ∈ fs.active ∧ ∀ r ∈ fs.journal, ¬ SameTask r t) := by
  have hjournal : Desc taskKey (sortedJournal fs.journal) := desc_sortedJournal_of_consistent fun a ha b hb =>
    h a (mem_append_left _ ha) b (mem_append_left _ hb)
  have kept : ∀ x ∈ fs.active ++ fs.archived, x ∈ getTasks .all fs ∨ ∃ r ∈ fs.journal, SameTask r x := by
    intro x hx
    rcases mem_merge_or_sameTask (sortedJournal fs.journal) hx with hm | ⟨r, hr, e⟩
    · exact .inl hm
    · exact .inr ⟨r, mem_sortedJournal.mp hr, e⟩
  have journal : ∀ x ∈ fs.journal, x ∈ getTasks .all fs := fun x hx =>
    mem_merge_left _ _ (mem_sortedJournal.mpr hx)
  constructor
  · intro ht
    rcases mem_of_mem_merge_append compareTasks_eq _ _ hjournal active ht with ht | ht | ⟨ht, hne⟩
    · exact .inl (mem_sortedJournal.mp ht)
    · exact .inr (.inl ht)
    · exact .inr (.inr ⟨ht, fun r hr e => hne r (mem_sortedJournal.mpr hr) (taskKey_eq_iff_sameTask.mpr e)⟩)
  · rintro (ht | ht | ⟨ht, hne⟩)
    · exact journal t ht
    · rcases kept t (mem_append_right _ ht) with hm | ⟨r, hr, e⟩
      · exact hm
      · exact h r (mem_append_left _ hr) t (mem_append_right _ ht) e ▸ journal r hr
    · rcases kept t (mem_append_left _ ht) with hm | ⟨r, hr, e⟩
      · exact hm
      · exact absurd e (hne r hr)

theorem mem_getTasks_settled (h : Consistent (fs.journal ++ fs.archived)) (active : Desc taskKey fs.active) :
    t ∈ getTasks .all (fs.settled applied) ↔ fs.Records (· ∈ fs.journal) applied t ∨
      t ∈ fs.active ∧ Unhidden (· ∈ fs.journal) applied t := by
  by_cases ha : applied
  · have archived : Consistent ((applyJournal fs).journal ++ (applyJournal fs).archived) := by
      have sub : ∀ t ∈ (applyJournal fs).archived, t ∈ fs.journal ++ fs.archived := fun t ht =>
        mem_append.mpr ((mem_archived_of_applyJournal ht).symm.imp_left And.left)
      exact fun a ha b hb => h a (sub a ha) b (sub b hb)
    rw [Files.settled, if_pos ha, mem_getTasks_all archived active, mem_archived_applyJournal_iff h]
    simp [Files.Records, Unhidden, ha]
  · rw [Files.settled, if_neg ha, mem_getTasks_all h active, ← or_assoc, or_comm (a := t ∈ fs.journal)]
    simp [Files.Records, Unhidden, ha]

theorem exists_corruptedFiles {b} : (∃ f ∈ corruptedFiles (mergeJournal fs), f.starttime ≤ b) ↔
    fs.Resets (· ∈ fs.journal) True b := by
  have corrupted : ∀ f, (mergeSingleArchiveFile ((sortedJournal fs.journal).filter (Home fs.archive.files · f)) f).2 =
      .corrupted ↔ f.corrupted ∧ ∃ t ∈ fs.journal, Home fs.archive.files t f := by
    intro f
    by_cases hnil : (sortedJournal fs.journal).filter (Home fs.archive.files · f) = []
    · have none : ¬ ∃ t ∈ fs.journal, Home fs.archive.files t f := by
        simpa using hnil
      simp [hnil, none]
    · have some : ∃ t ∈ fs.journal, Home fs.archive.files t f := by
        simpa using hnil
      simp [mergeSingleArchiveFile, hnil, some]
  simp only [Files.Resets, corruptedFiles, mergeJournal_eq, mem_map, mem_filter, decide_eq_true_eq]
  constructor
  · rintro ⟨_, ⟨_, ⟨⟨f, hf, rfl⟩, hc⟩, rfl⟩, hb⟩
    obtain ⟨hcor, home⟩ := (corrupted f).mp hc
    exact ⟨trivial, f, hf, hcor, by simpa using hb, home⟩
  · rintro ⟨-, f, hf, hcor, hb, home⟩
    exact ⟨_, ⟨_, ⟨⟨f, hf, rfl⟩, (corrupted f).mpr ⟨hcor, home⟩⟩, rfl⟩, by simpa using hb⟩

/-- A cutoff is lowered to the beginning of the corrupted files. -/
theorem exists_cutoff_settled (fs : Files) (applied : Prop) [Decidable applied] :
    ∃ lower : Int → Int, (∀ n, (fs.settled applied).state.cutoff n = (fs.state.cutoff n).map lower) ∧
      ∀ c b, lower c ≤ b ↔ c ≤ b ∨ fs.Resets (· ∈ fs.journal) applied b := by
  by_cases ha : applied
  · obtain ⟨lower, hstate, hlower⟩ := exists_lower_repaired (corruptedFiles (mergeJournal fs)) fs.state
    refine ⟨lower, fun n => ?_, fun c b => ?_⟩
    · rw [Files.settled, if_pos ha]
      exact hstate n
    · rw [hlower, exists_corruptedFiles]
      simp [Files.Resets, ha]
  · refine ⟨id, fun n => ?_, fun c b => by simp [Files.Resets, ha]⟩
    rw [Files.settled, if_neg ha, Option.map_id_fun, id]

theorem trackedTasks_settled : (fs.settled applied).state.trackedTasks = fs.state.trackedTasks := by
  unfold Files.settled
  split
  · simp only [applyJournal, requestRepair, State.repaired]
    split <;> rfl
  · rfl

theorem cutoff_settled_iff : ({ fs with journal := journal }.settled applied').state.cutoff =
      (fs.settled applied).state.cutoff ↔ ∀ n c, fs.state.cutoff n = some c → ∀ b < c,
      (fs.Resets (· ∈ journal) applied' b ↔ fs.Resets (· ∈ fs.journal) applied b) := by
  obtain ⟨lower, hstate, hlower⟩ := exists_cutoff_settled fs applied
  obtain ⟨lower', hstate', hlower'⟩ := exists_cutoff_settled { fs with journal := journal } applied'
  have hlower' : ∀ c b, lower' c ≤ b ↔ c ≤ b ∨ fs.Resets (· ∈ journal) applied' b := hlower'
  have each : ∀ n, ({ fs with journal := journal }.settled applied').state.cutoff n =
      (fs.settled applied).state.cutoff n ↔ ∀ c, fs.state.cutoff n = some c → lower' c = lower c := by
    intro n
    rw [hstate, hstate']
    cases fs.state.cutoff n <;> simp
  rw [funext_iff]
  refine forall_congr' fun n => (each n).trans (forall_congr' fun c => imp_congr_right fun _ => ?_)
  constructor
  · intro e b hb
    have same := (hlower' c b).symm.trans (e ▸ hlower c b)
    simpa [not_le.mpr hb] using same
  · intro same
    refine eq_of_forall_ge_iff fun b => ?_
    rw [hlower, hlower']
    by_cases hb : c ≤ b
    · simp [hb]
    · exact or_congr_right (same b (not_le.mp hb))

/-- Which records a journal holds, and whether it is applied, make no difference. -/
theorem agree_settled_iff (h : Consistent (fs.journal ++ fs.archived)) (h' : Consistent (journal ++ fs.archived))
    (hact : Desc taskKey fs.active) (running : ∀ t ∈ fs.active, t.finished = false)
    (finished : ∀ t, t ∈ fs.journal ∨ t ∈ journal ∨ t ∈ fs.archived → t.finished) :
    Agree ({ fs with journal := journal }.settled applied') (fs.settled applied) ↔
      (∀ t, fs.Records (· ∈ journal) applied' t ↔ fs.Records (· ∈ fs.journal) applied t) ∧
      (∀ t ∈ fs.active, Unhidden (· ∈ journal) applied' t ↔ Unhidden (· ∈ fs.journal) applied t) ∧
      ∀ n c, fs.state.cutoff n = some c → ∀ b < c,
        (fs.Resets (· ∈ journal) applied' b ↔ fs.Resets (· ∈ fs.journal) applied b) := by
  have before : ∀ t, t ∈ getTasks .all (fs.settled applied) ↔ fs.Records (· ∈ fs.journal) applied t ∨
      t ∈ fs.active ∧ Unhidden (· ∈ fs.journal) applied t := fun t => mem_getTasks_settled h hact
  have after : ∀ t, t ∈ getTasks .all ({ fs with journal := journal }.settled applied') ↔
      fs.Records (· ∈ journal) applied' t ∨ t ∈ fs.active ∧ Unhidden (· ∈ journal) applied' t :=
    fun t => mem_getTasks_settled h' hact
  have recorded : ∀ t, fs.Records (· ∈ fs.journal) applied t ∨ fs.Records (· ∈ journal) applied' t → t ∉ fs.active := by
    intro t ht hrun
    have hfin : t.finished := finished t (by unfold Files.Records at ht; tauto)
    rw [running t hrun] at hfin
    cases hfin
  -- finished tasks are on record and running ones active, so that the two do not mix
  have tasks : (∀ t, t ∈ getTasks .all ({ fs with journal := journal }.settled applied') ↔
      t ∈ getTasks .all (fs.settled applied)) ↔
      (∀ t, fs.Records (· ∈ journal) applied' t ↔ fs.Records (· ∈ fs.journal) applied t) ∧
      ∀ t ∈ fs.active, Unhidden (· ∈ journal) applied' t ↔ Unhidden (· ∈ fs.journal) applied t := by
    rw [← forall_and]
    refine forall_congr' fun t => ?_
    have := recorded t
    rw [before, after]
    by_cases hrun : t ∈ fs.active
    · have none : ¬ fs.Records (· ∈ fs.journal) applied t ∧ ¬ fs.Records (· ∈ journal) applied' t := by tauto
      simp [hrun, none]
    · simp [hrun]
  rw [← cutoff_settled_iff, ← and_assoc, ← tasks]
  constructor
  · exact fun agree => ⟨agree.tasks, agree.cutoff⟩
  · exact fun ⟨htasks, hcutoff⟩ => ⟨htasks, by rw [trackedTasks_settled, trackedTasks_settled], hcutoff⟩

/-! ## The result -/

variable (U : TaskCacheItem → Prop) (d : Codec) (cache : TaskCache) (u : UpdateArgs) (disk : Disk)
  (whole tail : List UInt8) (p : Progress)

/-- The records of finished tasks are from `U`, and the journal ends with a line or with the start of one. -/
structure Disk.Holds : Prop where
  journal : disk.journal = whole ++ tail
  start : AtLineStart whole
  torn : tail = [] ∨ Torn tail
  records : ∀ t ∈ d.readJournal whole, U t ∧ t.finished
  archived : ∀ t ∈ (disk.files d).archived, U t ∧ t.finished
  active : ∀ t ∈ disk.active, t.finished = false

/-- The records that one update leaves in the journal. -/
def FoundOnce (t : TaskCacheItem) : Prop :=
  t ∈ d.readJournal whole ∨ Readable whole ∧ t ∈ foundAfter tail (u.recorded cache)

/-- The records that an update leaves in the journal when it is called again. -/
def FoundAgain (t : TaskCacheItem) : Prop :=
  t ∈ d.readJournal whole ∨ Readable whole ∧ t ∈ foundAgain d tail (u.recorded cache) p

/-- One update applies the journal. -/
def AppliedOnce : Prop := cache.journalMaxSize < (disk.journal ++ d.lines (u.recorded cache)).length

/-- The update that is called again applies the journal. -/
def AppliedAgain : Prop :=
  cache.journalMaxSize < (disk.journal ++ p.bytes d (u.recorded cache) ++ d.lines (u.recorded cache)).length

instance : Decidable (AppliedOnce d cache u disk) := inferInstanceAs (Decidable (_ < _))

instance : Decidable (AppliedAgain d cache u disk p) := inferInstanceAs (Decidable (_ < _))

/-- What the torn line hides, and applying the journal sooner, make no difference: to the finished tasks on record, to
the running ones that are listed, or to the cutoffs. -/
structure Repeatable : Prop where
  records : ∀ t, (disk.files d).Records (FoundAgain d cache u whole tail p) (AppliedAgain d cache u disk p) t ↔
    (disk.files d).Records (FoundOnce d cache u whole tail) (AppliedOnce d cache u disk) t
  running : ∀ t ∈ u.remaining disk.active,
    Unhidden (FoundAgain d cache u whole tail p) (AppliedAgain d cache u disk p) t ↔
      Unhidden (FoundOnce d cache u whole tail) (AppliedOnce d cache u disk) t
  cutoff : ∀ n c, (u.write cache (disk.files d)).state.cutoff n = some c → ∀ b < c,
    ((disk.files d).Resets (FoundAgain d cache u whole tail p) (AppliedAgain d cache u disk p) b ↔
      (disk.files d).Resets (FoundOnce d cache u whole tail) (AppliedOnce d cache u disk) b)

variable {U d cache u disk whole tail p}

theorem files_update_settled : (disk.update d cache u).files d =
    ((disk.stored d cache u).files d).settled (AppliedOnce d cache u disk) := by
  simp only [Disk.update, Files.settled, AppliedOnce, ← journal_stored (d := d)]
  split <;> rfl

theorem files_update_again : ((disk.interrupted d cache u p).update d cache u).files d =
    (((disk.interrupted d cache u p).stored d cache u).files d).settled (AppliedAgain d cache u disk p) := by
  have applied : AppliedOnce d cache u (disk.interrupted d cache u p) ↔ AppliedAgain d cache u disk p := by
    rw [AppliedOnce, AppliedAgain, journal_interrupted]
  rw [files_update_settled]
  simp only [Files.settled, applied]

theorem mem_readJournal_append (start : AtLineStart whole) (bytes : List UInt8) :
    t ∈ d.readJournal (whole ++ bytes) ↔ t ∈ d.readJournal whole ∨ Readable whole ∧ t ∈ d.readJournal bytes := by
  by_cases hr : Readable whole
  · rw [readJournal_append start hr, mem_append]
    simp [hr]
  · rw [readJournal_append_of_not_readable start hr]
    simp [hr]

theorem finished_remaining {active : List TaskCacheItem} (h : ∀ t ∈ active, t.finished = false)
    (ht : t ∈ u.remaining active) : t.finished = false := by
  rcases mem_activeTasks.mp (mem_remaining.mp ht).1 with hr | ⟨hl, -⟩
  · simpa using (mem_filter.mp hr.mem).2
  · exact h t (mem_filter.mp hl.mem).1

theorem applied_of_recorded_nil (hnil : u.recorded cache = []) :
    p.bytes d (u.recorded cache) = [] ∧ AppliedAgain d cache u disk p = AppliedOnce d cache u disk := by
  have bytes : p.bytes d [] = [] := by cases p <;> simp [Progress.bytes, Codec.lines]
  rw [AppliedAgain, AppliedOnce, hnil, bytes, append_nil]
  exact ⟨rfl, rfl⟩

theorem agree_of_recorded_nil (hnil : u.recorded cache = []) :
    Agree (((disk.interrupted d cache u p).update d cache u).files d) ((disk.update d cache u).files d) := by
  obtain ⟨bytes, applied⟩ : p.bytes d _ = [] ∧ AppliedAgain d cache u disk p = _ := applied_of_recorded_nil hnil
  rw [files_update_again, files_update_settled, files_again, journal_stored, journal_interrupted, bytes, append_nil,
    ← journal_stored]
  simp only [Files.settled, applied]
  exact ⟨fun t => Iff.rfl, rfl, rfl⟩

theorem repeatable_of_recorded_nil (hnil : u.recorded cache = []) : Repeatable d cache u disk whole tail p := by
  have found : FoundAgain d cache u whole tail p = FoundOnce d cache u whole tail := by
    funext t
    have none : t ∉ foundAfter tail [] ∧ t ∉ foundAgain d tail [] p :=
      ⟨fun h => not_mem_nil (mem_of_mem_foundAfter h), fun h => not_mem_nil (mem_of_mem_foundAgain h)⟩
    rw [FoundAgain, FoundOnce, hnil]
    simp [none]
  refine ⟨fun t => ?_, fun t _ => ?_, fun n c _ b _ => ?_⟩ <;> rw [found, (applied_of_recorded_nil hnil).2]

section

variable (holds : disk.Holds U d whole tail)
include holds

theorem mem_journal_again (hne : u.recorded cache ≠ []) :
    t ∈ d.readJournal ((disk.interrupted d cache u p).stored d cache u).journal ↔
      FoundAgain d cache u whole tail p t := by
  rw [journal_stored, journal_interrupted, holds.journal, append_assoc, append_assoc,
    mem_readJournal_append holds.start, readJournal_again holds.torn hne, FoundAgain]

theorem mem_journal_stored (hne : u.recorded cache ≠ []) :
    t ∈ d.readJournal (disk.stored d cache u).journal ↔ FoundOnce d cache u whole tail t := by
  have once : foundAgain d tail (u.recorded cache) (.appended 0) = foundAfter tail (u.recorded cache) := by
    obtain ⟨t, ts, e⟩ := exists_cons_of_ne_nil hne
    have long : ¬ (d.line t).length ≤ 0 := by simp [Codec.line]
    simp [foundAgain, Progress.cut, e, cutOff, long]
  have again := mem_journal_again (p := .appended 0) (t := t) holds hne
  rw [FoundAgain, once, ← FoundOnce] at again
  simpa [journal_stored, journal_interrupted, Progress.bytes] using again

theorem finished_of_found {found : List TaskCacheItem} (hb : ∀ t ∈ u.finished, U t) (hsub : found ⊆ u.recorded cache)
    (h : t ∈ d.readJournal whole ∨ Readable whole ∧ t ∈ found) : U t ∧ t.finished := by
  rcases h with h | ⟨-, h⟩
  · exact holds.records t h
  · have hf := (mem_filter.mp (hsub h)).1
    exact ⟨hb t hf, (mem_filter.mp hf).2⟩

end

/-! ### Updates of a fresh cache -/

def freshDisk : Disk := ⟨(init tenSecondCache 20 Files.empty).archive, [], [], State.empty⟩

def twoFinished : UpdateArgs := ⟨[sampleTask "a" 25 (some 26), sampleTask "b" 28 (some 29)], fun _ => true, ∅⟩

variable (d : Codec)

/-- The journal has room for the records twice. -/
def roomyCache : TaskCache :=
  { tenSecondCache with journalMaxSize := 2 * (d.lines twoFinished.newTasks).length }

/-- The journal has room for the records once. -/
def narrowCache : TaskCache := { tenSecondCache with journalMaxSize := (d.lines twoFinished.newTasks).length }

variable {d}

theorem one_lt_length_line (t) : 1 < (d.line t).length := by
  obtain ⟨rest, e⟩ := head?_eq_some_iff.mp (d.brace t)
  simp [Codec.line, e]

theorem cutOff_first (t) (ts) : cutOff d (t :: ts) 1 = ([], utf8 ['{']) := by
  obtain ⟨rest, e⟩ := head?_eq_some_iff.mp (d.brace t)
  rw [cutOff, if_neg (not_le.mpr (one_lt_length_line t)), Codec.line, e]
  rfl

theorem foundAfter_brace (ts) : foundAfter (utf8 ['{']) ts = ts.tail := by
  have brace : utf8 ['{'] ≠ [] := by decide
  simp [foundAfter, brace]

theorem foundAfter_nil (ts) : foundAfter [] ts = ts := by
  have utf8 : fromUtf8 [] = some [] := fromUtf8_utf8 []
  simp [foundAfter, utf8]

theorem foundAgain_first (t) (ts) : foundAgain d [] (t :: ts) (.appended 1) = ts := by
  simp [foundAgain, Progress.cut, cutOff_first, foundAfter_brace]

theorem foundAgain_second (t) (t') (ts) :
    foundAgain d [] (t :: t' :: ts) (.appended ((d.line t).length + 1)) = t :: t' :: ts := by
  have cut : cutOff d (t :: t' :: ts) ((d.line t).length + 1) = ([t], utf8 ['{']) := by
    rw [cutOff, if_pos (Nat.le_add_right _ _), Nat.add_sub_cancel_left, cutOff_first]
  have hutf : fromUtf8 [] = some [] := fromUtf8_utf8 []
  simp [foundAgain, Progress.cut, cut, foundAfter_brace, foundAfter_nil, hutf]

theorem recorded_twoFinished : twoFinished.recorded tenSecondCache = twoFinished.newTasks := by decide

theorem holds_freshDisk : freshDisk.Holds (· ∈ twoFinished.newTasks) d [] [] where
  journal := rfl
  start := .inl rfl
  torn := .inl rfl
  records := fun _ h => absurd h not_mem_nil
  archived := fun _ h => absurd h not_mem_nil
  active := fun _ h => absurd h not_mem_nil

theorem readable_nil : Readable [] := fun _ h => absurd h not_mem_nil

end Nexus.RemoteTasks
