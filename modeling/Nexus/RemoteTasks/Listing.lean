import Mathlib.Data.List.TakeWhile
import Nexus.RemoteTasks.Placement

/-!
# The list of all tasks

`getTasks .all` merges the journal with the active file and the archive files in a row. These need not be in order
(`filter_finished_getTasks`), so finished tasks are listed in order and once exactly if nothing archived should come
before a journal record that is not older than some active task (`listedOnce_iff`).
-/

namespace Nexus.RemoteTasks

open Lib List

/-! ## What the files hold -/

/-- What finishes is in `U`, and what is tracked is running. -/
def Brings (U : TaskCacheItem → Prop) : Op → Prop
  | .update u => ∀ t ∈ u.finished, U t
  | .addTrackedTask task => task.finished = false
  | _ => True

/-- There is one record of each task. -/
def Consistent (ts : List TaskCacheItem) : Prop := ∀ a ∈ ts, ∀ b ∈ ts, SameTask a b → a = b

structure Kept (U : TaskCacheItem → Prop) (fs : Files) : Prop where
  records : RecordsHold (fun t => U t ∧ t.finished) fs
  sorted : ∀ f ∈ fs.archive.files, Desc taskKey f.tasks
  active : ∀ t ∈ fs.active, t.finished = false

variable {cache : TaskCache} {U : TaskCacheItem → Prop} {fs : Files} {op : Op} {t : TaskCacheItem}

theorem mem_active_apply (h : t ∈ (op.apply cache fs).active) : t ∈ fs.active ∨
    (∃ u, op = .update u ∧ t ∈ u.running) ∨ op = .addTrackedTask t := by
  cases op with
  | init => exact .inl (by simpa [Op.apply] using h)
  | update u =>
    have hm := mem_remaining.mp ((mem_update_active cache u fs).mp h)
    rcases mem_activeTasks.mp hm.1 with hr | ⟨ha, -⟩
    · exact .inr (.inl ⟨u, rfl, hr.mem⟩)
    · exact .inl (mem_filter.mp ha.mem).1
  | addTrackedTask task =>
    have hm : t ∈ fs.active ++ [task] := by simpa [Op.apply, addTrackedTask] using h
    rcases mem_append.mp hm with hm | hm
    · exact .inl hm
    · exact .inr (.inr (by rw [mem_singleton.mp hm]))
  | applyJournal => exact .inl (by simpa [Op.apply] using h)
  | rotate => exact .inl (by simpa [Op.apply] using h)

variable (cache) in
theorem Kept.journal_of_brings (hk : Kept U fs) (hb : Brings U op) : ∀ t ∈ op.journal cache fs, U t ∧ t.finished := by
  intro t ht
  rcases mem_op_journal op ht with hold | ⟨u, rfl, hf⟩
  · exact hk.records.journal t hold
  · exact ⟨hb t hf, (mem_filter.mp hf).2⟩

theorem desc_sortedJournal (hU : ∀ a b, U a → U b → a.upid = b.upid → a = b) {journal}
    (hj : ∀ t ∈ journal, U t ∧ t.finished) : Desc taskKey (sortedJournal journal) :=
  desc_dedup_sortDesc compareTasks compareTasks_eq fun a ha b hb e =>
    hU a b (hj a ha).1 (hj b hb).1 (taskKey_eq_iff.mp e).2

theorem kept_apply (hU : ∀ a b, U a → U b → a.upid = b.upid → a = b) (hb : Brings U op) (hk : Kept U fs) :
    Kept U (op.apply cache fs) := by
  have journal := hk.journal_of_brings cache hb
  refine ⟨recordsHold_apply op hk.records journal, fun f hf => ?_, fun t ht => ?_⟩
  · obtain ⟨old, added, hold, hadded, -, e⟩ := mem_files_apply op hf
    rw [e]
    refine desc_merge compareTasks_eq _ _ ?_ ((desc_sortedJournal hU journal).sublist hadded)
    rcases hold with rfl | ⟨g, hg, -, rfl⟩
    · exact List.Pairwise.nil
    · exact hk.sorted g hg
  · rcases mem_active_apply ht with hold | ⟨u, rfl, hr⟩ | rfl
    · exact hk.active t hold
    · simpa using (mem_filter.mp hr).2
    · exact hb

/-! ## The archive in a row -/

theorem desc_archived (hk : Kept U fs) (hp : Placed fs) : Desc taskKey fs.archived := by
  refine pairwise_flatMap.mpr ⟨hk.sorted, ?_⟩
  refine fs.archive.descending.imp_of_mem fun {f g} hf hg hgf x hx y hy => taskKey_lt_of_starttime_lt ?_
  have hfx := (hp f hf x hx).1
  have hfy := (hp g hg y hy).2 f hf
  omega

/-! ## The list -/

def MayFollow (a b : TaskCacheItem) : Prop := b.starttime ≤ a.starttime ∧ ¬ SameTask b a

instance (a b : TaskCacheItem) : Decidable (MayFollow a b) := inferInstanceAs (Decidable (_ ∧ _))

theorem mayFollow_of_lt {a b} (h : taskKey b < taskKey a) : MayFollow a b := by
  refine ⟨starttime_le_of_taskKey_le (le_of_lt h), fun ⟨hu, hs⟩ => ?_⟩
  exact absurd (taskKey_eq_iff.mpr ⟨hs, hu⟩) (ne_of_lt h)

/-- Finished tasks are listed from the latest on, each once. -/
def ListedOnce (fs : Files) : Prop := ((getTasks .all fs).filter (·.finished)).Pairwise MayFollow

instance (fs : Files) : Decidable (ListedOnce fs) := inferInstanceAs (Decidable (List.Pairwise _ _))

/-- The list has it before everything archived. -/
def ListedEarly (fs : Files) (j : TaskCacheItem) : Prop := ∃ a ∈ fs.active, taskKey a ≤ taskKey j

instance (fs : Files) (j : TaskCacheItem) : Decidable (ListedEarly fs j) :=
  inferInstanceAs (Decidable (∃ a ∈ fs.active, _))

def ArchiveFollows (fs : Files) : Prop := ∀ j ∈ fs.journal, ListedEarly fs j → ∀ r ∈ fs.archived, MayFollow j r

instance (fs : Files) : Decidable (ArchiveFollows fs) :=
  inferInstanceAs (Decidable (∀ j ∈ fs.journal, ListedEarly fs j → ∀ r ∈ fs.archived, MayFollow j r))

variable {j : TaskCacheItem}

def earlyRecords (fs : Files) : List TaskCacheItem := (sortedJournal fs.journal).takeWhile (ListedEarly fs ·)

def lateRecords (fs : Files) : List TaskCacheItem := (sortedJournal fs.journal).dropWhile (ListedEarly fs ·)

theorem early_append_late (fs) : earlyRecords fs ++ lateRecords fs = sortedJournal fs.journal :=
  takeWhile_append_dropWhile

theorem listedEarly_of_mem_early (h : j ∈ earlyRecords fs) : ListedEarly fs j := by
  simpa using mem_takeWhile_imp h

theorem not_listedEarly_of_mem_late (hd : Desc taskKey (sortedJournal fs.journal))
    (h : j ∈ lateRecords fs) : ¬ ListedEarly fs j := by
  refine of_decide_eq_false (not_of_mem_dropWhile (hd.imp fun {a b} hab => ?_) j h)
  simp only [decide_eq_true_eq]
  rintro ⟨x, hx, hxb⟩
  exact ⟨x, hx, le_of_lt (lt_of_le_of_lt hxb hab)⟩

theorem filter_finished_getTasks (hk : Kept U fs) (hd : Desc taskKey (sortedJournal fs.journal)) :
    (getTasks .all fs).filter (·.finished) = earlyRecords fs ++ merge compareTasks (lateRecords fs) fs.archived := by
  have early : ∀ j ∈ earlyRecords fs, j ∈ fs.journal := fun j hj =>
    mem_sortedJournal.mp (early_append_late fs ▸ mem_append_left _ hj)
  have late : ∀ j ∈ lateRecords fs, j ∈ fs.journal := fun j hj =>
    mem_sortedJournal.mp (early_append_late fs ▸ mem_append_right _ hj)
  have descEarly : Desc taskKey (earlyRecords fs) := hd.sublist (takeWhile_sublist _)
  have split : getTasks .all fs =
      merge compareTasks (earlyRecords fs) fs.active ++ merge compareTasks (lateRecords fs) fs.archived := by
    rw [getTasks, ← early_append_late fs]
    refine merge_append_append compareTasks_eq _ _ descEarly (fun j hj => listedEarly_of_mem_early hj) ?_
    intro j hj a ha
    exact lt_of_not_ge fun hle => not_listedEarly_of_mem_late hd hj ⟨a, ha, hle⟩
  rw [split, filter_append, filter_merge _ _ (fun j hj => (hk.records.journal j (early j hj)).2) hk.active]
  congr 1
  refine filter_eq_self.mpr fun t ht => ?_
  rcases mem_of_mem_merge _ _ ht with ht | ht
  · exact (hk.records.journal t (late t ht)).2
  · exact (hk.records.archived t ht).2

theorem listedOnce_iff (hk : Kept U fs) (hd : Desc taskKey (sortedJournal fs.journal))
    (ha : Desc taskKey fs.archived) : ListedOnce fs ↔ ArchiveFollows fs := by
  have hd' := hd
  rw [← early_append_late fs] at hd'
  obtain ⟨descEarly, descLate, cross⟩ := pairwise_append.mp hd'
  have descRest : Desc taskKey (merge compareTasks (lateRecords fs) fs.archived) :=
    desc_merge compareTasks_eq _ _ descLate ha
  unfold ListedOnce
  rw [filter_finished_getTasks hk hd, pairwise_append]
  constructor
  · intro ⟨_, _, follows⟩ j hj hearly r hr
    have hj : j ∈ earlyRecords fs ++ lateRecords fs := early_append_late fs ▸ mem_sortedJournal.mpr hj
    rcases mem_append.mp hj with hj | hj
    · rcases mem_merge_or_sameTask (lateRecords fs) hr with hr | ⟨y, hy, e⟩
      · exact follows j hj r hr
      · -- the archived record gave way to one with its key, which comes after `j`
        exact mayFollow_of_lt (taskKey_eq_iff_sameTask.mpr e ▸ cross j hj y hy)
    · exact absurd hearly (not_listedEarly_of_mem_late hd hj)
  · intro follows
    refine ⟨descEarly.imp mayFollow_of_lt, descRest.imp mayFollow_of_lt, fun j hj x hx => ?_⟩
    rcases mem_of_mem_merge _ _ hx with hx | hx
    · exact mayFollow_of_lt (cross j hj x hx)
    · have hjm : j ∈ fs.journal := mem_sortedJournal.mp (early_append_late fs ▸ mem_append_left _ hj)
      exact follows j hjm (listedEarly_of_mem_early hj) x hx

/-! ## The result -/

variable {ops : List Op} {fs : Files}

/-- Rotations find no task of the future, and only `U` is brought. -/
def Orderly (cache : TaskCache) (U : TaskCacheItem → Prop) (fs : Files) (op : Op) : Prop :=
  RotatesClear cache fs op ∧ Brings U op

def InOrder (U : TaskCacheItem → Prop) (fs : Files) : Prop := Placed fs ∧ Kept U fs

theorem inOrder_empty : InOrder U Files.empty := by
  refine ⟨fun f hf => absurd hf not_mem_nil, ?_⟩
  exact ⟨⟨by simp [Files.empty], by simp [Files.empty, Files.archived]⟩, by simp [Files.empty], by simp [Files.empty]⟩

theorem inOrder_of_run (hU : ∀ a b, U a → U b → a.upid = b.upid → a = b)
    (h : Run (StepWhen cache (Orderly cache U)) Files.empty ops fs) : InOrder U fs := by
  refine h.invariant (fun fs op fs' inv hst => ?_) inOrder_empty
  obtain ⟨⟨hc, hb⟩, rfl⟩ := hst
  exact ⟨placed_apply hc inv.1, kept_apply hU hb inv.2⟩

/-- **In every state reached by consistent operations whose rotations are clear, the finished tasks are listed in order
and once exactly if everything archived may follow the records that are listed early.** -/
theorem getTasks_listedOnce_iff (hU : ∀ a b, U a → U b → a.upid = b.upid → a = b)
    (h : Run (StepWhen cache (Orderly cache U)) Files.empty ops fs) : ListedOnce fs ↔ ArchiveFollows fs := by
  obtain ⟨placed, kept⟩ := inOrder_of_run hU h
  exact listedOnce_iff kept (desc_sortedJournal hU kept.records.journal) (desc_archived kept placed)

def SampleRecord (t : TaskCacheItem) : Prop := t = sampleTask "a" 21 (some 30) ∨ t = sampleTask "b" 25 (some 26)

theorem sampleRecord_consistent : ∀ a b, SampleRecord a → SampleRecord b → a.upid = b.upid → a = b := by
  rintro a b (rfl | rfl) (rfl | rfl) h
  · rfl
  · exact absurd h (by decide)
  · exact absurd h (by decide)
  · rfl

def recordAfterActive : List Op :=
  [.init 20, .update ⟨[sampleTask "a" 21 (some 30)], fun _ => true, ∅⟩, .applyJournal,
    .addTrackedTask (sampleTask "c" 22 none), .update ⟨[sampleTask "b" 25 (some 26)], fun _ => true, ∅⟩]

theorem getTasks_listedOnce_recordAfterActive :
    ∃ fs, Run (StepWhen tenSecondCache (Orderly tenSecondCache SampleRecord)) Files.empty recordAfterActive fs ∧
      ArchiveFollows fs ∧ ListedOnce fs := by
  refine Run.exists_imp (P := ArchiveFollows) ?_ fun fs run follows =>
    ⟨follows, (getTasks_listedOnce_iff sampleRecord_consistent run).mpr follows⟩
  refine ⟨_, .cons ⟨⟨trivial, trivial⟩, rfl⟩ (.cons ⟨⟨trivial, fun t ht => ?_⟩, rfl⟩
    (.cons ⟨⟨trivial, trivial⟩, rfl⟩ (.cons ⟨⟨trivial, rfl⟩, rfl⟩
      (.cons ⟨⟨trivial, fun t ht => ?_⟩, rfl⟩ (.nil _))))), by decide⟩
  · exact .inl (mem_singleton.mp ht)
  · exact .inr (mem_singleton.mp ht)

/-- While a task of second 22 is running, an archived record of second 25 comes into the journal again, and is listed
twice. -/
theorem getTasks_lists_task_twice :
    ∃ fs, Run (StepWhen tenSecondCache (Orderly tenSecondCache SampleRecord)) Files.empty
        [.init 20, .update ⟨[sampleTask "c" 22 none, sampleTask "b" 25 (some 26)], fun _ => true, ∅⟩, .applyJournal,
          .update ⟨[sampleTask "c" 22 none, sampleTask "b" 25 (some 26)], fun _ => true, ∅⟩] fs ∧
      getTasks .all fs = [sampleTask "b" 25 (some 26), sampleTask "c" 22 none, sampleTask "b" 25 (some 26)] ∧
      ¬ ListedOnce fs := by
  have brings : Brings SampleRecord
      (.update ⟨[sampleTask "c" 22 none, sampleTask "b" 25 (some 26)], fun _ => true, ∅⟩) :=
    fun t ht => .inr (mem_singleton.mp ht)
  refine ⟨_, .cons ⟨⟨trivial, trivial⟩, rfl⟩ (.cons ⟨⟨trivial, brings⟩, rfl⟩ (.cons ⟨⟨trivial, trivial⟩, rfl⟩
    (.cons ⟨⟨trivial, brings⟩, rfl⟩ (.nil _)))), ?_, ?_⟩
  · decide
  · decide

end Nexus.RemoteTasks
