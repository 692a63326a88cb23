import Nexus.RemoteTasks.Coverage
import Nexus.RemoteTasks.Listing

/-!
# What the archive files hold

Two facts that the readers of the archive rely on. Every file of the directory is strictly sorted and holds nothing
below its lower bound, in every state that the operations reach (`ordered_of_run`). And applying the journal moves
records without changing what is read: only those older than the oldest file are given up
(`applyJournal_transparent`).
-/

namespace Nexus.RemoteTasks

open Lib

/-! ## The order of a file -/

/-- Strictly sorted, and nothing below its bound. -/
structure Ordered (f : ArchiveFile) : Prop where
  sorted : f.tasks.Pairwise fun a b => compareTasksReverse a b = .lt
  bounded : ∀ t ∈ f.tasks, f.starttime ≤ t.starttime

def Archive.all (a : Archive) : List ArchiveFile := a.files ++ a.leftovers

variable {f : ArchiveFile}

theorem sorted_iff_desc {ts} : (ts.Pairwise fun a b => compareTasksReverse a b = .lt) ↔ Desc taskKey ts := by
  simp only [Desc, compareTasksReverse, compareTasks_eq, compare_lt_iff_lt]

theorem ordered_of_empty (h : f.tasks = []) : Ordered f := by
  constructor <;> simp [h]

/-! ## Files that are not listed -/

variable {cache : TaskCache} {fs : Files} {a : Archive} {compress : Bool}

theorem leftovers_newFile {now} (h : f ∈ (a.newFile now compress).leftovers) : f ∈ a.all ∨ f.tasks = [] := by
  simp only [Archive.newFile, Archive.leftoversWith] at h
  split at h
  · exact .inl (List.mem_append_right _ h)
  · next g hg =>
    split at h
    · exact .inl (List.mem_append_right _ h)
    · rcases List.mem_cons.mp h with rfl | h
      · split
        · exact .inl (List.mem_append_left _ (List.mem_of_find?_eq_some hg))
        · exact .inr rfl
      · exact .inl (List.mem_append_right _ (List.mem_filter.mp h).1)

theorem all_newFile_empty {now} (h : ∀ f ∈ a.all, f.tasks = []) : ∀ f ∈ (a.newFile now compress).all, f.tasks = [] := by
  intro f hf
  rcases List.mem_append.mp hf with hf | hf
  · rcases mem_of_mem_listFile hf with rfl | hf
    · rfl
    · exact h f (List.mem_append_left _ hf)
  · exact (leftovers_newFile hf).elim (h f) id

theorem leftovers_rotate (now : Int) : (rotate cache now fs).1.archive.leftovers = [] := by
  change (startRotation cache now fs).archive.leftovers = []
  cases hd : rotationDue cache now fs.archive.files with
  | false => rw [startRotation_of_not_due hd]; rfl
  | true =>
    have none : fs.archive.files.find? (·.starttime = now) = none := by
      refine List.find?_eq_none.mpr fun g hg => ?_
      have := lt_of_rotationDue hd g hg
      simp only [decide_eq_true_eq]
      omega
    rw [startRotation_of_due hd]
    simp [applyJournal, requestRepair, Files.withNewFile, Files.withoutLeftovers, Archive.newFile,
      Archive.leftoversWith, none]

theorem leftovers_apply (op : Op) (h : ∀ f ∈ fs.archive.leftovers, f.tasks = []) :
    ∀ f ∈ (op.apply cache fs).archive.leftovers, f.tasks = [] := by
  cases op with
  | init =>
    simp only [Op.apply, init]
    split
    · next he =>
      intro f hf
      have start : ∀ f ∈ fs.archive.all, f.tasks = [] := by
        simpa [Archive.all, he] using h
      exact List.foldlRecOn (motive := fun a : Archive => ∀ f ∈ a.all, f.tasks = []) _ _ start
        (fun a ha i _ => all_newFile_empty ha) f (List.mem_append_right _ hf)
    · exact h
  | update u =>
    have e : (update cache u fs).archive.leftovers = fs.archive.leftovers := by
      rcases update_cases cache u fs with e | e <;> rw [e] <;> rfl
    simpa only [Op.apply, e] using h
  | addTrackedTask => exact h
  | applyJournal => exact h
  | rotate => simp [Op.apply, leftovers_rotate]

/-! ## Every file, in every run -/

variable {U : TaskCacheItem → Prop} {fs : Files}

structure KeptInOrder (U : TaskCacheItem → Prop) (fs : Files) : Prop where
  kept : Kept U fs
  bounded : ∀ f ∈ fs.archive.files, ∀ t ∈ f.tasks, f.starttime ≤ t.starttime
  leftovers : ∀ f ∈ fs.archive.leftovers, f.tasks = []

theorem bounded_apply (op : Op) (h : ∀ f ∈ fs.archive.files, ∀ t ∈ f.tasks, f.starttime ≤ t.starttime) :
    ∀ f ∈ (op.apply cache fs).archive.files, ∀ t ∈ f.tasks, f.starttime ≤ t.starttime := by
  intro f hf t ht
  obtain ⟨old, added, hold, -, hadded, e⟩ := mem_files_apply op hf
  rw [e] at ht
  rcases mem_of_mem_merge _ _ ht with ht | ht
  · rcases hold with rfl | ⟨g, hg, hs, rfl⟩
    · exact absurd ht List.not_mem_nil
    · exact hs ▸ h g hg t ht
  · exact hadded t ht

theorem keptInOrder_empty : KeptInOrder U Files.empty where
  kept := ⟨⟨by simp [Files.empty], by simp [Files.empty, Files.archived]⟩, by simp [Files.empty], by simp [Files.empty]⟩
  bounded := by simp [Files.empty]
  leftovers := by simp [Files.empty]

theorem KeptInOrder.ordered (h : KeptInOrder U fs) : ∀ f ∈ fs.archive.all, Ordered f := by
  intro f hf
  rcases List.mem_append.mp hf with hf | hf
  · exact ⟨sorted_iff_desc.mpr (h.kept.sorted f hf), h.bounded f hf⟩
  · exact ordered_of_empty (h.leftovers f hf)

/-- **In every state that operations with consistent records reach, every archive file is strictly sorted and holds
nothing below its lower bound.** -/
theorem ordered_of_run (hU : ∀ a b, U a → U b → a.upid = b.upid → a = b) {ops : List Op}
    (h : Run (StepWhen cache fun _ op => Brings U op) Files.empty ops fs) : ∀ f ∈ fs.archive.all, Ordered f := by
  have inv : KeptInOrder U fs := by
    refine h.invariant (fun fs op fs' inv hst => ?_) keptInOrder_empty
    obtain ⟨hb, rfl⟩ := hst
    exact ⟨kept_apply hU hb inv.kept, bounded_apply op inv.bounded, leftovers_apply op inv.leftovers⟩
  exact inv.ordered

theorem ordered_of_rotated : ∃ fs, Run (StepWhen tenSecondCache fun _ op => Brings SampleRecord op) Files.empty
        [.init 20, .update ⟨[sampleTask "b" 25 (some 26), sampleTask "a" 21 (some 30)], fun _ => true, ∅⟩,
          .applyJournal, .update ⟨[sampleTask "b" 25 (some 26)], fun _ => true, ∅⟩, .rotate 40] fs ∧
      fs.archived = [sampleTask "b" 25 (some 26), sampleTask "a" 21 (some 30)] ∧ ∀ f ∈ fs.archive.all, Ordered f := by
  refine Run.exists_imp (P := fun fs => fs.archived = [sampleTask "b" 25 (some 26), sampleTask "a" 21 (some 30)]) ?_
    fun fs run e => ⟨e, ordered_of_run sampleRecord_consistent run⟩
  refine ⟨_, .cons ⟨trivial, rfl⟩ (.cons ⟨fun t ht => ?_, rfl⟩ (.cons ⟨trivial, rfl⟩
    (.cons ⟨fun t ht => ?_, rfl⟩ (.cons ⟨trivial, rfl⟩ (.nil _))))), by decide⟩
  · have ht : t ∈ [sampleTask "b" 25 (some 26), sampleTask "a" 21 (some 30)] := ht
    simpa [SampleRecord, or_comm] using ht
  · exact .inr (List.mem_singleton.mp ht)

/-! ## Applying the journal -/

def archivedTasks (fs : Files) : List TaskCacheItem := merge compareTasks (sortedJournal fs.journal) fs.archived

/-- The archive does not go back to the task. -/
def TooOld (fs : Files) (t : TaskCacheItem) : Prop := ∃ b, oldestBound fs = some b ∧ t.starttime < b

variable {t : TaskCacheItem}

theorem mem_archivedTasks (hc : Consistent (fs.journal ++ fs.archived)) :
    t ∈ archivedTasks fs ↔ t ∈ fs.journal ∨ t ∈ fs.archived := by
  constructor
  · intro h
    simpa using mem_of_mem_merge _ _ h
  · rintro (h | h)
    · exact mem_merge_left _ _ (mem_sortedJournal.mpr h)
    · rcases mem_merge_or_sameTask (sortedJournal fs.journal) h with hm | ⟨y, hy, e⟩
      · exact hm
      · -- the journal's record of the key is the archived one
        have hyj := mem_sortedJournal.mp hy
        have same : y = t := hc y (List.mem_append_left _ hyj) t (List.mem_append_right _ h) e
        exact same ▸ mem_merge_left _ _ hy

theorem mem_archived_of_applyJournal (h : t ∈ (applyJournal fs).archived) :
    t ∈ fs.archived ∨ t ∈ fs.journal ∧ ∃ g ∈ fs.archive.files, g.starttime ≤ t.starttime := by
  obtain ⟨f, hf, ht⟩ := mem_archived.mp h
  rw [applyJournal_files] at hf
  obtain ⟨g, hg, rfl⟩ := List.mem_map.mp hf
  rw [mergeSingleArchiveFile_tasks] at ht
  rcases mem_of_mem_merge _ _ ht with ht | ht
  · exact .inl (mem_archived.mpr ⟨g, hg, ht⟩)
  · obtain ⟨hj, home⟩ := List.mem_filter.mp ht
    have home : Home fs.archive.files t g := by simpa using home
    exact .inr ⟨mem_sortedJournal.mp hj, g, hg, home.1⟩

theorem oldestBound_le {b} (hb : oldestBound fs = some b) {g} (hg : g ∈ fs.archive.files) : b ≤ g.starttime := by
  obtain ⟨last, hl, rfl⟩ := Option.map_eq_some_iff.mp hb
  obtain ⟨front, e⟩ := List.getLast?_eq_some_iff.mp hl
  have desc := fs.archive.descending
  rw [e] at desc hg
  rcases List.mem_append.mp hg with hg | hg
  · exact le_of_lt ((List.pairwise_append.mp desc).2.2 g hg last List.mem_cons_self)
  · rw [List.mem_singleton.mp hg]

theorem not_tooOld_iff (hne : fs.archive.files ≠ []) :
    ¬ TooOld fs t ↔ ∃ g ∈ fs.archive.files, g.starttime ≤ t.starttime := by
  constructor
  · intro h
    by_contra hnone
    exact h (lt_oldestBound hne hnone)
  · rintro ⟨g, hg, hle⟩ ⟨b, hb, hlt⟩
    have := oldestBound_le hb hg
    omega

theorem not_tooOld_of_ordered (h : ∀ f ∈ fs.archive.all, Ordered f) : ∀ t ∈ fs.archived, ¬ TooOld fs t := by
  intro t ht
  obtain ⟨f, hf, htf⟩ := mem_archived.mp ht
  have hle := (h f (List.mem_append_left _ hf)).bounded t htf
  exact (not_tooOld_iff (List.ne_nil_of_mem hf)).mpr ⟨f, hf, hle⟩

theorem mem_archived_applyJournal_iff (hc : Consistent (fs.journal ++ fs.archived)) : t ∈ (applyJournal fs).archived ↔
    t ∈ fs.archived ∨ t ∈ fs.journal ∧ ∃ g ∈ fs.archive.files, g.starttime ≤ t.starttime := by
  constructor
  · exact mem_archived_of_applyJournal
  · rintro (h | ⟨h, hold⟩)
    · exact mem_archived_applyJournal h
    · rcases exists_archived_applyJournal h hold with ha | ⟨y, hy, e⟩
      · exact ha
      · have same : y = t := hc y (List.mem_append_right _ hy) t (List.mem_append_left _ h) e
        exact same ▸ mem_archived_applyJournal hy

theorem mem_archivedTasks_applyJournal : t ∈ archivedTasks (applyJournal fs) ↔ t ∈ (applyJournal fs).archived := by
  simp [archivedTasks, sortedJournal, sortDesc, dedup]

theorem mem_files_applyJournal_of_away (hf : f ∈ fs.archive.files)
    (away : ∀ t ∈ fs.journal, ¬ Home fs.archive.files t f) : f ∈ (applyJournal fs).archive.files := by
  have none : (sortedJournal fs.journal).filter (Home fs.archive.files · f) = [] := by
    refine List.filter_eq_nil_iff.mpr fun t ht => ?_
    simpa using away t (mem_sortedJournal.mp ht)
  rw [applyJournal_files]
  exact List.mem_map.mpr ⟨f, hf, by rw [none, mergeSingleArchiveFile_nil]⟩

/-- **Applying the journal is transparent**: afterwards exactly the archived records are read and those of the journal
that are not too old, and a file that gets no record is as before. -/
theorem applyJournal_transparent (hne : fs.archive.files ≠ []) (hc : Consistent (fs.journal ++ fs.archived)) :
    (∀ t, t ∈ archivedTasks (applyJournal fs) ↔ t ∈ fs.archived ∨ t ∈ fs.journal ∧ ¬ TooOld fs t) ∧
    ((∀ t ∈ fs.archived, ¬ TooOld fs t) → {t | t ∈ archivedTasks (applyJournal fs)} =
        {t | t ∈ archivedTasks fs} \ {t | t ∈ fs.journal ∧ TooOld fs t}) ∧ (applyJournal fs).journal = [] ∧
    ∀ f ∈ fs.archive.files, (∀ t ∈ fs.journal, ¬ Home fs.archive.files t f) → f ∈ (applyJournal fs).archive.files := by
  have read : ∀ t, t ∈ archivedTasks (applyJournal fs) ↔ t ∈ fs.archived ∨ t ∈ fs.journal ∧ ¬ TooOld fs t :=
    fun t => by rw [mem_archivedTasks_applyJournal, mem_archived_applyJournal_iff hc, not_tooOld_iff hne]
  refine ⟨read, fun young => ?_, rfl, fun f hf away => mem_files_applyJournal_of_away hf away⟩
  ext t
  simp only [Set.mem_ofPred_eq, Set.mem_sdiff, read, mem_archivedTasks hc]
  have := young t
  tauto

def beforeApply : Files :=
  { init tenSecondCache 20 Files.empty with
    journal := [sampleTask "a" 21 (some 30), sampleTask "b" (-5) (some 1), sampleTask "a" 21 (some 30)] }

theorem applyJournal_transparent_beforeApply : {t | t ∈ archivedTasks (applyJournal beforeApply)} =
      {t | t ∈ archivedTasks beforeApply} \ {t | t ∈ beforeApply.journal ∧ TooOld beforeApply t} ∧
    archivedTasks beforeApply = [sampleTask "a" 21 (some 30), sampleTask "b" (-5) (some 1)] ∧
    archivedTasks (applyJournal beforeApply) = [sampleTask "a" 21 (some 30)] := by
  have consistent : Consistent (beforeApply.journal ++ beforeApply.archived) := by
    unfold Consistent SameTask
    decide
  have ordered : ∀ f ∈ beforeApply.archive.all, Ordered f := fun f hf => ordered_of_empty <| by
    have : beforeApply.archive.all.all (·.tasks = []) := by decide
    simpa using List.all_eq_true.mp this f hf
  have young := not_tooOld_of_ordered ordered
  exact ⟨(applyJournal_transparent (by decide) consistent).2.1 young, by decide, by decide⟩

end Nexus.RemoteTasks
