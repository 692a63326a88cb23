import Nexus.Lib.Run
import Nexus.RemoteTasks.Update

/-!
# One archive file per task

Applying the journal puts a task into the file with the greatest lower bound that does not exceed its start time, but a
rotation may start a file that a task already archived belongs to. `archived_only_at_home` is the invariant for the runs
whose rotations do not, `rotate_misplaces_task` a run whose rotation does.
-/

namespace Nexus.RemoteTasks

open Lib List

/-! ## Operations -/

inductive Op
  | init (now : Int)
  | update (u : UpdateArgs)
  | addTrackedTask (task : TaskCacheItem)
  | applyJournal
  | rotate (now : Int)

variable (cache : TaskCache)

def Op.apply : Op → Files → Files
  | .init now, fs => RemoteTasks.init cache now fs
  | .update u, fs => RemoteTasks.update cache u fs
  | .addTrackedTask task, fs => RemoteTasks.addTrackedTask task fs
  | .applyJournal, fs => RemoteTasks.applyJournal fs
  | .rotate now, fs => (RemoteTasks.rotate cache now fs).1

def StepWhen (C : Files → Op → Prop) (fs : Files) (op : Op) (fs' : Files) : Prop := C fs op ∧ fs' = op.apply cache fs

def Op.journal : Op → Files → List TaskCacheItem
  | .update u, fs => fs.journal ++ (u.write cache fs).written
  | _, fs => fs.journal

/-! ## What an operation does to an archive file -/

def GrownFrom (files : List ArchiveFile) (js : List TaskCacheItem) (f : ArchiveFile) : Prop :=
  ∃ old added, (old = [] ∨ ∃ g ∈ files, g.starttime = f.starttime ∧ g.tasks = old) ∧ added.Sublist js ∧
    (∀ t ∈ added, f.starttime ≤ t.starttime) ∧ f.tasks = merge compareTasks old added

variable {cache} {fs : Files} {files gs : List ArchiveFile} {js : List TaskCacheItem} {f g : ArchiveFile}

theorem grownFrom_of_mem (h : f ∈ files) : GrownFrom files js f :=
  ⟨f.tasks, [], .inr ⟨f, h, rfl, rfl⟩, nil_sublist _, by simp, (merge_nil_right _ _).symm⟩

theorem grownFrom_of_empty (h : f.tasks = []) : GrownFrom files js f :=
  ⟨[], [], .inl rfl, nil_sublist _, by simp, by simpa using h⟩

theorem GrownFrom.congr (h : GrownFrom files js f) (hs : f.starttime = g.starttime) (ht : f.tasks = g.tasks) :
    GrownFrom files js g := by
  unfold GrownFrom at h ⊢
  rwa [hs, ht] at h

theorem mem_of_contents (e : contents files = contents gs) (h : f ∈ files) :
    ∃ g ∈ gs, g.starttime = f.starttime ∧ g.tasks = f.tasks := by
  have hm : (f.starttime, f.tasks) ∈ contents gs := e ▸ mem_map.mpr ⟨f, h, rfl⟩
  obtain ⟨g, hg, e⟩ := mem_map.mp hm
  exact ⟨g, hg, (Prod.mk.inj e).1, (Prod.mk.inj e).2⟩

theorem grownFrom_applyJournal (h : f ∈ (applyJournal fs).archive.files) :
    GrownFrom fs.archive.files (sortedJournal fs.journal) f := by
  rw [applyJournal_files] at h
  obtain ⟨g, hg, rfl⟩ := mem_map.mp h
  refine ⟨g.tasks, _, .inr ⟨g, hg, by simp, rfl⟩, filter_sublist, fun t ht => ?_, mergeSingleArchiveFile_tasks _ _⟩
  have home : Home fs.archive.files t g := by simpa using (mem_filter.mp ht).2
  simpa using home.1

theorem GrownFrom.of_new (hg : g.tasks = []) (h : GrownFrom (g :: files) js f) : GrownFrom files js f := by
  obtain ⟨old, added, hold, rest⟩ := h
  refine ⟨old, added, ?_, rest⟩
  rcases hold with hold | ⟨k, hk, hs, ht⟩
  · exact .inl hold
  · rcases mem_cons.mp hk with rfl | hk
    · exact .inl (ht.symm.trans hg)
    · exact .inr ⟨k, hk, hs, ht⟩

theorem grownFrom_rotate {now} (h : f ∈ (rotate cache now fs).1.archive.files) :
    GrownFrom fs.archive.files (sortedJournal fs.journal) f := by
  obtain ⟨g, hg, hs, ht⟩ := mem_of_contents contents_rotate h
  refine GrownFrom.congr ?_ hs ht
  have hg := mem_of_mem_take hg
  cases hd : rotationDue cache now fs.archive.files with
  | true =>
    rw [startRotation_of_due hd] at hg
    have grown := grownFrom_applyJournal hg
    rw [withNewFile_files hd] at grown
    exact grown.of_new rfl
  | false =>
    rw [startRotation_of_not_due hd] at hg
    exact grownFrom_of_mem hg

theorem grownFrom_init {now} (h : f ∈ (init cache now fs).archive.files) : GrownFrom fs.archive.files js f := by
  rcases init_files cache now fs with e | he
  · exact grownFrom_of_mem (e ▸ h)
  · exact grownFrom_of_empty (he f h)

theorem grownFrom_update {u} (h : f ∈ (update cache u fs).archive.files) :
    GrownFrom fs.archive.files (sortedJournal (fs.journal ++ (u.write cache fs).written)) f := by
  rcases update_cases cache u fs with e | e <;> rw [e] at h
  · exact grownFrom_of_mem h
  · exact grownFrom_applyJournal h

/-- **What an operation does to an archive file.** -/
theorem mem_files_apply (op : Op) (h : f ∈ (op.apply cache fs).archive.files) :
    GrownFrom fs.archive.files (sortedJournal (op.journal cache fs)) f := by
  cases op with
  | init => exact grownFrom_init h
  | update => exact grownFrom_update h
  | addTrackedTask => exact grownFrom_of_mem h
  | applyJournal => exact grownFrom_applyJournal h
  | rotate => exact grownFrom_rotate h

theorem mem_journal_apply {op : Op} {t : TaskCacheItem} (h : t ∈ (op.apply cache fs).journal) :
    t ∈ op.journal cache fs := by
  cases op with
  | init => simpa [Op.apply, Op.journal] using h
  | update u =>
    change t ∈ (update cache u fs).journal at h
    rcases update_cases cache u fs with e | e <;> rw [e] at h
    · exact h
    · simp at h
  | addTrackedTask => exact h
  | applyJournal => simp [Op.apply] at h
  | rotate now =>
    simp only [Op.apply, rotate_journal] at h
    cases hd : rotationDue cache now fs.archive.files with
    | true => simp [startRotation_of_due hd] at h
    | false => simpa [startRotation_of_not_due hd, Op.journal] using h

theorem mem_archived {t} : t ∈ fs.archived ↔ ∃ f ∈ fs.archive.files, t ∈ f.tasks :=
  mem_flatMap

structure RecordsHold (P : TaskCacheItem → Prop) (fs : Files) : Prop where
  journal : ∀ t ∈ fs.journal, P t
  archived : ∀ t ∈ fs.archived, P t

theorem recordsHold_apply {P : TaskCacheItem → Prop} (op : Op) (h : RecordsHold P fs)
    (hj : ∀ t ∈ op.journal cache fs, P t) : RecordsHold P (op.apply cache fs) := by
  refine ⟨fun t ht => hj t (mem_journal_apply ht), fun t ht => ?_⟩
  obtain ⟨f, hf, ht⟩ := mem_archived.mp ht
  obtain ⟨old, added, hold, hadded, -, e⟩ := mem_files_apply op hf
  rw [e] at ht
  rcases mem_of_mem_merge _ _ ht with ht | ht
  · rcases hold with rfl | ⟨g, hg, -, rfl⟩
    · exact absurd ht not_mem_nil
    · exact h.archived t (mem_archived.mpr ⟨g, hg, ht⟩)
  · exact hj t (mem_sortedJournal.mp (hadded.subset ht))

theorem mem_op_journal (op : Op) {t} (h : t ∈ op.journal cache fs) :
    t ∈ fs.journal ∨ ∃ u, op = .update u ∧ t ∈ u.finished := by
  cases op with
  | update u =>
    rcases mem_append.mp h with h | h
    · exact .inl h
    · rw [UpdateArgs.write_written] at h
      exact .inr ⟨u, rfl, (mem_filter.mp h).1⟩
  | init => exact .inl h
  | addTrackedTask => exact .inl h
  | applyJournal => exact .inl h
  | rotate => exact .inl h

/-! ## Every task at home -/

def Placed (fs : Files) : Prop := ∀ f ∈ fs.archive.files, ∀ t ∈ f.tasks, Home fs.archive.files t f

variable {t : TaskCacheItem}

theorem Home.mono {all f'} (h : Home all t f)
    (hf : f.starttime = f'.starttime) (hsub : ∀ g ∈ files, ∃ k ∈ all, k.starttime = g.starttime) : Home files t f' := by
  refine ⟨hf ▸ h.1, fun g hg hgt => ?_⟩
  obtain ⟨k, hk, e⟩ := hsub g hg
  rw [← e] at hgt ⊢
  exact hf ▸ h.2 k hk hgt

theorem mem_take_applyJournal (n : Nat) (h : f ∈ (applyJournal fs).archive.files.take n) :
    ∃ g ∈ fs.archive.files.take n, g.starttime = f.starttime ∧
      ∀ t ∈ f.tasks, t ∈ g.tasks ∨ Home fs.archive.files t g := by
  rw [applyJournal_files, ← map_take] at h
  obtain ⟨g, hg, rfl⟩ := mem_map.mp h
  refine ⟨g, hg, by simp, fun t ht => ?_⟩
  rw [mergeSingleArchiveFile_tasks] at ht
  rcases mem_of_mem_merge _ _ ht with ht | ht
  · exact .inl ht
  · exact .inr (by simpa using (mem_filter.mp ht).2)

theorem placed_applyJournal (h : Placed fs) : Placed (applyJournal fs) := by
  have bounds : ∀ f ∈ (applyJournal fs).archive.files, ∃ g ∈ fs.archive.files, g.starttime = f.starttime ∧
      ∀ t ∈ f.tasks, t ∈ g.tasks ∨ Home fs.archive.files t g := by
    intro f hf
    have hf' : f ∈ (applyJournal fs).archive.files.take (applyJournal fs).archive.files.length := by
      rwa [take_length]
    obtain ⟨g, hg, rest⟩ := mem_take_applyJournal _ hf'
    exact ⟨g, mem_of_mem_take hg, rest⟩
  intro f hf t ht
  obtain ⟨g, hg, hs, hhome⟩ := bounds f hf
  have home : Home fs.archive.files t g := (hhome t ht).elim (h g hg t) id
  refine home.mono hs fun k hk => ?_
  obtain ⟨g, hg, hs, _⟩ := bounds k hk
  exact ⟨g, hg, hs⟩

/-- No task that stays is from after the rotation. -/
def RotatesClear (cache : TaskCache) (fs : Files) : Op → Prop
  | .rotate now => rotationDue cache now fs.archive.files →
      ∀ f ∈ fs.archive.files.take (cache.maxFiles - 1), ∀ t ∈ f.tasks, t.starttime < now
  | _ => True

instance (cache : TaskCache) (fs : Files) : ∀ op, Decidable (RotatesClear cache fs op)
  | .rotate now => inferInstanceAs (Decidable (rotationDue cache now fs.archive.files → _))
  | .init _ | .update _ | .addTrackedTask _ | .applyJournal => inferInstanceAs (Decidable True)

theorem placed_rotate {now} (hc : RotatesClear cache fs (.rotate now)) (h : Placed fs) :
    Placed (rotate cache now fs).1 := by
  cases hd : rotationDue cache now fs.archive.files with
  | false =>
    have kept : ∀ f ∈ (rotate cache now fs).1.archive.files, ∃ g ∈ fs.archive.files,
        g.starttime = f.starttime ∧ g.tasks = f.tasks := by
      intro f hf
      obtain ⟨g, hg, hs⟩ := mem_of_contents contents_rotate hf
      rw [startRotation_of_not_due hd] at hg
      exact ⟨g, mem_of_mem_take hg, hs⟩
    intro f hf t ht
    obtain ⟨g, hg, hs, e⟩ := kept f hf
    refine (h g hg t (e ▸ ht)).mono hs fun k hk => ?_
    obtain ⟨g, hg, hs, _⟩ := kept k hk
    exact ⟨g, hg, hs⟩
  | true =>
    have files := withNewFile_files hd
    have desc := (fs.withoutLeftovers.withNewFile cache now).archive.descending
    have kept : ∀ f ∈ (rotate cache now fs).1.archive.files,
        ∃ g ∈ (fs.withoutLeftovers.withNewFile cache now).archive.files.take cache.maxFiles,
          g.starttime = f.starttime ∧ ∀ t ∈ f.tasks,
            t ∈ g.tasks ∨ Home (fs.withoutLeftovers.withNewFile cache now).archive.files t g := by
      intro f hf
      obtain ⟨k, hk, hs, e⟩ := mem_of_contents contents_rotate hf
      rw [startRotation_of_due hd] at hk
      obtain ⟨g, hg, hs', hhome⟩ := mem_take_applyJournal _ hk
      exact ⟨g, hg, hs'.trans hs, fun t ht => hhome t (e ▸ ht)⟩
    rw [files] at kept desc
    intro f hf t ht
    obtain ⟨g, hg, hs, hhome⟩ := kept f hf
    have home : Home (⟨now, cache.uncompressedFiles = 0, [], false⟩ :: fs.archive.files) t g := by
      rcases hhome t ht with hold | home
      · -- the task was in an old file, and the condition says that it does not belong to the new one
        rcases hm : cache.maxFiles with _ | m
        · simp [hm] at hg
        · rw [hm, take_succ_cons] at hg
          rcases mem_cons.mp hg with rfl | hg
          · exact absurd hold not_mem_nil
          · have hgm := mem_of_mem_take hg
            have lt := hc hd g (by simpa [hm] using hg) t hold
            exact (home_older desc hgm).mpr ⟨lt, h g hgm t hold⟩
      · exact home
    refine home.mono hs fun k hk => ?_
    obtain ⟨g, hg, hs, _⟩ := kept k hk
    exact ⟨g, mem_of_mem_take hg, hs⟩

theorem placed_init {now} (h : Placed fs) : Placed (init cache now fs) := by
  rcases init_files cache now fs with e | he
  · unfold Placed
    rwa [e]
  · intro f hf t ht
    rw [he f hf] at ht
    exact absurd ht not_mem_nil

theorem placed_update {u} (h : Placed fs) : Placed (update cache u fs) := by
  have stored : Placed (u.store cache fs) := h
  rcases update_cases cache u fs with e | e <;> rw [e]
  · exact stored
  · exact placed_applyJournal stored

theorem placed_apply {op} (hc : RotatesClear cache fs op) (h : Placed fs) : Placed (op.apply cache fs) := by
  cases op with
  | init => exact placed_init h
  | update => exact placed_update h
  | addTrackedTask => exact h
  | applyJournal => exact placed_applyJournal h
  | rotate => exact placed_rotate hc h

theorem placed_of_run {ops} (h : Run (StepWhen cache (RotatesClear cache)) Files.empty ops fs) : Placed fs := by
  refine h.invariant (fun fs op fs' hp hst => ?_) ?_
  · obtain ⟨hc, rfl⟩ := hst
    exact placed_apply hc hp
  · exact fun f hf => absurd hf not_mem_nil

/-! ## The result -/

def SameTask (r t : TaskCacheItem) : Prop := r.upid = t.upid ∧ r.starttime = t.starttime

instance (r t : TaskCacheItem) : Decidable (SameTask r t) := inferInstanceAs (Decidable (_ ∧ _))

theorem taskKey_eq_iff_sameTask {r} : taskKey r = taskKey t ↔ SameTask r t :=
  taskKey_eq_iff.trans and_comm

theorem mem_merge_or_sameTask (l) {r} (h : t ∈ r) : t ∈ merge compareTasks l r ∨ ∃ x ∈ l, SameTask x t := by
  refine (mem_merge_right l r h).imp_right fun ⟨x, hx, e⟩ => ⟨x, hx, taskKey_eq_iff_sameTask.mp ?_⟩
  rwa [compareTasks_eq, compare_eq_iff_eq] at e

/-- The archive has the task in the file for its time only. -/
def OnlyAtHome (files : List ArchiveFile) (t : TaskCacheItem) : Prop :=
  ∃ f ∈ files, Home files t f ∧ ∀ g ∈ files, (∃ r ∈ g.tasks, SameTask r t) ↔ g = f

instance (files : List ArchiveFile) (t : TaskCacheItem) : Decidable (OnlyAtHome files t) :=
  inferInstanceAs (Decidable (∃ f ∈ files, _ ∧ _))

/-- **In every run whose rotations find no archived task that belongs to the file they start, every archived task is in
exactly one archive file, the one with the greatest lower bound not exceeding its start time.** -/
theorem archived_only_at_home {ops : List Op} {fs : Files}
    (h : Run (StepWhen cache (RotatesClear cache)) Files.empty ops fs) :
    ∀ t ∈ fs.archived, OnlyAtHome fs.archive.files t := by
  intro t ht
  have placed := placed_of_run h
  obtain ⟨f, hf, htf⟩ := mem_flatMap.mp ht
  refine ⟨f, hf, placed f hf t htf, fun g hg => ⟨?_, ?_⟩⟩
  · rintro ⟨r, hr, -, hs⟩
    have hgf := (placed f hf t htf).2 g hg (hs ▸ (placed g hg r hr).1)
    have hfg := (placed g hg r hr).2 f hf (hs ▸ (placed f hf t htf).1)
    have desc : Desc ArchiveFile.starttime fs.archive.files := fs.archive.descending
    exact desc.eq_of_key_eq hg hf (Int.le_antisymm hgf hfg)
  · rintro rfl
    exact ⟨t, htf, rfl, rfl⟩

def alignTimestamp (now interval : Int) : Int := now - now % interval

def tenSecondCache : TaskCache where
  journalMaxSize := 1000
  maxFiles := 3
  uncompressedFiles := 2
  rotateAfter := 10
  nativeNode := fun _ => some "node"
  lineSize := fun _ => 100

def sampleTask (upid : String) (starttime : Int) (endtime : Option Int) : TaskCacheItem :=
  ⟨⟨"remote", .pve, upid, by decide⟩, starttime, none, endtime⟩

def clearRotation : List Op :=
  [.init (alignTimestamp 25 10), .update ⟨[sampleTask "a" 25 (some 26)], fun _ => true, ∅⟩, .applyJournal,
    .rotate (alignTimestamp 35 10)]

theorem archived_only_at_home_clearRotation :
    ∃ fs, Run (StepWhen tenSecondCache (RotatesClear tenSecondCache)) Files.empty clearRotation fs ∧
      sampleTask "a" 25 (some 26) ∈ fs.archived ∧ OnlyAtHome fs.archive.files (sampleTask "a" 25 (some 26)) := by
  refine Run.exists_imp (P := fun fs => sampleTask "a" 25 (some 26) ∈ fs.archived) ?_
    fun fs run ht => ⟨ht, archived_only_at_home run _ ht⟩
  exact ⟨_, .cons ⟨trivial, rfl⟩ (.cons ⟨trivial, rfl⟩ (.cons ⟨trivial, rfl⟩ (.cons ⟨by decide, rfl⟩ (.nil _)))),
    by decide⟩

/-- A task of second 31 is archived before the rotation at second 35 starts the file of second 30, and later in the new
file too. -/
theorem rotate_misplaces_task : ∃ fs, Run (StepWhen tenSecondCache fun _ _ => True) Files.empty
    [.init (alignTimestamp 25 10), .update ⟨[sampleTask "a" 31 (some 32)], fun _ => true, ∅⟩, .applyJournal,
      .rotate (alignTimestamp 35 10), .update ⟨[sampleTask "a" 31 (some 32)], fun _ => true, ∅⟩, .applyJournal] fs ∧
    ∃ t ∈ fs.archived, ¬ OnlyAtHome fs.archive.files t := by
  refine ⟨_, .cons ⟨trivial, rfl⟩ (.cons ⟨trivial, rfl⟩ (.cons ⟨trivial, rfl⟩ (.cons ⟨trivial, rfl⟩
    (.cons ⟨trivial, rfl⟩ (.cons ⟨trivial, rfl⟩ (.nil _)))))), sampleTask "a" 31 (some 32), ?_, ?_⟩
  · decide
  · decide

end Nexus.RemoteTasks
