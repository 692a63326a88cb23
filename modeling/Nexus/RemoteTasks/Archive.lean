import Nexus.Lib.SortedMerge
import Nexus.RemoteTasks.Types

/-!
# The archive: applying the journal and rotating

`mergeTasksIntoArchive` walks the tasks and the files at once, both newest first. What comes out is said without the
walk (`mergeTasksIntoArchive_eq`): every file is merged with the tasks that belong to it, and a task belongs to the file
with the greatest lower bound that it does not precede (`Home`).
-/

namespace Nexus.RemoteTasks

open Lib

/-! ## Starting a file -/

def listFile (f : ArchiveFile) : List ArchiveFile → List ArchiveFile
  | [] => [f]
  | g :: gs =>
    if g.starttime < f.starttime then f :: g :: gs
    else if g.starttime = f.starttime then (if g.compressed && !f.compressed then g else f) :: gs
    else g :: listFile f gs

theorem mem_of_mem_listFile {f h} : ∀ {fs}, h ∈ listFile f fs → h = f ∨ h ∈ fs
  | [], hm => .inl (by simpa [listFile] using hm)
  | g :: gs, hm => by
    unfold listFile at hm
    split at hm
    · simpa using hm
    · split at hm
      · rcases List.mem_cons.mp hm with rfl | hm
        · split <;> simp
        · exact .inr (List.mem_cons_of_mem g hm)
      · rcases List.mem_cons.mp hm with rfl | hm
        · exact .inr List.mem_cons_self
        · rcases mem_of_mem_listFile hm with rfl | hm
          · exact .inl rfl
          · exact .inr (List.mem_cons_of_mem g hm)

theorem descending_listFile (f) : ∀ {fs},
    fs.Pairwise (fun f g => g.starttime < f.starttime) → (listFile f fs).Pairwise fun f g => g.starttime < f.starttime
  | [], _ => List.pairwise_singleton _ f
  | g :: gs, h => by
    obtain ⟨hg, hgs⟩ := List.pairwise_cons.mp h
    unfold listFile
    split
    · next hlt =>
      refine List.pairwise_cons.mpr ⟨fun x hx => ?_, h⟩
      rcases List.mem_cons.mp hx with rfl | hx
      · exact hlt
      · exact lt_trans (hg x hx) hlt
    · next notLess =>
      split
      · next heq =>
        refine List.pairwise_cons.mpr ⟨fun x hx => ?_, hgs⟩
        have hx := hg x hx
        split <;> omega
      · next hne =>
        refine List.pairwise_cons.mpr ⟨fun x hx => ?_, descending_listFile f hgs⟩
        rcases mem_of_mem_listFile hx with rfl | hx
        · omega
        · exact hg x hx

def Archive.leftoversWith (a : Archive) (f : ArchiveFile) : List ArchiveFile :=
  match a.files.find? (·.starttime = f.starttime) with
  | none => a.leftovers
  | some g =>
    if g.compressed = f.compressed then a.leftovers
    else (if f.compressed then g else f) :: a.leftovers.filter (·.starttime ≠ f.starttime)

def Archive.newFile (a : Archive) (now : Int) (compress : Bool) : Archive :=
  let f : ArchiveFile := ⟨now, compress, [], false⟩
  ⟨listFile f a.files, a.leftoversWith f, descending_listFile f a.descending⟩

/-! ## The merge iterator -/

def compareTasksReverse (a b : TaskCacheItem) : Ordering := compareTasks b a

structure MergeTaskIterator where
  (left right : List TaskCacheItem)

namespace MergeTaskIterator

def next : MergeTaskIterator → Option (TaskCacheItem × MergeTaskIterator)
  | ⟨l :: left, r :: right⟩ => match compareTasks l r with
    | .gt => some (l, ⟨left, r :: right⟩)
    | .lt => some (r, ⟨l :: left, right⟩)
    | .eq => some (l, ⟨left, right⟩)
  | ⟨l :: left, []⟩ => some (l, ⟨left, []⟩)
  | ⟨[], r :: right⟩ => some (r, ⟨[], right⟩)
  | ⟨[], []⟩ => none

def take : Nat → MergeTaskIterator → List TaskCacheItem × MergeTaskIterator
  | 0, it => ([], it)
  | n + 1, it => match it.next with
    | none => ([], it)
    | some (task, it) => ((take n it).1.cons task, (take n it).2)

theorem next_spec (it : MergeTaskIterator) :
    (it.next = none ∧ it = ⟨[], []⟩) ∨ ∃ task rest, it.next = some (task, rest) ∧
    merge compareTasks it.left it.right = task :: merge compareTasks rest.left rest.right ∧
      rest.left.length + rest.right.length < it.left.length + it.right.length := by
  obtain ⟨_ | ⟨l, left⟩, _ | ⟨r, right⟩⟩ := it
  · exact .inl ⟨rfl, rfl⟩
  · exact .inr ⟨r, ⟨[], right⟩, rfl, by simp⟩
  · exact .inr ⟨l, ⟨left, []⟩, rfl, by simp⟩
  · cases h : compareTasks l r with
    | gt => exact .inr ⟨l, ⟨left, r :: right⟩, by simp only [next, h], merge_gt h left right, by simp⟩
    | lt => exact .inr ⟨r, ⟨l :: left, right⟩, by simp only [next, h], merge_lt h left right, by simp⟩
    | eq => exact .inr ⟨l, ⟨left, right⟩, by simp only [next, h], merge_eq h left right, by simp; omega⟩

theorem take_eq_merge (n : Nat) : ∀ it, it.left.length + it.right.length ≤ n →
    take n it = (merge compareTasks it.left it.right, ⟨[], []⟩) := by
  induction n with
  | zero =>
    intro it hn
    obtain ⟨-, rfl⟩ | ⟨task, rest, -, -, hlt⟩ := it.next_spec
    · rfl
    · omega
  | succ _ ih =>
    intro it hn
    obtain ⟨-, rfl⟩ | ⟨task, rest, hnext, hmerge, hlt⟩ := it.next_spec
    · rfl
    · simp only [take, hnext, hmerge, ih rest (by omega)]

end MergeTaskIterator

def SortedReverse (tasks : List TaskCacheItem) : Prop := tasks.Pairwise fun a b => compareTasksReverse a b ≠ .gt

instance (tasks : List TaskCacheItem) : Decidable (SortedReverse tasks) :=
  inferInstanceAs (Decidable (List.Pairwise _ _))

theorem sortedReverse_iff {tasks} : SortedReverse tasks ↔ tasks.Pairwise fun a b => taskKey b ≤ taskKey a := by
  unfold SortedReverse compareTasksReverse
  simp only [compareTasks_eq, compare_le_iff_le]

def withKey (starttime : Int) (upid : RemoteUpid) (tasks : List TaskCacheItem) : List TaskCacheItem :=
  tasks.filter fun t => t.starttime = starttime ∧ t.upid = upid

/-- **Of two sorted lists the iterator produces a sorted one and then ends; each task is in it as often as in the list
that has it more often, first with the records of the left list.** -/
theorem mergeTaskIterator_produces (left right : List TaskCacheItem) (hleft : SortedReverse left)
    (hright : SortedReverse right) : ∃ produced, SortedReverse produced ∧
      (∀ n, left.length + right.length ≤ n → MergeTaskIterator.take n ⟨left, right⟩ = (produced, ⟨[], []⟩)) ∧
      ∀ starttime upid, (withKey starttime upid produced).length =
          max (withKey starttime upid left).length (withKey starttime upid right).length ∧
        withKey starttime upid produced = withKey starttime upid left ++
          (withKey starttime upid right).drop (withKey starttime upid left).length := by
  rw [sortedReverse_iff] at hleft hright
  refine ⟨merge compareTasks left right, ?_, fun n hn => MergeTaskIterator.take_eq_merge n ⟨left, right⟩ hn,
    fun starttime upid => ?_⟩
  · rw [sortedReverse_iff]
    exact pairwise_merge compareTasks_eq (fun _ _ => le_of_lt) (fun _ _ _ hab hbc => (lt_of_le_of_lt hab hbc).le) _ _
      hleft hright
  · have hkey : ∀ tasks, withKey starttime upid tasks =
        tasks.filter (taskKey · = toLex (starttime, OrderDual.toDual upid.toString)) := fun tasks => by
      refine List.filter_congr fun t _ => decide_eq_decide.mpr ?_
      exact (taskKey_eq_iff (a := t) (b := ⟨upid, starttime, none, none⟩)).symm
    have hwith := filter_key_merge compareTasks_eq (toLex (starttime, OrderDual.toDual upid.toString)) left right
      hleft hright
    rw [← hkey, ← hkey, ← hkey] at hwith
    refine ⟨?_, hwith⟩
    rw [hwith, List.length_append, List.length_drop]
    omega

/-- Of a task that the right list has twice, one record gives way to the left one. -/
theorem mergeTaskIterator_produces_left_first : let upid : RemoteUpid := ⟨"east", .pve, "UPID:n", by decide⟩
    let task (status : String) : TaskCacheItem := ⟨upid, 7, some status, none⟩
    ∃ produced, (∀ n, 3 ≤ n → MergeTaskIterator.take n ⟨[task "l"], [task "r", task "s"]⟩ = (produced, ⟨[], []⟩)) ∧
      withKey 7 upid produced = [task "l", task "s"] := by
  intro upid task
  obtain ⟨produced, -, htake, hkeys⟩ := mergeTaskIterator_produces [task "l"] [task "r", task "s"] (by decide)
    (by decide)
  exact ⟨produced, htake, (hkeys 7 upid).2⟩

/-! ## Merging tasks into the archive -/

inductive ArchiveFileState
  | valid
  | corrupted
  deriving DecidableEq

def mergeSingleArchiveFile (tasks : List TaskCacheItem) (file : ArchiveFile) : ArchiveFile × ArchiveFileState :=
  if tasks = [] then (file, .valid)
  else
    ({ file with tasks := merge compareTasks file.tasks tasks, corrupted := false },
      if file.corrupted then .corrupted else .valid)

@[simp] theorem mergeSingleArchiveFile_nil (file) : mergeSingleArchiveFile [] file = (file, .valid) := if_pos rfl

structure MergeWalk where
  done : List (ArchiveFile × ArchiveFileState)
  current : ArchiveFile
  tasksForCurrentFile : List TaskCacheItem
  next : List ArchiveFile

def skipAhead (task : TaskCacheItem) (done : List (ArchiveFile × ArchiveFileState)) (current : ArchiveFile)
    (tasksForCurrentFile : List TaskCacheItem) : List ArchiveFile → MergeWalk
  | [] => ⟨done, current, tasksForCurrentFile, []⟩
  | next :: files =>
    if current.starttime ≤ task.starttime then ⟨done, current, tasksForCurrentFile, next :: files⟩
    else skipAhead task (done ++ [mergeSingleArchiveFile tasksForCurrentFile current]) next [] files

def MergeWalk.step (w : MergeWalk) (task : TaskCacheItem) : MergeWalk :=
  let w := skipAhead task w.done w.current w.tasksForCurrentFile w.next
  if task.starttime < w.current.starttime then w
  else { w with tasksForCurrentFile := w.tasksForCurrentFile ++ [task] }

def MergeWalk.finish (w : MergeWalk) : List (ArchiveFile × ArchiveFileState) :=
  w.done ++ mergeSingleArchiveFile w.tasksForCurrentFile w.current :: w.next.map fun f => (f, .valid)

def mergeTasksIntoArchive (tasks : List TaskCacheItem) : List ArchiveFile → List (ArchiveFile × ArchiveFileState)
  | [] => []
  | f :: fs => (tasks.foldl MergeWalk.step ⟨[], f, [], fs⟩).finish

/-! ### What the walk computes -/

/-- The file with the greatest bound that does not exceed the start time. -/
def Home (files : List ArchiveFile) (t : TaskCacheItem) (f : ArchiveFile) : Prop :=
  f.starttime ≤ t.starttime ∧ ∀ g ∈ files, g.starttime ≤ t.starttime → g.starttime ≤ f.starttime

instance (files : List ArchiveFile) (t : TaskCacheItem) (f : ArchiveFile) : Decidable (Home files t f) :=
  inferInstanceAs (Decidable (_ ∧ _))

variable {f g : ArchiveFile} {gs : List ArchiveFile} {t : TaskCacheItem}

section

variable (done : List (ArchiveFile × ArchiveFileState)) (collected : List TaskCacheItem)
  (h : (f :: gs).Pairwise fun f g => g.starttime < f.starttime)

section

variable {ts : List TaskCacheItem}

include h

theorem home_newest : Home (f :: gs) t f ↔ f.starttime ≤ t.starttime := by
  refine ⟨And.left, fun hf => ⟨hf, fun g hg _ => ?_⟩⟩
  rcases List.mem_cons.mp hg with rfl | hg
  · exact Int.le_refl _
  · exact Int.le_of_lt ((List.pairwise_cons.mp h).1 g hg)

theorem home_older (hg : g ∈ gs) : Home (f :: gs) t g ↔ t.starttime < f.starttime ∧ Home gs t g := by
  have hgf := (List.pairwise_cons.mp h).1 g hg
  constructor
  · intro ⟨hgt, hmax⟩
    have hf := hmax f List.mem_cons_self
    exact ⟨by omega, hgt, fun k hk => hmax k (List.mem_cons_of_mem f hk)⟩
  · intro ⟨htf, hgt, hmax⟩
    refine ⟨hgt, fun k hk hkt => ?_⟩
    rcases List.mem_cons.mp hk with rfl | hk
    · omega
    · exact hmax k hk hkt

theorem filter_home_older (hg : g ∈ gs) (hts : ∀ t ∈ ts, t.starttime < f.starttime) :
    ts.filter (Home (f :: gs) · g) = ts.filter (Home gs · g) := by
  refine List.filter_congr fun t ht => ?_
  simp [home_older h hg, hts t ht]

theorem filter_home_newest_eq_nil (hts : ∀ t ∈ ts, t.starttime < f.starttime) :
    ts.filter (Home (f :: gs) · f) = [] := by
  refine List.filter_eq_nil_iff.mpr fun t ht => ?_
  have := hts t ht
  simp only [home_newest h, decide_eq_true_eq]
  omega

end

theorem step_of_le (h : f.starttime ≤ t.starttime) :
    MergeWalk.step ⟨done, f, collected, gs⟩ t = ⟨done, f, collected ++ [t], gs⟩ := by
  cases gs <;> simp [MergeWalk.step, skipAhead, h, Int.not_lt.mpr h]

theorem step_of_lt
    (h : t.starttime < f.starttime) : MergeWalk.step ⟨done, f, collected, []⟩ t = ⟨done, f, collected, []⟩ := by
  simp [MergeWalk.step, skipAhead, h]

theorem step_next (h : t.starttime < f.starttime) : MergeWalk.step ⟨done, f, collected, g :: gs⟩ t =
      MergeWalk.step ⟨done ++ [mergeSingleArchiveFile collected f], g, [], gs⟩ t := by
  simp [MergeWalk.step, skipAhead, Int.not_le.mpr h]

end

theorem finish_foldl_step (ts : List TaskCacheItem) (hts : ts.Pairwise fun a b => b.starttime ≤ a.starttime) :
    ∀ (next : List ArchiveFile) (done : List (ArchiveFile × ArchiveFileState)) (current : ArchiveFile)
      (collected : List TaskCacheItem), (current :: next).Pairwise (fun f g => g.starttime < f.starttime) →
      (ts.foldl MergeWalk.step ⟨done, current, collected, next⟩).finish =
        done ++ mergeSingleArchiveFile (collected ++ ts.filter (Home (current :: next) · current)) current ::
          next.map fun f => mergeSingleArchiveFile (ts.filter (Home (current :: next) · f)) f := by
  induction ts with
  | nil =>
    intro next done current collected _
    simp [MergeWalk.finish]
  | cons t ts ih =>
    obtain ⟨ht, hts⟩ := List.pairwise_cons.mp hts
    -- the induction on the files to come follows `skipAhead`
    intro next
    induction next with
    | nil =>
      intro done current collected hf
      rcases Int.lt_or_le t.starttime current.starttime with h | h
      · have away : ¬ Home [current] t current := by
          rw [home_newest hf]
          omega
        rw [List.foldl_cons, step_of_lt _ _ h, ih hts _ _ _ _ hf]
        simp [away]
      · have here : Home [current] t current := (home_newest hf).mpr h
        rw [List.foldl_cons, step_of_le _ _ h, ih hts _ _ _ _ hf]
        simp [here]
    | cons g next ihn =>
      intro done current collected hf
      rcases Int.lt_or_le t.starttime current.starttime with h | h
      · have below : ∀ x ∈ t :: ts, x.starttime < current.starttime := by
          intro x hx
          rcases List.mem_cons.mp hx with rfl | hx
          · exact h
          · have := ht x hx
            omega
        have rest : (g :: next).map (fun f => mergeSingleArchiveFile ((t :: ts).filter
              (Home (current :: g :: next) · f)) f) =
            (g :: next).map fun f => mergeSingleArchiveFile ((t :: ts).filter (Home (g :: next) · f)) f := by
          refine List.map_congr_left fun f hfm => ?_
          rw [filter_home_older hf hfm below]
        have hwalk := ihn (done ++ [mergeSingleArchiveFile collected current]) g [] (List.pairwise_cons.mp hf).2
        rw [List.foldl_cons] at hwalk
        rw [List.foldl_cons, step_next _ _ h, hwalk, filter_home_newest_eq_nil hf below, rest, List.append_nil,
          List.append_assoc]
        rfl
      · have here : Home (current :: g :: next) t current := (home_newest hf).mpr h
        have away : ∀ f ∈ g :: next, ¬ Home (current :: g :: next) t f := by
          intro f hfm hhome
          have := ((home_older hf hfm).mp hhome).1
          omega
        rw [List.foldl_cons, step_of_le _ _ h, ih hts _ _ _ _ hf, List.append_assoc]
        congr 2
        · simp [here]
        · refine List.map_congr_left fun f hfm => ?_
          simp [away f hfm]

/-- **Each file gets the tasks that belong to it.** -/
theorem mergeTasksIntoArchive_eq {tasks files} (ht : tasks.Pairwise fun a b => b.starttime ≤ a.starttime)
    (hf : files.Pairwise fun f g => g.starttime < f.starttime) : mergeTasksIntoArchive tasks files =
      files.map fun f => mergeSingleArchiveFile (tasks.filter (Home files · f)) f := by
  cases files with
  | nil => rfl
  | cons f fs => exact finish_foldl_step tasks ht fs [] f [] hf

/-! ## Repairing -/

def State.repaired (corrupted : List ArchiveFile) (s : State) : State :=
  match (corrupted.map (·.starttime)).min? with
  | none => s
  | some resetCutoff => { s with cutoff := fun n => (s.cutoff n).map fun c => min c resetCutoff }

def requestRepair (corrupted : List ArchiveFile) (fs : Files) : Files :=
  { fs with state := fs.state.repaired corrupted }

/-! ## Applying the journal -/

def sortedJournal (journal : List TaskCacheItem) : List TaskCacheItem := dedup (sortDesc compareTasks journal)

@[simp] theorem mem_sortedJournal {journal} : t ∈ sortedJournal journal ↔ t ∈ journal := by
  simp [sortedJournal]

theorem sortedJournal_pairwise (journal) : (sortedJournal journal).Pairwise fun a b => b.starttime ≤ a.starttime := by
  have sorted := pairwise_sortDesc compareTasks_eq journal
  exact (sorted.sublist (dedup_sublist _)).imp starttime_le_of_taskKey_le

@[simp] theorem mergeSingleArchiveFile_starttime (ts) (f) :
    (mergeSingleArchiveFile ts f).1.starttime = f.starttime := by
  unfold mergeSingleArchiveFile; split <;> rfl

theorem mergeSingleArchiveFile_tasks (ts) (f) :
    (mergeSingleArchiveFile ts f).1.tasks = merge compareTasks f.tasks ts := by
  unfold mergeSingleArchiveFile
  split
  · next h => simp [h]
  · rfl

def mergeJournal (fs : Files) : List (ArchiveFile × ArchiveFileState) :=
  mergeTasksIntoArchive (sortedJournal fs.journal) fs.archive.files

theorem mergeJournal_eq (fs) : mergeJournal fs = fs.archive.files.map fun f =>
    mergeSingleArchiveFile ((sortedJournal fs.journal).filter (Home fs.archive.files · f)) f :=
  mergeTasksIntoArchive_eq (sortedJournal_pairwise _) fs.archive.descending

theorem mergeJournal_descending (fs) : ((mergeJournal fs).map (·.1)).Pairwise fun f g => g.starttime < f.starttime := by
  rw [mergeJournal_eq, List.map_map, List.pairwise_map]
  exact fs.archive.descending.imp fun h => by simpa using h

def corruptedFiles (fs : List (ArchiveFile × ArchiveFileState)) : List ArchiveFile :=
  (fs.filter (·.2 = .corrupted)).map (·.1)

def applyJournal (fs : Files) : Files :=
  requestRepair (corruptedFiles (mergeJournal fs))
    { fs with
      archive := ⟨(mergeJournal fs).map (·.1), fs.archive.leftovers, mergeJournal_descending fs⟩
      journal := [] }

@[simp] theorem applyJournal_journal (fs) : (applyJournal fs).journal = [] := rfl

@[simp] theorem applyJournal_active (fs) : (applyJournal fs).active = fs.active := rfl

theorem applyJournal_files (fs) : (applyJournal fs).archive.files = fs.archive.files.map fun f =>
    (mergeSingleArchiveFile ((sortedJournal fs.journal).filter (Home fs.archive.files · f)) f).1 := by
  simp [applyJournal, requestRepair, mergeJournal_eq]

/-! ## Initial files and rotation -/

def init (cache : TaskCache) (now : Int) (fs : Files) : Files :=
  if fs.archive.files = [] then
    { fs with
      archive := (List.range cache.maxFiles).foldl
        (fun a i => a.newFile (now - (UInt64.ofNat i * cache.rotateAfter).toInt64.toInt) (cache.uncompressedFiles ≤ i))
        fs.archive }
  else fs

variable {cache : TaskCache} {now : Int} {fs : Files}

theorem tasks_foldl_newFile (now : Nat → Int) (compress : Nat → Bool) : ∀ (is : List Nat) (a : Archive),
    (∀ f ∈ a.files, f.tasks = []) → ∀ f ∈ (is.foldl (fun a i => a.newFile (now i) (compress i)) a).files, f.tasks = []
  | [], _, h => h
  | _ :: is, _, h => by
    refine tasks_foldl_newFile now compress is _ fun f hf => ?_
    rcases mem_of_mem_listFile hf with rfl | hf
    · rfl
    · exact h f hf

variable (cache now fs) in
theorem init_files :
    (init cache now fs).archive = fs.archive ∨ ∀ f ∈ (init cache now fs).archive.files, f.tasks = [] := by
  unfold init
  split
  · next he => exact .inr (tasks_foldl_newFile _ _ _ _ (by simp [he]))
  · exact .inl rfl

@[simp] theorem init_journal : (init cache now fs).journal = fs.journal := by
  unfold init; split <;> rfl

@[simp] theorem init_active : (init cache now fs).active = fs.active := by
  unfold init; split <;> rfl

@[simp] theorem init_state : (init cache now fs).state = fs.state := by
  unfold init; split <;> rfl

def compressArchiveFile (file : ArchiveFile) : ArchiveFile × ArchiveFileState :=
  ({ file with compressed := true, corrupted := false }, if file.corrupted then .corrupted else .valid)

def compressOld (cache : TaskCache) (files : List ArchiveFile) : List (ArchiveFile × ArchiveFileState) :=
  (files.take cache.uncompressedFiles).map (fun f => (f, .valid)) ++
    (files.drop cache.uncompressedFiles).map fun f => if f.compressed then (f, .valid) else compressArchiveFile f

def rotationDue (cache : TaskCache) (now : Int) : List ArchiveFile → Bool
  | [] => true
  | bound :: _ => now > bound.starttime && now - bound.starttime ≥ cache.rotateAfter.toInt64.toInt

def Files.withoutLeftovers (fs : Files) : Files := { fs with archive := { fs.archive with leftovers := [] } }

@[simp] theorem Files.withoutLeftovers_journal (fs : Files) : fs.withoutLeftovers.journal = fs.journal := rfl

def Files.withNewFile (cache : TaskCache) (now : Int) (fs : Files) : Files :=
  { fs with archive := fs.archive.newFile now (cache.uncompressedFiles = 0) }

def startRotation (cache : TaskCache) (now : Int) (fs : Files) : Files :=
  if rotationDue cache now fs.archive.files then applyJournal (fs.withoutLeftovers.withNewFile cache now)
  else fs.withoutLeftovers

def contents (files : List ArchiveFile) : List (Int × List TaskCacheItem) := files.map fun f => (f.starttime, f.tasks)

theorem contents_compressOld (cache) (files) : contents ((compressOld cache files).map (·.1)) = contents files := by
  have h : ∀ f : ArchiveFile, (if f.compressed then (f, .valid) else compressArchiveFile f).1.starttime = f.starttime ∧
      (if f.compressed then (f, ArchiveFileState.valid) else compressArchiveFile f).1.tasks = f.tasks := by
    intro f
    split <;> exact ⟨rfl, rfl⟩
  simp only [contents, compressOld, List.map_append, List.map_map]
  simp only [Function.comp_def, h]
  rw [← List.map_append, List.take_append_drop]

theorem descending_of_contents {fs gs} (e : contents fs = contents gs)
    (h : gs.Pairwise fun f g => g.starttime < f.starttime) : fs.Pairwise fun f g => g.starttime < f.starttime := by
  have h' : (contents gs).Pairwise fun f g => g.1 < f.1 := List.pairwise_map.mpr h
  exact List.pairwise_map.mp (e ▸ h')

theorem rotate_descending (cache : TaskCache) (fs : Files) :
    ((compressOld cache (fs.archive.files.take cache.maxFiles)).map (·.1)).Pairwise
      fun f g => g.starttime < f.starttime :=
  descending_of_contents (contents_compressOld cache _) (fs.archive.descending.sublist (List.take_sublist _ _))

def rotate (cache : TaskCache) (now : Int) (fs : Files) : Files × Bool :=
  let started := startRotation cache now fs
  let compressed := compressOld cache (started.archive.files.take cache.maxFiles)
  (requestRepair (corruptedFiles compressed) { started with
        archive := ⟨compressed.map (·.1), started.archive.leftovers, rotate_descending cache started⟩ },
    rotationDue cache now fs.archive.files)

theorem listFile_newest {files} (h : ∀ g ∈ files, g.starttime < f.starttime) : listFile f files = f :: files := by
  cases files with
  | nil => rfl
  | cons g => exact if_pos (h g List.mem_cons_self)

section

variable (h : rotationDue cache now fs.archive.files)

include h

theorem lt_of_rotationDue : ∀ g ∈ fs.archive.files, g.starttime < now := by
  intro g hg
  have hd := fs.archive.descending
  generalize fs.archive.files = files at h hg hd
  cases files with
  | nil => exact absurd hg List.not_mem_nil
  | cons b =>
    have hb : b.starttime < now := by
      simp only [rotationDue, Bool.and_eq_true, decide_eq_true_eq] at h
      exact h.1
    rcases List.mem_cons.mp hg with rfl | hg
    · exact hb
    · exact lt_trans ((List.pairwise_cons.mp hd).1 g hg) hb

theorem withNewFile_files : (fs.withoutLeftovers.withNewFile cache now).archive.files =
      ⟨now, cache.uncompressedFiles = 0, [], false⟩ :: fs.archive.files :=
  listFile_newest (lt_of_rotationDue h)

theorem startRotation_of_due : startRotation cache now fs = applyJournal (fs.withoutLeftovers.withNewFile cache now) :=
  if_pos h

end

theorem startRotation_of_not_due (h : rotationDue cache now fs.archive.files = false) :
    startRotation cache now fs = fs.withoutLeftovers :=
  if_neg (by simp [h])

theorem contents_rotate : contents (rotate cache now fs).1.archive.files =
    contents ((startRotation cache now fs).archive.files.take cache.maxFiles) := by
  simp only [rotate, requestRepair, contents_compressOld]

@[simp] theorem rotate_journal : (rotate cache now fs).1.journal = (startRotation cache now fs).journal := rfl

theorem rotate_state : (rotate cache now fs).1.state = (startRotation cache now fs).state.repaired
    (corruptedFiles (compressOld cache ((startRotation cache now fs).archive.files.take cache.maxFiles))) := rfl

@[simp] theorem rotate_active : (rotate cache now fs).1.active = fs.active := by
  cases h : rotationDue cache now fs.archive.files with
  | true => simp [rotate, requestRepair, startRotation_of_due h, Files.withNewFile, Files.withoutLeftovers]
  | false => simp [rotate, requestRepair, startRotation_of_not_due h, Files.withoutLeftovers]

end Nexus.RemoteTasks
