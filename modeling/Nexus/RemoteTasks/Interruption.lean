import Nexus.RemoteTasks.ArchiveFiles

/-!
# An interrupted application of the journal

`apply_journal` rewrites the archive files one after the other and truncates the journal at the end. If it is
interrupted, the next application merges the records again: a file that has them stays as it is
(`mergeSingleArchiveFile_again`), so nothing is left of the interruption (`applyJournal_after_interruptions`).
-/

namespace Nexus.RemoteTasks

open Lib List

/-! ## The files after an interruption -/

def journalFor (fs : Files) (f : ArchiveFile) : List TaskCacheItem :=
  (sortedJournal fs.journal).filter (Home fs.archive.files · f)

def interruptedFiles (n : Nat) (fs : Files) : List ArchiveFile :=
  ((mergeJournal fs).map (·.1)).take n ++ fs.archive.files.drop n

theorem bounds_mergeJournal (fs) :
    ((mergeJournal fs).map (·.1)).map (·.starttime) = fs.archive.files.map (·.starttime) := by
  rw [mergeJournal_eq, map_map, map_map]
  exact map_congr_left fun f _ => mergeSingleArchiveFile_starttime _ f

theorem bounds_interruptedFiles (n : Nat) (fs) :
    (interruptedFiles n fs).map (·.starttime) = fs.archive.files.map (·.starttime) := by
  rw [interruptedFiles, map_append, map_take, bounds_mergeJournal, ← map_take, ← map_append, take_append_drop]

theorem interruptedFiles_descending (n : Nat) (fs) :
    (interruptedFiles n fs).Pairwise fun f g => g.starttime < f.starttime := by
  have bounds : ((interruptedFiles n fs).map (·.starttime)).Pairwise fun b c => c < b := by
    rw [bounds_interruptedFiles]
    exact pairwise_map.mpr fs.archive.descending
  exact pairwise_map.mp bounds

def interruptedJournal (n : Nat) (fs : Files) : Files :=
  { fs with archive := ⟨interruptedFiles n fs, fs.archive.leftovers, interruptedFiles_descending n fs⟩ }

/-! ## Files that have been dealt with or not -/

variable {fs fs' : Files} {f : ArchiveFile} {g : ArchiveFile}

theorem compareTasks_self (t) : compareTasks t t = .eq := by
  rw [compareTasks_eq]
  exact compare_eq_iff_eq.mpr rfl

theorem mergeSingleArchiveFile_again (ts) (f) :
    (mergeSingleArchiveFile ts (mergeSingleArchiveFile ts f).1).1 = (mergeSingleArchiveFile ts f).1 := by
  by_cases h : ts = []
  · rw [h, mergeSingleArchiveFile_nil, mergeSingleArchiveFile_nil]
  · simp only [mergeSingleArchiveFile, if_neg h, merge_merge_self compareTasks_self]

def MaybeMerged (fs : Files) (f g : ArchiveFile) : Prop :=
  g = f ∨ g = (mergeSingleArchiveFile (journalFor fs f) f).1

theorem MaybeMerged.starttime (h : MaybeMerged fs f g) : g.starttime = f.starttime := by
  rcases h with rfl | rfl
  · rfl
  · exact mergeSingleArchiveFile_starttime _ f

theorem MaybeMerged.merged (h : MaybeMerged fs f g) :
    (mergeSingleArchiveFile (journalFor fs f) g).1 = (mergeSingleArchiveFile (journalFor fs f) f).1 := by
  rcases h with rfl | rfl
  · rfl
  · exact mergeSingleArchiveFile_again _ f

structure OnTheWay (fs fs' : Files) : Prop where
  journal : fs'.journal = fs.journal
  leftovers : fs'.archive.leftovers = fs.archive.leftovers
  files : List.Forall₂ (MaybeMerged fs) fs.archive.files fs'.archive.files

theorem OnTheWay.refl (fs) : OnTheWay fs fs where
  journal := rfl
  leftovers := rfl
  files := forall₂_same.mpr fun _ _ => .inl rfl

theorem home_congr {gs gs' f' t}
    (bounds : gs'.map (·.starttime) = gs.map (·.starttime)) (bound : f'.starttime = f.starttime) :
    Home gs' t f' ↔ Home gs t f := by
  have all : ∀ hs : List ArchiveFile, (∀ g ∈ hs, g.starttime ≤ t.starttime → g.starttime ≤ f.starttime) ↔
      ∀ b ∈ hs.map (·.starttime), b ≤ t.starttime → b ≤ f.starttime := fun hs => by simp
  unfold Home
  rw [bound, all, all, bounds]

section

variable (h : OnTheWay fs fs')

include h

theorem OnTheWay.bounds : fs'.archive.files.map (·.starttime) = fs.archive.files.map (·.starttime) := by
  have same : List.Forall₂ (fun b b' : Int => b = b') (fs.archive.files.map (·.starttime))
      (fs'.archive.files.map (·.starttime)) :=
    forall₂_map_left_iff.mpr (forall₂_map_right_iff.mpr (h.files.imp fun _ _ hm => hm.starttime.symm))
  exact (forall₂_eq_eq_eq ▸ same).symm

theorem OnTheWay.journalFor_eq (hg : g.starttime = f.starttime) : journalFor fs' g = journalFor fs f := by
  unfold journalFor
  rw [h.journal]
  refine filter_congr fun t _ => ?_
  simp only [home_congr h.bounds hg]

theorem OnTheWay.applied :
    (mergeJournal fs').map (·.1) = fs.archive.files.map fun f => (mergeSingleArchiveFile (journalFor fs f) f).1 := by
  have pairs : List.Forall₂ (fun f g => (mergeSingleArchiveFile (journalFor fs' g) g).1 =
      (mergeSingleArchiveFile (journalFor fs f) f).1) fs.archive.files fs'.archive.files :=
    h.files.imp fun f g hm => by rw [h.journalFor_eq hm.starttime, hm.merged]
  rw [mergeJournal_eq, map_map]
  generalize fs.archive.files = files at pairs ⊢
  change fs'.archive.files.map (fun g => (mergeSingleArchiveFile (journalFor fs' g) g).1) = _
  generalize fs'.archive.files = files' at pairs ⊢
  induction pairs with
  | nil => rfl
  | cons hfg _ ih => rw [map_cons, map_cons, hfg, ih]

theorem OnTheWay.interrupted (n : Nat) : OnTheWay fs (interruptedJournal n fs') where
  journal := h.journal
  leftovers := h.leftovers
  files := by
    change List.Forall₂ (MaybeMerged fs) fs.archive.files (interruptedFiles n fs')
    rw [interruptedFiles, h.applied, ← map_take, ← take_append_drop n fs.archive.files]
    refine rel_append ?_ ?_
    · rw [take_append_drop]
      exact forall₂_map_right_iff.mpr (forall₂_same.mpr fun _ _ => .inr rfl)
    · exact forall₂_drop n h.files

end

theorem onTheWay_of_interruptions (fs : Files) (ns : List Nat) :
    OnTheWay fs (ns.foldl (fun fs n => interruptedJournal n fs) fs) :=
  List.foldlRecOn (motive := OnTheWay fs) ns _ (.refl fs) fun _ h n _ => h.interrupted n

theorem archive_ext {a b : Archive} (files : a.files = b.files) (leftovers : a.leftovers = b.leftovers) : a = b := by
  obtain ⟨files', leftovers', _⟩ := a
  obtain rfl : files' = b.files := files
  obtain rfl : leftovers' = b.leftovers := leftovers
  rfl

/-- **An interrupted application of the journal is harmless**: the next one leaves what one without an interruption
leaves. -/
theorem applyJournal_after_interruptions (fs : Files) (ns : List Nat) :
    (applyJournal (ns.foldl (fun fs n => interruptedJournal n fs) fs)).archive = (applyJournal fs).archive ∧
    (applyJournal (ns.foldl (fun fs n => interruptedJournal n fs) fs)).journal = (applyJournal fs).journal := by
  have way := onTheWay_of_interruptions fs ns
  refine ⟨archive_ext ?_ way.leftovers, rfl⟩
  exact way.applied.trans (OnTheWay.refl fs).applied.symm

end Nexus.RemoteTasks
