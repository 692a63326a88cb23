import Nexus.RemoteTasks.ArchiveFiles

/-!
# What a rotation keeps

`rotate` removes left-over duplicates, starts a new file and applies the journal if one is due, drops the oldest files
and compresses all but the newest ones. Every task that should be there is read afterwards (`rotate_rotatesWell`), but
where journal and archive have different records of one task, now the archive's (`rotate_drops_record`). So no finished
task gets lost in a run (`finished_stays_listed`).
-/

namespace Nexus.RemoteTasks

open Lib List

/-! ## The promise -/

/-- The list has the record. -/
def IsRead (fs : Files) (t : TaskCacheItem) : Prop := t ∈ getTasks .all fs

instance (fs : Files) (t : TaskCacheItem) : Decidable (IsRead fs t) := inferInstanceAs (Decidable (_ ∈ _))

def IsTaskRead (fs : Files) (t : TaskCacheItem) : Prop := ∃ r ∈ getTasks .all fs, SameTask r t

/-- There are few enough files, and only the oldest are given up. -/
structure RotatesWell (read : Files → TaskCacheItem → Prop) (cache : TaskCache) (now : Int) (fs fs' : Files) :
    Prop where
  count : fs'.archive.all.length ≤ cache.maxFiles
  distinct : (fs'.archive.all.map (·.starttime)).Nodup
  compressed : ∀ f ∈ fs'.archive.files.drop cache.uncompressedFiles, f.compressed
  started : ∀ g ∈ fs'.archive.files, g.starttime = now ∨ ∃ f ∈ fs.archive.files, f.starttime = g.starttime
  removed : ∀ f ∈ fs.archive.files, (∀ g ∈ fs'.archive.files, g.starttime ≠ f.starttime) →
    fs'.archive.files.length = cache.maxFiles ∧ ∀ g ∈ fs'.archive.files, f.starttime < g.starttime
  records : ∀ f ∈ fs.archive.files, ∀ g ∈ fs'.archive.files, g.starttime = f.starttime → ∀ t ∈ f.tasks, read fs' t
  journal : ∀ b, oldestBound fs' = some b → ∀ t ∈ fs.journal, b ≤ t.starttime → read fs' t

/-! ## The files before the oldest are dropped -/

variable {cache : TaskCache} {now : Int} {fs : Files} {f g : ArchiveFile} {t : TaskCacheItem}

theorem exists_started (hf : f ∈ fs.archive.files) : ∃ g ∈ (startRotation cache now fs).archive.files,
    g.starttime = f.starttime ∧ ∀ t ∈ f.tasks, t ∈ g.tasks := by
  cases hd : rotationDue cache now fs.archive.files with
  | false =>
    rw [startRotation_of_not_due hd]
    exact ⟨f, hf, rfl, fun _ ht => ht⟩
  | true =>
    rw [startRotation_of_due hd, applyJournal_files]
    have hf' : f ∈ (fs.withoutLeftovers.withNewFile cache now).archive.files := by
      rw [withNewFile_files hd]
      exact mem_cons_of_mem _ hf
    refine ⟨_, mem_map.mpr ⟨f, hf', rfl⟩, mergeSingleArchiveFile_starttime _ f, fun t ht => ?_⟩
    rw [mergeSingleArchiveFile_tasks]
    exact mem_merge_left _ _ ht

theorem bound_of_started (hg : g ∈ (startRotation cache now fs).archive.files) :
    g.starttime = now ∨ ∃ f ∈ fs.archive.files, f.starttime = g.starttime := by
  cases hd : rotationDue cache now fs.archive.files with
  | false =>
    rw [startRotation_of_not_due hd] at hg
    exact .inr ⟨g, hg, rfl⟩
  | true =>
    rw [startRotation_of_due hd, applyJournal_files, withNewFile_files hd] at hg
    obtain ⟨f, hf, rfl⟩ := mem_map.mp hg
    rw [mergeSingleArchiveFile_starttime]
    rcases mem_cons.mp hf with rfl | hf
    · exact .inl rfl
    · exact .inr ⟨f, hf, rfl⟩

theorem journal_started (ht : t ∈ fs.journal) (hold : ∃ g ∈ (startRotation cache now fs).archive.files,
    g.starttime ≤ t.starttime) : t ∈ (startRotation cache now fs).journal ∨
      ∃ f ∈ (startRotation cache now fs).archive.files, Home (startRotation cache now fs).archive.files t f ∧
        ∃ r ∈ f.tasks, SameTask r t ∧ (r = t ∨ r ∈ fs.archived) := by
  cases hd : rotationDue cache now fs.archive.files with
  | false =>
    rw [startRotation_of_not_due hd]
    exact .inl ht
  | true =>
    rw [startRotation_of_due hd] at hold ⊢
    have files := withNewFile_files hd
    generalize hns : fs.withoutLeftovers.withNewFile cache now = started at files hold
    have htj : t ∈ sortedJournal started.journal := by
      rw [← hns]
      exact mem_sortedJournal.mpr ht
    rw [applyJournal_files] at hold ⊢
    have homes : ∀ f, Home (started.archive.files.map fun f => (mergeSingleArchiveFile
        ((sortedJournal started.journal).filter (Home started.archive.files · f)) f).1) t f ↔
        Home started.archive.files t f := fun f => by
      simp [Home]
    obtain ⟨f, hf, home⟩ : ∃ f ∈ started.archive.files, Home started.archive.files t f := by
      refine exists_home started.archive.descending ?_
      obtain ⟨_, mapped, hle⟩ := hold
      obtain ⟨g, hg, rfl⟩ := mem_map.mp mapped
      exact ⟨g, hg, by simpa using hle⟩
    refine .inr ⟨_, mem_map.mpr ⟨f, hf, rfl⟩, (homes _).mpr ⟨by simpa using home.1, by simpa using home.2⟩, ?_⟩
    rw [mergeSingleArchiveFile_tasks]
    have added : t ∈ (sortedJournal started.journal).filter (Home started.archive.files · f) :=
      mem_filter.mpr ⟨htj, by simpa using home⟩
    rcases mem_merge_or_sameTask f.tasks added with hm | ⟨r, hr, e⟩
    · exact ⟨t, hm, ⟨rfl, rfl⟩, .inl rfl⟩
    · refine ⟨r, mem_merge_left _ _ hr, e, .inr ?_⟩
      rw [files] at hf
      rcases mem_cons.mp hf with rfl | hf
      · exact absurd hr not_mem_nil
      · exact mem_archived.mpr ⟨f, hf, hr⟩

/-! ## The files that are retained -/

def retainedFiles (cache : TaskCache) (now : Int) (fs : Files) : List ArchiveFile :=
  (startRotation cache now fs).archive.files.take cache.maxFiles

theorem exists_retained (hg : g ∈ (rotate cache now fs).1.archive.files) :
    ∃ f ∈ retainedFiles cache now fs, f.starttime = g.starttime ∧ f.tasks = g.tasks := by
  have hc : (g.starttime, g.tasks) ∈ contents (retainedFiles cache now fs) := by
    rw [retainedFiles, ← contents_rotate]
    exact mem_map.mpr ⟨g, hg, rfl⟩
  obtain ⟨f, hf, e⟩ := mem_map.mp hc
  exact ⟨f, hf, (Prod.mk.inj e).1, (Prod.mk.inj e).2⟩

theorem exists_rotated (hf : f ∈ retainedFiles cache now fs) :
    ∃ g ∈ (rotate cache now fs).1.archive.files, g.starttime = f.starttime ∧ g.tasks = f.tasks := by
  have hc : (f.starttime, f.tasks) ∈ contents (rotate cache now fs).1.archive.files := by
    rw [contents_rotate]
    exact mem_map.mpr ⟨f, hf, rfl⟩
  obtain ⟨g, hg, e⟩ := mem_map.mp hc
  exact ⟨g, hg, (Prod.mk.inj e).1, (Prod.mk.inj e).2⟩

theorem length_rotated : (rotate cache now fs).1.archive.files.length = (retainedFiles cache now fs).length := by
  have h : contents (rotate cache now fs).1.archive.files = contents (retainedFiles cache now fs) := contents_rotate
  simpa [contents] using congrArg List.length h

theorem lt_of_not_retained (hf : f ∈ (startRotation cache now fs).archive.files)
    (hnot : f ∉ retainedFiles cache now fs) : ∀ g ∈ retainedFiles cache now fs, f.starttime < g.starttime := by
  intro g hg
  have desc := (startRotation cache now fs).archive.descending
  rw [← take_append_drop cache.maxFiles (startRotation cache now fs).archive.files] at desc hf
  rcases mem_append.mp hf with hf | hf
  · exact absurd hf hnot
  · exact (pairwise_append.mp desc).2.2 g hg f hf

theorem isRead_or_journal (ht : t ∈ fs.archived) : IsRead fs t ∨ ∃ r ∈ fs.journal, IsRead fs r ∧ SameTask r t := by
  rcases mem_merge_or_sameTask (sortedJournal fs.journal) (mem_append_right _ ht) with hm | ⟨r, hr, e⟩
  · exact .inl hm
  · exact .inr ⟨r, mem_sortedJournal.mp hr, mem_merge_left _ _ hr, e⟩

theorem isRead_journal (ht : t ∈ fs.journal) : IsRead fs t :=
  mem_merge_left _ _ (mem_sortedJournal.mpr ht)

theorem mem_journal_rotate (ht : t ∈ (rotate cache now fs).1.journal) : t ∈ fs.journal := by
  rw [rotate_journal] at ht
  cases hd : rotationDue cache now fs.archive.files with
  | false => rwa [startRotation_of_not_due hd] at ht
  | true =>
    rw [startRotation_of_due hd, applyJournal_journal] at ht
    exact absurd ht not_mem_nil

theorem read_record (hf : f ∈ fs.archive.files) (hg : g ∈ (rotate cache now fs).1.archive.files)
    (hs : g.starttime = f.starttime) (ht : t ∈ f.tasks) :
    ∃ r, IsRead (rotate cache now fs).1 r ∧ SameTask r t ∧ (r = t ∨ r ∈ fs.journal) := by
  obtain ⟨k, hk, hks, hkt⟩ : ∃ k ∈ (startRotation cache now fs).archive.files, _ := exists_started hf
  obtain ⟨k', hk', hks', hkt'⟩ := exists_retained hg
  have desc : Desc ArchiveFile.starttime (startRotation cache now fs).archive.files :=
    (startRotation cache now fs).archive.descending
  have same : k = k' := desc.eq_of_key_eq hk (mem_of_mem_take hk') (by rw [hks, hks', hs])
  have archived : t ∈ (rotate cache now fs).1.archived :=
    mem_archived.mpr ⟨g, hg, by rw [← hkt', ← same]; exact hkt t ht⟩
  rcases isRead_or_journal archived with hr | ⟨r, hr, hread, hsame⟩
  · exact ⟨t, hr, ⟨rfl, rfl⟩, .inl rfl⟩
  · exact ⟨r, hread, hsame, .inr (mem_journal_rotate hr)⟩

theorem read_journal {b} (hb : oldestBound (rotate cache now fs).1 = some b) (ht : t ∈ fs.journal)
    (hle : b ≤ t.starttime) :
    ∃ r, IsRead (rotate cache now fs).1 r ∧ SameTask r t ∧ (r = t ∨ r ∈ fs.journal ++ fs.archived) := by
  obtain ⟨last, hlast, rfl⟩ := Option.map_eq_some_iff.mp hb
  obtain ⟨oldest, holder, hos, -⟩ := exists_retained (mem_of_getLast? hlast)
  have hold : oldest.starttime ≤ t.starttime := by omega
  rcases journal_started ht ⟨oldest, mem_of_mem_take holder, hold⟩ with hj | ⟨f, hf, home, r, hr, hsame, hfrom⟩
  · exact ⟨t, isRead_journal hj, ⟨rfl, rfl⟩, .inl rfl⟩
  · -- the home of the record is not older than the oldest file that is retained
    have retained : f ∈ retainedFiles cache now fs := by
      by_contra hnot
      have hlt := lt_of_not_retained hf hnot oldest holder
      have hmax := home.2 oldest (mem_of_mem_take holder) hold
      omega
    obtain ⟨g, hg, -, hgt⟩ := exists_rotated retained
    have archived : r ∈ (rotate cache now fs).1.archived := mem_archived.mpr ⟨g, hg, hgt ▸ hr⟩
    rcases isRead_or_journal archived with hread | ⟨r', hr', hread, hsame'⟩
    · exact ⟨r, hread, hsame, hfrom.imp_right (mem_append_right _)⟩
    · refine ⟨r', hread, ⟨hsame'.1.trans hsame.1, hsame'.2.trans hsame.2⟩, .inr ?_⟩
      exact mem_append_left _ (mem_journal_rotate hr')

/-! ## The result -/

theorem compressed_of_mem_drop
    (hf : f ∈ (rotate cache now fs).1.archive.files.drop cache.uncompressedFiles) : f.compressed := by
  have older : ∀ files, f ∈ ((compressOld cache files).map (·.1)).drop cache.uncompressedFiles →
      f.compressed := by
    intro files hf
    rw [compressOld, map_append, map_map, drop_append] at hf
    rcases mem_append.mp hf with hf | hf
    · -- all of the newest files come before
      have short : ((files.take cache.uncompressedFiles).map ((·.1) ∘ fun f => (f, ArchiveFileState.valid))).length ≤
          cache.uncompressedFiles := by simp
      rw [drop_eq_nil_of_le short] at hf
      exact absurd hf not_mem_nil
    · obtain ⟨p, hp, rfl⟩ := mem_map.mp (mem_of_mem_drop hf)
      obtain ⟨g, -, rfl⟩ := mem_map.mp hp
      split
      · next hcomp => exact hcomp
      · rfl
  exact older _ hf

theorem rotatesWell_of_read {read : Files → TaskCacheItem → Prop}
    (records : ∀ f ∈ fs.archive.files, ∀ g ∈ (rotate cache now fs).1.archive.files, g.starttime = f.starttime →
      ∀ t ∈ f.tasks, read (rotate cache now fs).1 t)
    (journal : ∀ b, oldestBound (rotate cache now fs).1 = some b → ∀ t ∈ fs.journal, b ≤ t.starttime →
      read (rotate cache now fs).1 t) : RotatesWell read cache now fs (rotate cache now fs).1 where
  count := by
    rw [Archive.all, leftovers_rotate, append_nil, length_rotated]
    exact length_take_le _ _
  distinct := by
    rw [Archive.all, leftovers_rotate, append_nil]
    exact pairwise_map.mpr ((rotate cache now fs).1.archive.descending.imp fun h => ne_of_gt h)
  compressed _ hf := compressed_of_mem_drop hf
  started g hg := by
    obtain ⟨f, hf, hs, -⟩ := exists_retained hg
    rw [← hs]
    exact bound_of_started (mem_of_mem_take hf)
  removed f hf gone := by
    obtain ⟨k, hk, hks, -⟩ : ∃ k ∈ (startRotation cache now fs).archive.files, _ := exists_started hf
    have hnot : k ∉ retainedFiles cache now fs := by
      intro hr
      obtain ⟨g, hg, hgs, -⟩ := exists_rotated hr
      exact gone g hg (hgs.trans hks)
    refine ⟨?_, fun g hg => ?_⟩
    · rw [length_rotated, retainedFiles, length_take]
      refine Nat.min_eq_left (Nat.le_of_not_lt fun hlt => hnot ?_)
      rwa [retainedFiles, take_of_length_le (Nat.le_of_lt hlt)]
    · obtain ⟨r, hr, hrs, -⟩ := exists_retained hg
      rw [← hks, ← hrs]
      exact lt_of_not_retained hk hnot r hr
  records := records
  journal := journal

/-- **After a rotation the archive is as promised, and every task that should be read is read.** -/
theorem rotate_rotatesWell (cache : TaskCache) (now : Int) (fs : Files) :
    RotatesWell IsTaskRead cache now fs (rotate cache now fs).1 ∧
    (Consistent (fs.journal ++ fs.archived) → RotatesWell IsRead cache now fs (rotate cache now fs).1) := by
  refine ⟨rotatesWell_of_read ?_ ?_, fun hc => rotatesWell_of_read ?_ ?_⟩
  · intro f hf g hg hs t ht
    obtain ⟨r, hr, hsame, -⟩ := read_record hf hg hs ht
    exact ⟨r, hr, hsame⟩
  · intro b hb t ht hle
    obtain ⟨r, hr, hsame, -⟩ := read_journal hb ht hle
    exact ⟨r, hr, hsame⟩
  · intro f hf g hg hs t ht
    have hta : t ∈ fs.journal ++ fs.archived := mem_append_right _ (mem_archived.mpr ⟨f, hf, ht⟩)
    obtain ⟨r, hr, hsame, rfl | hrj⟩ := read_record hf hg hs ht
    · exact hr
    · exact hc r (mem_append_left _ hrj) t hta hsame ▸ hr
  · intro b hb t ht hle
    obtain ⟨r, hr, hsame, rfl | hrm⟩ := read_journal hb ht hle
    · exact hr
    · exact hc r hrm t (mem_append_left _ ht) hsame ▸ hr

/-- The second record of a task is read until the archive is rotated, and then the first one again. -/
theorem rotate_drops_record : ∃ fs, Run (StepWhen tenSecondCache fun _ _ => True) Files.empty
        [.init 20, .update ⟨[sampleTask "a" 21 (some 30)], fun _ => true, ∅⟩, .applyJournal,
          .update ⟨[sampleTask "a" 21 (some 31)], fun _ => true, ∅⟩] fs ∧ IsRead fs (sampleTask "a" 21 (some 31)) ∧
      ¬ RotatesWell IsRead tenSecondCache 40 fs (rotate tenSecondCache 40 fs).1 := by
  refine Run.exists_imp (P := fun fs => IsRead fs (sampleTask "a" 21 (some 31)) ∧
    sampleTask "a" 21 (some 31) ∈ fs.journal ∧
      oldestBound (rotate tenSecondCache 40 fs).1 = some 10 ∧
      ¬ IsRead (rotate tenSecondCache 40 fs).1 (sampleTask "a" 21 (some 31)))
    ⟨_, .cons ⟨trivial, rfl⟩ (.cons ⟨trivial, rfl⟩ (.cons ⟨trivial, rfl⟩ (.cons ⟨trivial, rfl⟩ (.nil _)))),
      by decide⟩ ?_
  rintro fs - ⟨hread, journal, hbound, hlost⟩
  exact ⟨hread, fun h => hlost (h.journal 10 hbound _ journal (by decide))⟩

/-! ## Finished tasks stay -/

/-- There is an archive, and all records are finished and in place. -/
structure Sound (fs : Files) : Prop where
  archive : fs.archive.files ≠ []
  finished : RecordsHold (·.finished) fs
  placed : Placed fs

variable {fs' : Files} {t x : TaskCacheItem}

/-- With two files or more, not only the new one is retained. -/
theorem exists_retained_old {k} (hmax : 2 ≤ cache.maxFiles) (hne : fs.archive.files ≠ [])
    (hk : k ∈ retainedFiles cache now fs) : ∃ k' ∈ retainedFiles cache now fs,
      k'.starttime ≤ k.starttime ∧ ∃ f ∈ fs.archive.files, f.starttime = k'.starttime := by
  cases hd : rotationDue cache now fs.archive.files with
  | false =>
    refine ⟨k, hk, le_rfl, k, ?_, rfl⟩
    rw [retainedFiles, startRotation_of_not_due hd] at hk
    exact mem_of_mem_take hk
  | true =>
    rcases bound_of_started (mem_of_mem_take hk) with hnow | hold
    · obtain ⟨f, files, hfs⟩ := exists_cons_of_ne_nil hne
      obtain ⟨m, hm⟩ := Nat.exists_eq_add_of_le' hmax
      have hf : f ∈ fs.archive.files := by simp [hfs]
      have bound : f.starttime ∈ (retainedFiles cache now fs).map (·.starttime) := by
        rw [retainedFiles, startRotation_of_due hd, applyJournal_files, withNewFile_files hd, hfs, hm]
        simp
      obtain ⟨k', hk', hs⟩ := mem_map.mp bound
      exact ⟨k', hk', by rw [hs, hnow]; exact (lt_of_rotationDue hd f hf).le, f, hf, hs.symm⟩
    · exact ⟨k, hk, le_rfl, hold⟩

theorem covered_rotate (hmax : 2 ≤ cache.maxFiles) (h : Sound fs) (hx : Covered fs x)
    (hne : (rotate cache now fs).1.archive.files ≠ []) : Covered (rotate cache now fs).1 x := by
  by_cases hb : ∃ g ∈ (rotate cache now fs).1.archive.files, g.starttime ≤ x.starttime
  · obtain ⟨g, hg, hgx⟩ := hb
    obtain ⟨k, hk, hks, -⟩ := exists_retained hg
    obtain ⟨k', hk', hle, old, hold, hos⟩ := exists_retained_old hmax h.archive hk
    -- a file with the bound of a retained one or a younger one is retained
    have keep : ∀ {f r k}, f ∈ (startRotation cache now fs).archive.files → k ∈ retainedFiles cache now fs →
        k.starttime ≤ f.starttime → r ∈ f.tasks → r.finished → SameTask r x → Covered (rotate cache now fs).1 x := by
      intro f r k hf hk hle hr hfin hs
      have hret : f ∈ retainedFiles cache now fs := by
        by_contra hnot
        have := lt_of_not_retained hf hnot k hk
        omega
      obtain ⟨g, hg, -, hgt⟩ := exists_rotated hret
      exact .inl ⟨r, .inr (mem_archived.mpr ⟨g, hg, hgt ▸ hr⟩), hfin, hs⟩
    rcases hx with ⟨r, hr | hr, hfr, hs⟩ | ⟨b, hbound, hlt⟩
    · have hkr : k.starttime ≤ r.starttime := by rw [hks, hs.2]; exact hgx
      rcases journal_started hr ⟨k, mem_of_mem_take hk, hkr⟩ with hj | ⟨f, hf, home, r', hr', hsame, hfrom⟩
      · exact .inl ⟨r, .inl hj, hfr, hs⟩
      · refine keep hf hk (home.2 k (mem_of_mem_take hk) hkr) hr' ?_ ⟨hsame.1.trans hs.1, hsame.2.trans hs.2⟩
        rcases hfrom with rfl | ha
        · exact hfr
        · exact h.finished.archived r' ha
    · obtain ⟨f, hf, hrf⟩ := mem_archived.mp hr
      obtain ⟨f', hf', hfs, hft⟩ : ∃ g ∈ (startRotation cache now fs).archive.files, _ := exists_started hf
      have hhome := (h.placed f hf r hrf).2 old hold (by rw [hs.2]; omega)
      exact keep hf' hk' (by omega) (hft r hrf) hfr hs
    · have := oldestBound_le hbound hold
      omega
  · exact .inr (lt_oldestBound hne hb)

theorem files_ne_nil_apply (hmax : 2 ≤ cache.maxFiles) (h : fs.archive.files ≠ []) (op : Op) :
    (op.apply cache fs).archive.files ≠ [] := by
  have apply : ∀ {fs}, fs.archive.files ≠ [] → (applyJournal fs).archive.files ≠ [] := by
    intro fs h
    rw [applyJournal_files]
    simpa using h
  cases op with
  | init => rwa [Op.apply, init, if_neg h]
  | update u =>
    rcases update_cases cache u fs with e | e
    · rwa [Op.apply, e]
    · rw [Op.apply, e]
      exact apply h
  | addTrackedTask => exact h
  | applyJournal => exact apply h
  | rotate now =>
    obtain ⟨f, hf⟩ := exists_mem_of_ne_nil _ h
    obtain ⟨g, hg, -⟩ : ∃ g ∈ (startRotation cache now fs).archive.files, _ := exists_started hf
    refine ne_nil_of_length_pos ?_
    have := length_pos_of_mem hg
    rw [Op.apply, length_rotated, retainedFiles, length_take]
    omega

theorem Sound.apply (hmax : 2 ≤ cache.maxFiles) (h : Sound fs) (op) (hc : RotatesClear cache fs op) :
    Sound (op.apply cache fs) :=
  ⟨files_ne_nil_apply hmax h.archive op, recordsHold_apply op h.finished (finished_op_journal cache op h.finished),
    placed_apply hc h.placed⟩

theorem Sound.covered_apply (hmax : 2 ≤ cache.maxFiles) (h : Sound fs) (hx : Covered fs x) (op : Op) :
    Covered (op.apply cache fs) x := by
  cases op with
  | init => rwa [Op.apply, init, if_neg h.archive]
  | update => exact covered_update h.archive h.finished (covered_store hx)
  | addTrackedTask => exact hx
  | applyJournal => exact covered_applyJournal h.archive h.finished hx
  | rotate now => exact covered_rotate hmax h hx (files_ne_nil_apply hmax h.archive (.rotate now))

theorem Covered.isTaskRead (h : Covered fs x) : IsTaskRead fs x ∨ TooOld fs x := by
  refine h.imp_left fun ⟨r, hr, _, hs⟩ => ?_
  rcases hr with hr | hr
  · exact ⟨r, isRead_journal hr, hs⟩
  · rcases isRead_or_journal hr with hread | ⟨r', -, hread, hsame⟩
    · exact ⟨r, hread, hs⟩
    · exact ⟨r', hread, hsame.1.trans hs.1, hsame.2.trans hs.2⟩

/-- **A task that an update reports as finished is listed from then on, until it is older than every archive file**, if
there are at least two files and rotations find no archived task that belongs to the file they start. -/
theorem finished_stays_listed {u n ops} (hmax : 2 ≤ cache.maxFiles) (hs : Sound fs) (ht : t ∈ u.finished)
    (hn : cache.nodeOf t.upid = some n)
    (h : Run (StepWhen cache (RotatesClear cache)) (update cache u fs) ops fs') : IsTaskRead fs' t ∨ TooOld fs' t := by
  have start : Sound (update cache u fs) ∧ Covered (update cache u fs) t :=
    ⟨hs.apply hmax (.update u) trivial,
      covered_update hs.archive hs.finished (covered_store_of_finished ht hn ⟨rfl, rfl⟩)⟩
  have inv : Sound fs' ∧ Covered fs' t := by
    refine h.invariant (P := fun fs => Sound fs ∧ Covered fs t) (fun fs op fs' ⟨hs, hx⟩ hst => ?_) start
    obtain ⟨hc, rfl⟩ := hst
    exact ⟨hs.apply hmax op hc, hs.covered_apply hmax hx op⟩
  exact inv.2.isTaskRead

theorem finished_stays_listed_rotated : ∃ fs, Run (StepWhen tenSecondCache (RotatesClear tenSecondCache))
      (update tenSecondCache ⟨[sampleTask "a" 25 (some 26)], fun _ => true, ∅⟩ (init tenSecondCache 20 Files.empty))
      [.applyJournal, .rotate 35] fs ∧
    (IsTaskRead fs (sampleTask "a" 25 (some 26)) ∨ TooOld fs (sampleTask "a" 25 (some 26))) := by
  refine Run.exists_imp (P := fun _ => True) ?_ fun fs run _ => finished_stays_listed (by decide) ?_ (by decide) rfl run
  · exact ⟨_, .cons ⟨trivial, rfl⟩ (.cons ⟨by decide, rfl⟩ (.nil _)), trivial⟩
  · exact ⟨by decide, ⟨by decide, by decide⟩, placed_init fun _ hf => absurd hf not_mem_nil⟩

end Nexus.RemoteTasks
