import Nexus.RemoteTasks.Placement

/-!
# Repair requests and fetch cycles

A corrupted archive file is repaired by lowering the cutoffs of all known nodes to its bound. `repair_not_lost`: the
cutoff stays at or below the bound until an update from a fetch that goes back to the bound, unless an update from
another fetch raises it (`write_cutoff_le_iff`, `stale_update_loses_repair`).
-/

namespace Nexus.RemoteTasks

open Lib List Option

/-! ## What lowers cutoffs -/

def CutoffsBelow (b : Int) (s : State) : Prop := ∀ n c, s.cutoff n = some c → c ≤ b

def Lowers (s t : State) : Prop := ∀ n c, s.cutoff n = some c → ∃ c' ≤ c, t.cutoff n = some c'

theorem Lowers.refl (s) : Lowers s s := fun _ c h => ⟨c, Int.le_refl c, h⟩

theorem Lowers.trans {s t u} (h : Lowers s t) (h' : Lowers t u) : Lowers s u := by
  intro n c hc
  obtain ⟨c₁, h₁, hc₁⟩ := h n c hc
  obtain ⟨c₂, h₂, hc₂⟩ := h' n c₁ hc₁
  exact ⟨c₂, by omega, hc₂⟩

variable {cache : TaskCache} {fs : Files} {b : Int} {corrupted : List ArchiveFile}

theorem repaired_cases (corrupted : List ArchiveFile) (s : State) :
    (corrupted = [] ∧ s.repaired corrupted = s) ∨ ∃ r, (∀ f ∈ corrupted, r ≤ f.starttime) ∧
      ∀ n, (s.repaired corrupted).cutoff n = (s.cutoff n).map fun c => min c r := by
  unfold State.repaired
  cases h : (corrupted.map (·.starttime)).min? with
  | none => exact .inl ⟨by simpa using h, rfl⟩
  | some r =>
    refine .inr ⟨r, fun f hf => ?_, fun n => rfl⟩
    exact (min?_eq_some_iff.mp h).2 _ (mem_map.mpr ⟨f, hf, rfl⟩)

theorem exists_lower_repaired (corrupted : List ArchiveFile) (s : State) : ∃ lower : Int → Int,
    (∀ n, (s.repaired corrupted).cutoff n = (s.cutoff n).map lower) ∧
      ∀ c b, lower c ≤ b ↔ c ≤ b ∨ ∃ f ∈ corrupted, f.starttime ≤ b := by
  unfold State.repaired
  cases h : (corrupted.map (·.starttime)).min? with
  | none =>
    obtain rfl : corrupted = [] := by simpa using h
    exact ⟨id, fun n => Option.map_id_apply.symm, by simp⟩
  | some r =>
    obtain ⟨hr, hle⟩ := min?_eq_some_iff.mp h
    obtain ⟨f, hf, rfl⟩ := mem_map.mp hr
    refine ⟨fun c => min c f.starttime, fun n => rfl, fun c b => ?_⟩
    rw [min_le_iff]
    refine or_congr_right ⟨fun hb => ⟨f, hf, hb⟩, ?_⟩
    rintro ⟨g, hg, hb⟩
    exact (hle _ (mem_map.mpr ⟨g, hg, rfl⟩)).trans hb

theorem lowers_repaired (corrupted : List ArchiveFile) (s : State) : Lowers s (s.repaired corrupted) := by
  rcases repaired_cases corrupted s with ⟨-, e⟩ | ⟨r, -, hr⟩
  · rw [e]
    exact Lowers.refl _
  · intro n c hc
    exact ⟨min c r, min_le_left c r, by rw [hr, hc]; rfl⟩

theorem cutoffsBelow_repaired {f} (hf : f ∈ corrupted) (s : State) :
    CutoffsBelow f.starttime (s.repaired corrupted) := by
  rcases repaired_cases corrupted s with ⟨e, -⟩ | ⟨r, hr, hc⟩
  · exact absurd (e ▸ hf) not_mem_nil
  · intro n c h
    rw [hc] at h
    obtain ⟨c₀, -, rfl⟩ := map_eq_some_iff.mp h
    have := hr f hf
    omega

theorem CutoffsBelow.repaired {s} (h : CutoffsBelow b s) (corrupted : List ArchiveFile) :
    CutoffsBelow b (s.repaired corrupted) := by
  rcases repaired_cases corrupted s with ⟨-, e⟩ | ⟨r, -, hr⟩
  · rwa [e]
  · intro n c hc
    rw [hr] at hc
    obtain ⟨c₀, hc₀, rfl⟩ := map_eq_some_iff.mp hc
    have := h n c₀ hc₀
    omega

theorem of_repaired {s : State} {n : Node} {c : Int}
    (h : (s.repaired corrupted).cutoff n = some c) : ∃ c', s.cutoff n = some c' ∧ c ≤ c' := by
  rcases repaired_cases corrupted s with ⟨-, e⟩ | ⟨r, -, hr⟩
  · exact ⟨c, e ▸ h, Int.le_refl c⟩
  · rw [hr] at h
    obtain ⟨c₀, hc₀, rfl⟩ := map_eq_some_iff.mp h
    exact ⟨c₀, hc₀, min_le_left c₀ r⟩

theorem lowers_applyJournal (fs) : Lowers fs.state (applyJournal fs).state := lowers_repaired _ _

theorem lowers_rotate (now : Int) : Lowers fs.state (rotate cache now fs).1.state := by
  have start : Lowers fs.state (startRotation cache now fs).state := by
    cases hd : rotationDue cache now fs.archive.files with
    | true =>
      rw [startRotation_of_due hd]
      exact lowers_repaired _ _
    | false =>
      rw [startRotation_of_not_due hd]
      exact Lowers.refl _
  rw [rotate_state]
  exact start.trans (lowers_repaired _ _)

variable (cache fs) in
theorem lowers_update (u) : Lowers (u.write cache fs).state (update cache u fs).state := by
  rcases update_cases cache u fs with e | e <;> rw [e]
  · exact Lowers.refl _
  · exact lowers_applyJournal (u.store cache fs)

variable (cache fs) in
theorem of_update_cutoff (u) {n : Node} {c : Int} (h : (update cache u fs).state.cutoff n = some c) :
    ∃ c', (u.write cache fs).state.cutoff n = some c' ∧ c ≤ c' := by
  rcases update_cases cache u fs with e | e <;> rw [e] at h
  · exact ⟨c, h, Int.le_refl c⟩
  · exact of_repaired h

theorem lowers_apply {op : Op} (h : ∀ u, op ≠ .update u) : Lowers fs.state (op.apply cache fs).state := by
  cases op with
  | init =>
    rw [Op.apply, init_state]
    exact Lowers.refl _
  | update u => exact absurd rfl (h u)
  | addTrackedTask => exact Lowers.refl _
  | applyJournal => exact lowers_applyJournal fs
  | rotate now => exact lowers_rotate now

/-! ## What an operation finds corrupted -/

def Op.found (cache : TaskCache) : Op → Files → List ArchiveFile
  | .applyJournal, fs => corruptedFiles (mergeJournal fs)
  | .update u, fs =>
    let stored := u.store cache fs
    if (stored.journal.map cache.lineSize).sum > cache.journalMaxSize then corruptedFiles (mergeJournal stored) else []
  | .rotate now, fs =>
    (if rotationDue cache now fs.archive.files then
      corruptedFiles (mergeJournal (fs.withoutLeftovers.withNewFile cache now)) else []) ++
      corruptedFiles (compressOld cache ((startRotation cache now fs).archive.files.take cache.maxFiles))
  | .init _, _ => []
  | .addTrackedTask _, _ => []

theorem cutoffsBelow_apply (op : Op) {f}
    (hf : f ∈ op.found cache fs) : CutoffsBelow f.starttime (op.apply cache fs).state := by
  cases op with
  | init => exact absurd hf not_mem_nil
  | addTrackedTask => exact absurd hf not_mem_nil
  | applyJournal => exact cutoffsBelow_repaired hf _
  | update =>
    unfold Op.found at hf
    unfold Op.apply update applyJournalIfTooLarge
    simp only at hf ⊢
    split at hf
    · next hlarge =>
      rw [if_pos hlarge]
      exact cutoffsBelow_repaired hf _
    · exact absurd hf not_mem_nil
  | rotate now =>
    rw [Op.apply, rotate_state]
    rcases mem_append.mp hf with hf | hf
    · cases hd : rotationDue cache now fs.archive.files with
      | true =>
        rw [hd, if_pos rfl] at hf
        rw [startRotation_of_due hd]
        exact (cutoffsBelow_repaired hf _).repaired _
      | false => simp [hd] at hf
    · exact cutoffsBelow_repaired hf _

/-! ## What an update does to a cutoff -/

/-- An update does not raise the cutoff above `b`. -/
def KeepsBelow (cache : TaskCache) (b : Int) (n : Node) (u : UpdateArgs) (active : List TaskCacheItem) : Prop :=
  u.nodeSuccessful n → (∃ t ∈ u.finished, cache.nodeOf t.upid = some n ∧ b < t.starttime) →
    ∃ t ∈ u.remaining active, cache.nodeOf t.upid = some n ∧ t.starttime ≤ b

variable {c : Int} {n : Node} {u : UpdateArgs}

theorem write_cutoff_of_known (hc : fs.state.cutoff n = some c) : (u.write cache fs).state.cutoff n =
    some (if u.nodeSuccessful n then
      (starttimesOf cache n (u.remaining fs.active)).foldl min ((starttimesOf cache n u.finished).foldl max c)
    else c) := by
  rw [UpdateArgs.write_cutoff, hc]
  by_cases hs : u.nodeSuccessful n
  · rw [if_pos hs, if_pos hs, moved_raiseTo, moved_lowerTo]
    by_cases h₁ : starttimesOf cache n u.finished = [] <;>
      by_cases h₂ : starttimesOf cache n (u.remaining fs.active) = [] <;> simp [h₁, h₂]
  · rw [if_neg hs, if_neg hs]

theorem write_cutoff_le_iff (hc : fs.state.cutoff n = some c) (hcb : c ≤ b) :
    (∃ c' ≤ b, (u.write cache fs).state.cutoff n = some c') ↔ KeepsBelow cache b n u fs.active := by
  rw [write_cutoff_of_known hc]
  by_cases hs : u.nodeSuccessful n
  · have raised : (starttimesOf cache n u.finished).foldl max c ≤ b ↔
        ¬ ∃ t ∈ u.finished, cache.nodeOf t.upid = some n ∧ b < t.starttime := by
      rw [foldl_max_le]
      constructor
      · rintro ⟨-, h⟩ ⟨t, ht, hn, hbt⟩
        have := h t.starttime (mem_starttimesOf.mpr ⟨t, ht, hn, rfl⟩)
        omega
      · refine fun h => ⟨hcb, fun s hs => ?_⟩
        obtain ⟨t, ht, hn, rfl⟩ := mem_starttimesOf.mp hs
        by_contra hbt
        exact h ⟨t, ht, hn, by omega⟩
    have lowered : (∃ s ∈ starttimesOf cache n (u.remaining fs.active), s ≤ b) ↔
        ∃ t ∈ u.remaining fs.active, cache.nodeOf t.upid = some n ∧ t.starttime ≤ b := by
      constructor
      · rintro ⟨s, hs, hsb⟩
        obtain ⟨t, ht, hn, rfl⟩ := mem_starttimesOf.mp hs
        exact ⟨t, ht, hn, hsb⟩
      · rintro ⟨t, ht, hn, hsb⟩
        exact ⟨_, mem_starttimesOf.mpr ⟨t, ht, hn, rfl⟩, hsb⟩
    simp only [KeepsBelow, hs, if_true, some.injEq, exists_eq_right', foldl_min_le, raised, lowered, true_imp_iff]
    exact imp_iff_not_or.symm
  · simp [KeepsBelow, hs, hcb]

/-! ## Fetch cycles -/

def keepOldFiles : Int := 7

def rotateAfterSeconds : Int := 24 * 3600

def fetchSince (state : State) (now : Int) (n : Node) : Int :=
  (state.cutoff n).getD (now - keepOldFiles * rotateAfterSeconds)

structure Cycles (ι : Type) where
  files : Files
  read : ι → Option State

inductive CycleAct (ι : Type)
  | op (o : Op)
  | damage (archive : Archive)
  | requestRepair (corrupted : List ArchiveFile)
  | readState (i : ι)
  | update (i : ι) (now : Int) (u : UpdateArgs)

variable {ι : Type} [DecidableEq ι] (cache : TaskCache)

inductive CycleStep : Cycles ι → CycleAct ι → Cycles ι → Prop
  | op (s : Cycles ι) (o : Op) (h : ∀ u, o ≠ .update u) :
      CycleStep s (.op o) { s with files := o.apply cache s.files }
  | damage (s : Cycles ι) (archive : Archive) :
      CycleStep s (.damage archive) { s with files := { s.files with archive } }
  | requestRepair (s : Cycles ι) (corrupted : List ArchiveFile) :
      CycleStep s (.requestRepair corrupted) { s with files := RemoteTasks.requestRepair corrupted s.files }
  | readState (s : Cycles ι) (i : ι) :
      CycleStep s (.readState i) { s with read := Function.update s.read i (some s.files.state) }
  | update (s : Cycles ι) (i : ι) {state : State} (h : s.read i = some state) (now : Int) (u : UpdateArgs) :
      CycleStep s (.update i now u)
        { files := RemoteTasks.update cache u s.files, read := Function.update s.read i none }

def CycleAct.found : CycleAct ι → Cycles ι → List ArchiveFile
  | .op o, s => o.found cache s.files
  | .requestRepair corrupted, _ => corrupted
  | .update _ _ u, s => (Op.update u).found cache s.files
  | .damage _, _ => []
  | .readState _, _ => []

/-- The update comes from a fetch that goes back to `b`. -/
def Refetches (b : Int) (n : Node) (s : Cycles ι) : CycleAct ι → Prop
  | .update i now u => u.nodeSuccessful n ∧ ∃ state, s.read i = some state ∧ fetchSince state now n ≤ b
  | _ => False

def StaleKeepsBelow (b : Int) (n : Node) (s : Cycles ι) : CycleAct ι → Prop
  | .update _ _ u => KeepsBelow cache b n u s.files.active
  | _ => True

variable {cache} {s t : Cycles ι} {a : CycleAct ι} {b : Int} {n : Node}

theorem cutoffsBelow_step (h : CycleStep cache s a t) {f} (hf : f ∈ a.found cache s) :
    CutoffsBelow f.starttime t.files.state := by
  cases h with
  | op o => exact cutoffsBelow_apply o hf
  | damage => exact absurd hf not_mem_nil
  | requestRepair => exact cutoffsBelow_repaired hf _
  | readState => exact absurd hf not_mem_nil
  | update _ _ _ u => exact cutoffsBelow_apply (.update u) hf

theorem below_step (h : CycleStep cache s a t) (hk : StaleKeepsBelow cache b n s a)
    (hs : ∃ c ≤ b, s.files.state.cutoff n = some c) : ∃ c ≤ b, t.files.state.cutoff n = some c := by
  obtain ⟨c, hcb, hc⟩ := hs
  cases h with
  | op _ h =>
    obtain ⟨c', hc', e⟩ := lowers_apply h n c hc
    exact ⟨c', by omega, e⟩
  | damage => exact ⟨c, hcb, hc⟩
  | requestRepair corrupted =>
    obtain ⟨c', hc', e⟩ := lowers_repaired corrupted s.files.state n c hc
    exact ⟨c', by omega, e⟩
  | readState => exact ⟨c, hcb, hc⟩
  | update _ _ _ u =>
    obtain ⟨c₁, h₁, e₁⟩ := (write_cutoff_le_iff hc hcb).mpr hk
    obtain ⟨c₂, h₂, e₂⟩ := lowers_update cache s.files u n c₁ e₁
    exact ⟨c₂, by omega, e₂⟩

/-- **Once a repair is requested, the cutoff of a known node stays at or below the bound until an update from a fetch
that went back to it, unless another update raises it.** -/
theorem repair_not_lost {r : Cycles ι} {as : List (CycleAct ι)} (hreq : CycleStep cache r a s)
    (hfound : ∃ f ∈ a.found cache r, f.starttime = b) (hknown : s.files.state.cutoff n ≠ none)
    (hrun : Run (fun s a t => CycleStep cache s a t ∧ ¬ Refetches b n s a ∧ StaleKeepsBelow cache b n s a) s as t) :
    ∃ c ≤ b, t.files.state.cutoff n = some c := by
  obtain ⟨f, hf, rfl⟩ := hfound
  obtain ⟨c, hc⟩ := ne_none_iff_exists'.mp hknown
  have start : ∃ c ≤ f.starttime, s.files.state.cutoff n = some c := ⟨c, cutoffsBelow_step hreq hf n c hc, hc⟩
  exact Run.invariant (P := fun s => ∃ c ≤ f.starttime, s.files.state.cutoff n = some c)
    (fun _ _ _ hs hst => below_step hst.1 hst.2.2 hs) hrun start

/-! ## A lost repair -/

def damagedFile : ArchiveFile := ⟨20, false, [], true⟩

def damagedArchive : Archive := ⟨[damagedFile, ⟨10, false, [], false⟩, ⟨0, true, [], false⟩], [], by decide⟩

def damagedCycles : Cycles Nat where
  files := ⟨damagedArchive, [], [], ⟨fun _ => some 25, ∅⟩⟩
  read := fun _ => some ⟨fun _ => some 25, ∅⟩

theorem repair_not_lost_running : ∃ s t, CycleStep tenSecondCache damagedCycles (.requestRepair [damagedFile]) s ∧
    CycleStep tenSecondCache s (.update 1 40 ⟨[sampleTask "b" 30 none], fun _ => true, ∅⟩) t ∧
    ∃ c ≤ 20, t.files.state.cutoff ("remote", "node") = some c := by
  have repair : CycleStep tenSecondCache damagedCycles (.requestRepair [damagedFile])
      { damagedCycles with files := requestRepair [damagedFile] damagedCycles.files } := .requestRepair _ _
  refine ⟨_, _, repair, .update _ _ rfl _ _, repair_not_lost repair ⟨damagedFile, mem_cons_self, rfl⟩ (by decide)
    (.cons ⟨.update _ 1 rfl 40 _, ?_, ?_⟩ (.nil _))⟩
  · rintro ⟨-, state, hread, hle⟩
    obtain rfl := some.inj hread
    exact absurd hle (by decide)
  · rintro - ⟨t, ht, -⟩
    exact absurd ht not_mem_nil

/-- The second cycle has read the cutoff 25 before the repair lowers it to 20, and its update raises it back. -/
theorem stale_update_loses_repair : ∃ r s t : Cycles Nat, Run (CycleStep tenSecondCache) ⟨Files.empty, fun _ => none⟩
      [.op (.init 20), .readState 0, .update 0 30 ⟨[sampleTask "a" 25 (some 26)], fun _ => true, ∅⟩,
        .op .applyJournal, .readState 1, .damage damagedArchive] r ∧
    CycleStep tenSecondCache r (.requestRepair [damagedFile]) s ∧
    Run (fun s a t => CycleStep tenSecondCache s a t ∧ ¬ Refetches 20 ("remote", "node") s a) s
      [.update 1 40 ⟨[sampleTask "a" 25 (some 26)], fun _ => true, ∅⟩] t ∧
    s.files.state.cutoff ("remote", "node") = some 20 ∧ t.files.state.cutoff ("remote", "node") = some 25 := by
  refine ⟨_, _, _, .cons (.op _ _ (by simp)) (.cons (.readState _ _) (.cons (.update _ _ rfl _ _)
    (.cons (.op _ _ (by simp)) (.cons (.readState _ _) (.cons (.damage _ _) (.nil _)))))), .requestRepair _ _,
    .cons ⟨.update _ _ rfl _ _, ?_⟩ (.nil _), ?_, ?_⟩
  · rintro ⟨-, state, hread, hle⟩
    obtain rfl := some.inj hread
    exact absurd hle (by decide)
  · decide
  · decide

end Nexus.RemoteTasks
