import Nexus.RemoteCache

/-!
# The schedule of back-off times

`BackOffState` of `server/src/remote_cache/back_off.rs` over a whole series of failures, with its machine integers. The
waits get longer up to three minutes and do not overlap, and nothing overflows before the clock is at the end of its
range (`schedule`). What is left of a wait does shrink while it runs (`remaining_wait_shrinks`).
-/

namespace Nexus.RemoteCache

open List BackOffState Option

/-! ## Machine integers -/

def checkedI64 (x : Int) : Option Int := if -2 ^ 63 ≤ x ∧ x < 2 ^ 63 then some x else none

def checkedU32 (n : Nat) : Option Nat := if n < 2 ^ 32 then some n else none

theorem checkedI64_eq {x} (h : -2 ^ 63 ≤ x) (h' : x < 2 ^ 63) : checkedI64 x = some x := if_pos ⟨h, h'⟩

theorem checkedU32_eq {n} (h : n < 2 ^ 32) : checkedU32 n = some n := if_pos h

namespace BackOffState

def checkedTooEarly (s : BackOffState) (time : Int) : Option Bool :=
  if s.backOffDoublingCount = 0 then (checkedI64 (time - s.firstFailTime)).map fun d => decide (d < backOffMinTimeS)
  else some false

def checkedBackOffTime (s : BackOffState) : Option Int := do
  let power ← checkedI64 (2 ^ s.backOffDoublingCount)
  let product ← checkedI64 (backOffBaseTimeS * power)
  return min product backOffMaxTimeS

def checkedDoubled (s : BackOffState) (backOffTime : Int) : Option Nat :=
  if backOffTime < backOffMaxTimeS then checkedU32 (s.backOffDoublingCount + 1) else some s.backOffDoublingCount

/-- `none` where an operation overflows. -/
def checkedRetried (s : BackOffState) (time : Int) (error : String) : Option (BackOffState × Option Int) :=
  let s := { s with lastError := error }
  if 0 < s.timeToNextTry time then some (s, none)
  else do
    let early ← s.checkedTooEarly time
    if early then
      return (s, none)
    else
      let backOffTime ← s.checkedBackOffTime
      let count ← s.checkedDoubled backOffTime
      let nextTry ← checkedI64 (time + backOffTime)
      return ({ s with backOffDoublingCount := count, nextTry := nextTry }, some nextTry)

def backOffTime (s : BackOffState) : Int := min (backOffBaseTimeS * 2 ^ s.backOffDoublingCount) backOffMaxTimeS

def Starts (s : BackOffState) (time : Int) : Prop :=
  s.timeToNextTry time = 0 ∧ (s.backOffDoublingCount = 0 → backOffMinTimeS ≤ time - s.firstFailTime)

instance (s : BackOffState) (time : Int) : Decidable (s.Starts time) := inferInstanceAs (Decidable (_ ∧ _))

variable {s : BackOffState} {time : Int}

theorem timeToNextTry_eq_zero_iff : s.timeToNextTry time = 0 ↔ s.nextTry ≤ time := by
  unfold timeToNextTry saturatingSub
  omega

theorem timeToNextTry_eq (h : s.nextTry - time < 2 ^ 63) : s.timeToNextTry time = (s.nextTry - time).toNat := by
  unfold timeToNextTry saturatingSub
  omega

theorem retried_of_not_starts (h : ¬s.Starts time) (error) : s.retried time error = { s with lastError := error } := by
  unfold retried
  by_cases hwait : 0 < s.timeToNextTry time
  · exact if_pos hwait
  · have hearly : s.backOffDoublingCount = 0 ∧ time - s.firstFailTime < backOffMinTimeS := by
      by_contra hlate
      exact h ⟨by omega, fun h0 => by omega⟩
    exact (if_neg hwait).trans (if_pos hearly)

theorem retried_of_starts (h : s.Starts time) (error) : s.retried time error = { s with
      lastError := error
      backOffDoublingCount :=
        if s.backOffTime < backOffMaxTimeS then s.backOffDoublingCount + 1 else s.backOffDoublingCount
      nextTry := time + s.backOffTime } := by
  unfold retried
  have hwait : ¬0 < s.timeToNextTry time := by have := h.1; omega
  have hlate : ¬(s.backOffDoublingCount = 0 ∧ time - s.firstFailTime < backOffMinTimeS) := by
    rintro ⟨h0, hlt⟩
    have := h.2 h0
    omega
  exact (if_neg hwait).trans (if_neg hlate)

theorem two_pow_le : ∀ n ≤ 5, (1 : Int) ≤ 2 ^ n ∧ (2 : Int) ^ n ≤ 32 := by decide

theorem checkedTooEarly_eq (hmin : -2 ^ 63 ≤ time - s.firstFailTime) (hmax : time - s.firstFailTime < 2 ^ 63) :
    s.checkedTooEarly time = some (decide (s.backOffDoublingCount = 0 ∧ time - s.firstFailTime < backOffMinTimeS)) := by
  unfold checkedTooEarly
  rw [checkedI64_eq hmin hmax]
  split
  · next h0 => simp [h0]
  · next h0 => simp [h0]

variable (hcount : s.backOffDoublingCount ≤ 5)

include hcount

theorem checkedDoubled_eq (wait : Int) : s.checkedDoubled wait =
    some (if wait < backOffMaxTimeS then s.backOffDoublingCount + 1 else s.backOffDoublingCount) := by
  unfold checkedDoubled
  rw [checkedU32_eq (by omega)]
  split <;> rfl

theorem backOffTime_bounds : 0 < s.backOffTime ∧ s.backOffTime ≤ backOffMaxTimeS := by
  have hpow := two_pow_le _ hcount
  unfold backOffTime backOffBaseTimeS backOffMaxTimeS
  omega

theorem checkedBackOffTime_eq : s.checkedBackOffTime = some s.backOffTime := by
  have hpow := two_pow_le _ hcount
  have hpower : checkedI64 (2 ^ s.backOffDoublingCount) = some (2 ^ s.backOffDoublingCount) :=
    checkedI64_eq (by omega) (by omega)
  have product : checkedI64 (backOffBaseTimeS * 2 ^ s.backOffDoublingCount) =
      some (backOffBaseTimeS * 2 ^ s.backOffDoublingCount) := by
    unfold backOffBaseTimeS
    exact checkedI64_eq (by omega) (by omega)
  simp only [checkedBackOffTime, bind_eq_bind, bind_eq_some_iff]
  exact ⟨_, hpower, _, product, rfl⟩

theorem checkedRetried_eq (first : s.firstFailTime ≤ time)
    (hmin : -2 ^ 63 ≤ time) (hsub : time - s.firstFailTime < 2 ^ 63) (hadd : time + backOffMaxTimeS < 2 ^ 63)
    (error) : s.checkedRetried time error =
      some (s.retried time error, if s.Starts time then some (time + s.backOffTime) else none) := by
  have bounds := backOffTime_bounds hcount
  have hearly := @checkedTooEarly_eq { s with lastError := error } time (by simp only; omega) hsub
  have hlen := checkedBackOffTime_eq (s := { s with lastError := error }) hcount
  have double := checkedDoubled_eq (s := { s with lastError := error }) hcount s.backOffTime
  have hnext := checkedI64_eq (x := time + s.backOffTime) (by omega) (by omega)
  by_cases starts : s.Starts time
  · have hwait : ¬0 < timeToNextTry { s with lastError := error } time := Nat.not_lt.mpr (Nat.le_of_eq starts.1)
    have hlate : ¬(s.backOffDoublingCount = 0 ∧ time - s.firstFailTime < backOffMinTimeS) := by
      rintro ⟨h0, hlt⟩
      have := starts.2 h0
      omega
    rw [retried_of_starts starts, if_pos starts, checkedRetried, if_neg hwait]
    rw [decide_eq_false hlate] at hearly
    simp only [bind_eq_bind, bind_eq_some_iff]
    refine ⟨_, hearly, ?_⟩
    simp only [Bool.false_eq_true, if_false, bind_eq_some_iff]
    exact ⟨_, hlen, _, double, _, hnext, rfl⟩
  · rw [retried_of_not_starts starts, if_neg starts, checkedRetried]
    by_cases hwait : 0 < timeToNextTry { s with lastError := error } time
    · exact if_pos hwait
    · have htooEarly : s.backOffDoublingCount = 0 ∧ time - s.firstFailTime < backOffMinTimeS := by
        by_contra hlate
        exact starts ⟨Nat.eq_zero_of_not_pos hwait, fun h0 => by omega⟩
      rw [decide_eq_true htooEarly] at hearly
      rw [if_neg hwait]
      exact bind_eq_some_iff.mpr ⟨_, hearly, rfl⟩

theorem retried_keeps (time : Int) (error) :
    (s.retried time error).firstFailTime = s.firstFailTime ∧ (s.retried time error).backOffDoublingCount ≤ 5 ∧
      s.backOffTime ≤ (s.retried time error).backOffTime := by
  by_cases starts : s.Starts time
  · rw [retried_of_starts starts]
    unfold backOffTime
    have htable : ∀ n ≤ 5, (if min (backOffBaseTimeS * 2 ^ n) backOffMaxTimeS < backOffMaxTimeS then n + 1 else n) ≤ 5 ∧
        min (backOffBaseTimeS * 2 ^ n) backOffMaxTimeS ≤ min (backOffBaseTimeS *
          2 ^ (if min (backOffBaseTimeS * 2 ^ n) backOffMaxTimeS < backOffMaxTimeS then n + 1 else n))
            backOffMaxTimeS := by decide
    exact ⟨rfl, htable _ hcount⟩
  · rw [retried_of_not_starts starts]
    exact ⟨rfl, hcount, Int.le_refl _⟩

end BackOffState

/-! ## A series of failures -/

structure Wait where
  (start nextTry : Int)
  deriving DecidableEq

def Wait.length (w : Wait) : Int := w.nextTry - w.start

structure Failure where
  time : Int
  error : String

structure Series where
  state : BackOffState
  waits : List Wait
  deriving DecidableEq

namespace Series

def begin (first : Failure) : Series := ⟨.new first.time first.error, []⟩

def report (r : Series) (f : Failure) : Option Series :=
  (r.state.checkedRetried f.time f.error).map fun p => ⟨p.1, r.waits ++ (p.2.map (Wait.mk f.time)).toList⟩

structure Scheduled (first last : Int) (r : Series) : Prop where
  first_eq : r.state.firstFailTime = first
  count_le : r.state.backOffDoublingCount ≤ 5
  -- the state knows of the last wait only
  next_eq : (r.waits = [] ∧ r.state.backOffDoublingCount = 0 ∧ r.state.nextTry = first) ∨
    ∃ w, r.waits.getLast? = some w ∧ r.state.nextTry = w.nextTry
  begun : ∀ w ∈ r.waits, first + backOffMinTimeS ≤ w.start ∧ w.start ≤ last
  bounded : ∀ w ∈ r.waits, 0 < w.length ∧ w.length ≤ r.state.backOffTime
  sorted : r.waits.Pairwise fun w w' => w.length ≤ w'.length ∧ w.nextTry ≤ w'.start
  ended : ∀ w ∈ r.waits, w.nextTry ≤ r.state.nextTry

theorem scheduled_begin (first) : (begin first).Scheduled first.time first.time where
  first_eq := rfl
  count_le := Nat.zero_le 5
  next_eq := .inl ⟨rfl, rfl, rfl⟩
  begun := fun _ h => nomatch h
  bounded := fun _ h => nomatch h
  sorted := .nil
  ended := fun _ h => nomatch h

variable {first last : Int} {r : Series} {f : Failure} {now : Int}

section

variable (h : r.Scheduled first last)

include h

theorem Scheduled.idle (hlast : last ≤ f.time) (starts : ¬r.state.Starts f.time) :
    Scheduled first f.time ⟨r.state.retried f.time f.error, r.waits⟩ := by
  rw [retried_of_not_starts starts]
  exact ⟨h.first_eq, h.count_le, h.next_eq, fun w hw => ⟨(h.begun w hw).1, Int.le_trans (h.begun w hw).2 hlast⟩,
    h.bounded, h.sorted, h.ended⟩

theorem Scheduled.late (hlast : last ≤ f.time) (starts : r.state.Starts f.time) : first + backOffMinTimeS ≤ f.time := by
  obtain ⟨-, hcount, -⟩ | ⟨w, hw, -⟩ := h.next_eq
  · have := starts.2 hcount
    have := h.first_eq
    omega
  · have := h.begun w (mem_of_getLast? hw)
    omega

theorem Scheduled.wait (hlast : last ≤ f.time) (starts : r.state.Starts f.time) :
    Scheduled first f.time ⟨r.state.retried f.time f.error, r.waits ++ [⟨f.time, f.time + r.state.backOffTime⟩]⟩ := by
  obtain ⟨hfst, hcount, hlong⟩ := retried_keeps h.count_le f.time f.error
  have hnext : (r.state.retried f.time f.error).nextTry = f.time + r.state.backOffTime := by
    rw [retried_of_starts starts]
  have bounds := backOffTime_bounds h.count_le
  have hfree : r.state.nextTry ≤ f.time := timeToNextTry_eq_zero_iff.mp starts.1
  have hlate := h.late hlast starts
  have hlen : (Wait.mk f.time (f.time + r.state.backOffTime)).length = r.state.backOffTime := by
    change f.time + r.state.backOffTime - f.time = r.state.backOffTime
    omega
  refine ⟨hfst.trans h.first_eq, hcount, .inr ⟨_, getLast?_concat, hnext⟩, ?_, ?_, ?_, ?_⟩
  · refine forall_mem_append.mpr ⟨fun w hw => ?_, forall_mem_singleton.mpr ⟨hlate, Int.le_refl _⟩⟩
    exact ⟨(h.begun w hw).1, Int.le_trans (h.begun w hw).2 hlast⟩
  · refine forall_mem_append.mpr ⟨fun w hw => ?_, forall_mem_singleton.mpr ?_⟩
    · exact ⟨(h.bounded w hw).1, Int.le_trans (h.bounded w hw).2 hlong⟩
    · rw [hlen]
      exact ⟨bounds.1, hlong⟩
  · refine pairwise_append.mpr ⟨h.sorted, pairwise_singleton _ _, ?_⟩
    intro w hw w' hw'
    rw [mem_singleton.mp hw', hlen]
    exact ⟨(h.bounded w hw).2, Int.le_trans (h.ended w hw) hfree⟩
  · refine forall_mem_append.mpr ⟨fun w hw => ?_, forall_mem_singleton.mpr (Int.le_of_eq hnext.symm)⟩
    have hend := h.ended w hw
    simp only
    omega

/-- No sum of times overflows. -/
structure InRange (first time : Int) : Prop where
  min_le : -2 ^ 63 ≤ time
  sub_lt : time - first < 2 ^ 63
  add_lt : time + backOffMaxTimeS < 2 ^ 63

/-- **One failure keeps the schedule.** -/
theorem Scheduled.report (hfst : first ≤ last) (hlast : last ≤ f.time)
    (hrange : InRange first f.time) : ∃ r', r.report f = some r' ∧ r'.Scheduled first f.time ∧
      r'.state = r.state.retried f.time f.error := by
  obtain ⟨hmin, hsub, hadd⟩ := hrange
  have hfst' := h.first_eq
  have check := checkedRetried_eq h.count_le (by omega) hmin (by omega) hadd f.error
  refine ⟨_, map_eq_some_iff.mpr ⟨_, check, rfl⟩, ?_, rfl⟩
  by_cases starts : r.state.Starts f.time
  · simp only [if_pos starts]
    exact h.wait hlast starts
  · simp only [if_neg starts]
    simpa using h.idle hlast starts

end

theorem Scheduled.foldlM : ∀ (fs : List Failure) {last : Int} {r : Series}, r.Scheduled first last → first ≤ last →
    (∀ f ∈ fs, last ≤ f.time) → fs.Pairwise (fun f f' => f.time ≤ f'.time) → (∀ f ∈ fs, InRange first f.time) →
    ∃ r' last', fs.foldlM Series.report r = some r' ∧ r'.Scheduled first last' ∧
      (last' = last ∨ ∃ f ∈ fs, last' = f.time) ∧ r'.state = fs.foldl (fun s f => s.retried f.time f.error) r.state
  | [], last, r, h, _, _, _, _ => ⟨r, last, rfl, h, .inl rfl, rfl⟩
  | f :: fs, last, r, h, hfst, hlast, hsort, hrange => by
    obtain ⟨hf, hsort⟩ := pairwise_cons.mp hsort
    have hle := hlast f mem_cons_self
    obtain ⟨r₁, report, h₁, hst⟩ := h.report hfst hle (hrange f mem_cons_self)
    obtain ⟨r', last', hfold, h', hlast', hst'⟩ := Scheduled.foldlM fs h₁ (Int.le_trans hfst hle) hf hsort
      fun g hg => hrange g (mem_cons_of_mem _ hg)
    refine ⟨r', last', ?_, h', .inr ?_, ?_⟩
    · rw [foldlM_cons, report]
      exact hfold
    · obtain rfl | ⟨g, hg, rfl⟩ := hlast'
      · exact ⟨f, mem_cons_self, rfl⟩
      · exact ⟨g, mem_cons_of_mem _ hg, rfl⟩
    · rw [hst', hst, foldl_cons]

theorem Scheduled.timeToNextTry_eq (h : r.Scheduled first last) (hfst : first ≤ last) (hnow : last ≤ now) :
    r.state.timeToNextTry now = (r.waits.getLast?.elim 0 fun w => (w.nextTry - now).toNat) := by
  obtain ⟨hnil, -, hnext⟩ | ⟨w, hw, hnext⟩ := h.next_eq
  · rw [hnil, timeToNextTry_eq_zero_iff.mpr (by omega)]
    rfl
  · have hmem := mem_of_getLast? hw
    have hbegun := h.begun w hmem
    have bounds := h.bounded w hmem
    have hmax := backOffTime_bounds h.count_le
    unfold Wait.length at bounds
    unfold backOffMaxTimeS at hmax
    rw [hw, BackOffState.timeToNextTry_eq (by omega), hnext]
    rfl

theorem Scheduled.timeToNextTry_le (h : r.Scheduled first last) (hfst : first ≤ last) (hnow : last ≤ now) :
    (r.state.timeToNextTry now : Int) ≤ backOffMaxTimeS := by
  rw [h.timeToNextTry_eq hfst hnow]
  cases hw : r.waits.getLast? with
  | none => exact (by decide : (0 : Int) ≤ backOffMaxTimeS)
  | some w =>
    have hmem := mem_of_getLast? hw
    have hbegun := h.begun w hmem
    have bounds := h.bounded w hmem
    have hmax := backOffTime_bounds h.count_le
    unfold Wait.length at bounds
    unfold backOffMaxTimeS at hmax ⊢
    simp only [elim_some]
    omega

theorem Scheduled.timeToNextTry_eq_zero (h : r.Scheduled first last) (hfst : first ≤ last)
    (hnow : last ≤ now) (hearly : now < first + backOffMinTimeS) : r.state.timeToNextTry now = 0 := by
  have hnil : r.waits = [] := eq_nil_iff_forall_not_mem.mpr fun w hw => by
    have := h.begun w hw
    omega
  rw [h.timeToNextTry_eq hfst hnow, hnil]
  rfl

/-- **The schedule of a series of failures.** -/
theorem schedule (first : Failure) (fs : List Failure) (hsorted : (first :: fs).Pairwise fun f f' => f.time ≤ f'.time)
    (hrange : ∀ f ∈ fs, InRange first.time f.time) : ∃ r, fs.foldlM report (begin first) = some r ∧
      r.state = fs.foldl (fun s f => s.retried f.time f.error) (.new first.time first.error) ∧
      (∀ w ∈ r.waits, first.time + backOffMinTimeS ≤ w.start ∧ 0 < w.length ∧ w.length ≤ backOffMaxTimeS) ∧
      (r.waits.Pairwise fun w w' => w.length ≤ w'.length ∧ w.nextTry ≤ w'.start) ∧
      ∀ now, (∀ f ∈ first :: fs, f.time ≤ now) →
        (r.state.timeToNextTry now = r.waits.getLast?.elim 0 fun w => (w.nextTry - now).toNat) ∧
        (r.state.timeToNextTry now : Int) ≤ backOffMaxTimeS ∧
        (now < first.time + backOffMinTimeS → r.state.timeToNextTry now = 0) := by
  obtain ⟨hfst, hsorted⟩ := pairwise_cons.mp hsorted
  obtain ⟨r, last, hfold, h, hlast, hst⟩ := (scheduled_begin first).foldlM fs (Int.le_refl _) hfst hsorted hrange
  have hle : first.time ≤ last := by
    obtain rfl | ⟨f, hf, rfl⟩ := hlast
    · exact Int.le_refl _
    · exact hfst f hf
  refine ⟨r, hfold, hst, fun w hw => ?_, h.sorted, fun now hnow => ?_⟩
  · have bounds := h.bounded w hw
    have hmax := backOffTime_bounds h.count_le
    exact ⟨(h.begun w hw).1, bounds.1, Int.le_trans bounds.2 hmax.2⟩
  · have hlastNow : last ≤ now := by
      obtain rfl | ⟨f, hf, rfl⟩ := hlast
      · exact hnow first mem_cons_self
      · exact hnow f (mem_cons_of_mem _ hf)
    exact ⟨h.timeToNextTry_eq hle hlastNow, h.timeToNextTry_le hle hlastNow, h.timeToNextTry_eq_zero hle hlastNow⟩

theorem schedule_ten_minutes : ∃ r, [Failure.mk 600 "refused", ⟨605, "refused"⟩, ⟨610, "refused"⟩].foldlM report
      (begin ⟨0, "refused"⟩) = some r ∧
    ∀ now, (∀ f ∈ [Failure.mk 0 "refused", ⟨600, "refused"⟩, ⟨605, "refused"⟩, ⟨610, "refused"⟩], f.time ≤ now) →
      (r.state.timeToNextTry now : Int) ≤ backOffMaxTimeS := by
  have hrange : ∀ f ∈ [Failure.mk 600 "refused", ⟨605, "refused"⟩, ⟨610, "refused"⟩], InRange 0 f.time := by
    simp only [mem_cons, not_mem_nil, or_false, forall_eq_or_imp, forall_eq]
    exact ⟨⟨by decide, by decide, by decide⟩, ⟨by decide, by decide, by decide⟩, ⟨by decide, by decide, by decide⟩⟩
  obtain ⟨r, hr, -, -, -, hnow⟩ := schedule ⟨0, "refused"⟩ _ (by decide) hrange
  exact ⟨r, hr, fun now h => (hnow now h).2.1⟩

/-- Less is left of the wait than at the failure before. Near the end of the range of the clock the next try overflows.
-/
theorem remaining_wait_shrinks :
    (∃ r r', (begin ⟨0, "refused"⟩).report ⟨600, "refused"⟩ = some r ∧ r.report ⟨605, "refused"⟩ = some r' ∧
      r.state.timeToNextTry 600 = 10 ∧ r'.state.timeToNextTry 605 = 5) ∧
    (begin ⟨2 ^ 63 - 601, "refused"⟩).report ⟨2 ^ 63 - 1, "refused"⟩ = none := by
  refine ⟨⟨⟨⟨1, "refused", 0, 610⟩, [⟨600, 610⟩]⟩, ⟨⟨1, "refused", 0, 610⟩, [⟨600, 610⟩]⟩, ?_⟩, ?_⟩
  · decide
  · decide

end Series

end Nexus.RemoteCache
