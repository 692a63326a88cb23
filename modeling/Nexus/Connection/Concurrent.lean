import Mathlib.Algebra.Group.Nat.Defs
import Mathlib.Data.List.Nodup
import Mathlib.Data.List.Perm.Subperm
import Nexus.Connection.Clients
import Nexus.Lib.Run

/-!
# Requests at the same time

Any number of generators share one `MultiClientState`. Each yields indices of a window as long as there are endpoints,
each index once (`Phase`). So its clients are for different endpoints as long as the index does not wrap
(`run_terminates_without_repeats`); after a wrap they need not be (`run_repeats_after_wrap`).
-/

namespace Nexus.Connection

open Lib (Run)
open Function List Nat

/-! ## The system -/

structure RequestLoops (ι : Type) where
  shared : MultiClientState
  generators : ι → TryClients
  returned : ι → List (Option TryClient)

structure Call (ι : Type) where
  loop : ι
  reachable : String → Bool

namespace RequestLoops

variable {ι : Type}

def start (st : MultiClientState) : RequestLoops ι := ⟨st, fun _ => .start, fun _ => []⟩

/-- The index does not wrap around. -/
def NoWrap (s : RequestLoops ι) : Prop := s.shared.current.toNat + s.shared.entries.length + 1 < 2 ^ 64

instance (s : RequestLoops ι) : Decidable s.NoWrap := inferInstanceAs (Decidable (_ < _))

variable [DecidableEq ι]

def call (s : RequestLoops ι) (a : Call ι) : RequestLoops ι :=
  let (client, g, st) := (s.generators a.loop).next s.shared a.reachable
  ⟨st, update s.generators a.loop g, update s.returned a.loop (s.returned a.loop ++ [client])⟩

end RequestLoops

/-- Each endpoint comes at most once, and then no more. -/
def TerminatesWithoutRepeats (endpoints : Nat) (returned : List (Option TryClient)) : Prop :=
  ∃ (clients : List TryClient) (rest : Nat), returned = clients.map some ++ List.replicate rest none ∧
    clients.length ≤ endpoints ∧ (clients.map TryClient.position).Nodup

/-! ## The index -/

namespace MultiClientState

variable {st : MultiClientState} {reachable : String → Bool}

def new (reachable : String → Bool) (entries : List String) (nonempty : 0 < entries.length) : MultiClientState :=
  skipUnreachable reachable ⟨0, entries, nonempty⟩

theorem entries_skipRounds : ∀ n st, (skipRounds reachable n st).entries = st.entries
  | 0, _ => rfl
  | n + 1, st => by
    rw [skipRounds]
    split
    · rfl
    · exact entries_skipRounds n st.next

theorem toNat_next (h : st.current.toNat + 1 < 2 ^ 64) : st.next.current.toNat = st.current.toNat + 1 := by
  rw [next, UInt64.toNat_add]
  exact mod_eq_of_lt h

theorem toNat_skipRounds : ∀ n st, st.current.toNat + n < 2 ^ 64 →
    st.current.toNat ≤ (skipRounds reachable n st).current.toNat
  | 0, _, _ => le_refl _
  | n + 1, st, h => by
    have hnext : st.next.current.toNat = st.current.toNat + 1 := toNat_next (by omega)
    rw [skipRounds]
    split
    · exact le_refl _
    · have ih := toNat_skipRounds n st.next (by omega)
      omega

end MultiClientState

namespace TryClients

theorem map_toNat_between {i j} (h : i.toNat ≤ j.toNat) :
    (between i j).map UInt64.toNat = List.range' i.toNat (j.toNat - i.toNat) := by
  have hj := j.toNat_lt
  have hsub : (j - i).toNat = j.toNat - i.toNat := UInt64.toNat_sub_of_le j i (UInt64.le_iff_toNat_le.mpr h)
  rw [between, map_map, hsub, range'_eq_map_range]
  refine map_congr_left fun k hk => ?_
  have hk := mem_range.mp hk
  rw [Function.comp_apply, UInt64.toNat_add, UInt64.toNat_ofNat_of_lt' (by change k < 2 ^ 64; omega)]
  exact mod_eq_of_lt (by omega)

/-! ## What a generator has yielded -/

/-- A generator, with the indices that it has yielded. -/
inductive Phase (endpoints current : Nat) : TryClients → List Nat → Prop
  | fresh : Phase endpoints current .start []
  | following {begin last passed yielded}
      (nodup : (yielded ++ passed.map UInt64.toNat).Nodup)
      (window : ∀ i ∈ yielded ++ passed.map UInt64.toNat, begin.toNat ≤ i ∧ i ≤ last.toNat)
      (ordered : begin.toNat ≤ last.toNat) (short : last.toNat < begin.toNat + endpoints)
      (behind : last.toNat ≤ current) :
      Phase endpoints current ⟨some (begin, last), passed, none, false⟩ yielded
  | returning {startCurrent passed left ended yielded} (begin : Nat) (nodup : (yielded ++ left.map UInt64.toNat).Nodup)
      (window : ∀ i ∈ yielded ++ left.map UInt64.toNat, begin ≤ i ∧ i < begin + endpoints) :
      Phase endpoints current ⟨startCurrent, passed, some left, ended⟩ yielded

variable {st : MultiClientState} {reachable : String → Bool} {g : TryClients} {endpoints current : Nat}
  {yielded : List Nat}

section

variable (h : Phase endpoints current g yielded)

include h

theorem Phase.mono {later} (hle : current ≤ later) : Phase endpoints later g yielded := by
  cases h with
  | fresh => exact .fresh
  | following nodup window ordered short behind => exact .following nodup window ordered short (le_trans behind hle)
  | returning begin nodup window => exact .returning begin nodup window

theorem Phase.window : yielded.Nodup ∧ ∃ begin, ∀ i ∈ yielded, begin ≤ i ∧ i < begin + endpoints := by
  cases h with
  | fresh => exact ⟨nodup_nil, 0, by simp⟩
  | @following begin last passed _ nodup window ordered short behind =>
    refine ⟨nodup.of_append_left, begin.toNat, fun i hi => ?_⟩
    have hi := window i (mem_append_left _ hi)
    exact ⟨hi.1, by omega⟩
  | returning begin nodup window =>
    exact ⟨nodup.of_append_left, begin, fun i hi => window i (mem_append_left _ hi)⟩

theorem Phase.positions_nodup : (yielded.map (· % endpoints)).Nodup := by
  obtain ⟨hnd, begin, hwin⟩ := h.window
  refine hnd.map_on fun i hi j hj hij => ?_
  have hi := hwin i hi
  have hj := hwin j hj
  have hij' := mod_eq_of_lt (show i - j < endpoints by omega) ▸ sub_mod_eq_zero_of_mod_eq hij
  have hji' := mod_eq_of_lt (show j - i < endpoints by omega) ▸ sub_mod_eq_zero_of_mod_eq hij.symm
  omega

theorem Phase.length_le : yielded.length ≤ endpoints := by
  obtain ⟨hnd, begin, hwin⟩ := h.window
  have hsub : yielded ⊆ List.range' begin endpoints := fun i hi => mem_range'_1.mpr (hwin i hi)
  simpa using (subperm_of_subset hnd hsub).length_le

end

inductive Yields (endpoints current : Nat) (yielded : List Nat) : Option TryClient → TryClients → Prop
  | client {c g} (i : Nat) (position : c.position = i % endpoints) (goesOn : g.ended = false)
      (phase : Phase endpoints current g (yielded ++ [i])) : Yields endpoints current yielded (some c) g
  | nothing {g : TryClients} (ended : g.ended) (phase : Phase endpoints current g yielded) :
      Yields endpoints current yielded none g

theorem nextUnreachable_yields {left begin} (hend : g.ended = false) (nodup : (yielded ++ left.map UInt64.toNat).Nodup)
    (window : ∀ i ∈ yielded ++ left.map UInt64.toNat, begin ≤ i ∧ i < begin + st.entries.length) :
    Yields st.entries.length current yielded (g.nextUnreachable st left).1 (g.nextUnreachable st left).2 := by
  cases left with
  | nil => exact .nothing rfl (.returning begin nodup window)
  | cons i =>
    rw [map_cons, append_cons] at nodup window
    exact .client i.toNat rfl hend (.returning begin nodup window)

def advance (st : MultiClientState) (last : UInt64) (reachable : String → Bool) : MultiClientState :=
  if st.current = last then (st.next).skipUnreachable reachable else st

theorem entries_advance (st) (last) (reachable) : (advance st last reachable).entries = st.entries := by
  unfold advance
  split
  · exact MultiClientState.entries_skipRounds _ _
  · rfl

theorem lt_advance {last} (hwrap : st.current.toNat + st.entries.length + 1 < 2 ^ 64)
    (hle : last.toNat ≤ st.current.toNat) (reachable) : last.toNat < (advance st last reachable).current.toNat ∧
      st.current.toNat ≤ (advance st last reachable).current.toNat := by
  unfold advance
  split
  · next hsame =>
    have hnext : st.next.current.toNat = st.current.toNat + 1 := MultiClientState.toNat_next (by omega)
    have hskip : st.next.current.toNat ≤ (st.next.skipUnreachable reachable).current.toNat :=
      MultiClientState.toNat_skipRounds st.entries.length st.next (by omega)
    omega
  · next hne =>
    have hne : last.toNat ≠ st.current.toNat := fun he => hne (UInt64.toNat_inj.mp he.symm)
    omega

theorem next_following (begin) (last) (passed) (st) (reachable) :
    TryClients.next ⟨some (begin, last), passed, none, false⟩ st reachable =
      if (advance st last reachable).triedAllSince begin then
        let r := nextUnreachable ⟨some (begin, last), [], none, false⟩ (advance st last reachable) passed
        (r.1, r.2, advance st last reachable)
      else (some (currentClient reachable (advance st last reachable)),
        ⟨some (begin, (advance st last reachable).current),
          passed ++ between (last + 1) (advance st last reachable).current, none, false⟩,
        advance st last reachable) := rfl

theorem nodup_extend {passed new} {last i : Nat} (nodup : (yielded ++ passed).Nodup)
    (hold : ∀ j ∈ yielded ++ passed, j ≤ last) (hnew : new.Nodup) (between : ∀ j ∈ new, last < j ∧ j < i)
    (hi : last < i) : ((yielded ++ [i]) ++ (passed ++ new)).Nodup := by
  have hperm : ((yielded ++ [i]) ++ (passed ++ new)).Perm ((yielded ++ passed) ++ (i :: new)) := by
    rw [append_assoc, append_assoc, singleton_append]
    exact (perm_middle.symm).append_left yielded
  rw [hperm.nodup_iff]
  refine nodup.append (nodup_cons.mpr ⟨fun hmem => ?_, hnew⟩) fun j hj hj' => ?_
  · have := between i hmem
    omega
  · have hle := hold j hj
    rcases mem_cons.mp hj' with rfl | hj'
    · omega
    · have := between j hj'
      omega

theorem next_yields (hwrap : st.current.toNat + st.entries.length + 1 < 2 ^ 64)
    (h : Phase st.entries.length st.current.toNat g yielded) (reachable) :
    Yields st.entries.length (g.next st reachable).2.2.current.toNat yielded (g.next st reachable).1
      (g.next st reachable).2.1 := by
  cases h with
  | fresh =>
    refine .client st.current.toNat rfl rfl (.following ?_ ?_ ?_ ?_ ?_)
    · simp [start]
    · simp [start]
    · exact le_refl _
    · have := st.nonempty
      omega
    · exact le_refl _
  | @following begin last passed _ nodup window ordered short behind =>
    have hents := entries_advance st last reachable
    obtain ⟨hlast, hmono⟩ := lt_advance hwrap behind reachable
    have hsub : ((advance st last reachable).current - begin).toNat =
        (advance st last reachable).current.toNat - begin.toNat :=
      UInt64.toNat_sub_of_le _ _ (UInt64.le_iff_toNat_le.mpr (by omega))
    rw [next_following]
    generalize advance st last reachable = st' at *
    split
    · -- all endpoints had their turn
      rw [← hents] at short ⊢
      exact nextUnreachable_yields rfl nodup fun i hi => ⟨(window i hi).1, by have := (window i hi).2; omega⟩
    · next tried =>
      have hshort : st'.current.toNat - begin.toNat < st.entries.length := by
        rw [MultiClientState.triedAllSince, decide_eq_true_eq, hsub, hents] at tried
        omega
      have success : (last + 1).toNat = last.toNat + 1 := by
        have := st'.current.toNat_lt
        rw [UInt64.toNat_add]
        exact mod_eq_of_lt (by change last.toNat + 1 < 2 ^ 64; omega)
      have hbetween := map_toNat_between (show (last + 1).toNat ≤ st'.current.toNat by omega)
      have hnew : ∀ j ∈ (between (last + 1) st'.current).map UInt64.toNat, last.toNat < j ∧ j < st'.current.toNat := by
        intro j hj
        rw [hbetween, mem_range'_1] at hj
        omega
      refine .client st'.current.toNat (by rw [← hents]; rfl) rfl (.following ?_ ?_ ?_ ?_ ?_)
      · rw [map_append]
        refine nodup_extend nodup (fun j hj => (window j hj).2) ?_ hnew hlast
        rw [hbetween]
        exact nodup_range'
      · intro i hi
        rw [map_append] at hi
        simp only [mem_append, mem_singleton] at hi window
        rcases hi with (hi | rfl) | hi | hi
        · have := window i (.inl hi)
          omega
        · omega
        · have := window i (.inr hi)
          omega
        · have := hnew i hi
          omega
      · omega
      · omega
      · exact le_refl _
  | @returning startCurrent passed left ended _ begin nodup window =>
    cases ended with
    | true => exact .nothing rfl (.returning begin nodup window)
    | false => exact nextUnreachable_yields rfl nodup window

theorem next_shared (hwrap : st.current.toNat + st.entries.length + 1 < 2 ^ 64) (g)
    (h : Phase st.entries.length st.current.toNat g yielded) (reachable) :
    (g.next st reachable).2.2.entries = st.entries ∧ st.current.toNat ≤ (g.next st reachable).2.2.current.toNat := by
  cases h with
  | fresh => exact ⟨rfl, le_refl _⟩
  | @following begin last passed _ nodup window ordered short behind =>
    have shared : (TryClients.next ⟨some (begin, last), passed, none, false⟩ st reachable).2.2 =
        advance st last reachable := by
      rw [next_following]
      split <;> rfl
    rw [shared]
    exact ⟨entries_advance st last reachable, (lt_advance hwrap behind reachable).2⟩
  | @returning startCurrent passed left ended _ begin nodup window =>
    cases ended <;> exact ⟨rfl, le_refl _⟩

def Consistent (endpoints current : Nat) (g : TryClients) (returned : List (Option TryClient)) : Prop :=
  ∃ (yielded : List Nat) (clients : List TryClient) (rest : Nat), Phase endpoints current g yielded ∧
    returned = clients.map some ++ List.replicate rest none ∧
    clients.map TryClient.position = yielded.map (· % endpoints) ∧ (g.ended = false → rest = 0)

namespace Consistent

variable {returned : List (Option TryClient)}

theorem start (endpoints current : Nat) : Consistent endpoints current .start [] :=
  ⟨[], [], 0, .fresh, rfl, rfl, fun _ => rfl⟩

theorem mono {later} (h : Consistent endpoints current g returned) (hle : current ≤ later) :
    Consistent endpoints later g returned := by
  obtain ⟨yielded, clients, rest, hph, h⟩ := h
  exact ⟨yielded, clients, rest, hph.mono hle, h⟩

theorem terminates (h : Consistent endpoints current g returned) : TerminatesWithoutRepeats endpoints returned := by
  obtain ⟨yielded, clients, rest, hph, hret, hpos, -⟩ := h
  refine ⟨clients, rest, hret, ?_, hpos ▸ hph.positions_nodup⟩
  have hlen := congrArg List.length hpos
  rw [length_map, length_map] at hlen
  exact hlen ▸ hph.length_le

theorem next (hwrap : st.current.toNat + st.entries.length + 1 < 2 ^ 64)
    (h : Consistent st.entries.length st.current.toNat g returned) (reachable) :
    Consistent st.entries.length (g.next st reachable).2.2.current.toNat (g.next st reachable).2.1
      (returned ++ [(g.next st reachable).1]) := by
  obtain ⟨yielded, clients, rest, hph, rfl, position, hrest⟩ := h
  have yields := next_yields hwrap hph reachable
  generalize hr : g.next st reachable = r at yields
  obtain ⟨client, g', st'⟩ := r
  cases yields with
  | @client c _ i hpos hgoesOn hph' =>
    -- a generator that had ended would not go on
    have hend : g.ended = false := by
      by_contra hend
      rw [TryClients.next, if_pos (Bool.not_eq_false _ ▸ hend)] at hr
      cases hr
    obtain rfl := hrest hend
    refine ⟨yielded ++ [i], clients ++ [c], 0, hph', by simp, ?_, fun _ => rfl⟩
    simp [position, hpos]
  | nothing hend hph' =>
    refine ⟨yielded, clients, rest + 1, hph', ?_, position, fun hgoesOn => ?_⟩
    · rw [append_assoc, ← replicate_succ']
    · exact absurd (hend.symm.trans hgoesOn) nofun

end Consistent

end TryClients

/-! ## Runs -/

namespace RequestLoops

variable {ι : Type} {s : RequestLoops ι} {st : MultiClientState}

structure Ok (st : MultiClientState) (s : RequestLoops ι) : Prop where
  entries : s.shared.entries = st.entries
  loops : ∀ j, TryClients.Consistent st.entries.length s.shared.current.toNat (s.generators j) (s.returned j)

theorem Ok.start (st) : (RequestLoops.start st : RequestLoops ι).Ok st :=
  ⟨rfl, fun _ => TryClients.Consistent.start _ _⟩

theorem Ok.call [DecidableEq ι] (h : s.Ok st) (hwrap : s.NoWrap) (a) : (s.call a).Ok st := by
  have hloop := h.loops a.loop
  rw [← h.entries] at hloop
  obtain ⟨hents, hmono⟩ : ((s.generators a.loop).next s.shared a.reachable).2.2.entries = s.shared.entries ∧
      s.shared.current.toNat ≤ ((s.generators a.loop).next s.shared a.reachable).2.2.current.toNat := by
    obtain ⟨yielded, -, -, hph, -⟩ := hloop
    exact TryClients.next_shared hwrap _ hph a.reachable
  refine ⟨hents.trans h.entries, fun j => ?_⟩
  by_cases hj : j = a.loop
  · have hnext := hloop.next hwrap a.reachable
    rw [h.entries] at hnext
    simpa [RequestLoops.call, hj] using hnext
  · have hsame := (h.loops j).mono hmono
    simpa [RequestLoops.call, update_of_ne hj] using hsame

end RequestLoops

/-- **Every generator ends without repeats**, whatever the others do, as long as the index does not wrap. -/
theorem run_terminates_without_repeats {ι : Type} [DecidableEq ι] {st : MultiClientState} {calls : List (Call ι)}
    {s : RequestLoops ι} (h : Run (fun s a t => s.NoWrap ∧ s.call a = t) (.start st) calls s) (j : ι) :
    TerminatesWithoutRepeats st.entries.length (s.returned j) := by
  have hok : s.Ok st := by
    refine h.invariant (fun s a t hs hstep => ?_) (RequestLoops.Ok.start st)
    obtain ⟨hwrap, rfl⟩ := hstep
    exact hs.call hwrap a
  exact (hok.loops j).terminates

def Sample.twoHosts : MultiClientState := .new (fun _ => true) ["a", "b"] (zero_lt_succ 1)

def Sample.threeHosts : MultiClientState := .new (fun _ => true) ["a", "b", "c"] (zero_lt_succ 2)

def Sample.allUp {ι : Type} (j : ι) : Call ι := ⟨j, fun _ => true⟩

def Sample.takeTurns : RequestLoops (Fin 2) :=
  ([0, 1, 0, 1, 0].map Sample.allUp).foldl RequestLoops.call (.start Sample.twoHosts)

theorem takeTurns_terminates_without_repeats :
    (Sample.takeTurns.returned 0).map (·.map TryClient.position) = [some 0, some 1, none] ∧
    TerminatesWithoutRepeats 2 (Sample.takeTurns.returned 0) ∧
    TerminatesWithoutRepeats 2 (Sample.takeTurns.returned 1) := by
  have hrun : Run (fun s a t => s.NoWrap ∧ s.call a = t) (.start Sample.twoHosts) ([0, 1, 0, 1, 0].map Sample.allUp)
      Sample.takeTurns :=
    .cons ⟨by decide, rfl⟩ (.cons ⟨by decide, rfl⟩ (.cons ⟨by decide, rfl⟩
      (.cons ⟨by decide, rfl⟩ (.cons ⟨by decide, rfl⟩ (.nil _)))))
  exact ⟨by decide, run_terminates_without_repeats hrun 0, run_terminates_without_repeats hrun 1⟩

/-! ## The end of the index -/

variable {ι : Type} [DecidableEq ι] {s : RequestLoops ι} {j : ι}

theorem TryClients.next_allUp {st} (hents : 1 < st.entries.length) :
    TryClients.next ⟨some (st.current, st.current), [], none, false⟩ st (fun _ => true) =
      (some (client st.next st.next.current true), ⟨some (st.current, st.next.current), [], none, false⟩, st.next) := by
  have hadv : advance st st.current (fun _ => true) = st.next := by
    obtain ⟨n, hn⟩ : ∃ n, st.next.entries.length = n + 1 := ⟨st.entries.length - 1, by
      change st.entries.length = _
      omega⟩
    rw [advance, if_pos rfl, MultiClientState.skipUnreachable, hn]
    rfl
  have hdist : st.next.current - st.current = 1 := by
    rw [MultiClientState.next, UInt64.add_comm, UInt64.add_sub_cancel]
  have tried : st.next.triedAllSince st.current = false := by
    rw [MultiClientState.triedAllSince, hdist, decide_eq_false_iff_not]
    exact not_le.mpr hents
  have hbetween : between (st.current + 1) st.next.current = [] := by
    rw [between, MultiClientState.next, UInt64.sub_self]
    rfl
  rw [next_following, hadv, tried, hbetween]
  rfl

theorem RequestLoops.call_allUp_twice (hfr : s.generators j = .start) (hents : 1 < s.shared.entries.length) :
    (s.call (Sample.allUp j)).call (Sample.allUp j) = ⟨s.shared.next,
        update s.generators j ⟨some (s.shared.current, s.shared.next.current), [], none, false⟩,
        update s.returned j (s.returned j ++ [some (TryClients.client s.shared s.shared.current true)] ++
          [some (TryClients.client s.shared.next s.shared.next.current true)])⟩ := by
  have first : s.call (Sample.allUp j) =
      ⟨s.shared, update s.generators j ⟨some (s.shared.current, s.shared.current), [], none, false⟩,
        update s.returned j (s.returned j ++ [some (TryClients.client s.shared s.shared.current true)])⟩ := by
    rw [RequestLoops.call, Sample.allUp, hfr]
    rfl
  rw [first, RequestLoops.call]
  simp [Sample.allUp, TryClients.next_allUp hents]

theorem exists_run_to : ∀ k : Nat, ∃ (calls : List (Call Nat)) (s : RequestLoops Nat),
    Run (fun s a t => s.call a = t) (.start Sample.threeHosts) calls s ∧
    s.shared = { Sample.threeHosts with current := UInt64.ofNat k } ∧
    ∀ j, k ≤ j → s.generators j = .start ∧ s.returned j = []
  | 0 => ⟨[], _, .nil _, rfl, fun _ _ => ⟨rfl, rfl⟩⟩
  | k + 1 => by
    obtain ⟨calls, s, hrun, shared, hfr⟩ := exists_run_to k
    have htwice := RequestLoops.call_allUp_twice (hfr k (le_refl k)).1 (by rw [shared]; exact one_lt_succ_succ 1)
    refine ⟨calls ++ [Sample.allUp k, Sample.allUp k], _, hrun.append (.cons rfl (.cons rfl (.nil _))), ?_, ?_⟩
    · rw [htwice, shared, MultiClientState.next, UInt64.ofNat_add]
      rfl
    · intro j hj
      have hne : j ≠ k := by omega
      rw [htwice]
      simp only [update_of_ne hne]
      exact hfr j (by omega)

/-- **A generator that starts at the last index yields one of three endpoints twice.** -/
theorem run_repeats_after_wrap : ∃ (calls : List (Call Nat)) (s : RequestLoops Nat) (j : Nat),
    Run (fun s a t => s.call a = t) (.start Sample.threeHosts) calls s ∧
    s.returned j = [some ⟨0, "a", true⟩, some ⟨0, "a", true⟩] ∧ ¬ TerminatesWithoutRepeats 3 (s.returned j) := by
  obtain ⟨calls, s, hrun, shared, hfr⟩ := exists_run_to (2 ^ 64 - 1)
  obtain ⟨j, hj⟩ : ∃ j, 2 ^ 64 - 1 ≤ j := ⟨_, le_refl _⟩
  obtain ⟨hgen, hret⟩ := hfr j hj
  have htwice := RequestLoops.call_allUp_twice hgen (by rw [shared]; exact one_lt_succ_succ 1)
  refine ⟨calls ++ [Sample.allUp j, Sample.allUp j], _, j, hrun.append (.cons rfl (.cons rfl (.nil _))), ?_⟩
  have htwo : ((s.call (Sample.allUp j)).call (Sample.allUp j)).returned j =
      [some ⟨0, "a", true⟩, some ⟨0, "a", true⟩] := by
    simp only [htwice, update_self, hret, shared]
    decide
  refine ⟨htwo, ?_⟩
  rw [htwo]
  rintro ⟨clients, rest, client, -, hnd⟩
  have hboth : clients = [⟨0, "a", true⟩, ⟨0, "a", true⟩] := by
    simpa using (congrArg (List.filterMap id) client).symm
  simp [hboth] at hnd

end Nexus.Connection
