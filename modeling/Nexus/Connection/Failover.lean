import Nexus.RemoteCache

/-!
# Which endpoints a request tries

Endpoints marked unreachable come last, but only as far as the generator has noted them, which it does when it comes to
a reachable one. Those behind the last reachable one are never tried: `request_tries_all_iff` says when this does not
matter, and `request_skips_unreachable` is a remote where it does.
-/

namespace Nexus

open Connection (ConnectionState)
open List Option

/-! ## The cache during a request -/

namespace RemoteCache.RemoteMappingCache

/-- The host is not in its back-off time. -/
def mayTry (cache : RemoteMappingCache) (remote hostname : String) (now : Int) : Bool :=
  (cache.hostTimeToNextTry remote hostname now).all (·.1 = 0)

variable {cache : RemoteMappingCache} {remote hostname : String} {err : String} {time : Int}

theorem infoByHostname_updateInfo (f) (h : String) : (cache.updateInfo remote hostname f).infoByHostname remote h =
      (cache.infoByHostname remote h).map fun info => if h = hostname then f info else info := by
  unfold infoByHostname updateInfo
  rw [Lib.OrderedMap.get?_mapValues]
  cases cache.remotes.get? remote with
  | none => rfl
  | some => simp [Lib.OrderedMap.get?_mapValues]

theorem setOrResetCanary_true (cache : RemoteMappingCache) (remote : String) :
    (cache.setOrResetCanary remote true).remotes = cache.remotes ∧
      ((cache.remotes.get? remote).isSome → cache.canaryRemote = some remote →
        (cache.setOrResetCanary remote true).canaryRemote = some remote) := by
  rcases cache.canaryIsNeeded_cases with ⟨canary, -, -, hneed⟩ | ⟨c, hneed, hsame⟩
  · have hkept : cache.setOrResetCanary remote true = cache := by simp [setOrResetCanary, hneed]
    rw [hkept]
    exact ⟨rfl, fun _ hc => hc⟩
  · have hset : cache.setOrResetCanary remote true =
        if cache.allUnreachable then { c with canaryRemote := some remote } else c := by
      simp [setOrResetCanary, hneed]
    rw [hset]
    refine ⟨by split <;> exact hsame, fun hk hc => ?_⟩
    simp only [canaryIsNeeded, hc, hk, if_true, Prod.mk.injEq] at hneed
    obtain ⟨hall, rfl⟩ := hneed
    rw [← hall]
    exact hc

theorem infoByHostname_markUnreachable (h : String) :
    (cache.markHostReachable remote hostname (.unreachable err) time).infoByHostname remote h =
      (cache.infoByHostname remote h).map fun info =>
        if h = hostname then info.setReachable time (.unreachable err) else info := by
  unfold markHostReachable
  cases hinfo : cache.infoByHostname remote hostname with
  | none =>
    by_cases hh : h = hostname
    · simp [hh, hinfo]
    · simp [hh]
  | some =>
    rw [← infoByHostname_updateInfo]
    exact congrArg (fun remotes => (Lib.OrderedMap.get? remotes remote).bind fun m => m.hosts.get? h)
      (setOrResetCanary_true _ remote).1

theorem canaryRemote_markUnreachable (h : cache.canaryRemote = some remote) :
    (cache.markHostReachable remote hostname (.unreachable err) time).canaryRemote = some remote := by
  unfold markHostReachable
  split
  · exact h
  · next info hinfo =>
    obtain ⟨m, hm, -⟩ := bind_eq_some_iff.mp hinfo
    refine (setOrResetCanary_true _ remote).2 ?_ h
    simp [updateInfo, Lib.OrderedMap.get?_mapValues, hm]

theorem isReachable_setReachable_unreachable (info : HostInfo) :
    (info.setReachable time (.unreachable err)).isReachable = false := by
  unfold HostInfo.setReachable
  cases info.backOff <;> simp [HostInfo.isReachable]

theorem mayTry_of_reachable (h : cache.hostIsReachable remote hostname) (now : Int) :
    cache.mayTry remote hostname now := by
  unfold hostIsReachable at h
  unfold mayTry hostTimeToNextTry
  split
  · rfl
  · cases hinfo : cache.infoByHostname remote hostname with
    | none => rfl
    | some =>
      simp only [hinfo, all_some, HostInfo.isReachable, isNone_iff_eq_none] at h
      simp [h]

theorem mayTry_later {now later} (hle : now ≤ later) (h : cache.mayTry remote hostname now) :
    cache.mayTry remote hostname later := by
  unfold mayTry hostTimeToNextTry at h ⊢
  split
  · rfl
  · next hc =>
    rw [if_neg hc] at h
    cases hb : (cache.infoByHostname remote hostname).bind (·.backOff) with
    | none => rfl
    | some backOff =>
      simp only [hb, map_some, all_some, decide_eq_true_eq] at h ⊢
      have := backOff.timeToNextTry_anti hle
      omega

/-- What could be tried before can still be tried. -/
structure Follows (remote : String) (start : RemoteMappingCache) (now : Int) (tried : List String)
    (cache : RemoteMappingCache) : Prop where
  known : ∀ h, (cache.infoByHostname remote h).isSome = (start.infoByHostname remote h).isSome
  reachable : ∀ h, cache.hostIsReachable remote h ↔
    start.hostIsReachable remote h ∧ ((start.infoByHostname remote h).isSome → h ∉ tried)
  mayTry : ∀ h, h ∉ tried → start.mayTry remote h now → ∀ t, now ≤ t → cache.mayTry remote h t

theorem Follows.refl (remote) (start) (now : Int) : Follows remote start now [] start where
  known _ := rfl
  reachable h := by simp
  mayTry _ _ may _ ht := mayTry_later ht may

theorem Follows.fail {start now tried} (h : Follows remote start now tried cache) :
    Follows remote start now (tried ++ [hostname])
      (cache.markHostReachable remote hostname (.unreachable err) time) where
  known x := by rw [infoByHostname_markUnreachable, isSome_map, h.known]
  reachable x := by
    have before := h.reachable x
    rw [← h.known] at before ⊢
    cases hinfo : cache.infoByHostname remote x with
    | none =>
      have hnow : (cache.markHostReachable remote hostname (.unreachable err) time).hostIsReachable remote x =
          cache.hostIsReachable remote x := by
        simp [hostIsReachable, infoByHostname_markUnreachable, hinfo]
      rw [hnow, before, hinfo]
      simp
    | some =>
      by_cases hx : x = hostname
      · have hnow : (cache.markHostReachable remote hostname (.unreachable err) time).hostIsReachable remote x =
            false := by
          rw [hostIsReachable, infoByHostname_markUnreachable, hinfo]
          simp [hx, isReachable_setReachable_unreachable]
        rw [hnow]
        simp [hx]
      · have hnow : (cache.markHostReachable remote hostname (.unreachable err) time).hostIsReachable remote x =
            cache.hostIsReachable remote x := by
          simp [hostIsReachable, infoByHostname_markUnreachable, hinfo, hx]
        rw [hnow, before, hinfo]
        simp [hx]
  mayTry x hx may t ht := by
    simp only [mem_append, mem_singleton, not_or] at hx
    have before := h.mayTry x hx.1 may t ht
    unfold RemoteMappingCache.mayTry hostTimeToNextTry at before ⊢
    split
    · rfl
    · next hc =>
      rw [if_neg fun hcan => hc (canaryRemote_markUnreachable hcan)] at before
      rw [infoByHostname_markUnreachable]
      simpa [hx.2] using before

end RemoteCache.RemoteMappingCache

namespace Connection

open RemoteCache

/-! ## The rotation -/

namespace MultiClientState

variable (st : MultiClientState)

def rotated (k : Nat) : MultiClientState := { st with current := st.current + UInt64.ofNat k }

def place (k : Nat) : String := st.hostnameAt (st.current + UInt64.ofNat k)

theorem current_succ (k : Nat) : st.current + UInt64.ofNat k + 1 = st.current + UInt64.ofNat (k + 1) := by
  rw [UInt64.ofNat_add, UInt64.add_assoc]
  rfl

theorem rotated_zero : st.rotated 0 = st := by
  simp [rotated]

theorem next_rotated (k : Nat) : (st.rotated k).next = st.rotated (k + 1) := by
  simp only [next, rotated, current_succ]

theorem toNat_sub_current {k m : Nat} (hle : k ≤ m) (hm : m < 2 ^ 64) :
    (st.current + UInt64.ofNat m - (st.current + UInt64.ofNat k)).toNat = m - k := by
  obtain ⟨d, rfl⟩ := Nat.exists_eq_add_of_le hle
  have parts : st.current + UInt64.ofNat (k + d) = UInt64.ofNat d + (st.current + UInt64.ofNat k) := by
    rw [UInt64.ofNat_add, ← UInt64.add_assoc, UInt64.add_comm]
  rw [parts, UInt64.add_sub_cancel, UInt64.toNat_ofNat_of_lt' (by change d < 2 ^ 64; omega)]
  omega

theorem skipRounds_rotated (reachable) : ∀ fuel a, ∃ m, a ≤ m ∧ m ≤ a + fuel ∧
    skipRounds reachable fuel (st.rotated a) = st.rotated m ∧
    (∀ j, a ≤ j → j < m → reachable (st.place j) = false) ∧ (m < a + fuel → reachable (st.place m))
  | 0, a => ⟨a, Nat.le_refl a, Nat.le_refl a, rfl, fun j hj hj' => by omega, fun h => by omega⟩
  | fuel + 1, a => by
    cases hr : reachable (st.place a) with
    | true =>
      refine ⟨a, Nat.le_refl a, by omega, if_pos hr, fun j hj hj' => by omega, fun _ => hr⟩
    | false =>
      obtain ⟨m, hle, hmax, hskip, before, hstop⟩ := skipRounds_rotated reachable fuel (a + 1)
      have hround : skipRounds reachable (fuel + 1) (st.rotated a) = skipRounds reachable fuel (st.rotated a).next :=
        if_neg (by rw [Bool.not_eq_true]; exact hr)
      refine ⟨m, by omega, by omega, ?_, fun j hj hj' => ?_, fun h => hstop (by omega)⟩
      · rw [hround, next_rotated, hskip]
      · rcases Nat.eq_or_lt_of_le hj with rfl | hj
        · exact hr
        · exact before j hj hj'

theorem triedAllSince_rotated {m} (hm : m < 2 ^ 64) :
    (st.rotated m).triedAllSince st.current = decide (st.entries.length ≤ m) := by
  have hdist := st.toNat_sub_current (Nat.zero_le m) hm
  rw [show st.current + UInt64.ofNat 0 = st.current from UInt64.add_zero _, Nat.sub_zero] at hdist
  simp only [triedAllSince, rotated, hdist]

end MultiClientState

theorem mem_between_rotated (st : MultiClientState) {k m : Nat} (hle : k ≤ m) (hm : m < 2 ^ 64) {i} :
    i ∈ TryClients.between (st.current + UInt64.ofNat k) (st.current + UInt64.ofNat m) ↔
      ∃ j, k ≤ j ∧ j < m ∧ i = st.current + UInt64.ofNat j := by
  simp only [TryClients.between, st.toNat_sub_current hle hm, List.mem_map, mem_range]
  constructor
  · rintro ⟨d, hd, rfl⟩
    exact ⟨k + d, by omega, by omega, by rw [UInt64.ofNat_add, UInt64.add_assoc]⟩
  · rintro ⟨j, hk, hj, rfl⟩
    obtain ⟨d, rfl⟩ := Nat.exists_eq_add_of_le hk
    exact ⟨d, by omega, by rw [UInt64.ofNat_add, UInt64.add_assoc]⟩

/-! ## A request that fails everywhere -/

structure Clocked where
  cache : RemoteMappingCache
  clock : Int

def remoteOps (remote : String) : ReachabilityCache Clocked where
  hostIsReachable c := c.cache.hostIsReachable remote
  hostTimeToNextTry c := c.cache.hostTimeToNextTry remote
  markHostReachable c host state := { c with cache := c.cache.markHostReachable remote host state c.clock }

structure Failure where
  (now markTime : Int)
  err : String

variable {ρ : Type}

def Failure.round (f : Failure) : Round Clocked ρ :=
  ⟨fun w => { w with cache := { w.cache with clock := f.markTime } }, f.now, .connect f.err⟩

theorem hostIsReachable_remoteOps (remote) (c) :
    (remoteOps remote).hostIsReachable c = c.cache.hostIsReachable remote := rfl

theorem interfere_round (f : Failure) (w : Shared Clocked) :
    (f.round : Round Clocked ρ).interfere w = ⟨⟨w.cache.cache, f.markTime⟩, w.state⟩ := rfl

def LoopState.tried (l : LoopState ρ) : List String := l.attempts.map (·.1.hostname)

theorem attempt_connect (isIdempotent : Bool) (c : TryClient) (err : String) (l : LoopState ρ) :
    ∃ l', attempt isIdempotent c (.connect err) l = (none, l') ∧ l'.tried = l.tried ++ [c.hostname] ∧
      l'.marks = l.marks ++ [(c.hostname, .unreachable err)] ∧
      (l'.connectRetry = some c ∨ l'.connectRetry = l.connectRetry) := by
  cases hf : l.first with
  | true =>
    refine ⟨_, rfl, ?_, ?_, .inl ?_⟩ <;> simp [LoopState.failed, LoopState.tried, hf, RequestError.toString]
  | false =>
    refine ⟨_, rfl, ?_, ?_, .inr ?_⟩ <;> simp [LoopState.failed, LoopState.tried, hf, RequestError.toString]

variable {remote : String} {start : RemoteMappingCache} {now : Int} {isIdempotent : Bool} {w : Shared Clocked}
  {l l' : LoopState ρ} {g g' : TryClients} {c : TryClient} {st' : MultiClientState} {f : Failure} {fs : List Failure}
  {p q : String → Prop}

structure OnTheWay (remote : String) (start : RemoteMappingCache) (now : Int) (w : Shared Clocked) (l : LoopState ρ) :
    Prop where
  follows : RemoteMappingCache.Follows remote start now l.tried w.cache.cache
  retry : ∀ c ∈ l.connectRetry, c.hostname ∈ l.tried

structure Tries (remote : String) (start : RemoteMappingCache) (now : Int) (offered : String → Prop)
    (l l' : LoopState ρ) : Prop where
  grows : l.tried ⊆ l'.tried
  only : ∀ h ∈ l'.tried, h ∈ l.tried ∨ offered h
  done : ∀ h, offered h → start.mayTry remote h now → h ∈ l'.tried

theorem Tries.trans {l''} (h : Tries remote start now p l l')
    (h' : Tries remote start now q l' l'') : Tries remote start now (fun x => p x ∨ q x) l l'' where
  grows := List.Subset.trans h.grows h'.grows
  only x hx := by
    rcases h'.only x hx with hx | hx
    · exact (h.only x hx).imp_right .inl
    · exact .inr (.inr hx)
  done x hx may := hx.elim (fun hp => h'.grows (h.done x hp may)) fun hq => h'.done x hq may

theorem Tries.congr (h : Tries remote start now p l l') (hpq : ∀ x, p x ↔ q x) : Tries remote start now q l l' where
  grows := h.grows
  only x hx := (h.only x hx).imp_right (hpq x).mp
  done x hx := h.done x ((hpq x).mpr hx)

theorem backsOff_offer (remote : String) (f : Failure) (c : TryClient) :
    ((f.round : Round Clocked ρ).offer (remoteOps remote) w c).backsOff =
      !w.cache.cache.mayTry remote c.hostname f.now := by
  unfold Offer.backsOff Round.offer RemoteMappingCache.mayTry
  cases h : w.cache.cache.hostTimeToNextTry remote c.hostname f.now with
  | none => simp [remoteOps, Failure.round, h]
  | some => simp [remoteOps, Failure.round, h, Nat.pos_iff_ne_zero]

theorem drive_offer (isIdempotent : Bool) (fs : List Failure) (hway : OnTheWay remote start now w l)
    (htime : now ≤ f.now) (hnext : g.next w.state (w.cache.cache.hostIsReachable remote) = (some c, g', st')) :
    ∃ w' l', w'.state = st' ∧ OnTheWay remote start now w' l' ∧ Tries remote start now (· = c.hostname) l l' ∧
      drive (remoteOps remote) isIdempotent ((f :: fs).map Failure.round) g w l =
        drive (remoteOps remote) isIdempotent (fs.map Failure.round) g' w' l' := by
  have hback := backsOff_offer (ρ := ρ) (w := ⟨⟨w.cache.cache, f.markTime⟩, w.state⟩) remote f c
  rw [map_cons, drive]
  simp only [interfere_round, hostIsReachable_remoteOps, hnext, hback]
  cases may : w.cache.cache.mayTry remote c.hostname f.now with
  | false =>
    refine ⟨⟨⟨w.cache.cache, f.markTime⟩, st'⟩, l, rfl, ⟨hway.follows, hway.retry⟩,
      ⟨fun _ h => h, fun _ => .inl, ?_⟩, if_pos rfl⟩
    rintro _ rfl hsta
    -- it could be tried before, so it is in its back-off time only because it was
    by_contra hnew
    rw [hway.follows.mayTry _ hnew hsta _ htime] at may
    cases may
  | true =>
    obtain ⟨l', hatt, htried, hmarks, retry⟩ := attempt_connect isIdempotent c f.err l
    refine ⟨⟨⟨w.cache.cache.markHostReachable remote c.hostname (.unreachable f.err) f.markTime, f.markTime⟩, st'⟩, l',
      rfl, ⟨htried ▸ hway.follows.fail, fun d hd => ?_⟩, ⟨?_, ?_, ?_⟩, ?_⟩
    · rw [htried]
      rcases retry with h | h
      · rw [h] at hd
        obtain rfl : c = d := some.inj hd
        simp
      · rw [h] at hd
        exact mem_append_left _ (hway.retry d hd)
    · rw [htried]
      exact subset_append_left _ _
    · intro h hh
      rw [htried] at hh
      simpa using hh
    · rintro _ rfl _
      simp [htried]
    · have hout : (f.round : Round Clocked ρ).outcome = .connect f.err := rfl
      simp only [hout, hatt, hmarks, drop_left, Bool.not_true, Bool.false_eq_true, if_false]
      rfl

theorem drive_end (isIdempotent : Bool) (f : Failure) (fs : List Failure) (l : LoopState ρ)
    (hnext : (g.next w.state (w.cache.cache.hostIsReachable remote)).1 = none) :
    drive (remoteOps remote) isIdempotent ((f :: fs).map Failure.round) g w l = some (none, l) := by
  rw [map_cons, drive]
  simp only [interfere_round, hostIsReachable_remoteOps]
  generalize g.next w.state (w.cache.cache.hostIsReachable remote) = r at hnext ⊢
  obtain ⟨c, g', st'⟩ := r
  obtain rfl : c = none := hnext
  rfl

theorem drive_noted (isIdempotent : Bool) (st : MultiClientState) : ∀ {is : List UInt64} {fs : List Failure}
    {g : TryClients} {w : Shared Clocked} {l : LoopState ρ} {m : Nat}, (∀ f ∈ fs, now ≤ f.now) →
    OnTheWay remote start now w l → w.state = st.rotated m →
    g.tryUnreachable = some is → g.ended = false → is.length < fs.length →
    ∃ l', drive (remoteOps remote) isIdempotent (fs.map Failure.round) g w l = some (none, l') ∧
      (∀ c ∈ l'.connectRetry, c.hostname ∈ l'.tried) ∧
      Tries remote start now (fun h => ∃ i ∈ is, h = st.hostnameAt i) l l'
  | is, [], _, _, _, _, _, _, _, _, _, hlen => absurd hlen (Nat.not_lt_zero _)
  | [], f :: fs, g, w, l, m, _, hway, _, hnoted, edited, _ => by
    refine ⟨l, ?_, hway.retry, ⟨fun _ h => h, fun _ => .inl, fun h hh => by simp at hh⟩⟩
    exact drive_end isIdempotent f fs l (by simp [TryClients.next, edited, hnoted, TryClients.nextUnreachable])
  | i :: is, f :: fs, g, w, l, m, htimes, hway, hst, hnoted, edited, hlen => by
    obtain ⟨htime, htimes⟩ := forall_mem_cons.mp htimes
    have hnext : g.next w.state (w.cache.cache.hostIsReachable remote) =
        (some (TryClients.client w.state i false), { g with tryUnreachable := some is }, w.state) := by
      simp [TryClients.next, edited, hnoted, TryClients.nextUnreachable]
    obtain ⟨w', l', hst', hway', htries, hdrive⟩ := drive_offer isIdempotent fs hway htime hnext
    have hrest : ({ g with tryUnreachable := some is } : TryClients).tryUnreachable = some is := rfl
    obtain ⟨l'', hend, retry, htries'⟩ := drive_noted isIdempotent st htimes hway' (hst'.trans hst) hrest edited
      (Nat.lt_of_succ_lt_succ hlen)
    refine ⟨l'', hdrive.trans hend, retry, (htries.trans htries').congr fun h => ?_⟩
    have hhost : (TryClients.client w.state i false).hostname = st.hostnameAt i := by rw [hst]; rfl
    simp [hhost]

/-! ## Which places are tried -/

variable (remote start) (st : MultiClientState) {is : List UInt64}

def StopsAt (k : Nat) : Prop :=
  start.hostIsReachable remote (st.place k) ∧
    ((start.infoByHostname remote (st.place k)).isSome → ∀ j < k, st.place j ≠ st.place k)

/-- The search gets as far as the endpoint at distance `j`. -/
def WithinReach (j : Nat) : Prop := ∃ k, j ≤ k ∧ k < st.entries.length ∧ (k = 0 ∨ StopsAt remote start st k)

instance (k : Nat) : Decidable (StopsAt remote start st k) :=
  inferInstanceAs (Decidable (_ ∧ (_ → ∀ j < k, st.place j ≠ st.place k)))

instance (j : Nat) : Decidable (WithinReach remote start st j) :=
  decidable_of_iff (∃ k < st.entries.length, j ≤ k ∧ (k = 0 ∨ StopsAt remote start st k))
    ⟨fun ⟨k, hk, hj, h⟩ => ⟨k, hj, hk, h⟩, fun ⟨k, hj, hk, h⟩ => ⟨k, hk, hj, h⟩⟩

variable {remote start st} {cache : RemoteMappingCache} {k m : Nat}

structure Tried (remote : String) (start : RemoteMappingCache) (st : MultiClientState) (now : Int) (k : Nat)
    (l : LoopState ρ) : Prop where
  only : ∀ h ∈ l.tried, ∃ j ≤ k, (j = 0 ∨ StopsAt remote start st j) ∧ h = st.place j
  done : ∀ j ≤ k, j = 0 ∨ StopsAt remote start st j → start.mayTry remote (st.place j) now → st.place j ∈ l.tried

theorem stopsAt_of_reachable (htried : Tried remote start st now k l)
    (follows : RemoteMappingCache.Follows remote start now l.tried cache)
    (before : ∀ j, k + 1 ≤ j → j < m → cache.hostIsReachable remote (st.place j) = false)
    (hm : cache.hostIsReachable remote (st.place m)) : StopsAt remote start st m := by
  obtain ⟨hsta, hnew⟩ := (follows.reachable _).mp hm
  refine ⟨hsta, fun hknown j => ?_⟩
  induction j using Nat.strongRecOn with
  | ind j ih =>
    intro hj hsame
    by_cases hjk : k + 1 ≤ j
    · rw [← hsame, before j hjk hj] at hm
      cases hm
    · -- the first place of the host is one at which the generator has stopped, so that the host was tried
      have stops : StopsAt remote start st j := by
        refine ⟨hsame ▸ hsta, fun _ i hi => ?_⟩
        rw [hsame]
        exact ih i hi (by omega)
      have may := RemoteMappingCache.mayTry_of_reachable stops.1 now
      exact hnew hknown (hsame ▸ htried.done j (by omega) (.inr stops) may)

theorem not_stopsAt_of_unreachable (tried : Tried remote start st now k l)
    (follows : RemoteMappingCache.Follows remote start now l.tried cache) (hkm : k < m)
    (hm : cache.hostIsReachable remote (st.place m) = false) : ¬ StopsAt remote start st m := by
  rintro ⟨hsta, hnew⟩
  have hnot : ¬ cache.hostIsReachable remote (st.place m) := by simp [hm]
  rw [follows.reachable] at hnot
  push Not at hnot
  obtain ⟨hknown, hmem⟩ := hnot hsta
  obtain ⟨j, hj, -, hplace⟩ := tried.only _ hmem
  exact hnew hknown j (by omega) hplace.symm

def Noted (remote : String) (start : RemoteMappingCache) (st : MultiClientState) (k : Nat) (is : List UInt64) : Prop :=
  ∀ i, i ∈ is ↔ ∃ j < k, ¬ (j = 0 ∨ StopsAt remote start st j) ∧ i = st.current + UInt64.ofNat j

theorem Noted.append (h : Noted remote start st k is) (hk : k = 0 ∨ StopsAt remote start st k)
    (hkm : k < m) (hm : m < 2 ^ 64) (before : ∀ j, k < j → j < m → ¬ StopsAt remote start st j) :
    Noted remote start st m
      (is ++ TryClients.between (st.current + UInt64.ofNat (k + 1)) (st.current + UInt64.ofNat m)) := by
  intro i
  rw [mem_append, h i, mem_between_rotated st hkm hm]
  constructor
  · rintro (⟨j, hj, hnot, rfl⟩ | ⟨j, hj, hj', rfl⟩)
    · exact ⟨j, by omega, hnot, rfl⟩
    · exact ⟨j, hj', fun hor => hor.elim (by omega) (before j hj hj'), rfl⟩
  · rintro ⟨j, hj, hnot, rfl⟩
    rcases Nat.lt_trichotomy j k with hjk | rfl | hjk
    · exact .inl ⟨j, hjk, hnot, rfl⟩
    · exact absurd hk hnot
    · exact .inr ⟨j, hjk, hj, rfl⟩

theorem Tried.next (h : Tried remote start st now k l) (hkm : k < m) (hm : StopsAt remote start st m)
    (before : ∀ j, k < j → j < m → ¬ StopsAt remote start st j)
    (htries : Tries remote start now (· = st.place m) l l') : Tried remote start st now m l' where
  only x hx := by
    rcases htries.only x hx with hx | rfl
    · obtain ⟨j, hj, hor, rfl⟩ := h.only x hx
      exact ⟨j, by omega, hor, rfl⟩
    · exact ⟨m, Nat.le_refl m, .inr hm, rfl⟩
  done j hj hor may := by
    rcases Nat.lt_or_ge k j with hjk | hjk
    · obtain rfl : j = m := by
        by_contra hne
        exact hor.elim (by omega) (before j hjk (by omega))
      exact htries.done _ rfl may
    · exact htries.grows (h.done j hjk hor may)

structure TriedAll (remote : String) (start : RemoteMappingCache) (st : MultiClientState) (now : Int)
    (l : LoopState ρ) : Prop where
  only : ∀ h ∈ l.tried, ∃ j, WithinReach remote start st j ∧ h = st.place j
  done : ∀ j, WithinReach remote start st j → start.mayTry remote (st.place j) now → st.place j ∈ l.tried

theorem Tried.finish (h : Tried remote start st now k l)
    (hk : k = 0 ∨ StopsAt remote start st k) (hlen : k < st.entries.length)
    (hrest : ∀ j, k < j → j < st.entries.length → ¬ StopsAt remote start st j) (hnoted : Noted remote start st k is)
    (htries : Tries remote start now (fun x => ∃ i ∈ is, x = st.hostnameAt i) l l') :
    TriedAll remote start st now l' where
  only x hx := by
    rcases htries.only x hx with hx | ⟨i, hi, rfl⟩
    · obtain ⟨j, hj, -, rfl⟩ := h.only x hx
      exact ⟨j, ⟨k, hj, hlen, hk⟩, rfl⟩
    · obtain ⟨j, hj, -, rfl⟩ := (hnoted i).mp hi
      exact ⟨j, ⟨k, by omega, hlen, hk⟩, rfl⟩
  done j hj may := by
    obtain ⟨k', hjk, hk', hor⟩ := hj
    have hle : k' ≤ k := by
      by_contra hgt
      exact hor.elim (by omega) (hrest k' (by omega) hk')
    by_cases hstop : j = 0 ∨ StopsAt remote start st j
    · exact htries.grows (h.done j (by omega) hstop may)
    · have hlt : j < k := by
        rcases Nat.lt_or_eq_of_le (show j ≤ k by omega) with hlt | rfl
        · exact hlt
        · exact absurd hk hstop
      exact htries.done _ ⟨_, (hnoted _).mpr ⟨j, hlt, hstop, rfl⟩, rfl⟩ may

def generatorAt (st : MultiClientState) (k : Nat) (is : List UInt64) : TryClients :=
  ⟨some (st.current, st.current + UInt64.ofNat k), is, none, false⟩

theorem next_generatorAt {reachable} (is) (hm : m < 2 ^ 64)
    (hskip : (st.rotated (k + 1)).skipUnreachable reachable = st.rotated m) :
    (generatorAt st k is).next (st.rotated k) reachable = if m < st.entries.length then
        (some (TryClients.currentClient reachable (st.rotated m)),
          generatorAt st m (is ++ TryClients.between (st.current + UInt64.ofNat (k + 1)) (st.current + UInt64.ofNat m)),
          st.rotated m) else { generatorAt st k [] with tryUnreachable := some is }.next (st.rotated m) reachable := by
  have hcur : (st.rotated k).current = st.current + UInt64.ofNat k := rfl
  have hround := st.triedAllSince_rotated hm
  simp only [TryClients.next, generatorAt, hcur, if_true, st.next_rotated, hskip, hround, st.current_succ,
    decide_eq_true_eq, Bool.false_eq_true, if_false]
  by_cases hlt : m < st.entries.length
  · rw [if_pos hlt, if_neg (by omega)]
    rfl
  · rw [if_neg hlt, if_pos (by omega)]
    cases is <;> rfl

theorem drive_walk (isIdempotent : Bool) (hlen : st.entries.length < 2 ^ 63) : ∀ {fs : List Failure} {k : Nat}
    {is : List UInt64} {cache : Clocked} {l : LoopState ρ}, (∀ f ∈ fs, now ≤ f.now) →
    OnTheWay remote start now ⟨cache, st.rotated k⟩ l →
    k < st.entries.length → (k = 0 ∨ StopsAt remote start st k) → Tried remote start st now k l →
    Noted remote start st k is → st.entries.length - k + is.length ≤ fs.length →
    ∃ l', drive (remoteOps remote) isIdempotent (fs.map Failure.round) (generatorAt st k is) ⟨cache, st.rotated k⟩ l =
      some (none, l') ∧ (∀ c ∈ l'.connectRetry, c.hostname ∈ l'.tried) ∧ TriedAll remote start st now l'
  | [], k, is, _, _, _, _, hk, _, _, _, hfuel => by
    rw [length_nil] at hfuel
    omega
  | f :: fs, k, is, cache, l, htimes, hway, hk, stops, tried, hnoted, hfuel => by
    rw [length_cons] at hfuel
    obtain ⟨htime, htimes'⟩ := forall_mem_cons.mp htimes
    obtain ⟨m, hkm, hmax, hskip, before, hstop⟩ :=
      st.skipRounds_rotated (cache.cache.hostIsReachable remote) st.entries.length (k + 1)
    have hm : m < 2 ^ 64 := by omega
    have hpass : ∀ j, k < j → j < m → ¬ StopsAt remote start st j := fun j hj hj' =>
      not_stopsAt_of_unreachable tried hway.follows hj (before j hj hj')
    have hnext := next_generatorAt is hm hskip
    by_cases hlt : m < st.entries.length
    · rw [if_pos hlt] at hnext
      have stops' : StopsAt remote start st m := stopsAt_of_reachable tried hway.follows before (hstop (by omega))
      obtain ⟨⟨cache', -⟩, l', rfl, hway', htries, hdrive⟩ :=
        drive_offer isIdempotent fs hway htime hnext
      obtain ⟨l'', hend, hdone⟩ := drive_walk isIdempotent hlen htimes' hway' hlt
        (.inr stops') (tried.next hkm stops' hpass htries) (hnoted.append stops hkm hm hpass)
        (by rw [length_append, TryClients.between, length_map, length_range, st.toNat_sub_current hkm hm]; omega)
      exact ⟨l'', hdrive.trans hend, hdone⟩
    · rw [if_neg hlt] at hnext
      have hway' : OnTheWay remote start now ⟨cache, st.rotated m⟩ l := ⟨hway.follows, hway.retry⟩
      obtain ⟨l', hend, retry, htries⟩ := drive_noted isIdempotent st htimes hway' rfl
        (g := { generatorAt st k [] with tryUnreachable := some is }) rfl rfl (by rw [length_cons]; omega)
      refine ⟨l', ?_, retry, tried.finish stops hk (fun j hj hj' => hpass j hj (by omega)) hnoted htries⟩
      rw [← hend]
      simp only [map_cons, drive, interfere_round, hostIsReachable_remoteOps, hnext]
      rfl

theorem drive_start (remote) (start) (isIdempotent : Bool)
    (hlen : st.entries.length < 2 ^ 63) (htimes : ∀ f ∈ fs, now ≤ f.now)
    (hfuel : st.entries.length < fs.length) (clock : Int) :
    ∃ l : LoopState ρ, drive (remoteOps remote) isIdempotent (fs.map Failure.round) .start ⟨⟨start, clock⟩, st⟩ .start =
      some (none, l) ∧ (∀ c ∈ l.connectRetry, c.hostname ∈ l.tried) ∧ TriedAll remote start st now l := by
  cases fs with
  | nil => exact absurd hfuel (Nat.not_lt_zero _)
  | cons _ fs =>
    obtain ⟨htime, htimes⟩ := forall_mem_cons.mp htimes
    have hway : OnTheWay remote start now ⟨⟨start, clock⟩, st⟩ (.start : LoopState ρ) :=
      ⟨RemoteMappingCache.Follows.refl remote start now, by simp [LoopState.start]⟩
    have hnext : TryClients.start.next st (start.hostIsReachable remote) =
        (some (TryClients.currentClient (start.hostIsReachable remote) st), generatorAt st 0 [], st.rotated 0) := by
      simp [TryClients.next, TryClients.start, generatorAt, st.rotated_zero]
    obtain ⟨⟨cache, -⟩, l, rfl, hway', htries, hdrive⟩ := drive_offer isIdempotent fs hway htime hnext
    have first : (TryClients.currentClient (start.hostIsReachable remote) st).hostname = st.place 0 := by
      simp [TryClients.currentClient, TryClients.client, MultiClientState.place]
    rw [first] at htries
    have tried : Tried remote start st now 0 l := by
      refine ⟨fun h hh => ⟨0, Nat.le_refl 0, .inl rfl, ?_⟩, fun j hj _ may => ?_⟩
      · exact (htries.only h hh).resolve_left (not_mem_nil)
      · obtain rfl : j = 0 := Nat.le_zero.mp hj
        exact htries.done _ rfl may
    have hnoted : Noted remote start st 0 [] := fun i => by simp
    obtain ⟨l', hend, hdone⟩ := drive_walk isIdempotent hlen htimes hway' st.nonempty (.inl rfl) tried hnoted
      (by rw [length_cons] at hfuel; simpa using Nat.le_of_lt_succ hfuel)
    exact ⟨l', hdrive.trans hend, hdone⟩

theorem giveUp_error (l : LoopState ρ) : ∃ e, l.giveUp = .error e := by
  unfold LoopState.giveUp
  cases l.lastErr with
  | some err => exact ⟨err, rfl⟩
  | none => cases l.timedOut <;> exact ⟨_, rfl⟩

theorem finish_connect (err : String) (retry : ∀ c ∈ l.connectRetry, c.hostname ∈ l.tried) :
    (∃ e, (finish (.connect err) l).1 = .error e) ∧ ∀ h, h ∈ (finish (.connect err) l).2.tried ↔ h ∈ l.tried := by
  unfold finish
  cases hc : l.connectRetry with
  | none => exact ⟨giveUp_error l, fun h => Iff.rfl⟩
  | some c =>
    refine ⟨⟨_, rfl⟩, fun h => ?_⟩
    have hmem := retry c (by simp [hc])
    simp only [LoopState.tried, map_append, map_cons, map_nil, mem_append, mem_singleton] at hmem ⊢
    constructor
    · rintro (hh | rfl)
      · exact hh
      · exact hmem
    · exact .inl

/-- **When a request tries all endpoints that it may.** A request that can connect to none of them, and that no other
one disturbs, has tried every endpoint that is not in its back-off time exactly if each is the one in use, or comes in
the rotation up to one that the cache does not have as unreachable. -/
theorem request_tries_all_iff (remote : String) (cache : RemoteMappingCache) (st : MultiClientState)
    (hlen : st.entries.length < 2 ^ 63) (now : Int)
    (hgate : remoteBacksOff (cache.remoteTimeToNextTry remote now) = false) (isIdempotent : Bool) (fs : List Failure)
    (hfuel : st.entries.length < fs.length) (htimes : ∀ f ∈ fs, now ≤ f.now) (retryErr : String) :
    ∃ out : Except RequestError ρ × LoopState ρ,
      request (remoteOps remote) isIdempotent (cache.remoteTimeToNextTry remote now) (fs.map Failure.round)
          ⟨⟨cache, now⟩, st⟩ (.connect retryErr) = some out ∧ (∃ err, out.1 = .error err) ∧
        ((∀ h ∈ st.entries, cache.mayTry remote h now → h ∈ out.2.tried) ↔ ∀ h ∈ st.entries, cache.mayTry remote h now →
            ∃ j, WithinReach remote cache st j ∧ h = st.place j) := by
  obtain ⟨l, drive, retry, tried⟩ := drive_start (ρ := ρ) remote cache isIdempotent hlen htimes hfuel now
  obtain ⟨herr, hmem⟩ := finish_connect retryErr retry
  refine ⟨finish (.connect retryErr) l, ?_, herr, ?_⟩
  · simp [request, hgate, drive]
  · simp only [hmem]
    refine forall₃_congr fun h _ may => ⟨tried.only h, ?_⟩
    rintro ⟨j, hj, rfl⟩
    exact tried.done j hj may

def failedOnB (hosts : List String) : RemoteMappingCache :=
  let mapping : RemoteMapping := { RemoteMapping.new .pve with
    hosts := hosts.foldl (fun m h => m.insert h (HostInfo.new h)) Lib.OrderedMap.empty }
  (⟨Lib.OrderedMap.empty.insert "pve-a" mapping, none⟩ : RemoteMappingCache).markHostReachable "pve-a" "b"
    (.unreachable "connection refused") 0

/-- An unreachable endpoint before a reachable one. -/
theorem request_tries_all_up_to_reachable : ∃ out : Except RequestError Unit × LoopState Unit,
      request (remoteOps "pve-a") true ((failedOnB ["a", "b", "c"]).remoteTimeToNextTry "pve-a" 0)
          ((List.replicate 4 ⟨0, 0, "connection refused"⟩).map Failure.round)
          ⟨⟨failedOnB ["a", "b", "c"], 0⟩, ⟨0, ["a", "b", "c"], by decide⟩⟩ (.connect "connection refused") = some out ∧
        ∀ h ∈ ["a", "b", "c"], (failedOnB ["a", "b", "c"]).mayTry "pve-a" h 0 → h ∈ out.2.tried := by
  obtain ⟨out, hrun, -, hiff⟩ := request_tries_all_iff (ρ := Unit) "pve-a" (failedOnB ["a", "b", "c"])
    ⟨0, ["a", "b", "c"], by decide⟩ (by decide) 0 (by decide) true
    (List.replicate 4 ⟨0, 0, "connection refused"⟩) (by decide) (by simp) "connection refused"
  refine ⟨out, hrun, hiff.mpr fun h hh _ => ?_⟩
  simp only [mem_cons, not_mem_nil, or_false] at hh
  obtain rfl | rfl | rfl := hh
  · exact ⟨0, by decide, by decide⟩
  · exact ⟨1, by decide, by decide⟩
  · exact ⟨2, by decide, by decide⟩

/-- Of two endpoints the second may be tried, but only the first one is, and then once more as the retry. -/
theorem request_skips_unreachable : remoteBacksOff ((failedOnB ["a", "b"]).remoteTimeToNextTry "pve-a" 0) = false ∧
      (failedOnB ["a", "b"]).mayTry "pve-a" "b" 0 ∧
      (request (ρ := Unit) (remoteOps "pve-a") true ((failedOnB ["a", "b"]).remoteTimeToNextTry "pve-a" 0)
          ((List.replicate 3 ⟨0, 0, "connection refused"⟩).map Failure.round)
          ⟨⟨failedOnB ["a", "b"], 0⟩, ⟨0, ["a", "b"], by decide⟩⟩ (.connect "connection refused")).map
        (fun out => (out.1.toBool, out.2.tried)) = some (false, ["a", "a"]) := by
  decide

end Connection

end Nexus
