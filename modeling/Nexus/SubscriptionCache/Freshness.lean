import Mathlib.Data.List.Induction
import Nexus.SubscriptionCache

/-!
# How fresh a subscription read is

What a read returns is fresh if each node has answered less than the maximum age before the read, or if it was sampled
by a read that was under way together with it (`Fresh`). An entry gets the time at which its fetch has ended, so a node
may have answered earlier than the stamp says. An entry stamped in the future wins over what a read has fetched, so the
fetch must not end before the stamp of the entry that the read found (`fresh_of_clock`, `future_entry_returned`).
-/

namespace Nexus.SubscriptionCache

open List

/-! ## What an act can do -/

variable {s : State} {a : Act} {i : Nat} {r : ReadState}

def ReadState.UnderWay : ReadState → Prop
  | .returned _ => False
  | _ => True

inductive GoesOn (s : State) (a : Act) (i : Nat) : ReadState → ReadState → Prop
  | rests (r : ReadState) : GoesOn s a i r r
  | answered (complete : Bool) (answers answers' : Sampled) :
      GoesOn s a i (.fetching complete answers) (.fetching complete answers')
  | failed (complete : Bool) (answers : Sampled) (err : String) :
      GoesOn s a i (.fetching complete answers) (.returned (.error err))
  | ended (complete : Bool) (answers : Sampled) (now : Int) : a = .endFetch i now →
      GoesOn s a i (.fetching complete answers) (.fetched complete answers now)
  | updated (complete : Bool) (nodeInfo : Sampled) (now : Int) (access : Access) :
      GoesOn s a i (.fetched complete nodeInfo now) (.returned (updateCached s complete nodeInfo now access).2)

theorem getElem?_goOn {j r'} (h : s.reads[i]? = some r) (hj : j = i → GoesOn s a i r r') :
    ∃ r'', (s.goOn j r').reads[i]? = some r'' ∧ GoesOn s a i r r'' := by
  by_cases e : j = i
  · subst e
    have hlt : j < s.reads.length := (List.getElem?_eq_some_iff.mp h).1
    exact ⟨r', getElem?_set_self hlt, hj rfl⟩
  · exact ⟨r, (getElem?_set_ne e).trans h, .rests r⟩

theorem reads_step (a) (h : s.reads[i]? = some r) : ∃ r', (step s a).reads[i]? = some r' ∧ GoesOn s a i r r' := by
  have appended : ∀ new, (s.reads ++ [new])[i]? = some r := fun new =>
    (List.getElem?_append_left (List.getElem?_eq_some_iff.mp h).1).trans h
  cases a with
  | change => exact ⟨r, h, .rests r⟩
  | invalidate access => cases access <;> exact ⟨r, h, .rests r⟩
  | start => exact ⟨r, appended _, .rests r⟩
  | startComplete => exact ⟨r, appended _, .rests r⟩
  | answer =>
    simp only [step]
    split
    · next complete answers hj =>
      refine getElem?_goOn h fun e => ?_
      obtain rfl := Option.some.inj (h.symm.trans (e ▸ hj))
      exact .answered complete answers _
    · exact ⟨r, h, .rests r⟩
  | failFetch _ err =>
    simp only [step]
    split
    · next complete answers hj =>
      refine getElem?_goOn h fun e => ?_
      obtain rfl := Option.some.inj (h.symm.trans (e ▸ hj))
      exact .failed complete answers err
    · exact ⟨r, h, .rests r⟩
  | endFetch _ now =>
    simp only [step]
    split
    · next complete answers hj =>
      refine getElem?_goOn h fun e => ?_
      obtain rfl := Option.some.inj (h.symm.trans (e ▸ hj))
      exact .ended complete answers now (e ▸ rfl)
    · exact ⟨r, h, .rests r⟩
  | update _ access =>
    simp only [step]
    split
    · next complete nodeInfo now hj =>
      refine getElem?_goOn h fun e => ?_
      obtain rfl := Option.some.inj (h.symm.trans (e ▸ hj))
      exact .updated complete nodeInfo now access
    · exact ⟨r, h, .rests r⟩

theorem entry_step (a) : (step s a).entry = s.entry ∨ (step s a).entry = none ∨
    ∃ (j : Nat) (complete : Bool) (nodeInfo : Sampled) (now : Int),
      s.reads[j]? = some (.fetched complete nodeInfo now) ∧ (step s a).entry = some ⟨now, nodeInfo⟩ := by
  cases a with
  | change => exact .inl rfl
  | invalidate access =>
    cases access with
    | failed => exact .inl rfl
    | opened => exact .inr (.inl rfl)
    | unreadable => exact .inr (.inl rfl)
  | start => exact .inl rfl
  | startComplete => exact .inl rfl
  | answer => simp only [step]; split <;> exact .inl rfl
  | failFetch => simp only [step]; split <;> exact .inl rfl
  | endFetch => simp only [step]; split <;> exact .inl rfl
  | update j =>
    simp only [step]
    split
    · next complete nodeInfo now hj =>
      unfold updateCached
      split
      · exact .inl rfl
      · exact .inl rfl
      · exact .inr (.inr ⟨j, complete, nodeInfo, now, hj, rfl⟩)
    · exact .inl rfl

theorem startRead_hit {maxAge now access data} (h : startRead s maxAge now access = .returned (.ok data)) :
    ∃ e, s.entry = some e ∧ e.value = data ∧ e.timestamp ≤ now ∧ now - e.timestamp < maxAge.toNat := by
  have bound : maxAge.toInt64.toInt ≤ maxAge.toNat := by
    change maxAge.toBitVec.toInt ≤ maxAge.toBitVec.toNat
    rw [BitVec.toInt_eq_toNat_cond]
    split <;> omega
  unfold startRead at h
  split at h
  · cases h
  · next cached hlook =>
    cases h
    obtain ⟨e, he, hvalue, hexp⟩ := look_getWithMaxAge hlook
    obtain ⟨hle, hlt⟩ := CacheEntry.isExpired_eq_false hexp
    exact ⟨e, he, hvalue, hle, by omega⟩
  · cases h

theorem updateCached_ok {complete nodeInfo data now access}
    (h : (updateCached s complete nodeInfo now access).2 = .ok data) :
    data = nodeInfo ∨ ∃ e, s.entry = some e ∧ e.value = data ∧ now < e.timestamp := by
  unfold updateCached at h
  split at h
  · cases h
  · next existing hlook =>
    obtain ⟨e, he, hvalue, latest⟩ := look_setIfNewer hlook
    cases complete with
    | true => exact .inl (Except.ok.inj h).symm
    | false => exact .inr ⟨e, he, hvalue.trans (Except.ok.inj h), latest⟩
  · exact .inl (Except.ok.inj h).symm

/-! ## Freshness -/

/-- A read that has fetched the data was under way together with read `i`. -/
def SampledMeanwhile (s : State) (acts : List Act) (i : Nat) (data : Sampled) : Prop :=
  ∃ before after, acts = before ++ after ∧
    (∃ (j : Nat) (complete : Bool) (now : Int), (run s before).reads[j]? = some (.fetched complete data now)) ∧
    ∃ r, (run s before).reads[i]? = some r ∧ r.UnderWay

/-- Every node has answered less than the maximum age ago. -/
def Sampled.Young (data : Sampled) (maxAge : UInt64) (now : Int) : Prop :=
  ∀ p ∈ data.nodeInfo, data.clockAt p.1 ≤ now ∧ now - data.clockAt p.1 < maxAge.toNat

/-- Stored and sampled less than the maximum age before, or sampled meanwhile. -/
def Fresh (s : State) (maxAge : UInt64) (now : Int) (access : Access) (acts : List Act) (data : Sampled) : Prop :=
  (∃ e, s.entry = some e ∧ e.value = data ∧ e.timestamp ≤ now ∧ now - e.timestamp < maxAge.toNat ∧
      data.Young maxAge now) ∨
    SampledMeanwhile (step s (.start maxAge now access)) acts s.reads.length data

/-- Every node has answered at the time with which the entry is stored. -/
def State.Prompt (s : State) : Prop := ∀ e, s.entry = some e → ∀ p ∈ e.value.nodeInfo, e.value.clockAt p.1 = e.timestamp

variable {maxAge : UInt64} {now : Int} {access : Access} {acts : List Act} {data : Sampled}

theorem SampledMeanwhile.mono (h : SampledMeanwhile s acts i data) : SampledMeanwhile s (acts ++ [a]) i data := by
  obtain ⟨before, after, rfl, sampled, underWay⟩ := h
  exact ⟨before, after ++ [a], append_assoc _ _ _, sampled, underWay⟩

theorem Fresh.mono (h : Fresh s maxAge now access acts data) : Fresh s maxAge now access (acts ++ [a]) data :=
  h.imp_right SampledMeanwhile.mono

structure Watched (s : State) (maxAge : UInt64) (now : Int) (access : Access) (acts : List Act) (t : State)
    (r : ReadState) : Prop where
  entry : r.UnderWay → ∀ e, t.entry = some e → s.entry = some e ∨
    SampledMeanwhile (step s (.start maxAge now access)) acts s.reads.length e.value
  fetched : ∀ complete nodeInfo stamp, r = .fetched complete nodeInfo stamp → ∀ e, s.entry = some e →
    e.timestamp ≤ stamp
  returned : ∀ data, r = .returned (.ok data) → Fresh s maxAge now access acts data

theorem watched_start (prompt : s.Prompt) : Watched s maxAge now access [] (step s (.start maxAge now access))
    (startRead s maxAge now access) where
  entry := fun _ e he => .inl he
  fetched := by
    intro complete nodeInfo stamp h
    unfold startRead at h
    split at h <;> cases h
  returned := by
    intro data h
    obtain ⟨e, he, rfl, hle, hlt⟩ := startRead_hit h
    refine .inl ⟨e, he, rfl, hle, hlt, fun p hp => ?_⟩
    rw [prompt e he p hp]
    exact ⟨hle, hlt⟩

theorem watched_step {t r'} (ht : t = run (step s (.start maxAge now access)) acts)
    (hr : t.reads[s.reads.length]? = some r) (h : Watched s maxAge now access acts t r)
    (clock : ∀ stamp, a = .endFetch s.reads.length stamp → ∀ e, s.entry = some e → e.timestamp ≤ stamp)
    (hgo : GoesOn t a s.reads.length r r') : Watched s maxAge now access (acts ++ [a]) (step t a) r' := by
  -- what a read has fetched while the watched one is under way was sampled meanwhile
  have meanwhile : ∀ {j : Nat} {complete : Bool} {nodeInfo : Sampled} {stamp : Int}, r.UnderWay →
      t.reads[j]? = some (.fetched complete nodeInfo stamp) →
      SampledMeanwhile (step s (.start maxAge now access)) (acts ++ [a]) s.reads.length nodeInfo := by
    intro j complete nodeInfo stamp hu hj
    subst ht
    exact ⟨acts, [a], rfl, ⟨j, complete, stamp, hj⟩, r, hr, hu⟩
  have before : r'.UnderWay → r.UnderWay := by
    intro hu
    cases hgo with
    | rests => exact hu
    | answered => trivial
    | failed => exact hu.elim
    | ended => trivial
    | updated => exact hu.elim
  refine ⟨fun hu e he => ?_, fun complete nodeInfo stamp hf => ?_, fun data hd => ?_⟩
  · rcases entry_step (s := t) a with same | gone | ⟨j, complete, nodeInfo, stamp, hj, stored⟩
    · exact (h.entry (before hu) e (same ▸ he)).imp_right SampledMeanwhile.mono
    · cases gone.symm.trans he
    · cases stored.symm.trans he
      exact .inr (meanwhile (before hu) hj)
  · cases hgo with
    | rests => exact h.fetched complete nodeInfo stamp hf
    | answered => cases hf
    | failed => cases hf
    | ended _ _ _ e =>
      cases hf
      exact clock stamp e
    | updated => cases hf
  · cases hgo with
    | rests => exact (h.returned data hd).mono
    | answered => cases hd
    | failed => cases hd
    | ended => cases hd
    | updated complete nodeInfo stamp =>
      rcases updateCached_ok (ReadState.returned.inj hd) with rfl | ⟨e, he, rfl, latest⟩
      · exact .inr (meanwhile trivial hr)
      · rcases h.entry trivial e he with found | sampled
        · have := h.fetched complete nodeInfo stamp rfl e found
          omega
        · exact .inr sampled.mono

variable (maxAge now access) in
theorem watched_run (prompt : s.Prompt) (acts)
    (clock : ∀ stamp, .endFetch s.reads.length stamp ∈ acts → ∀ e, s.entry = some e → e.timestamp ≤ stamp) :
    ∃ r, (run (step s (.start maxAge now access)) acts).reads[s.reads.length]? = some r ∧
      Watched s maxAge now access acts (run (step s (.start maxAge now access)) acts) r := by
  induction acts using List.reverseRecOn with
  | nil => exact ⟨_, getElem?_concat_length, watched_start prompt⟩
  | append_singleton acts a ih =>
    obtain ⟨r, hr, watched⟩ := ih fun stamp h => clock stamp (mem_append_left _ h)
    obtain ⟨r', hr', hgo⟩ := reads_step a hr
    have hclock : ∀ stamp, a = .endFetch s.reads.length stamp → ∀ e, s.entry = some e → e.timestamp ≤ stamp := by
      rintro stamp rfl
      exact clock stamp (mem_append_right _ mem_cons_self)
    have hrun : run (step s (.start maxAge now access)) (acts ++ [a]) =
        step (run (step s (.start maxAge now access)) acts) a := by
      simp [run]
    rw [hrun]
    exact ⟨r', hr', watched_step rfl hr watched hclock hgo⟩

/-- **A successful read returns fresh data, and for a maximum age of zero data that were sampled meanwhile, if the nodes
have answered at the stamp of the entry that was there, and the fetch of the read does not end before that stamp.** -/
theorem fresh_of_clock (s : State) (maxAge : UInt64) (now : Int) (access : Access) (acts : List Act) (prompt : s.Prompt)
    (clock : ∀ stamp, .endFetch s.reads.length stamp ∈ acts → ∀ e, s.entry = some e → e.timestamp ≤ stamp)
    (data : Sampled) (h : (run (step s (.start maxAge now access)) acts).reads[s.reads.length]? =
      some (.returned (.ok data))) : Fresh s maxAge now access acts data ∧
      (maxAge = 0 → SampledMeanwhile (step s (.start maxAge now access)) acts s.reads.length data) := by
  obtain ⟨r, hr, watched⟩ := watched_run maxAge now access prompt acts clock
  have fresh := watched.returned data (Option.some.inj (hr.symm.trans h))
  refine ⟨fresh, fun hzero => ?_⟩
  rcases fresh with ⟨e, -, -, hle, hlt, -⟩ | sampled
  · subst hzero
    simp only [UInt64.toNat_zero] at hlt
    omega
  · exact sampled

namespace Sample

/-- `node1` had no subscription when the cache was filled, and has one now. -/
def stored (timestamp : Int) : State where
  live _ := subscribed
  changes := 1
  entry := some ⟨timestamp, Sampled.none.insert "node1" (some unsubscribed) 0 timestamp⟩
  reads := []

def fetch : List Act := [.answer 0 "node1" true 1700000003, .endFetch 0 1700000005, .update 0 .opened]

end Sample

open Sample

theorem fresh_of_clock_sample : ∃ data, (run (step (stored 1700000000) (.start 0 1700000000 .opened)) fetch).reads[0]? =
        some (.returned (.ok data)) ∧ data.nodeInfo.get? "node1" = some (some subscribed) ∧
      SampledMeanwhile (step (stored 1700000000) (.start 0 1700000000 .opened)) fetch 0 data := by
  have prompt : (stored 1700000000).Prompt := by
    rintro e ⟨⟩ p hp
    rcases Lib.OrderedMap.mem_insert.mp hp with rfl | ⟨-, hnone⟩
    · rfl
    · exact absurd hnone Lib.OrderedMap.mem_empty
  have clock : ∀ stamp, .endFetch 0 stamp ∈ fetch → ∀ e, (stored 1700000000).entry = some e → e.timestamp ≤ stamp := by
    intro stamp hstamp e he
    obtain rfl : stamp = 1700000005 := by simpa [fetch] using hstamp
    cases he
    decide
  refine ⟨_, rfl, by decide, ?_⟩
  exact (fresh_of_clock (stored 1700000000) 0 1700000000 .opened fetch prompt clock _ rfl).2 rfl

/-- The clock was set back: a read with a maximum age of zero returns what was cached before it. -/
theorem future_entry_returned : ∃ data,
    (run (step (stored 1700003600) (.start 0 1700000000 .opened)) fetch).reads[0]? = some (.returned (.ok data)) ∧
      (stored 1700003600).entry = some ⟨1700003600, data⟩ ∧ data.nodeInfo.get? "node1" = some (some unsubscribed) ∧
      ¬ Fresh (stored 1700003600) 0 1700000000 .opened fetch data := by
  refine ⟨_, rfl, rfl, by decide, ?_⟩
  rintro (⟨e, he, -, hle, -⟩ | ⟨before, after, hacts, ⟨j, complete, now, hj⟩, -⟩)
  · cases he
    exact absurd hle (by decide)
  · -- at no moment has a read fetched an answer of `node1` without a subscription
    have hbefore : before = fetch.take before.length := by rw [hacts]; simp
    have hlen : before.length ≤ 3 := by
      have := congrArg List.length hacts
      simp [fetch] at this
      omega
    have hread := mem_of_getElem? hj
    rw [hbefore] at hread
    generalize before.length = k at hread hlen
    obtain rfl | rfl | rfl | rfl : k = 0 ∨ k = 1 ∨ k = 2 ∨ k = 3 := by omega
    · cases mem_singleton.mp hread
    · cases mem_singleton.mp hread
    · obtain ⟨-, hdata, -⟩ := ReadState.fetched.inj (mem_singleton.mp hread)
      exact absurd (congrArg (fun data => data.nodeInfo.get? "node1") hdata) (by decide)
    · cases mem_singleton.mp hread

end Nexus.SubscriptionCache
