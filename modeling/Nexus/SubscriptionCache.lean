import Nexus.NodeInfo

/-!
# Subscription reads and the invalidation of their cache

Any number of reads of the subscriptions of one remote, of `server/src/api/resources.rs`, with the changes that
`run_apply_pending` makes and the invalidation that follows each. Alone, a read is `get_subscription_info_for_remote` of
`Nexus.NodeInfo` (`startRead_update`). An invalidation lasts exactly if no read that is under way has an answer from
before the change (`invalidation_lasts_iff`, `outdated_read_after_invalidation`).
-/

namespace Nexus.SubscriptionCache

open Lib (OrderedMap)
open List

/-! ## Reads, changes and invalidations -/

/-- The answers of the nodes, with the number of changes and the clock at the time of each. -/
structure Sampled where
  nodeInfo : NodeSubscriptions
  sampledAt : String → Nat
  clockAt : String → Int

def Sampled.none : Sampled := ⟨.empty, fun _ => 0, fun _ => 0⟩

def Sampled.insert (data : Sampled) (node : String) (info : Option NodeSubscriptionInfo) (changes : Nat) (now : Int) :
    Sampled :=
  ⟨data.nodeInfo.insert node info, Function.update data.sampledAt node changes, Function.update data.clockAt node now⟩

/-- Some answer is from before the `n`-th change. -/
def Sampled.Before (data : Sampled) (n : Nat) : Prop := ∃ p ∈ data.nodeInfo, data.sampledAt p.1 < n

inductive ReadState
  | fetching (complete : Bool) (answers : Sampled)
  | fetched (complete : Bool) (nodeInfo : Sampled) (now : Int)
  | returned (result : Except String Sampled)

structure State where
  live : String → NodeSubscriptionInfo
  changes : Nat
  entry : Option (CacheEntry Sampled)
  reads : List ReadState

inductive Access
  | opened
  | unreadable
  | failed (err : String)

def State.look (s : State) (access : Access) (now : Int) : CacheLook Sampled :=
  ⟨match access with
    | .opened => .ok s.entry
    | .unreadable => .ok none
    | .failed err => .error err, now⟩

def startRead (s : State) (maxAge : UInt64) (now : Int) (access : Access) : ReadState :=
  match (s.look access now).getWithMaxAge maxAge.toInt64.toInt with
  | .error err => .returned (.error err)
  | .ok (some cached) => .returned (.ok cached)
  | .ok none => .fetching false .none

def updateCached (s : State) (complete : Bool) (nodeInfo : Sampled) (now : Int) (access : Access) :
    Option (CacheEntry Sampled) × Except String Sampled :=
  match (s.look access now).setIfNewer now with
  | .error err => (s.entry, .error err)
  | .ok (some existing) => (s.entry, .ok (if complete then nodeInfo else existing))
  | .ok none => (some ⟨now, nodeInfo⟩, .ok nodeInfo)

inductive Act
  /-- A key is pushed to a node, or deleted from it. -/
  | change (node : String) (info : NodeSubscriptionInfo)
  /-- `invalidate_subscription_info_for_remote`, whose errors are only logged. -/
  | invalidate (access : Access)
  | start (maxAge : UInt64) (now : Int) (access : Access)
  | startComplete
  | answer (i : Nat) (node : String) (reachable : Bool) (now : Int)
  | failFetch (i : Nat) (err : String)
  | endFetch (i : Nat) (now : Int)
  | update (i : Nat) (access : Access)

def State.goOn (s : State) (i : Nat) (r : ReadState) : State := { s with reads := s.reads.set i r }

def step (s : State) : Act → State
  | .change node info => { s with live := Function.update s.live node info, changes := s.changes + 1 }
  | .invalidate (.failed _) => s
  | .invalidate _ => { s with entry := none }
  | .start maxAge now access => { s with reads := s.reads ++ [startRead s maxAge now access] }
  | .startComplete => { s with reads := s.reads ++ [.fetching true .none] }
  | .answer i node reachable now => match s.reads[i]? with
    | some (.fetching complete answers) =>
      s.goOn i (.fetching complete (answers.insert node (if reachable then some (s.live node) else none) s.changes now))
    | _ => s
  | .failFetch i err => match s.reads[i]? with
    | some (.fetching _ _) => s.goOn i (.returned (.error err))
    | _ => s
  | .endFetch i now => match s.reads[i]? with
    | some (.fetching complete answers) => s.goOn i (.fetched complete answers now)
    | _ => s
  | .update i access => match s.reads[i]? with
    | some (.fetched complete nodeInfo now) =>
      let (entry, result) := updateCached s complete nodeInfo now access
      { s.goOn i (.returned result) with entry }
    | _ => s

def run (s : State) (acts : List Act) : State := acts.foldl step s

def found (look : CacheLook Sampled) : CacheLook NodeSubscriptions :=
  ⟨look.entry.map (Option.map fun e => ⟨e.timestamp, e.value.nodeInfo⟩), look.now⟩

theorem getWithMaxAge_found (look) (maxAge : Int) :
    (found look).getWithMaxAge maxAge = (look.getWithMaxAge maxAge).map (Option.map Sampled.nodeInfo) := by
  obtain ⟨entry, now⟩ := look
  cases entry with
  | error => rfl
  | ok entry =>
    cases entry with
    | none => rfl
    | some e =>
      have hexp : (CacheEntry.mk e.timestamp e.value.nodeInfo).isExpired now maxAge = e.isExpired now maxAge := rfl
      simp only [found, CacheLook.getWithMaxAge, Except.map, Option.map_some, hexp]
      split <;> rfl

theorem setIfNewer_found (look) (timestamp : Int) :
    (found look).setIfNewer timestamp = (look.setIfNewer timestamp).map (Option.map Sampled.nodeInfo) := by
  obtain ⟨entry, now⟩ := look
  cases entry with
  | error => rfl
  | ok entry =>
    cases entry with
    | none => rfl
    | some =>
      simp only [found, CacheLook.setIfNewer, Except.map, Option.map_some]
      split <;> rfl

/-- **Alone, a read is `get_subscription_info_for_remote`.** -/
theorem startRead_update (s) (t) (maxAge) (now fetchTime : Int) (access) (access')
    (answers) : (match startRead s maxAge now access with
      | .returned result => result
      | _ => (updateCached t false answers fetchTime access').2).map Sampled.nodeInfo =
    getSubscriptionInfoForRemote ⟨found (s.look access now), .ok answers.nodeInfo, fetchTime,
      found (t.look access' fetchTime)⟩ maxAge := by
  unfold startRead updateCached getSubscriptionInfoForRemote
  rw [getWithMaxAge_found, setIfNewer_found]
  cases (s.look access now).getWithMaxAge maxAge.toInt64.toInt with
  | error => rfl
  | ok cached =>
    cases cached with
    | some => rfl
    | none =>
      cases (t.look access' fetchTime).setIfNewer fetchTime with
      | error => rfl
      | ok existing => cases existing <;> rfl

/-! ## What an invalidation leaves behind -/

variable {s : State} {n : Nat}

/-- The read holds answers from before `n`. -/
def ReadState.HoldsBefore (n : Nat) : ReadState → Prop
  | .fetching _ answers => answers.Before n
  | .fetched _ nodeInfo _ => nodeInfo.Before n
  | .returned _ => False

/-- Answers from before `n` are stored. -/
def StoredBefore (n : Nat) (entry : Option (CacheEntry Sampled)) : Prop := ∃ e, entry = some e ∧ e.value.Before n

structure Current (n k : Nat) (s : State) : Prop where
  changes : n ≤ s.changes
  entry : ¬ StoredBefore n s.entry
  reads : ∀ r ∈ s.reads, ¬ r.HoldsBefore n
  later : k ≤ s.reads.length
  returned : ∀ i data, k ≤ i → s.reads[i]? = some (.returned (.ok data)) → ¬ data.Before n

theorem not_before_none : ¬ Sampled.none.Before n := fun ⟨_, hp, _⟩ => OrderedMap.mem_empty hp

variable {data nodeInfo : Sampled} {access : Access} {now : Int} {k i : Nat} {r : ReadState}

theorem not_before_insert (h : ¬ data.Before n) {m} (hm : n ≤ m) (node) (info) (now) :
    ¬ (data.insert node info m now).Before n := by
  rintro ⟨p, hp, hlt⟩
  simp only [Sampled.insert] at hp hlt
  by_cases hnode : p.1 = node
  · rw [hnode, Function.update_self] at hlt
    omega
  · rw [Function.update_of_ne hnode] at hlt
    rcases OrderedMap.mem_insert.mp hp with rfl | ⟨-, hold⟩
    · exact hnode rfl
    · exact h ⟨p, hold, hlt⟩

theorem entry_of_look {f} (hnone : f none = none)
    (h : (s.look access now).entry.map f = .ok (some data)) : ∃ e, s.entry = some e ∧ f (some e) = some data := by
  cases access with
  | failed => cases h
  | unreadable => cases hnone.symm.trans (Except.ok.inj h)
  | opened =>
    have hdata : f s.entry = some data := Except.ok.inj h
    cases entry : s.entry with
    | none => cases hnone.symm.trans (entry ▸ hdata)
    | some e => exact ⟨e, rfl, entry ▸ hdata⟩

theorem look_getWithMaxAge {maxAge} (h : (s.look access now).getWithMaxAge maxAge = .ok (some data)) :
    ∃ e, s.entry = some e ∧ e.value = data ∧ e.isExpired now maxAge = false := by
  obtain ⟨e, he, hdata⟩ := entry_of_look rfl h
  dsimp only at hdata
  split at hdata
  · cases hdata
  · next hexp => exact ⟨e, he, Option.some.inj hdata, Bool.eq_false_iff.mpr hexp⟩

theorem look_setIfNewer {timestamp} (h : (s.look access now).setIfNewer timestamp = .ok (some data)) :
    ∃ e, s.entry = some e ∧ e.value = data ∧ timestamp < e.timestamp := by
  obtain ⟨e, he, hdata⟩ := entry_of_look rfl h
  dsimp only at hdata
  split at hdata
  · next latest => exact ⟨e, he, Option.some.inj hdata, latest⟩
  · cases hdata

theorem startRead_current (maxAge) (now : Int) (access) (entry : ¬ StoredBefore n s.entry) :
    ¬ (startRead s maxAge now access).HoldsBefore n ∧
      ∀ data, startRead s maxAge now access = .returned (.ok data) → ¬ data.Before n := by
  unfold startRead
  split
  · exact ⟨id, fun data h => by cases h⟩
  · next cached hlook =>
    obtain ⟨e, he, hvalue, -⟩ := look_getWithMaxAge hlook
    refine ⟨id, fun data h before => entry ⟨e, he, ?_⟩⟩
    cases h
    rwa [hvalue]
  · exact ⟨not_before_none, fun data h => by cases h⟩

theorem updateCached_current (complete : Bool) (now : Int) (access)
    (entry : ¬ StoredBefore n s.entry) (hinfo : ¬ nodeInfo.Before n) :
    ¬ StoredBefore n (updateCached s complete nodeInfo now access).1 ∧
      ∀ data, (updateCached s complete nodeInfo now access).2 = .ok data → ¬ data.Before n := by
  unfold updateCached
  split
  · exact ⟨entry, fun data h => by cases h⟩
  · next existing hlook =>
    obtain ⟨e, he, hvalue, -⟩ := look_setIfNewer hlook
    refine ⟨entry, fun data h before => ?_⟩
    cases h
    split at before
    · exact hinfo before
    · exact entry ⟨e, he, by rwa [hvalue]⟩
  · refine ⟨?_, fun data h => ?_⟩
    · rintro ⟨e, he, before⟩
      cases he
      exact hinfo before
    · cases h
      exact hinfo

theorem Current.append (h : Current n k s) (hholds : ¬ r.HoldsBefore n)
    (hret : ∀ data, r = .returned (.ok data) → ¬ data.Before n) : Current n k { s with reads := s.reads ++ [r] } where
  changes := h.changes
  entry := h.entry
  reads := by
    intro r' hr'
    rcases mem_append.mp hr' with hr' | hr'
    · exact h.reads r' hr'
    · rw [mem_singleton.mp hr']
      exact hholds
  later := by
    have := h.later
    simp only [length_append]
    omega
  returned := by
    intro i data hi hget
    by_cases hlt : i < s.reads.length
    · rw [getElem?_append_left hlt] at hget
      exact h.returned i data hi hget
    · have hr : r = .returned (.ok data) := by
        rw [getElem?_append_right (by omega)] at hget
        exact mem_singleton.mp (mem_of_getElem? hget) |>.symm
      exact hret data hr

theorem Current.goOn (h : Current n k s) (hholds : ¬ r.HoldsBefore n)
    (hret : ∀ data, r = .returned (.ok data) → ¬ data.Before n) : Current n k (s.goOn i r) where
  changes := h.changes
  entry := h.entry
  reads := by
    intro r' hr'
    rcases mem_or_eq_of_mem_set hr' with hr' | rfl
    · exact h.reads r' hr'
    · exact hholds
  later := by
    rw [State.goOn, length_set]
    exact h.later
  returned := by
    intro j data hj hget
    simp only [State.goOn, getElem?_set] at hget
    split at hget
    · split at hget
      · exact hret data (Option.some.inj hget)
      · cases hget
    · exact h.returned j data hj hget

theorem current_step (h : Current n k s) (a) : Current n k (step s a) := by
  have hread : ∀ {i : Nat} {r : ReadState}, s.reads[i]? = some r → ¬ r.HoldsBefore n := fun hr =>
    h.reads _ (mem_of_getElem? hr)
  cases a with
  | change => exact { h with changes := Nat.le_succ_of_le h.changes }
  | invalidate access =>
    cases access with
    | failed => exact h
    | opened => exact { h with entry := fun ⟨e, he, _⟩ => by cases he }
    | unreadable => exact { h with entry := fun ⟨e, he, _⟩ => by cases he }
  | start maxAge now access =>
    obtain ⟨hholds, hret⟩ := startRead_current maxAge now access h.entry
    exact h.append hholds hret
  | startComplete => exact h.append not_before_none fun data hd => by cases hd
  | answer _ node =>
    simp only [step]
    split
    · next complete answers hi =>
      exact h.goOn (not_before_insert (hread hi) h.changes node _ _) fun data hd => by cases hd
    · exact h
  | failFetch =>
    simp only [step]
    split
    · exact h.goOn id fun data hd => by cases hd
    · exact h
  | endFetch =>
    simp only [step]
    split
    · next complete answers hi =>
      have hanswers : ¬ answers.Before n := hread hi
      exact h.goOn hanswers fun data hd => by cases hd
    · exact h
  | update i access =>
    simp only [step]
    split
    · next complete nodeInfo now hi =>
      obtain ⟨hent, hret⟩ := updateCached_current complete now access h.entry (hread hi)
      have hdone : Current n k (s.goOn i (.returned (updateCached s complete nodeInfo now access).2)) :=
        h.goOn id fun data hd => hret data (ReadState.returned.inj hd)
      exact { hdone with entry := hent }
    · exact h

theorem current_run (h : Current n k s) (acts) : Current n k (run s acts) :=
  List.foldlRecOn (motive := Current n k) acts step h fun _ ht a _ => current_step ht a

theorem start_returns_stored {e} (h : s.entry = some e) :
    (step s (.start 1 e.timestamp .opened)).reads[s.reads.length]? = some (.returned (.ok e.value)) := by
  have hage : (1 : UInt64).toInt64.toInt = 1 := by decide
  have hread : startRead s 1 e.timestamp .opened = .returned (.ok e.value) := by
    unfold startRead
    rw [hage]
    simp [State.look, h, CacheLook.getWithMaxAge, CacheEntry.isExpired, Except.map]
  simp [step, hread]

theorem update_stores {complete} (h : s.reads[i]? = some (.fetched complete nodeInfo now)) :
    (run s [.invalidate .opened, .update i .opened]).entry = some ⟨now, nodeInfo⟩ ∧
      (run s [.invalidate .opened, .update i .opened]).reads.length = s.reads.length := by
  simp [run, step, h, updateCached, State.look, CacheLook.setIfNewer, Except.map, State.goOn]

theorem exists_acts_of_holds (hi : s.reads[i]? = some r) (hholds : r.HoldsBefore n) :
    ∃ acts data, (run s acts).reads[s.reads.length]? = some (.returned (.ok data)) ∧ data.Before n := by
  have hfetched : ∀ {t} {complete} {nodeInfo} {now}, t.reads.length = s.reads.length →
      t.reads[i]? = some (.fetched complete nodeInfo now) → nodeInfo.Before n →
      ∃ acts data, (run t acts).reads[s.reads.length]? = some (.returned (.ok data)) ∧ data.Before n := by
    intro t complete nodeInfo now hlen ht before
    obtain ⟨entry, hkept⟩ := update_stores ht
    refine ⟨[.invalidate .opened, .update i .opened] ++ [.start 1 now .opened], nodeInfo, ?_, before⟩
    have hret := start_returns_stored entry
    rw [hkept, hlen] at hret
    rw [run, foldl_append]
    exact hret
  cases r with
  | returned => exact hholds.elim
  | fetched => exact hfetched rfl hi hholds
  | fetching complete answers =>
    -- the fetch ends here, and the rest is as for a read that has ended it
    have hend : step s (.endFetch i 0) = s.goOn i (.fetched complete answers 0) := by
      simp only [step, hi]
    have hlt : i < s.reads.length := (List.getElem?_eq_some_iff.mp hi).1
    obtain ⟨acts, data, hret, before⟩ := hfetched (t := s.goOn i (.fetched complete answers 0))
      (length_set) (by rw [State.goOn, getElem?_set_self hlt]) hholds
    refine ⟨.endFetch i 0 :: acts, data, ?_, before⟩
    rw [run, foldl_cons, hend]
    exact hret

/-- **An invalidation lasts exactly if it drops what is stored, and no read under way has an answer from before a
change.** -/
theorem invalidation_lasts_iff (s : State) (access : Access) : (∀ acts i data, s.reads.length ≤ i →
      (run (step s (.invalidate access)) acts).reads[i]? = some (.returned (.ok data)) → ¬ data.Before s.changes) ↔
    ((∃ err, access = .failed err) → ¬ StoredBefore s.changes s.entry) ∧ ∀ r ∈ s.reads, ¬ r.HoldsBefore s.changes := by
  have hreads : (step s (.invalidate access)).reads = s.reads := by
    cases access <;> rfl
  constructor
  · intro h
    refine ⟨?_, fun r hr hholds => ?_⟩
    · rintro ⟨err, rfl⟩ ⟨e, he, before⟩
      exact h [.start 1 e.timestamp .opened] s.reads.length e.value (Nat.le_refl _) (start_returns_stored he) before
    · obtain ⟨i, hi⟩ := mem_iff_getElem?.mp hr
      rw [← hreads] at hi
      obtain ⟨acts, data, hret, before⟩ := exists_acts_of_holds hi hholds
      exact h acts _ data (Nat.le_of_eq (congrArg List.length hreads.symm)) hret before
  · rintro ⟨stored, hholds⟩ acts i data hi hret
    have start : Current s.changes s.reads.length (step s (.invalidate access)) := by
      refine ⟨?_, ?_, by rwa [hreads], Nat.le_of_eq (congrArg List.length hreads.symm), ?_⟩
      · cases access <;> exact Nat.le_refl _
      · cases access with
        | failed err => exact stored ⟨err, rfl⟩
        | opened => exact fun ⟨e, he, _⟩ => by cases he
        | unreadable => exact fun ⟨e, he, _⟩ => by cases he
      · intro j d hj hget
        rw [hreads, getElem?_eq_none hj] at hget
        cases hget
    exact (current_run start acts).returned i data hi hret

def Sample.unsubscribed : NodeSubscriptionInfo := ⟨.notFound, none, none, .none⟩

def Sample.subscribed : NodeSubscriptionInfo := ⟨.active, some 2, some "pve2b-0123456789", .basic⟩

/-- A read has asked `node1`, a key is pushed to it, and the cache is invalidated before the read stores what it got. -/
theorem outdated_read_after_invalidation :
    let s := run ⟨fun _ => Sample.unsubscribed, 0, none, []⟩
      [.start 86400 1700000000 .opened, .answer 0 "node1" true 1700000001, .change "node1" Sample.subscribed]
    ∃ data, (run (step s (.invalidate .opened)) [.endFetch 0 1700000005, .update 0 .opened,
        .start 86400 1700000006 .opened]).reads[1]? = some (.returned (.ok data)) ∧
      data.nodeInfo.get? "node1" = some (some Sample.unsubscribed) ∧ data.Before s.changes ∧
      s.live "node1" = Sample.subscribed := by
  refine ⟨_, rfl, by decide, ⟨("node1", some Sample.unsubscribed), ?_, by decide⟩, by decide⟩
  exact OrderedMap.mem_insert.mpr (.inl rfl)

end Nexus.SubscriptionCache
