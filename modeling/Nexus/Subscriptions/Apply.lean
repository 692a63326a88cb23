import Nexus.Subscriptions.Pending

/-!
# What the worker does to nodes

Which calls a worker makes (`Worker.call`), against pools that others may change between its rounds. A clear hits a
foreign key unless the node runs the key of the entry when the plan is made (`clear_own_key_iff`). If nobody interferes,
a worker tries every pending change once and leaves the failed ones pending (`apply_converges`).
-/

namespace Nexus.Subscriptions

open Lib Lib.OrderedMap List

namespace Worker

/-! ## Calls -/

def callable (key : String) : Bool := ProductType.fromKey key = some .pve || ProductType.fromKey key = some .pbs

def call (w : Worker) (config : KeyConfig) : Option PendingEntry :=
  match w.dropping, w.pending with
  | none, entry :: _ =>
    if poolAssignmentStillValid config entry && opConsistent config entry && (w.remotes.get? entry.remote).isSome &&
      callable entry.key then some entry else none
  | _, _ => none

variable {w : Worker} {config : KeyConfig} {e : PendingEntry}

/-! ## A worker among others -/

inductive Event
  | next (config : KeyConfig) (answer : Except String Unit)
  | drop (config : KeyConfig) (saved : Except String Unit)

def step (w : Worker) : Event → Worker
  | .next config answer => w.next config answer
  | .drop config saved => (w.drop config saved).2

def called (w : Worker) : Event → Option PendingEntry
  | .next config _ => w.call config
  | .drop _ _ => none

def calls : Worker → List Event → List PendingEntry
  | _, [] => []
  | w, event :: events => (w.called event).toList ++ (w.step event).calls events

theorem execute_remotes (w : Worker) (entry : PendingEntry) (answer : Except String Unit) :
    (w.execute entry answer).remotes = w.remotes ∧ (w.execute entry answer).pending = w.pending := by
  unfold execute fail succeed
  repeat' split
  all_goals exact ⟨rfl, rfl⟩

theorem step_plan (w : Worker) (event : Event) :
    (w.step event).remotes = w.remotes ∧ (w.step event).pending ⊆ w.pending := by
  cases event with
  | next _ answer =>
    unfold step next
    simp only
    split
    · next entry pending _ hp =>
      have hsub : pending ⊆ w.pending := hp ▸ subset_cons_self entry pending
      split
      · obtain ⟨hr, he⟩ := execute_remotes { w with pending := pending } entry answer
        exact ⟨hr, he ▸ hsub⟩
      · exact ⟨rfl, hsub⟩
    · exact ⟨rfl, List.Subset.refl _⟩
  | drop _ saved =>
    unfold step drop fail succeed
    simp only
    split
    · exact ⟨rfl, List.Subset.refl _⟩
    · cases saved <;> exact ⟨rfl, List.Subset.refl _⟩

theorem call_spec (h : w.call config = some e) : e ∈ w.pending ∧ (w.remotes.get? e.remote).isSome ∧ callable e.key := by
  unfold call at h
  split at h
  · next entry pending _ hp =>
    split at h
    · next hcond =>
      obtain rfl := Option.some.inj h
      simp only [Bool.and_eq_true] at hcond
      exact ⟨hp ▸ mem_cons_self, hcond.1.2, hcond.2⟩
    · cases h
  · cases h

theorem calls_spec : ∀ {events : List Event} {w : Worker} {e : PendingEntry}, e ∈ w.calls events →
    e ∈ w.pending ∧ (w.remotes.get? e.remote).isSome ∧ callable e.key
  | [], _, _, h => absurd h not_mem_nil
  | event :: events, w, e, h => by
    rcases mem_append.mp h with h | h
    · have hc : w.called event = some e := by simpa using h
      cases event with
      | next => exact call_spec hc
      | drop => cases hc
    · obtain ⟨hr, hp⟩ := w.step_plan event
      obtain ⟨hmem, remote, hkey⟩ := calls_spec h
      exact ⟨hp hmem, hr ▸ remote, hkey⟩

def onlyBound (e : PendingEntry) : KeyConfig :=
  ⟨[(e.key, ⟨e.key, .pve, .unknown, .manual, some e.remote, some e.node, e.op = .clear⟩)], by simp⟩

theorem exists_calls : ∀ {w : Worker}, w.dropping = none → e ∈ w.pending →
    (w.remotes.get? e.remote).isSome → callable e.key → ∃ events, e ∈ w.calls events := by
  intro w hdrop hmem remote hkey
  obtain ⟨before, after, hp⟩ := append_of_mem hmem
  induction before generalizing w with
  | nil =>
    have hval : poolAssignmentStillValid (onlyBound e) e := by
      simp [poolAssignmentStillValid, onlyBound, OrderedMap.get?, SubscriptionKeyEntry.boundTo]
    have hop : opConsistent (onlyBound e) e := by
      cases ho : e.op <;> simp [opConsistent, onlyBound, OrderedMap.get?, ho]
    have hcall : w.call (onlyBound e) = some e := by
      simp [call, hdrop, hp, hval, hop, remote, hkey]
    exact ⟨[.next (onlyBound e) (.ok ())], by simp [calls, called, hcall]⟩
  | cons _ before ih =>
    have hskip : w.step (.next OrderedMap.empty (.ok ())) = { w with pending := before ++ e :: after } := by
      simp [step, next, hdrop, hp, poolAssignmentStillValid, OrderedMap.get?, OrderedMap.empty]
    obtain ⟨events, heven⟩ := ih (w := { w with pending := before ++ e :: after }) hdrop (by simp) remote rfl
    exact ⟨.next OrderedMap.empty (.ok ()) :: events, mem_append_right _ (hskip ▸ heven)⟩

/-- **A worker only deletes subscriptions with the key of the entry exactly if every node with a queued clear ran that
key when the plan was made.** -/
theorem clear_own_key_iff {world : World} {live : Live} {auth : Authid} {pool : KeyConfig} :
    (∀ events, ∀ e ∈ (plan world live auth pool).calls events, e.op = .clear →
        reportedKey (collectStatusUncached world.remotes.entries live) e.remote e.node = some (some e.key)) ↔
      ∀ p ∈ pool, ∀ remote node, p.2.binding = some (remote, node) → p.2.pendingClear →
        world.mayModify auth remote → (world.remotes.get? remote).isSome → callable p.2.key →
        nodeKey live remote node = some (some p.2.key) := by
  have reported : ∀ remote node, (world.remotes.get? remote).isSome →
      reportedKey (collectStatusUncached world.remotes.entries live) remote node = nodeKey live remote node := by
    intro remote node hrem
    obtain ⟨r, hr⟩ := Option.isSome_iff_exists.mp hrem
    have hmem : remote ∈ world.remotes.entries.map Prod.fst := mem_map_of_mem (get?_eq_some.mp hr)
    rw [(tells_collectStatusUncached live world.remotes.entries).reportedKey_eq, if_pos hmem]
  constructor
  · intro h p hp remote node hb clear may hrem hkey
    have hplan : (⟨p.2.key, remote, node, .clear⟩ : PendingEntry) ∈ (plan world live auth pool).pending :=
      mem_computePending.mpr ⟨p, hp, by rw [pendingFor_of_binding hb may, if_pos clear]⟩
    obtain ⟨events, hcall⟩ := exists_calls rfl hplan hrem hkey
    rw [← reported remote node hrem]
    exact h events _ hcall rfl
  · intro h events e he hop
    obtain ⟨hplan, hrem, hkey⟩ := calls_spec he
    obtain ⟨p, hp, hfor⟩ := mem_computePending.mp hplan
    obtain ⟨hk, hb, may, clear⟩ := pendingFor_spec hfor
    rw [reported e.remote e.node hrem, hk]
    exact h p hp e.remote e.node hb (clear.mp hop) may hrem (hk ▸ hkey)

open Sample

/-- The node runs another key, and the worker deletes it. -/
theorem clear_deletes_foreign_key : (plan world (live (some "pve4b-abcdef0123")) "root@pam"
      (pool true)).calls [.next (pool true) (.ok ())] = [⟨key, "pve-a", "n", .clear⟩] ∧
    reportedKey (collectStatusUncached world.remotes.entries (live (some "pve4b-abcdef0123")))
      "pve-a" "n" = some (some "pve4b-abcdef0123") ∧ key ≠ "pve4b-abcdef0123" := by
  decide

/-! ## A worker alone -/

abbrev NodeKeys := String → String → Option String

structure CallOutcome where
  (answer saved : Except String Unit)

structure Site where
  pool : KeyConfig
  keys : NodeKeys
  attempted : List PendingEntry

def NodeKeys.after (keys : NodeKeys) (e : PendingEntry) : NodeKeys := fun remote node =>
  if remote = e.remote ∧ node = e.node then
    match e.op with
    | .push => some e.key
    | .clear => none
  else keys remote node

variable (outcome : PendingEntry → CallOutcome)

def round (s : Worker × Site) : Worker × Site :=
  match s.1.pending with
  | [] => s
  | e :: _ =>
    let called := s.1.call s.2.pool = some e && (outcome e).answer.isOk
    let tried := poolAssignmentStillValid s.2.pool e && opConsistent s.2.pool e
    let (pool, w) := (s.1.next s.2.pool (outcome e).answer).drop s.2.pool (outcome e).saved
    (w, ⟨pool, if called then s.2.keys.after e else s.2.keys, if tried then s.2.attempted ++ [e] else s.2.attempted⟩)

def rounds (outcome : PendingEntry → CallOutcome) : Nat → Worker × Site → Worker × Site
  | 0, s => s
  | n + 1, s => rounds outcome n (round outcome s)

def runApplyPending (world : World) (live : Live) (auth : Authid) (pool : KeyConfig) (keys : NodeKeys)
    (outcome : PendingEntry → CallOutcome) : Worker × Site :=
  let w := plan world live auth pool
  rounds outcome w.pending.length (w, ⟨pool, keys, []⟩)

def callSucceeds (e : PendingEntry) : Bool :=
  callable e.key && (outcome e).answer.isOk

def fails (e : PendingEntry) : Bool :=
  !(callSucceeds outcome e && (e.op = .push || (outcome e).saved.isOk))

def settle (e : PendingEntry) (pool : KeyConfig) : KeyConfig :=
  if e.op = .clear && !fails outcome e then dropBinding e pool else pool

structure Ready (remotes : RemotesConfig) (pool : KeyConfig) (es : List PendingEntry) : Prop where
  nodup : (es.map PendingEntry.key).Nodup
  valid : ∀ e ∈ es, poolAssignmentStillValid pool e ∧ opConsistent pool e
  known : ∀ e ∈ es, (remotes.get? e.remote).isSome

variable {es : List PendingEntry} {pool : KeyConfig}

theorem execute_drop (outcome) (pool) (hdrop : w.dropping = none) (hknown : (w.remotes.get? e.remote).isSome) :
    ((w.execute e (outcome e).answer).drop pool (outcome e).saved).1 = settle outcome e pool ∧
      ((w.execute e (outcome e).answer).drop pool (outcome e).saved).2.pending = w.pending ∧
      ((w.execute e (outcome e).answer).drop pool (outcome e).saved).2.dropping = none ∧
      ((w.execute e (outcome e).answer).drop pool (outcome e).saved).2.remotes = w.remotes := by
  obtain ⟨r, hr⟩ := Option.isSome_iff_exists.mp hknown
  unfold execute
  cases hop : e.op with
  | push =>
    have hsettle : settle outcome e pool = pool := by simp [settle, hop]
    simp only [hr, hsettle]
    cases pushKeyToRemote (outcome e).answer e.key <;> simp [drop, fail, succeed, hdrop]
  | clear =>
    simp only
    cases hp : ProductType.fromKey e.key with
    | none =>
      have hsettle : settle outcome e pool = pool := by simp [settle, fails, callSucceeds, callable, hp]
      simp [drop, fail, hdrop, hsettle]
    | some productType =>
      have hok : (deleteSubscriptionOnRemote (outcome e).answer productType).isOk = callSucceeds outcome e := by
        cases productType <;> simp [deleteSubscriptionOnRemote, callSucceeds, callable, hp, Except.isOk, Except.toBool]
      simp only [hr]
      cases hd : deleteSubscriptionOnRemote (outcome e).answer productType with
      | error =>
        have hfail : callSucceeds outcome e = false := by rw [← hok, hd]; rfl
        have hsettle : settle outcome e pool = pool := by simp [settle, fails, hfail]
        simp [drop, fail, hdrop, hsettle]
      | ok =>
        have hcall : callSucceeds outcome e := by rw [← hok, hd]; rfl
        cases hs : (outcome e).saved with
        | error =>
          have hsettle : settle outcome e pool = pool := by
            simp [settle, fails, hcall, hop, hs, Except.isOk, Except.toBool]
          simp [drop, fail, hsettle]
        | ok =>
          have hsettle : settle outcome e pool = dropBinding e pool := by
            simp [settle, fails, hcall, hop, hs, Except.isOk, Except.toBool]
          simp [drop, succeed, hsettle]

variable {outcome}

theorem round_ready {site} (hdrop : w.dropping = none)
    (hp : w.pending = e :: es) (h : Ready w.remotes site.pool (e :: es)) :
    ∃ w', round outcome (w, site) = (w', ⟨settle outcome e site.pool,
        if callSucceeds outcome e then site.keys.after e else site.keys, site.attempted ++ [e]⟩) ∧
      w'.pending = es ∧ w'.dropping = none ∧ w'.remotes = w.remotes := by
  obtain ⟨hval, hop⟩ := h.valid e mem_cons_self
  have hknown := h.known e mem_cons_self
  have hcall : decide (w.call site.pool = some e) = callable e.key := by
    cases hk : callable e.key <;> simp [call, hdrop, hp, hval, hop, hknown, hk]
  have hnext : w.next site.pool (outcome e).answer = { w with pending := es }.execute e (outcome e).answer := by
    simp [next, hdrop, hp, hval, hop]
  obtain ⟨hpool, hpend, hdropp, remotes⟩ :=
    execute_drop outcome (w := { w with pending := es }) site.pool hdrop hknown
  refine ⟨_, ?_, hpend, hdropp, remotes⟩
  simp [round, hp, hnext, hcall, hval, hop, hpool, callSucceeds]

theorem get?_dropBinding {key} (h : key ≠ e.key) : (dropBinding e pool).get? key = pool.get? key := by
  unfold dropBinding
  split
  · rfl
  · split
    · rw [get?_insert, if_neg h]
    · rfl

theorem Ready.settle {remotes} (h : Ready remotes pool (e :: es)) : Ready remotes (settle outcome e pool) es := by
  obtain ⟨hne, hnd⟩ := nodup_cons.mp h.nodup
  refine ⟨hnd, fun e' he' => ?_, fun e' he' => h.known e' (mem_cons_of_mem e he')⟩
  have hkey : e'.key ≠ e.key := fun hk => hne (hk ▸ mem_map_of_mem he')
  have hget : (Worker.settle outcome e pool).get? e'.key = pool.get? e'.key := by
    unfold Worker.settle
    split
    · exact get?_dropBinding hkey
    · rfl
  have hval := h.valid e' (mem_cons_of_mem e he')
  simpa only [poolAssignmentStillValid, opConsistent, hget] using hval

theorem rounds_ready : ∀ {es} {w} (site : Site), w.dropping = none → w.pending = es →
    Ready w.remotes site.pool es → ∃ w', w'.pending = [] ∧ w'.dropping = none ∧
      rounds outcome es.length (w, site) = (w', ⟨es.foldl (fun pool e => settle outcome e pool) site.pool,
        es.foldl (fun keys e => if callSucceeds outcome e then NodeKeys.after keys e else keys) site.keys,
        site.attempted ++ es⟩)
  | [], w, site, hdrop, hp, _ => ⟨w, hp, hdrop, by simp [rounds]⟩
  | e :: es, w, site, hdrop, hp, h => by
    obtain ⟨w', hround, pending, hdropp, remotes⟩ := round_ready hdrop hp h
    have hrest : Ready w'.remotes (settle outcome e site.pool) es := remotes ▸ h.settle
    obtain ⟨w'', hnil, hdone, round⟩ := rounds_ready ⟨settle outcome e site.pool,
      if callSucceeds outcome e then site.keys.after e else site.keys, site.attempted ++ [e]⟩ hdropp pending hrest
    refine ⟨w'', hnil, hdone, ?_⟩
    rw [length_cons, rounds, hround, round]
    simp

/-- The nodes to which keys are bound report what they run. -/
def Lists (world : World) (pool : KeyConfig) (live : Live) (keys : NodeKeys) : Prop :=
  ∀ p ∈ pool, ∀ remote node, p.2.binding = some (remote, node) →
    (world.remotes.get? remote).isSome ∧ nodeKey live remote node = some (keys remote node)

variable {world : World} {live : Live} {auth : Authid} {pool : KeyConfig} {keys : NodeKeys}
  {statuses : List RemoteNodeStatus}

theorem ready_computePending (hok : PoolOk pool) (hlist : Lists world pool live keys) :
    Ready world.remotes pool (computePending world auth statuses pool) := by
  have found : ∀ e ∈ computePending world auth statuses pool, ∃ p ∈ pool, pool.get? e.key = some p.2 ∧
      p.2.binding = some (e.remote, e.node) ∧ (e.op = .clear ↔ p.2.pendingClear) := by
    intro e he
    obtain ⟨p, hp, hfor⟩ := mem_computePending.mp he
    obtain ⟨hkey, hb, -, clear⟩ := pendingFor_spec hfor
    exact ⟨p, hp, get?_eq_some.mpr (by rw [hkey, hok.stored p hp]; exact hp), hb, clear⟩
  refine ⟨?_, fun e he => ?_, fun e he => ?_⟩
  · rw [List.Nodup, pairwise_map, computePending, pairwise_filterMap]
    refine (pairwise_map.mp pool.keys_nodup).imp_of_mem fun {p q} hp hq hne e he e' he' hkey => hne ?_
    rw [← hok.stored p hp, ← hok.stored q hq, ← (pendingFor_spec he).1, ← (pendingFor_spec he').1, hkey]
  · obtain ⟨p, -, hget, hb, clear⟩ := found e he
    have hto := boundTo_iff.mpr hb
    cases hop : e.op <;> simp_all [poolAssignmentStillValid, opConsistent]
  · obtain ⟨p, hp, -, hb, -⟩ := found e he
    exact (hlist p hp e.remote e.node hb).1

def settled (outcome : PendingEntry → CallOutcome) (e : PendingEntry) (stored : SubscriptionKeyEntry) :
    SubscriptionKeyEntry :=
  if e.op = .clear && !fails outcome e && stored.boundTo e.remote e.node then stored.unbind else stored

theorem binding_of_settled {stored b}
    (h : (settled outcome e stored).binding = some b) : stored.binding = some b := by
  unfold settled at h
  split at h
  · cases h
  · exact h

theorem settle_eq (e) (config) : settle outcome e config =
      config.mapValues fun k stored => if k = e.key then settled outcome e stored else stored := by
  rw [mapValues_at]
  unfold settle dropBinding settled
  cases h : config.get? e.key with
  | none => simp
  | some stored =>
    cases e.op = .clear && !fails outcome e with
    | false => simp [insert_self h]
    | true =>
      cases hto : stored.boundTo e.remote e.node <;> simp [hto, insert_self h]

theorem foldl_settle (hok : PoolOk pool) :
    (computePending world auth statuses pool).foldl (fun config e => settle outcome e config) pool =
      pool.mapValues fun _ entry =>
        (pendingFor world auth statuses entry).elim entry fun e => settled outcome e entry := by
  simp only [settle_eq]
  rw [foldl_mapValues]
  exact mapValues_congr fun p hp => foldl_computePending hok (settled outcome) hp p.2

def callLeaves (outcome : PendingEntry → CallOutcome) (e : PendingEntry) (key : Option String) : Option String :=
  if callSucceeds outcome e then
    match e.op with
    | .push => some e.key
    | .clear => none
  else key

variable {p : String × SubscriptionKeyEntry} {remote node : String}

theorem foldl_after (hok : PoolOk pool) (hp : p ∈ pool) (hb : p.2.binding = some (remote, node)) :
    (computePending world auth statuses pool).foldl
        (fun keys e => if callSucceeds outcome e then NodeKeys.after keys e else keys) keys remote node =
      (pendingFor world auth statuses p.2).elim (keys remote node) fun e =>
        callLeaves outcome e (keys remote node) := by
  rw [← foldl_computePending hok (callLeaves outcome) hp]
  have hat : ∀ ks, ∀ e ∈ computePending world auth statuses pool,
      (if p.1 = e.key then callLeaves outcome e (ks remote node) else ks remote node) =
        (if callSucceeds outcome e then NodeKeys.after ks e else ks) remote node := by
    intro ks e he
    obtain ⟨q, hq, hfor⟩ := mem_computePending.mp he
    obtain ⟨hkey, hbq, -, -⟩ := pendingFor_spec hfor
    -- an entry with the same node has the same key, and the other way round
    have hnode : p.1 = e.key ↔ remote = e.remote ∧ node = e.node := by
      rw [hkey, hok.stored q hq]
      constructor
      · intro hpq
        have hsame : p.2 = q.2 := value_unique hp (show (p.1, q.2) ∈ pool from hpq ▸ hq)
        have hbb := hb.symm.trans ((congrArg _ hsame).trans hbq)
        exact Prod.mk.inj (Option.some.inj hbb)
      · rintro ⟨rfl, rfl⟩
        exact hok.distinct p hp q hq _ hb hbq
    by_cases hk : p.1 = e.key
    · rw [if_pos hk]
      unfold callLeaves
      split <;> simp [NodeKeys.after, hnode.mp hk]
    · rw [if_neg hk]
      split
      · simp [NodeKeys.after, hnode.not.mp hk]
      · rfl
  generalize computePending world auth statuses pool = es at hat
  induction es generalizing keys with
  | nil => rfl
  | cons e _ ih =>
    rw [foldl_cons, foldl_cons, hat keys e mem_cons_self]
    exact ih fun ks e' he' => hat ks e' (mem_cons_of_mem e he')

theorem pendingFor_settled {statuses' : List RemoteNodeStatus} {entry : SubscriptionKeyEntry} {before : NodeKeys}
    (hbef : ∀ remote node, entry.binding = some (remote, node) →
      reportedKey statuses remote node = some (before remote node)) (after : ∀ remote node,
      ((pendingFor world auth statuses entry).elim entry fun e => settled outcome e entry).binding =
        some (remote, node) →
      reportedKey statuses' remote node = some ((pendingFor world auth statuses entry).elim (before remote node)
        fun e => callLeaves outcome e (before remote node))) :
    pendingFor world auth statuses' ((pendingFor world auth statuses entry).elim entry fun e =>
      settled outcome e entry) =
      (pendingFor world auth statuses entry).filter (fails outcome) := by
  cases hb : entry.binding with
  | none => simp [pendingFor_of_unbound hb]
  | some b =>
    obtain ⟨remote, node⟩ := b
    have hto := boundTo_iff.mpr hb
    cases may : world.mayModify auth remote with
    | false => simp [pendingFor_of_not_mayModify hb may]
    | true =>
      have hfor : ∀ st, pendingFor world auth st entry = _ := fun st => pendingFor_of_binding hb may
      have hrep := hbef remote node hb
      cases clear : entry.pendingClear with
      | true =>
        rw [hfor statuses, if_pos clear]
        cases hfail : fails outcome ⟨entry.key, remote, node, .clear⟩ with
        | true => simp [settled, hfail, hfor, clear, Option.filter]
        | false =>
          have hunb : (settled outcome ⟨entry.key, remote, node, .clear⟩ entry).binding = none := by
            simp [settled, hfail, hto, SubscriptionKeyEntry.unbind, SubscriptionKeyEntry.binding]
          simp [pendingFor_of_unbound hunb, hfail, Option.filter]
      | false =>
        rw [hfor statuses] at after ⊢
        simp only [clear, Bool.false_eq_true, if_false] at after ⊢
        cases pending : isPending statuses entry.key remote node with
        | false =>
          -- the node runs the key, and nothing is done
          simp only [pending, Bool.false_eq_true, if_false, Option.elim_none] at after ⊢
          have hrep' := after remote node hb
          have hsame : isPending statuses' entry.key remote node = false := by
            rw [← pending, Bool.eq_iff_iff, isPending_iff, isPending_iff, hrep, hrep']
          simp [hfor, clear, hsame]
        | true =>
          have hstays : settled outcome ⟨entry.key, remote, node, .push⟩ entry = entry := by simp [settled]
          simp only [pending, if_true, Option.elim_some, hstays] at after ⊢
          have hrep' := after remote node hb
          cases hcall : callSucceeds outcome ⟨entry.key, remote, node, .push⟩ with
          | true =>
            have hdone : isPending statuses' entry.key remote node = false := by
              rw [← Bool.not_eq_true, isPending_iff, hrep']
              simp [callLeaves, hcall]
            simp [hfor, clear, hdone, fails, hcall, Option.filter]
          | false =>
            have hsame : isPending statuses' entry.key remote node := by
              rw [← pending, Bool.eq_iff_iff, isPending_iff, isPending_iff, hrep, hrep']
              simp [callLeaves, hcall]
            simp [hfor, clear, hsame, fails, hcall, Option.filter]

theorem Lists.reportedKey_eq (h : Lists world pool live keys) (hp : p ∈ pool) (hb : p.2.binding = some (remote, node)) :
    reportedKey (collectStatusUncached world.remotes.entries live) remote node = some (keys remote node) := by
  obtain ⟨hrem, hkey⟩ := h p hp remote node hb
  obtain ⟨r, hr⟩ := Option.isSome_iff_exists.mp hrem
  have hmem : remote ∈ world.remotes.entries.map Prod.fst := mem_map_of_mem (get?_eq_some.mp hr)
  rw [(tells_collectStatusUncached live world.remotes.entries).reportedKey_eq, if_pos hmem, hkey]

theorem plan_pending : (plan world live auth pool).pending =
    computePending world auth (collectStatusUncached world.remotes.entries live) pool := rfl

theorem runApplyPending_eq (outcome) (hok : PoolOk pool)
    (hlist : Lists world pool live keys) : ∃ w, w.pending = [] ∧ runApplyPending world live auth pool keys outcome = (w,
      ⟨pool.mapValues fun _ entry =>
        (pendingFor world auth (collectStatusUncached world.remotes.entries live) entry).elim
          entry fun e => settled outcome e entry, (plan world live auth pool).pending.foldl
          (fun keys e => if callSucceeds outcome e then NodeKeys.after keys e else keys) keys,
        (plan world live auth pool).pending⟩) := by
  obtain ⟨w, hnil, -, hrun⟩ : ∃ w', w'.pending = [] ∧ w'.dropping = none ∧
      runApplyPending world live auth pool keys outcome = (w', _) :=
    rounds_ready ⟨pool, keys, []⟩ rfl plan_pending (ready_computePending hok hlist)
  refine ⟨w, hnil, ?_⟩
  rw [hrun, plan_pending, ← foldl_settle hok]
  rfl

/-- **A worker that is left alone tries every pending change once, and those that failed are pending afterwards.** -/
theorem apply_converges {outcome : PendingEntry → CallOutcome} (hok : PoolOk pool)
    (hlist : Lists world pool live keys) :
    (runApplyPending world live auth pool keys outcome).1.pending = [] ∧
      (runApplyPending world live auth pool keys outcome).2.attempted =
        computePending world auth (collectStatusUncached world.remotes.entries live) pool ∧
      ∀ live', Lists world (runApplyPending world live auth pool keys outcome).2.pool live'
          (runApplyPending world live auth pool keys outcome).2.keys →
        computePending world auth (collectStatusUncached world.remotes.entries live')
            (runApplyPending world live auth pool keys outcome).2.pool =
          (computePending world auth (collectStatusUncached world.remotes.entries live) pool).filter
            (fails outcome) := by
  obtain ⟨w, hnil, hrun⟩ := runApplyPending_eq outcome hok hlist
  rw [hrun]
  refine ⟨hnil, plan_pending, fun live' hlist' => ?_⟩
  simp only at hlist' ⊢
  rw [computePending, computePending, OrderedMap.mapValues, filterMap_map, filter_filterMap]
  refine filterMap_congr fun p hp => ?_
  refine pendingFor_settled (fun remote node hb => hlist.reportedKey_eq hp hb) fun remote node hb => ?_
  have hb' : p.2.binding = some (remote, node) := by
    cases hfor : pendingFor world auth (collectStatusUncached world.remotes.entries live) p.2 with
    | none => simpa [hfor] using hb
    | some e => exact binding_of_settled (by simpa [hfor] using hb)
  rw [hlist'.reportedKey_eq (mem_mapValues_of_mem hp) hb, plan_pending, foldl_after hok hp hb']

def other : String := "pve4b-abcdef0123"

def bound : KeyConfig :=
  ⟨[(key, ⟨key, .pve, .basic, .manual, some "pve-a", some "n", false⟩),
    (other, ⟨other, .pve, .basic, .manual, some "pve-a", some "m", true⟩)], by decide⟩

def twoNodes (running : Option String) : Live := fun _ =>
  .ok ⟨[("n", some ⟨.active, none, none, .basic⟩), ("m", some ⟨.active, none, running, .basic⟩)], by simp⟩

def pushFails : Worker × Site :=
  runApplyPending Sample.world (twoNodes (some other)) "root@pam" bound
    (fun _ node => if node = "m" then some other else none)
    fun e => ⟨if e.op = .push then .error "offline" else .ok (), .ok ()⟩

theorem apply_converges_push_fails :
    pushFails.2.attempted = [⟨key, "pve-a", "n", .push⟩, ⟨other, "pve-a", "m", .clear⟩] ∧
    computePending Sample.world "root@pam" (collectStatusUncached Sample.world.remotes.entries (twoNodes none))
      pushFails.2.pool = [⟨key, "pve-a", "n", .push⟩] := by
  have hok : PoolOk bound := by
    constructor
    · simp [bound, mem_def]
    · simp [bound, mem_def]
    · simp [bound, mem_def]
    · simp [bound, mem_def, SubscriptionKeyEntry.binding]
  have lists : ∀ {pool : KeyConfig} {live : Live} {keys : NodeKeys}, (∀ p ∈ pool.entries, ∀ b ∈ p.2.binding,
      (Sample.world.remotes.get? b.1).isSome ∧ nodeKey live b.1 b.2 = some (keys b.1 b.2)) →
      Lists Sample.world pool live keys := fun h p hp remote node hb => h p hp (remote, node) hb
  obtain ⟨-, tried, hleft⟩ : _ ∧ pushFails.2.attempted = _ ∧ _ := apply_converges hok (lists (by decide))
  refine ⟨tried.trans (by decide), (hleft (twoNodes none) (lists ?_)).trans (by decide)⟩
  decide

end Worker

end Nexus.Subscriptions
