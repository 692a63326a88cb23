import Nexus.RemoteUpdates

/-!
# Refreshes and lists of updates at the same time

Any number of `refresh_update_summary_cache` and `list_available_updates` of `server/src/remote_updates.rs`, with every
fetch, every write of one node and every final pass as a step. A write does not look at what it replaces. So the cache
keeps the summary that was sampled last if no node is asked again before its last answer has been written for good
(`summaries_in_order`); else a final pass may put back an older one (`final_pass_goes_back`).
-/

namespace Nexus.RemoteUpdates

open Lib (OrderedMap)
open Lib.OrderedMap List

/-! ## The steps -/

/-- What a fetch has found. The samples are numbered. -/
structure Sample where
  number : Nat
  remote : Remote
  node : String
  info : NodeUpdateInfo

def Sample.About (x : Sample) (id node : String) : Prop := x.remote.id = id ∧ x.node = node

/-- A refresh with what its fetches will find, and the answers so far. -/
structure Refresh where
  remotes : List Remote
  fetch : Fetch
  answers : List Sample

/-- `todo` are the writes of single nodes that are still to be made, `written` is everything that has been written. -/
structure State where
  now : Int
  content : UpdateSummary
  refreshes : List Refresh
  todo : List Sample
  next : Nat
  written : List Sample

inductive Act
  | tick (seconds : Nat)
  | refresh (remotes : List Remote) (fetch : Fetch)
  /-- A refresh does not end where the fetch fails. -/
  | answer (k : Nat) (remote : Remote) (node : String)
  /-- The fetch of `list_available_updates`, which spawns a write. -/
  | list (remote : Remote) (node : String) (info : NodeUpdateInfo)
  | write (k : Nat) (access : Access)
  | finalPass (k : Nat) (access : Access)

def State.sample (s : State) (remote : Remote) (node : String) (info : NodeUpdateInfo) : State :=
  { s with todo := s.todo ++ [⟨s.next, remote, node, info⟩], next := s.next + 1 }

def State.store (s : State) (access : Access) (f : UpdateSummary → UpdateSummary) (samples : List Sample) : State :=
  { s with content := access.change f s.content, written := s.written ++ if access = .failed then [] else samples }

def Refresh.complete (r : Refresh) (todo : List Sample) : Bool :=
  (r.fetch.asked r.remotes).all (fun a => r.answers.any fun x => x.remote = a.1 ∧ x.node = a.2) &&
    r.answers.all fun x => todo.all (·.number ≠ x.number)

def step (s : State) : Act → State
  | .tick seconds => { s with now := s.now + seconds }
  | .refresh remotes fetch => { s with refreshes := s.refreshes ++ [⟨remotes, fetch, []⟩] }
  | .answer k remote node => match s.refreshes[k]? with
    | none => s
    | some r => match r.fetch.fetchAvailableUpdates remote node with
      | .error _ => s
      | .ok info =>
        if info.lastRefresh = s.now then
          { s.sample remote node info with
            refreshes := s.refreshes.set k { r with answers := r.answers ++ [⟨s.next, remote, node, info⟩] } }
        else s
  | .list remote node info => s.sample remote node { info with lastRefresh := s.now }
  | .write k access => match s.todo[k]? with
    | none => s
    | some x =>
      { s.store access (updateCachedSummaryForNode x.remote x.node x.info.toSummary) [x] with
        todo := s.todo.eraseIdx k }
  | .finalPass k access => match s.refreshes[k]? with
    | none => s
    | some r =>
      if r.complete s.todo then
        { s.store access (RemoteUpdates.finalPass (r.fetch.responses r.remotes)) r.answers with
          refreshes := s.refreshes.eraseIdx k }
      else s

def run (s : State) (acts : List Act) : State := acts.foldl step s

def cached (content : UpdateSummary) (id node : String) : Option NodeUpdateSummary :=
  (content.get? id).bind fun entry => entry.nodes.get? node

/-- The samples that are still to be written, by themselves or in a final pass. -/
def State.pending (s : State) : List Sample := s.todo ++ s.refreshes.flatMap (·.answers)

/-- No node is asked while an earlier answer of it is to be written. -/
def Alone (s : State) : Act → Prop
  | .answer _ remote node | .list remote node _ => ∀ x ∈ s.pending, ¬ x.About remote.id node
  | _ => True

def AloneRun : State → List Act → Prop
  | _, [] => True
  | s, a :: acts => Alone s a ∧ AloneRun (step s a) acts

/-- What is cached for a node was sampled last of all that has been written for it. -/
def Latest (s : State) : Prop :=
  ∀ id node summary, cached s.content id node = some summary → ∃ x ∈ s.written, x.About id node ∧
    x.info.toSummary = summary ∧ ∀ y ∈ s.written, y.About id node → y.number ≤ x.number

/-! ## What is cached after a write -/

theorem cached_updateCachedSummaryForNode (remote) (node) (data)
    (content) (id) (n) : cached (updateCachedSummaryForNode remote node data content) id n =
      if id = remote.id ∧ n = node then some data else cached content id n := by
  unfold cached updateCachedSummaryForNode
  rw [get?_insert]
  by_cases hid : id = remote.id
  · subst hid
    simp only [if_true, Option.bind_some, get?_insert, true_and, entryOr]
    cases content.get? remote.id <;> rfl
  · simp [hid]

theorem of_cached_finalPass {responses content id node summary}
    (h : cached (finalPass responses content) id node = some summary) :
    ∃ r ∈ responses, r.remote = id ∧ ∃ nodes, r.nodes = .ok nodes ∧
      ∃ n ∈ nodes, n.nodeName = node ∧ summary = nodeSummary n.data := by
  obtain ⟨entry, hent, hnode⟩ := Option.bind_eq_some_iff.mp h
  rcases of_get?_foldl_insert responses _ hent with ⟨r, hr, hid, content', rfl⟩ | ⟨hkept, hne⟩
  · refine ⟨r, hr, hid, ?_⟩
    unfold refreshEntry at hnode
    cases hnodes : r.nodes with
    | error =>
      rw [hnodes] at hnode
      cases hnode
    | ok nodes =>
      rw [hnodes] at hnode
      rcases of_get?_foldl_insert nodes _ hnode with ⟨n, hn, hname, -, rfl⟩ | ⟨hkept, hne⟩
      · exact ⟨nodes, rfl, n, hn, hname, rfl⟩
      · obtain ⟨-, hasked⟩ := mem_retain.mp (get?_eq_some.mp hkept)
        obtain ⟨n, hn, hname⟩ := any_eq_true.mp hasked
        exact absurd (of_decide_eq_true hname) (hne n hn)
  · obtain ⟨-, hasked⟩ := mem_retain.mp (get?_eq_some.mp hkept)
    obtain ⟨r, hr, hid⟩ := any_eq_true.mp hasked
    exact absurd (of_decide_eq_true hid) (hne r hr)

/-! ## The invariant -/

variable {s t : State} {samples : List Sample}

structure InOrder (s : State) : Prop where
  known : ∀ x ∈ s.pending ++ s.written, x.number < s.next ∧ x.info.lastRefresh ≤ s.now
  sorted : ∀ x ∈ s.pending ++ s.written, ∀ y ∈ s.pending ++ s.written, x.number ≤ y.number →
    x.info.lastRefresh ≤ y.info.lastRefresh
  answers : ∀ r ∈ s.refreshes, ∀ x ∈ r.answers, r.fetch.fetchAvailableUpdates x.remote x.node = .ok x.info
  last : ∀ x ∈ s.pending, ∀ y ∈ s.pending ++ s.written, y.About x.remote.id x.node → y.number ≤ x.number
  latest : Latest s

/-- Only samples that were pending are pending or have been written since. -/
theorem InOrder.mono (h : InOrder s) (hnow : s.now ≤ t.now) (hnext : t.next = s.next)
    (pending : ∀ x ∈ t.pending, x ∈ s.pending) (written : ∀ x ∈ t.written, x ∈ s.pending ++ s.written)
    (answers : ∀ r ∈ t.refreshes, ∀ x ∈ r.answers, r.fetch.fetchAvailableUpdates x.remote x.node = .ok x.info)
    (latest : Latest t) : InOrder t := by
  have before : ∀ x ∈ t.pending ++ t.written, x ∈ s.pending ++ s.written := by
    intro x hx
    rcases mem_append.mp hx with hx | hx
    · exact mem_append_left _ (pending x hx)
    · exact written x hx
  refine ⟨fun x hx => ?_, fun x hx y hy => h.sorted x (before x hx) y (before y hy), answers,
    fun x hx y hy => h.last x (pending x hx) y (before y hy), latest⟩
  obtain ⟨hnumb, samples⟩ := h.known x (before x hx)
  exact ⟨hnext ▸ hnumb, Int.le_trans samples hnow⟩

theorem InOrder.sample (h : InOrder s) {remote node info}
    (hnow : info.lastRefresh = s.now) (halone : ∀ x ∈ s.pending, ¬ x.About remote.id node) :
    InOrder (s.sample remote node info) := by
  have before : ∀ {x}, x ∈ (s.sample remote node info).pending →
      x ∈ s.pending ∨ x = ⟨s.next, remote, node, info⟩ := by
    intro x hx
    simp only [State.pending, State.sample, mem_append, mem_singleton] at hx ⊢
    tauto
  have hknown : ∀ {x}, x ∈ (s.sample remote node info).pending ++ s.written →
      x ∈ s.pending ++ s.written ∨ x = ⟨s.next, remote, node, info⟩ := by
    intro x hx
    rcases mem_append.mp hx with hx | hx
    · exact (before hx).imp_left (mem_append_left _)
    · exact .inl (mem_append_right _ hx)
  refine ⟨fun x hx => ?_, fun x hx y hy hxy => ?_, h.answers, fun x hx y hy habout => ?_, h.latest⟩
  · rcases hknown hx with hx | rfl
    · exact (h.known x hx).imp_left Nat.lt_succ_of_lt
    · exact ⟨Nat.lt_succ_self _, Int.le_of_eq hnow⟩
  · rcases hknown hx with hx | rfl
    · rcases hknown hy with hy | rfl
      · exact h.sorted x hx y hy hxy
      · exact hnow ▸ (h.known x hx).2
    · rcases hknown hy with hy | rfl
      · exact absurd (h.known y hy).1 (Nat.not_lt.mpr hxy)
      · exact Int.le_refl _
  · rcases hknown hy with hy | rfl
    · rcases before hx with hx | rfl
      · exact h.last x hx y hy habout
      · exact Nat.le_of_lt (h.known y hy).1
    · rcases before hx with hx | rfl
      · exact absurd ⟨habout.1.symm, habout.2.symm⟩ (halone x hx)
      · exact Nat.le_refl _

/-- What is cached after a write comes from it, or was there before and is of a node that is not written. -/
theorem InOrder.latest_store (h : InOrder s) (access) {f}
    (hsamp : ∀ x ∈ samples, x ∈ s.pending) (hf : ∀ content id node summary, cached (f content) id node = some summary →
      (∃ x ∈ samples, x.About id node ∧ x.info.toSummary = summary) ∨
        cached content id node = some summary ∧ ∀ x ∈ samples, ¬ x.About id node) :
    Latest (s.store access f samples) := by
  intro id node summary hc
  have hnew : ∀ content, cached (f content) id node = some summary →
      (∀ summary, cached content id node = some summary → cached s.content id node = some summary) →
      ∃ x ∈ s.written ++ samples, x.About id node ∧ x.info.toSummary = summary ∧
        ∀ y ∈ s.written ++ samples, y.About id node → y.number ≤ x.number := by
    intro content hcached before
    rcases hf content id node summary hcached with ⟨x, hx, ⟨rfl, rfl⟩, hsummary⟩ | ⟨hkept, hnot⟩
    · refine ⟨x, mem_append_right _ hx, ⟨rfl, rfl⟩, hsummary, fun y hy hay => ?_⟩
      refine h.last x (hsamp x hx) y ?_ hay
      rcases mem_append.mp hy with hy | hy
      · exact mem_append_right _ hy
      · exact mem_append_left _ (hsamp y hy)
    · obtain ⟨x, hx, hax, hsummary, hmax⟩ := h.latest id node summary (before summary hkept)
      refine ⟨x, mem_append_left _ hx, hax, hsummary, fun y hy hay => ?_⟩
      rcases mem_append.mp hy with hy | hy
      · exact hmax y hy hay
      · exact absurd hay (hnot y hy)
  cases access with
  | failed => simpa [State.store] using h.latest id node summary hc
  | written => exact hnew s.content hc fun _ h => h
  | unreadable => exact hnew .empty hc fun _ h => by cases h

theorem mem_written_store {access : Access} (hsamp : ∀ x ∈ samples, x ∈ s.pending) :
    ∀ x ∈ s.written ++ (if access = .failed then [] else samples), x ∈ s.pending ++ s.written := by
  intro x hx
  rcases mem_append.mp hx with hx | hx
  · exact mem_append_right _ hx
  · split at hx
    · cases hx
    · exact mem_append_left _ (hsamp x hx)

theorem of_cached_responses {r : Refresh} {todo : List Sample} (hcomp : r.complete todo)
    (answers : ∀ x ∈ r.answers, r.fetch.fetchAvailableUpdates x.remote x.node = .ok x.info) {content : UpdateSummary}
    {id node : String} {summary : NodeUpdateSummary}
    (h : cached (finalPass (r.fetch.responses r.remotes) content) id node = some summary) :
    ∃ x ∈ r.answers, x.About id node ∧ x.info.toSummary = summary := by
  obtain ⟨response, hresp, rfl, nodes, hnodes, n, hn, rfl, rfl⟩ := of_cached_finalPass h
  obtain ⟨remote, hrem, rfl⟩ := mem_map.mp (mem_mergeSort.mp hresp)
  obtain ⟨names, hnames, rfl⟩ : ∃ names, r.fetch.nodes remote = .ok names ∧
      names.map (fun node => ⟨node, r.fetch.fetchAvailableUpdates remote node⟩) = nodes := by
    cases hnames : r.fetch.nodes remote with
    | error => simp [Fetch.remoteResponse, hnames, Except.map] at hnodes
    | ok names => exact ⟨names, rfl, by simpa [Fetch.remoteResponse, hnames, Except.map] using hnodes⟩
  obtain ⟨name, hname, rfl⟩ := mem_map.mp hn
  have hasked : (remote, name) ∈ r.fetch.asked r.remotes := by
    refine mem_flatMap.mpr ⟨remote, hrem, ?_⟩
    rw [hnames]
    exact mem_map_of_mem hname
  obtain ⟨x, hx, found⟩ := any_eq_true.mp (all_eq_true.mp (Bool.and_eq_true_iff.mp hcomp).1 _ hasked)
  obtain ⟨rfl, rfl⟩ := of_decide_eq_true found
  exact ⟨x, hx, ⟨rfl, rfl⟩, by rw [answers x hx]; rfl⟩

theorem InOrder.step (h : InOrder s) {a : Act} (halone : Alone s a) : InOrder (step s a) := by
  have written : ∀ x ∈ s.written, x ∈ s.pending ++ s.written := fun x hx => mem_append_right _ hx
  cases a with
  | tick =>
    exact h.mono (Int.le_add_of_nonneg_right (Int.natCast_nonneg _)) rfl (fun _ hx => hx) written h.answers h.latest
  | refresh =>
    refine h.mono (Int.le_refl _) rfl (fun x hx => ?_) written (fun r hr x hx => ?_) h.latest
    · simpa [State.pending, RemoteUpdates.step] using hx
    · rcases mem_append.mp hr with hr | hr
      · exact h.answers r hr x hx
      · simp [mem_singleton.mp hr] at hx
  | answer k remote node =>
    simp only [RemoteUpdates.step]
    split
    · exact h
    · next r hr =>
      split
      · exact h
      · next info hinfo =>
        split
        · next hnow =>
          -- the answer is already pending as a single write
          have sample := h.sample hnow halone
          have hmem := mem_of_getElem? hr
          have hset : ∀ r' ∈ s.refreshes.set k { r with answers := r.answers ++ [⟨s.next, remote, node, info⟩] },
              ∀ x ∈ r'.answers, (x ∈ s.refreshes.flatMap (·.answers) ∨ x = ⟨s.next, remote, node, info⟩) ∧
                r'.fetch.fetchAvailableUpdates x.remote x.node = .ok x.info := by
            intro r' hr' x hx
            rcases mem_or_eq_of_mem_set hr' with hr' | rfl
            · exact ⟨.inl (mem_flatMap.mpr ⟨r', hr', hx⟩), h.answers r' hr' x hx⟩
            · rcases mem_append.mp hx with hx | hx
              · exact ⟨.inl (mem_flatMap.mpr ⟨r, hmem, hx⟩), h.answers r hmem x hx⟩
              · rw [mem_singleton.mp hx]
                exact ⟨.inr rfl, hinfo⟩
          refine sample.mono (Int.le_refl _) rfl (fun x hx => ?_) (fun x hx => mem_append_right _ hx)
            (fun r' hr' x hx => (hset r' hr' x hx).2) h.latest
          rcases mem_append.mp hx with hx | hx
          · exact mem_append_left _ hx
          · obtain ⟨r', hr', hx⟩ := mem_flatMap.mp hx
            rcases (hset r' hr' x hx).1 with hx | rfl
            · exact mem_append_right _ hx
            · exact mem_append_left _ (mem_append_right _ mem_cons_self)
        · exact h
  | list => exact h.sample rfl halone
  | write _ access =>
    simp only [RemoteUpdates.step]
    split
    · exact h
    · next x hx =>
      have hpend : ∀ y ∈ [x], y ∈ s.pending := fun y hy =>
        mem_singleton.mp hy ▸ mem_append_left _ (mem_of_getElem? hx)
      refine h.mono (Int.le_refl _) rfl (fun y hy => ?_) (mem_written_store hpend) h.answers
        (h.latest_store access hpend fun content id node summary hc => ?_)
      · exact (mem_append.mp hy).elim (fun hy => mem_append_left _ (mem_of_mem_eraseIdx hy))
          (mem_append_right _)
      · rw [cached_updateCachedSummaryForNode] at hc
        split at hc
        · next hnode => exact .inl ⟨x, mem_cons_self, ⟨hnode.1.symm, hnode.2.symm⟩, Option.some.inj hc⟩
        · next hnode =>
          refine .inr ⟨hc, fun y hy hay => hnode ?_⟩
          rw [mem_singleton.mp hy] at hay
          exact ⟨hay.1.symm, hay.2.symm⟩
  | finalPass _ access =>
    simp only [RemoteUpdates.step]
    split
    · exact h
    · next r hr =>
      split
      · next hcomp =>
        have hmem := mem_of_getElem? hr
        have hpend : ∀ x ∈ r.answers, x ∈ s.pending := fun x hx =>
          mem_append_right _ (mem_flatMap.mpr ⟨r, hmem, hx⟩)
        refine h.mono (Int.le_refl _) rfl (fun x hx => ?_) (mem_written_store hpend)
          (fun r' hr' => h.answers r' (mem_of_mem_eraseIdx hr'))
          (h.latest_store access hpend fun content id node summary hc =>
            .inl (of_cached_responses hcomp (h.answers r hmem) hc))
        rcases mem_append.mp hx with hx | hx
        · exact mem_append_left _ hx
        · obtain ⟨r', hr', hx⟩ := mem_flatMap.mp hx
          exact mem_append_right _ (mem_flatMap.mpr ⟨r', mem_of_mem_eraseIdx hr', hx⟩)
      · exact h

theorem written_step (a) : ∀ x ∈ s.written, x ∈ (step s a).written := by
  intro x hx
  cases a with
  | tick | refresh | list => exact hx
  | answer => simp only [RemoteUpdates.step]; split <;> [skip; split] <;> [skip; skip; split] <;> exact hx
  | write => simp only [RemoteUpdates.step]; split <;> [exact hx; exact mem_append_left _ hx]
  | finalPass =>
    simp only [RemoteUpdates.step]
    split <;> [skip; split] <;> [exact hx; exact mem_append_left _ hx; exact hx]

theorem InOrder.run : ∀ (acts : List Act) {s : State}, InOrder s → AloneRun s acts →
    InOrder (run s acts) ∧ ∀ x ∈ s.written, x ∈ (RemoteUpdates.run s acts).written
  | [], _, h, _ => ⟨h, fun _ hx => hx⟩
  | a :: acts, s, h, halone => by
    obtain ⟨hrun, written⟩ := InOrder.run acts (h.step halone.1) halone.2
    exact ⟨hrun, fun x hx => written x (written_step a x hx)⟩

def State.start (now : Int) : State := ⟨now, .empty, [], [], 0, []⟩

theorem inOrder_start (now : Int) : InOrder (.start now) := by
  refine ⟨?_, ?_, ?_, ?_, ?_⟩ <;> simp [State.start, State.pending, Latest, cached, OrderedMap.empty, OrderedMap.get?]

/-- **If no node is asked while an earlier answer of it is to be written, the cache has the summary of each node that
was sampled last of those that have been written, and the time of its refresh never decreases.** -/
theorem summaries_in_order (now : Int) (before after : List Act) (hbefore : AloneRun (.start now) before)
    (hafter : AloneRun (run (.start now) before) after) : let s := run (.start now) before
    Latest (run s after) ∧ ∀ id node a b, cached s.content id node = some a →
      cached (run s after).content id node = some b → a.lastRefresh ≤ b.lastRefresh := by
  intro s
  have hs : InOrder s := ((inOrder_start now).run before hbefore).1
  obtain ⟨ht, written⟩ := hs.run after hafter
  refine ⟨ht.latest, fun id node a b ha hb => ?_⟩
  obtain ⟨x, hx, hax, rfl, -⟩ := hs.latest id node a ha
  obtain ⟨y, hy, -, rfl, hmax⟩ := ht.latest id node b hb
  have hx' := written x hx
  exact ht.sorted x (mem_append_right _ hx') y (mem_append_right _ hy) (hmax x hx' hax)

namespace Sample

def foundAt (now : Int) : NodeUpdateInfo := ⟨[], now, [], .ok⟩

def backup : Remote := ⟨.pbs, "backup"⟩

def refreshAt (now : Int) : List Act :=
  [.refresh [backup] ⟨fun _ => .ok [], fun _ _ => .ok (foundAt now)⟩, .answer 0 backup "localhost", .write 0 .written]

def listed : List Act := [.tick 20, .list backup "localhost" (foundAt 0), .write 0 .written]

end Sample

theorem summaries_in_order_sample : let s := run (.start 10) (Sample.refreshAt 10 ++ [.finalPass 0 .written])
    Latest (run s Sample.listed) ∧
      (cached (run s Sample.listed).content "backup" "localhost").map (·.lastRefresh) = some 30 :=
  ⟨(summaries_in_order 10 (Sample.refreshAt 10 ++ [Act.finalPass 0 .written]) Sample.listed
    ⟨trivial, fun _ hx => absurd hx not_mem_nil, trivial, trivial, trivial⟩
    ⟨trivial, fun _ hx => absurd hx not_mem_nil, trivial, trivial⟩).1, by decide +kernel⟩

/-- A node is listed while a refresh is under way, whose final pass puts back what it has found before. -/
theorem final_pass_goes_back : let s := run (.start 10) (Sample.refreshAt 10 ++ Sample.listed)
    (cached s.content "backup" "localhost").map (·.lastRefresh) = some 30 ∧
      (cached (step s (.finalPass 0 .written)).content "backup" "localhost").map (·.lastRefresh) = some 10 := by
  decide +kernel

end Nexus.RemoteUpdates
