import Mathlib.Data.List.FinRange
import Mathlib.Data.String.Basic
import Nexus.Lib.BinarySearch
import Nexus.Lib.Permits
import Nexus.Lib.Run
import Nexus.Lib.StableSort
import Nexus.Resource

/-!
# Parallel requests to remotes and their nodes

`ParallelFetcher::do_for_all_remote_nodes` of `server/src/parallel_fetcher.rs`. A handler call needs a permit of the
semaphore of all connections, and for a node of a PVE remote one of the semaphore of that remote. The first permit is
handed on to the first node. The permits are conserved (`TaskStep.conserved`), a task that cannot go on waits for a
permit and holds none (`Task.Ok.progress`), and each step makes the work smaller (`TaskStep.work_lt`).
-/

namespace Nexus.ParallelFetcher

open Lib List Sharing

variable {R T : Type*}

/-! ## The responses -/

structure NodeResponse (T : Type*) where
  nodeName : String
  data : Except String T

structure MultipleNodesResponse (T : Type*) where
  inner : Except String (List (NodeResponse T))

structure RemoteResponse (R : Type*) where
  remoteName : String
  remoteType : RemoteType
  response : R

structure FetcherResponse (R : Type*) where
  remoteResponses : List (RemoteResponse R)
  sorted : remoteResponses.Pairwise fun a b => a.remoteName ≤ b.remoteName

namespace FetcherResponse

def ofResponses (responses : List (RemoteResponse R)) : FetcherResponse R :=
  ⟨responses.insertionSort fun a b => a.remoteName ≤ b.remoteName, StableSort.pairwise_insertionSort responses⟩

def getRemoteResponse (response : FetcherResponse R) (remote : String) : Option (RemoteResponse R) :=
  match BinarySearch.search RemoteResponse.remoteName remote response.remoteResponses with
  | .ok index => response.remoteResponses[index]?
  | .error _ => none

theorem perm_ofResponses (responses : List (RemoteResponse R)) :
    (ofResponses responses).remoteResponses.Perm responses :=
  perm_insertionSort _ _

theorem getRemoteResponse_eq (response : FetcherResponse R) {r} (hr : r ∈ response.remoteResponses)
    (hnd : (response.remoteResponses.map RemoteResponse.remoteName).Nodup) :
    response.getRemoteResponse r.remoteName = some r := by
  obtain ⟨index, hindex⟩ := BinarySearch.exists_search response.sorted hr rfl
  obtain ⟨found, hfnd, hname⟩ := BinarySearch.key_eq_of_search hindex
  have hsame : found = r := inj_on_of_nodup_map hnd (mem_of_getElem? hfnd) hr hname
  rw [getRemoteResponse, hindex, ← hsame]
  exact hfnd

end FetcherResponse

/-! ## The tasks -/

/-- Where the task of a remote is in `fetch_remote`. -/
inductive Phase (T : Type*)
  /-- It waits for its first permit. -/
  | waiting
  /-- It lists the nodes of a PVE remote. -/
  | listing
  /-- `permit` says whether the first permit is still there. -/
  | spawning (todo : List String) (permit : Bool)
  /-- It has a permit for the node, and waits for one of the remote. -/
  | pairing (node : String) (todo : List String)
  /-- It joins the tasks of the nodes. -/
  | joining (permit : Bool)
  /-- The handler call of a PBS remote runs. -/
  | handling
  /-- It has returned. -/
  | finished (response : RemoteResponse (MultipleNodesResponse T))
  /-- Its response has been taken out of the join set. -/
  | joined

structure Task (T : Type*) where
  phase : Phase T
  /-- Their tasks have a permit of both semaphores. -/
  running : List String
  /-- What the node tasks that have ended returned. -/
  (ended nodeResponses : List (NodeResponse T))
  /-- `per_remote_semaphore` -/
  permits : Nat

def Phase.held : Phase T → Nat
  | .listing | .pairing _ _ | .handling => 1
  | .spawning _ permit | .joining permit => permit.toNat
  | .waiting | .finished _ | .joined => 0

namespace Task

def held (t : Task T) : Nat := t.phase.held + t.running.length

def handlers (t : Task T) : Nat :=
  t.running.length + match t.phase with
    | .handling => 1
    | _ => 0

def names (t : Task T) : List String := t.nodeResponses.map (·.nodeName) ++ t.ended.map (·.nodeName) ++ t.running

def Fresh (t : Task T) : Prop := t.running = [] ∧ t.ended = [] ∧ t.nodeResponses = []

end Task

structure Call where
  (maxConnections maxConnectionsPerRemote : Nat)
  remotes : List Remote
  listNodes : Remote → Except String (List String)

inductive TaskStep (c : Call) (remote : Remote) : Nat → Task T → Nat → Task T → Prop
  | acquirePve {n t} (hphase : t.phase = .waiting) (hty : remote.ty = .pve) :
      TaskStep c remote (n + 1) t n { t with phase := .listing }
  | acquirePbs {n t} (hphase : t.phase = .waiting) (hty : remote.ty = .pbs) :
      TaskStep c remote (n + 1) t n { t with phase := .handling }
  | listFailed {n t err} (hphase : t.phase = .listing)
      (herr : c.listNodes remote = .error err) :
      TaskStep c remote n t (n + 1) { t with phase := .finished ⟨remote.id, remote.ty, ⟨.error err⟩⟩ }
  | list {n t nodes} (hphase : t.phase = .listing)
      (hnodes : c.listNodes remote = .ok nodes) :
      TaskStep c remote n t n { t with phase := .spawning nodes true }
  -- the first node gets the permit that is there, each other one a new one
  | takePermit {n t node todo}
      (hphase : t.phase = .spawning (node :: todo) true) :
      TaskStep c remote n t n { t with phase := .pairing node todo }
  | acquireNext {n t node todo}
      (hphase : t.phase = .spawning (node :: todo) false) :
      TaskStep c remote (n + 1) t n { t with phase := .pairing node todo }
  | spawn {n free t node todo} (hphase : t.phase = .pairing node todo)
      (hpermits : t.permits = free + 1) :
      TaskStep c remote n t n { t with phase := .spawning todo false, running := t.running ++ [node], permits := free }
  -- the handler call of a node returns, whatever the remote task does
  | fetchNode {n t before after node} (data : Except String T)
      (hrunning : t.running = before ++ node :: after) :
      TaskStep c remote n t (n + 1)
        { t with running := before ++ after, ended := t.ended ++ [⟨node, data⟩], permits := t.permits + 1 }
  | allSpawned {n t permit} (hphase : t.phase = .spawning [] permit) :
      TaskStep c remote n t n { t with phase := .joining permit }
  | joinNext {n t permit before after nodeResponse}
      (hphase : t.phase = .joining permit) (hended : t.ended = before ++ nodeResponse :: after) :
      TaskStep c remote n t n
        { t with ended := before ++ after, nodeResponses := t.nodeResponses ++ [nodeResponse] }
  | allJoined {n t permit} (hphase : t.phase = .joining permit) (hrunning : t.running = [])
      (hended : t.ended = []) :
      TaskStep c remote n t (n + permit.toNat)
        { t with phase := .finished ⟨remote.id, remote.ty, ⟨.ok t.nodeResponses⟩⟩ }
  | handle {n t} (data : Except String T) (hphase : t.phase = .handling) :
      TaskStep c remote n t (n + 1)
        { t with
          phase := .finished ⟨remote.id, remote.ty, ⟨.ok (t.nodeResponses ++ [⟨"localhost", data⟩])⟩⟩
          nodeResponses := t.nodeResponses ++ [⟨"localhost", data⟩] }

structure State (c : Call) (T : Type*) extends Sharing (Fin c.remotes.length) (Task T) where
  remoteResponses : List (RemoteResponse (MultipleNodesResponse T))

namespace Call

def start (c : Call) (T : Type*) : State c T where
  permits := c.maxConnections
  party _ := ⟨.waiting, [], [], [], c.maxConnectionsPerRemote⟩
  remoteResponses := []

inductive Step (c : Call) : State c T → Fin c.remotes.length → State c T → Prop
  | task {s i n t}
      (h : TaskStep c (c.remotes.get i) s.permits (s.party i) n t) : Step c s i { s with toSharing := s.move i n t }
  | join {s i response}
      (hphase : (s.party i).phase = .finished response) :
      Step c s i ⟨s.move i s.permits { s.party i with phase := .joined }, s.remoteResponses ++ [response]⟩

end Call

def State.Done {c : Call} (s : State c T) : Prop := ∀ i, (s.party i).phase = .joined

def State.fetched {c : Call} (s : State c T) : FetcherResponse (MultipleNodesResponse T) :=
  .ofResponses s.remoteResponses

/-! ## What a task keeps -/

structure Call.Answers (c : Call) (remote : Remote) (r : RemoteResponse (MultipleNodesResponse T)) : Prop where
  remoteName : r.remoteName = remote.id
  remoteType : r.remoteType = remote.ty
  nodes : match remote.ty with
    | .pve => match c.listNodes remote with
      | .error err => r.response.inner = .error err
      | .ok nodes => ∃ responses, r.response.inner = .ok responses ∧ (responses.map (·.nodeName)).Perm nodes
    | .pbs => ∃ data, r.response.inner = .ok [⟨"localhost", data⟩]

def Task.Listed (c : Call) (remote : Remote) (t : Task T) (todo : List String) : Prop :=
  remote.ty = .pve ∧ ∃ nodes, c.listNodes remote = .ok nodes ∧ (t.names ++ todo).Perm nodes

def Task.Fits (c : Call) (remote : Remote) (t : Task T) : Prop :=
  match t.phase with
  | .waiting => t.Fresh
  | .listing => remote.ty = .pve ∧ t.Fresh
  | .spawning todo _ => t.Listed c remote todo
  | .pairing node todo => t.Listed c remote (node :: todo)
  | .joining _ => t.Listed c remote []
  | .handling => remote.ty = .pbs ∧ t.Fresh
  | .finished response => t.running = [] ∧ c.Answers remote response
  | .joined => t.running = []

structure Task.Ok (c : Call) (remote : Remote) (t : Task T) : Prop where
  permits : t.permits + t.running.length = c.maxConnectionsPerRemote
  fits : t.Fits c remote

variable {c : Call} {remote : Remote} {n n' : Nat} {t t' : Task T}

theorem TaskStep.conserved (h : TaskStep c remote n t n' t') : n' + t'.held = n + t.held := by
  cases h with
  | fetchNode _ running =>
    simp only [Task.held, running, length_append, length_cons]
    omega
  | spawn hph =>
    simp only [Task.held, hph, Phase.held, length_append, length_cons, length_nil, Bool.toNat_false]
    omega
  | joinNext => rfl
  | list hph _ | takePermit hph | allSpawned hph =>
    simp [Task.held, hph, Phase.held]
  | acquirePve hph _ | acquirePbs hph _ | listFailed hph _ | acquireNext hph | allJoined hph _ _
  | handle _ hph =>
    simp only [Task.held, hph, Phase.held, Bool.toNat_false]
    omega

def Phase.todo : Phase T → Option (List String)
  | .spawning todo _ => some todo
  | .pairing node todo => some (node :: todo)
  | .joining _ => some []
  | .waiting | .listing | .handling | .finished _ | .joined => none

theorem Task.fits_iff_of_todo {todo} (h : t.phase.todo = some todo) : t.Fits c remote ↔ t.Listed c remote todo := by
  unfold Task.Fits
  cases hph : t.phase <;> rw [hph] at h <;> cases h <;> rfl

theorem Task.Fits.running_eq_nil (hfits : t.Fits c remote) (h : t.phase.todo = none) : t.running = [] := by
  unfold Task.Fits at hfits
  cases hph : t.phase with
  | spawning | pairing | joining => simp [hph, Phase.todo] at h
  | waiting => rw [hph] at hfits; exact hfits.1
  | listing | handling => rw [hph] at hfits; exact hfits.2.1
  | finished => rw [hph] at hfits; exact hfits.1
  | joined => rw [hph] at hfits; exact hfits

theorem Task.Listed.of_perm {todo todo'} (h : t.Listed c remote todo)
    (hperm : (t'.names ++ todo').Perm (t.names ++ todo)) : t'.Listed c remote todo' := by
  obtain ⟨hty, nodes, hnodes, names⟩ := h
  exact ⟨hty, nodes, hnodes, hperm.trans names⟩

theorem Task.Fits.of_perm (hfits : t.Fits c remote) (htodo : t.phase.todo ≠ none) (hph : t'.phase = t.phase)
    (hperm : t'.names.Perm t.names) : t'.Fits c remote := by
  obtain ⟨todo, htodo⟩ := Option.ne_none_iff_exists'.mp htodo
  have hlist := (Task.fits_iff_of_todo htodo).mp hfits
  rw [← hph] at htodo
  exact (Task.fits_iff_of_todo htodo).mpr (hlist.of_perm (hperm.append_right todo))

theorem Task.Listed.answers (h : t.Listed c remote []) (running : t.running = []) (hend : t.ended = []) :
    c.Answers remote ⟨remote.id, remote.ty, ⟨.ok t.nodeResponses⟩⟩ := by
  obtain ⟨hty, nodes, hnodes, names⟩ := h
  refine ⟨rfl, rfl, ?_⟩
  rw [hty, hnodes]
  refine ⟨t.nodeResponses, rfl, ?_⟩
  simpa [Task.names, running, hend] using names

theorem Task.Ok.step (h : t.Ok c remote) (hstep : TaskStep c remote n t n' t') : t'.Ok c remote := by
  obtain ⟨hperm, hfits⟩ := h
  cases hstep with
  | acquirePve hph hty =>
    rw [Task.Fits, hph] at hfits
    exact ⟨hperm, hty, hfits⟩
  | acquirePbs hph hty =>
    rw [Task.Fits, hph] at hfits
    exact ⟨hperm, hty, hfits⟩
  | listFailed hph herr =>
    rw [Task.Fits, hph] at hfits
    refine ⟨hperm, hfits.2.1, rfl, rfl, ?_⟩
    rw [hfits.1, herr]
  | @list _ _ nodes hph hnodes =>
    rw [Task.Fits, hph] at hfits
    obtain ⟨hty, running, hend, hresp⟩ := hfits
    refine ⟨hperm, hty, nodes, hnodes, ?_⟩
    simp [Task.names, running, hend, hresp]
  | takePermit hph =>
    rw [Task.Fits, hph] at hfits
    exact ⟨hperm, hfits⟩
  | acquireNext hph =>
    rw [Task.Fits, hph] at hfits
    exact ⟨hperm, hfits⟩
  | spawn hph =>
    rw [Task.Fits, hph] at hfits
    refine ⟨?_, hfits.of_perm ?_⟩
    · simp only [length_append, length_cons, length_nil]
      omega
    · simp [Task.names]
  | @fetchNode _ _ before after node data running =>
    refine ⟨?_, hfits.of_perm (fun hnone => ?_) rfl ?_⟩
    · simp only [running, length_append, length_cons] at hperm ⊢
      omega
    · simp [hfits.running_eq_nil hnone] at running
    · have middle : (node :: (before ++ after)).Perm (before ++ node :: after) := perm_middle.symm
      simpa [Task.names, running] using
        (middle.append_left (t.ended.map (·.nodeName))).append_left (t.nodeResponses.map (·.nodeName))
  | allSpawned hph =>
    rw [Task.Fits, hph] at hfits
    exact ⟨hperm, hfits⟩
  | @joinNext _ _ _ before after nodeResponse hph hend =>
    refine ⟨hperm, hfits.of_perm (by simp [hph, Phase.todo]) rfl (List.Perm.append_right t.running ?_)⟩
    have middle : (nodeResponse :: (before ++ after)).Perm (before ++ nodeResponse :: after) := perm_middle.symm
    simpa [hend] using (middle.map (·.nodeName)).append_left (t.nodeResponses.map (·.nodeName))
  | allJoined hph running hend =>
    rw [Task.Fits, hph] at hfits
    exact ⟨hperm, running, hfits.answers running hend⟩
  | handle data hph =>
    rw [Task.Fits, hph] at hfits
    obtain ⟨hty, running, -, hresp⟩ := hfits
    refine ⟨hperm, running, rfl, rfl, ?_⟩
    rw [hty, hresp]
    exact ⟨data, rfl⟩

theorem Task.Ok.progress (h : t.Ok c remote) (hlim : 1 ≤ c.maxConnectionsPerRemote) (n : Nat) :
    t.phase = .joined ∨ (∃ response, t.phase = .finished response) ∨ (∃ n' t', TaskStep c remote n t n' t') ∨
      n = 0 ∧ t.held = 0 := by
  obtain ⟨hperm, hfits⟩ := h
  cases hrunning : t.running with
  | cons node running =>
    have first : t.running = [] ++ node :: running := hrunning
    exact .inr (.inr (.inl ⟨_, _, .fetchNode (.error "") first⟩))
  | nil =>
    rw [hrunning] at hperm
    cases hph : t.phase with
    | joined => exact .inl rfl
    | finished response => exact .inr (.inl ⟨response, rfl⟩)
    | waiting =>
      refine .inr (.inr ?_)
      cases n with
      | zero => exact .inr ⟨rfl, by simp [Task.held, hph, hrunning, Phase.held]⟩
      | succ =>
        cases hty : remote.ty with
        | pve => exact .inl ⟨_, _, .acquirePve hph hty⟩
        | pbs => exact .inl ⟨_, _, .acquirePbs hph hty⟩
    | listing =>
      refine .inr (.inr (.inl ?_))
      cases nodes : c.listNodes remote with
      | error => exact ⟨_, _, .listFailed hph nodes⟩
      | ok => exact ⟨_, _, .list hph nodes⟩
    | spawning todo permit =>
      refine .inr (.inr ?_)
      match todo, permit, n with
      | [], _, _ => exact .inl ⟨_, _, .allSpawned hph⟩
      | _ :: _, true, _ => exact .inl ⟨_, _, .takePermit hph⟩
      | _ :: _, false, n + 1 => exact .inl ⟨_, _, .acquireNext hph⟩
      | _ :: _, false, 0 => exact .inr ⟨rfl, by simp [Task.held, hph, hrunning, Phase.held]⟩
    | pairing node =>
      -- no node task runs, so the permits of the remote are all there
      obtain ⟨free, hfree⟩ : ∃ free, t.permits = free + 1 := Nat.exists_eq_add_of_le' (by simpa [← hperm] using hlim)
      exact .inr (.inr (.inl ⟨_, _, .spawn hph hfree⟩))
    | joining =>
      refine .inr (.inr (.inl ?_))
      cases hend : t.ended with
      | nil => exact ⟨_, _, .allJoined hph hrunning hend⟩
      | cons nodeResponse ended =>
        have first : t.ended = [] ++ nodeResponse :: ended := hend
        exact ⟨_, _, .joinNext hph first⟩
    | handling => exact .inr (.inr (.inl ⟨_, _, .handle (.error "") hph⟩))

theorem TaskStep.not_joined (h : TaskStep c remote n t n' t') (hok : t.Ok c remote) :
    t.phase ≠ .joined ∧ t'.phase ≠ .joined := by
  cases h with
  | fetchNode _ running =>
    refine ⟨fun hph => ?_, fun hph => ?_⟩ <;>
      simp [hok.fits.running_eq_nil (congrArg Phase.todo hph)] at running
  | joinNext hph => exact ⟨fun h => (by rw [hph] at h; cases h), fun h => (by rw [hph] at h; cases h)⟩
  | acquirePve hph _ | acquirePbs hph _ | listFailed hph _ | list hph _ | takePermit hph
  | acquireNext hph | spawn hph _ | allSpawned hph | allJoined hph _ _ | handle _ hph =>
    exact ⟨fun h => (by rw [hph] at h; cases h), nofun⟩

/-! ## The work that is left -/

def Phase.work (nodes : Nat) : Phase T → Nat
  | .waiting => 4 * nodes + 5
  | .listing => 4 * nodes + 4
  | .spawning todo _ => 4 * todo.length + 3
  | .pairing _ todo => 4 * todo.length + 6
  | .joining _ | .handling => 2
  | .finished _ => 1
  | .joined => 0

def Call.nodeCount (c : Call) (remote : Remote) : Nat :=
  match c.listNodes remote with
  | .ok nodes => nodes.length
  | .error _ => 0

def Task.work (c : Call) (remote : Remote) (t : Task T) : Nat :=
  t.phase.work (c.nodeCount remote) + 2 * t.running.length + t.ended.length

theorem TaskStep.work_lt (h : TaskStep c remote n t n' t') : t'.work c remote < t.work c remote := by
  cases h with
  | fetchNode _ running =>
    simp only [Task.work, running, length_append, length_cons, length_nil]
    omega
  | joinNext _ hend =>
    simp only [Task.work, hend, length_append, length_cons]
    omega
  | list hph nodes =>
    simp only [Task.work, hph, Phase.work, Call.nodeCount, nodes]
    omega
  | spawn hph =>
    simp only [Task.work, hph, Phase.work, length_append, length_cons, length_nil]
    omega
  | acquirePve hph _ | acquirePbs hph _ | listFailed hph _ | takePermit hph | acquireNext hph
  | allSpawned hph | allJoined hph _ _ | handle _ hph =>
    simp only [Task.work, hph, Phase.work, length_cons, length_nil]
    omega

theorem Task.Ok.held_eq_zero (h : t.Ok c remote) (htodo : t.phase.todo = none) (hph : t.phase.held = 0) :
    t.held = 0 := by
  rw [Task.held, hph, h.fits.running_eq_nil htodo, length_nil]

theorem Task.handlers_le_held (t : Task T) : t.handlers ≤ t.held := by
  unfold Task.handlers Task.held
  cases t.phase <;> simp only [Phase.held] <;> omega

theorem Task.Ok.handlers_le (h : t.Ok c remote) (hlim : 1 ≤ c.maxConnectionsPerRemote) :
    t.handlers ≤ c.maxConnectionsPerRemote := by
  have hperm := h.permits
  unfold Task.handlers
  split
  · next hph =>
    rw [h.fits.running_eq_nil (by rw [hph]; rfl)]
    exact hlim
  · omega

/-! ## The whole call -/

variable {s s' : State c T} {i : Fin c.remotes.length}

def State.handlers (s : State c T) : Nat := ∑ i, (s.party i).handlers

def State.work (s : State c T) : Nat := ∑ i, (s.party i).work c (c.remotes.get i)

structure State.Ok (s : State c T) : Prop where
  conserved : s.Conserved Task.held c.maxConnections
  tasks : ∀ i, (s.party i).Ok c (c.remotes.get i)
  answers : ∀ r ∈ s.remoteResponses, ∃ i, (s.party i).phase = .joined ∧ c.Answers (c.remotes.get i) r
  answered : ∀ i, (s.party i).phase = .joined → ∃ r ∈ s.remoteResponses, c.Answers (c.remotes.get i) r
  nodup : (s.remoteResponses.map (·.remoteName)).Nodup

theorem State.Ok.start (c : Call) : (c.start T).Ok where
  conserved := by simp [Sharing.Conserved, Call.start, Task.held, Phase.held]
  tasks _ := ⟨rfl, rfl, rfl, rfl⟩
  answers := nofun
  answered := nofun
  nodup := nodup_nil

theorem Call.get_inj (hdist : (c.remotes.map Remote.id).Nodup) {j}
    (h : (c.remotes.get i).id = (c.remotes.get j).id) : i = j := by
  have hsame := inj_on_of_nodup_map hdist (get_mem _ i) (get_mem _ j) h
  exact (nodup_iff_injective_get.mp hdist.of_map) hsame

theorem State.Ok.move (h : s.Ok) (ht : TaskStep c (c.remotes.get i) s.permits (s.party i) n t) :
    State.Ok (c := c) { s with toSharing := s.move i n t } := by
  have hmoved := (h.tasks i).step ht
  have hopen := ht.not_joined (h.tasks i)
  have hjoin : ∀ j, ((s.toSharing.move i n t).party j).phase = .joined ↔ (s.party j).phase = .joined :=
    forall_move (fun j (t : Task T) => t.phase = .joined ↔ (s.party j).phase = .joined) (fun _ _ => Iff.rfl)
      (iff_of_false hopen.2 hopen.1)
  refine ⟨h.conserved.move ht.conserved, forall_move _ (fun j _ => h.tasks j) hmoved, ?_, ?_, h.nodup⟩
  · intro r hr
    obtain ⟨j, hj, hans⟩ := h.answers r hr
    exact ⟨j, (hjoin j).mpr hj, hans⟩
  · exact fun j hj => h.answered j ((hjoin j).mp hj)

theorem State.Ok.join (hdist : (c.remotes.map Remote.id).Nodup) (h : s.Ok)
    {response} (hph : (s.party i).phase = .finished response) :
    State.Ok (c := c) ⟨s.move i s.permits { s.party i with phase := .joined }, s.remoteResponses ++ [response]⟩ := by
  have hfits := (h.tasks i).fits
  rw [Task.Fits, hph] at hfits
  obtain ⟨running, hans⟩ := hfits
  have hjoin : ∀ j, ((s.toSharing.move i s.permits { s.party i with phase := .joined }).party j).phase = .joined ↔
      (s.party j).phase = .joined ∨ j = i :=
    forall_move (fun j (t : Task T) => t.phase = .joined ↔ (s.party j).phase = .joined ∨ j = i)
      (fun _ hj => (or_iff_left hj).symm) (iff_of_true rfl (.inr rfl))
  refine ⟨h.conserved.move ?_, forall_move _ (fun j _ => h.tasks j) ⟨(h.tasks i).permits, running⟩, ?_, ?_, ?_⟩
  · simp only [Task.held, hph, Phase.held]
  · refine forall_mem_append.mpr ⟨fun r hr => ?_, fun r hr => ?_⟩
    · obtain ⟨j, hj, hr⟩ := h.answers r hr
      exact ⟨j, (hjoin j).mpr (.inl hj), hr⟩
    · obtain rfl := mem_singleton.mp hr
      exact ⟨i, (hjoin i).mpr (.inr rfl), hans⟩
  · intro j hj
    rcases (hjoin j).mp hj with hj | rfl
    · obtain ⟨r, hr, hans⟩ := h.answered j hj
      exact ⟨r, mem_append_left _ hr, hans⟩
    · exact ⟨response, mem_append_right _ mem_cons_self, hans⟩
  · -- a response with this name would be one of this remote, which has not been joined before
    rw [map_append, map_singleton, nodup_append]
    refine ⟨h.nodup, nodup_singleton _, ?_⟩
    rintro name hname _ hresp rfl
    obtain ⟨r, hr, rfl⟩ := mem_map.mp hname
    obtain ⟨j, hj, other⟩ := h.answers r hr
    have hid := other.remoteName.symm.trans ((mem_singleton.mp hresp).trans hans.remoteName)
    obtain rfl := Call.get_inj hdist hid
    rw [hph] at hj
    cases hj

theorem State.Ok.step (hdist : (c.remotes.map Remote.id).Nodup) (h : s.Ok) (hstep : c.Step s i s') : s'.Ok := by
  cases hstep with
  | task ht => exact h.move ht
  | join hph => exact h.join hdist hph

theorem Call.Step.work_lt (h : c.Step s i s') : s'.work < s.work := by
  cases h with
  | task ht => exact sum_move_lt (fun j => Task.work c (c.remotes.get j)) ht.work_lt
  | join hph =>
    refine sum_move_lt (fun j => Task.work c (c.remotes.get j)) ?_
    simp only [Task.work, hph, Phase.work]
    omega

/-- **No deadlock.** -/
theorem State.Ok.progress (h : s.Ok) (hmax : 1 ≤ c.maxConnections) (hlim : 1 ≤ c.maxConnectionsPerRemote) :
    s.Done ∨ ∃ i s', c.Step s i s' := by
  by_contra hstuck
  obtain ⟨hopen, hstuck⟩ := not_or.mp hstuck
  -- every task that has not been joined waits, and holds nothing
  have hwaits : ∀ i, (s.party i).phase = .joined ∨ s.permits = 0 ∧ (s.party i).held = 0 := fun i => by
    rcases (h.tasks i).progress hlim s.permits with hjoin | ⟨response, hph⟩ | ⟨n, t, ht⟩ | hwait
    · exact .inl hjoin
    · exact absurd ⟨i, _, .join hph⟩ hstuck
    · exact absurd ⟨i, _, .task ht⟩ hstuck
    · exact .inr hwait
  obtain ⟨i, hi⟩ := not_forall.mp hopen
  obtain ⟨hnone, -⟩ := (hwaits i).resolve_left hi
  obtain ⟨j, hj⟩ := h.conserved.exists_holder hnone hmax
  have hzero : (s.party j).held = 0 := by
    rcases hwaits j with hph | ⟨-, hzero⟩
    · exact (h.tasks j).held_eq_zero (by rw [hph]; rfl) (by rw [hph]; rfl)
    · exact hzero
  omega

theorem State.Ok.handlers_le (h : s.Ok) : s.handlers ≤ c.maxConnections :=
  (Finset.sum_le_sum fun i _ => (s.party i).handlers_le_held).trans h.conserved.sum_le

/-- Each remote has its own answer, and there are no others. -/
structure Call.Complete (c : Call) (response : FetcherResponse (MultipleNodesResponse T)) : Prop where
  names : (response.remoteResponses.map (·.remoteName)).Perm (c.remotes.map Remote.id)
  found : ∀ remote ∈ c.remotes, ∃ r, response.getRemoteResponse remote.id = some r ∧ c.Answers remote r

theorem State.Ok.complete (h : s.Ok) (hdist : (c.remotes.map Remote.id).Nodup) (hdone : s.Done) :
    c.Complete s.fetched := by
  have hperm := FetcherResponse.perm_ofResponses s.remoteResponses
  refine ⟨(hperm.map _).trans ((perm_ext_iff_of_nodup h.nodup hdist).mpr fun name => ?_), fun remote hrem => ?_⟩
  · simp only [mem_map]
    constructor
    · rintro ⟨r, hr, rfl⟩
      obtain ⟨i, -, hans⟩ := h.answers r hr
      exact ⟨_, get_mem _ i, hans.remoteName.symm⟩
    · rintro ⟨remote, hrem, rfl⟩
      obtain ⟨i, rfl⟩ := mem_iff_get.mp hrem
      obtain ⟨r, hr, hans⟩ := h.answered i (hdone i)
      exact ⟨r, hr, hans.remoteName⟩
  · obtain ⟨i, rfl⟩ := mem_iff_get.mp hrem
    obtain ⟨r, hr, hans⟩ := h.answered i (hdone i)
    refine ⟨r, ?_, hans⟩
    rw [← hans.remoteName]
    exact s.fetched.getRemoteResponse_eq (hperm.mem_iff.mpr hr) ((hperm.map _).nodup_iff.mpr h.nodup)

/-- **Every schedule** is within both limits, without a deadlock, no longer than the work there is, and ends with one
response for each remote. -/
theorem bounded_fetch (c : Call) (hmax : 1 ≤ c.maxConnections) (hlimit : 1 ≤ c.maxConnectionsPerRemote)
    (hdistinct : (c.remotes.map Remote.id).Nodup) (schedule : List (Fin c.remotes.length)) (s : State c T)
    (h : Run c.Step (c.start T) schedule s) :
    s.handlers ≤ c.maxConnections ∧ (∀ i, (s.party i).handlers ≤ c.maxConnectionsPerRemote) ∧
      (s.Done ∨ ∃ i s', c.Step s i s') ∧ schedule.length ≤ (c.start T).work ∧ (s.Done → c.Complete s.fetched) := by
  have hok : s.Ok := h.invariant (fun _ _ _ => State.Ok.step hdistinct) (.start c)
  have hlen := h.length_add_le (m := State.work) fun _ _ _ => Call.Step.work_lt
  exact ⟨hok.handlers_le, fun i => (hok.tasks i).handlers_le hlimit, hok.progress hmax hlimit, by omega,
    hok.complete hdistinct⟩

theorem Call.exists_done (c : Call) (hmax : 1 ≤ c.maxConnections) (hlim : 1 ≤ c.maxConnectionsPerRemote)
    (hdist : (c.remotes.map Remote.id).Nodup) : ∃ schedule s, Run c.Step (c.start T) schedule s ∧ s.Done :=
  Run.exists_final (I := State.Ok) (F := State.Done) (m := State.work) (fun _ _ _ => State.Ok.step hdist)
    (fun _ _ _ => Call.Step.work_lt) (fun _ h => h.progress hmax hlim) (c.start T) (State.Ok.start c)

def Call.sample : Call :=
  ⟨2, 1, [⟨.pve, "pve"⟩, ⟨.pbs, "backup"⟩], fun _ => .ok ["node1", "node2", "node3"]⟩

theorem bounded_fetch_sample :
    ∃ s : State Call.sample Nat, s.handlers ≤ 2 ∧ s.Done ∧ Call.sample.Complete s.fetched := by
  obtain ⟨schedule, s, hrun, hdone⟩ := Call.sample.exists_done (T := Nat) (by decide) (by decide) (by decide)
  have h := bounded_fetch Call.sample (by decide) (by decide) (by decide) schedule s hrun
  exact ⟨s, h.1, hdone, h.2.2.2.2 hdone⟩

end Nexus.ParallelFetcher
