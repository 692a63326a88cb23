import Nexus.Subscriptions.Apply

/-!
# Who drops a binding

Four requests and the workers can drop the binding of a key or move it; the other requests keep all bindings
(`Request.run_keeps`). Three of the four pass a guard: the pool is what they have read before they asked the remote, and
the key was not active on its node then (`passes_guard`).
-/

namespace Nexus.Subscriptions

open Lib

/-! ## Bindings that stay -/

def KeyConfig.bindingOf (config : KeyConfig) (key : String) : Option (String × String) :=
  (config.get? key).bind (·.binding)

/-- Every key that runs on its node is still bound to it. -/
def KeepsRunning (runs : String → String → String → Prop) (before after : KeyConfig) : Prop :=
  ∀ key remote node, runs key remote node → before.bindingOf key = some (remote, node) →
    after.bindingOf key = some (remote, node)

namespace KeepsRunning

variable {runs : String → String → String → Prop} {config config' config'' : KeyConfig} {key : String}
  {entry : SubscriptionKeyEntry}

theorem refl (config) : KeepsRunning runs config config := fun _ _ _ _ h => h

theorem trans (h : KeepsRunning runs config config') (h' : KeepsRunning runs config' config'') :
    KeepsRunning runs config config'' :=
  fun key remote node hr hb => h' key remote node hr (h key remote node hr hb)

theorem insert (h : ∀ remote node, runs key remote node → config.bindingOf key = some (remote, node) →
    entry.binding = some (remote, node)) : KeepsRunning runs config (config.insert key entry) := by
  intro key' remote node hr hb
  unfold KeyConfig.bindingOf
  rw [OrderedMap.get?_insert]
  by_cases hk : key' = key
  · subst hk
    rw [if_pos rfl]
    exact h remote node hr hb
  · rw [if_neg hk]
    exact hb

theorem insert_of_unbound (stored : config.get? key = some entry) (hunb : entry.remote = none)
    (entry') : KeepsRunning runs config (config.insert key entry') :=
  insert fun _ _ _ hb => by simp [KeyConfig.bindingOf, stored, SubscriptionKeyEntry.binding, hunb] at hb

theorem insert_of_new (hnew : config.get? key = none) (entry) : KeepsRunning runs config (config.insert key entry) :=
  insert fun _ _ _ hb => by simp [KeyConfig.bindingOf, hnew] at hb

theorem remove (h : ∀ remote node, runs key remote node → config.bindingOf key ≠ some (remote, node)) :
    KeepsRunning runs config (config.remove key) := by
  intro key' remote node hr hb
  have hk : key' ≠ key := by
    rintro rfl
    exact h remote node hr hb
  unfold KeyConfig.bindingOf
  rw [OrderedMap.get?_remove, if_neg hk]
  exact hb

theorem foldl {τ β : Type} {π : τ → KeyConfig} {f : τ → β → τ} (body : ∀ x b, KeepsRunning runs (π x) (π (f x b)))
    (l : List β) (x : τ) : KeepsRunning runs (π x) (π (l.foldl f x)) :=
  foldl_related refl (fun _ _ _ => trans) (fun x b _ => body x b) x

theorem ite (h : KeepsRunning runs config config') (p : Prop) [Decidable p] :
    KeepsRunning runs config (if p then config else config') :=
  ite_related refl h p

end KeepsRunning

variable {runs : String → String → String → Prop} {δ : Type} {ext : External δ} {env : Env}
  {snapshots : Snapshots} {world : World} {auth : Authid} {key remote node : String} {digest : Option δ}
  {pool config config' : KeyConfig}

theorem insertAll_keeps {entries} (h : insertAll entries config = .ok config') : KeepsRunning runs config config' :=
  insertAll_related .refl .trans (fun entry _ _ hnew => .insert_of_new hnew entry) h

theorem flipPendingClear_keeps {pendingClear unbound already}
    (h : flipPendingClear ext remote node pendingClear unbound already digest config = .ok config') :
    KeepsRunning runs config config' := by
  obtain ⟨id, entry, stored, -, rfl⟩ := flipPendingClear_eq_ok h
  refine .insert fun _ _ _ hb => ?_
  rw [KeyConfig.bindingOf, stored] at hb
  exact hb

theorem adopt_keeps (h : adopt ext key remote node config = .ok config') : KeepsRunning runs config config' := by
  rcases (adopt_eq_ok h).2 with ⟨existing, stored, hunb, rfl⟩ | ⟨productType, hnew, -, rfl⟩
  · exact .insert_of_unbound stored hunb _
  · exact .insert_of_new hnew _

theorem adoptAllStep_keeps (acc) (n) : KeepsRunning runs acc.1 (adoptAllStep ext world auth acc n).1 :=
  adoptAllStep_rule (.refl acc.1) fun _ _ adopted => adopt_keeps adopted

theorem bulkAssignStep_keeps (acc : KeyConfig × List ProposedAssignment) (p : ProposedAssignment) :
    KeepsRunning runs acc.1 (bulkAssignStep ext world auth acc p).1 :=
  bulkAssignStep_rule (.refl acc.1) fun _ _ stored _ _ hunb => .insert_of_unbound stored hunb _

def Request.unbinds : Request δ → Bool
  | .deleteKey .. | .setAssignment .. | .clearAssignment .. | .clearPending .. => true
  | _ => false

/-- **The others keep all bindings.** -/
theorem Request.run_keeps {request : Request δ} {result : KeyConfig × Response} (hkeeps : request.unbinds = false)
    (h : request.run ext env snapshots pool = .ok result) : KeepsRunning runs pool result.1 := by
  obtain ⟨config, response⟩ := result
  cases Request.commits_of_run h with
  | addKeys _ hlock => exact insertAll_keeps hlock
  | queueClear _ _ hlock => exact flipPendingClear_keeps hlock
  | revertPendingClear _ _ hlock => exact flipPendingClear_keeps hlock
  | adoptKey _ _ adopted => exact adopt_keeps adopted
  | adoptAll _ hloop =>
    subst hloop
    exact (KeepsRunning.foldl (π := Prod.fst) adoptAllStep_keeps _ (pool, [])).ite _
  | bulkAssign _ hloop =>
    subst hloop
    exact (KeepsRunning.foldl (π := Prod.fst) bulkAssignStep_keeps _ (pool, [])).ite _
  | applyPending => exact .refl pool
  | _ => cases hkeeps

/-! ## The guards -/

def Active (nodes : NodeSubscriptions) (node key : String) : Prop :=
  ∃ info, nodes.get? node = some (some info) ∧ info.status = .active ∧ info.key = some key

variable {start fetch : World} {live : Live} {snapshot : KeyConfig} {pre : PreRead δ} {nodes : NodeSubscriptions}

theorem passes_guard {entry} (hdig : Function.Injective ext.digest)
    (hpre : pre.preDigest = ext.digest snapshot) (hbound : entry.binding = some (remote, node))
    (hpass : pre.refuses ext pool entry = false) : snapshot = pool ∧ pre.syncedBlock ≠ some (remote, node) := by
  have hrem : entry.remote.isSome := by
    cases hr : entry.remote with
    | none => simp [SubscriptionKeyEntry.binding, hr] at hbound
    | some => rfl
  simp only [PreRead.refuses, hrem, Bool.and_true, Bool.or_eq_false_iff, PreRead.raced,
    Bool.not_eq_false', ext.sameDigest_iff, hpre] at hpass
  refine ⟨(hdig hpass.1.2).symm, fun hblock => ?_⟩
  have hstill := hpass.1.1
  simp [PreRead.stillSynced, hblock, boundTo_iff.mpr hbound] at hstill

def ToldOf (runs : String → String → String → Prop) (fetch : World) (live : Live) (key : String)
    (binding : Option (String × String)) : Prop :=
  ∀ remote node, runs key remote node → binding = some (remote, node) →
    checkSyncedAssignmentForUnassign fetch live key (some (remote, node)) = some (remote, node)

theorem bindingOf_of_find {entry} (h : pool.find key = .ok entry) : pool.bindingOf key = entry.binding := by
  rw [KeyConfig.bindingOf, KeyConfig.find_eq_ok.mp h, Option.bind_some]

section

variable (hdig : Function.Injective ext.digest)

include hdig

variable (htold : ToldOf runs fetch live key (pool.bindingOf key))

include htold

theorem deleteKey_keeps (hpre : deleteKeyPre ext start fetch live auth key snapshot = .ok pre)
    (h : deleteKeyLocked ext world auth key digest pre pool = .ok config') : KeepsRunning runs pool config' := by
  simp only [deleteKeyPre, bind_eq_ok, pure_eq_ok] at hpre
  obtain ⟨old, hold, _, -, rfl⟩ := hpre
  simp only [deleteKeyLocked, bind_eq_ok, pure_eq_ok] at h
  obtain ⟨_, -, entry, hent, _, -, _, hguard, rfl⟩ := h
  refine .remove fun remote node hr hb => ?_
  have hbound := (bindingOf_of_find hent).symm.trans hb
  obtain ⟨rfl, hblock⟩ := passes_guard hdig rfl hbound (by simpa using require_eq_ok.mp hguard)
  obtain rfl := Except.ok.inj (hold.symm.trans hent)
  exact hblock (hbound ▸ htold remote node hr hb)

theorem clearAssignment_keeps (hpre : clearAssignmentPre ext start fetch live auth key snapshot = .ok pre)
    (h : clearAssignmentLocked ext world auth key digest pre pool = .ok config') : KeepsRunning runs pool config' := by
  simp only [clearAssignmentPre, bind_eq_ok, pure_eq_ok] at hpre
  obtain ⟨_, -, rfl⟩ := hpre
  simp only [clearAssignmentLocked, bind_eq_ok, pure_eq_ok] at h
  obtain ⟨_, -, entry, hent, _, -, _, hguard, rfl⟩ := h
  refine .insert fun remote node hr hb => ?_
  have hbound := (bindingOf_of_find hent).symm.trans hb
  obtain ⟨rfl, hblock⟩ := passes_guard hdig rfl hbound (by simpa using require_eq_ok.mp hguard)
  exact absurd (hb ▸ htold remote node hr hb) hblock

theorem setAssignment_keeps {remote' node'}
    (hpre : setAssignmentPre ext start fetch live auth key remote' node' snapshot = .ok pre)
    (h : setAssignmentLocked ext world auth key remote' node' digest pre pool = .ok config') :
    KeepsRunning runs pool config' := by
  simp only [setAssignmentPre, bind_eq_ok, pure_eq_ok] at hpre
  obtain ⟨_, -, _, -, rfl⟩ := hpre
  simp only [setAssignmentLocked, bind_eq_ok] at h
  obtain ⟨_, -, entry, hent, _, -, _, hguard, _, -, _, -, h⟩ := h
  split at h
  · cases h
  · obtain rfl := Except.ok.inj h
    refine .insert fun remote node hr hb => ?_
    have hbound := (bindingOf_of_find hent).symm.trans hb
    cases hmoves : movesFrom remote' node' entry.binding with
    | false =>
      -- the key is bound to the node that it is assigned to
      simp only [hbound, movesFrom, Bool.or_eq_false_iff, decide_eq_false_iff_not, not_not] at hmoves
      rw [hmoves.1, hmoves.2]
      rfl
    | true =>
      have hguard := require_eq_ok.mp hguard
      rw [hmoves, Bool.true_and] at hguard
      obtain ⟨rfl, hblock⟩ := passes_guard hdig rfl hbound (by simpa using hguard)
      have hpre : (snapshot.get? key).bind (·.binding) = some (remote, node) := hb
      simp only [hpre, ← hbound, hmoves, if_true] at hblock
      exact absurd (hbound ▸ htold remote node hr hb) hblock

end

theorem binding_foldl_discard : ∀ {pending : List PendingEntry} {entry : SubscriptionKeyEntry},
    (∀ e ∈ pending, e.key = key → remote = e.remote → node = e.node → e.op = .clear) →
    entry.binding = some (remote, node) →
    (pending.foldl (fun st e => if key = e.key then discard e st else st) entry).binding = some (remote, node)
  | [], _, _, hb => hb
  | e :: pending, entry, clear, hb => by
    obtain ⟨he, hpend⟩ := List.forall_mem_cons.mp clear
    rw [List.foldl_cons]
    refine binding_foldl_discard hpend ?_
    split
    · next hk =>
      unfold discard
      split
      · next hto =>
        obtain ⟨hr, hn⟩ := Prod.mk.inj (Option.some.inj (hb.symm.trans (boundTo_iff.mp hto)))
        rw [he hk.symm hr hn]
        exact hb
      · exact hb
    · exact hb

theorem clearPending_keeps {result} (hauth : env.rpcenv.getAuthId = .ok auth)
    (htold : ∀ key remote node, runs key remote node → pool.bindingOf key = some (remote, node) →
      env.start.mayModify auth remote → remote ∈ (env.fetch.visibleRemotes auth).map Prod.fst ∧
        nodeKey env.live remote node = some (some key))
    (h : (Request.clearPending digest).run ext env snapshots pool = .ok result) : KeepsRunning runs pool result.1 := by
  obtain ⟨config, response⟩ := result
  cases Request.commits_of_run h with
  | @clearPending _ caller _ hcall hloop =>
    obtain rfl : auth = caller := Except.ok.inj (hauth.symm.trans hcall)
    subst hloop
    refine KeepsRunning.ite ?_ _
    rw [foldl_clearPendingStep_fst]
    intro key remote node hr hb
    obtain ⟨entry, hent, hbound⟩ := Option.bind_eq_some_iff.mp hb
    rw [KeyConfig.bindingOf, OrderedMap.get?_mapValues, hent]
    refine binding_foldl_discard (fun e he hk hrem hnode => ?_) hbound
    obtain ⟨p, -, hfor⟩ := mem_computePending.mp he
    obtain ⟨-, -, may, -⟩ := pendingFor_spec hfor
    by_contra hpush
    subst hk hrem hnode
    obtain ⟨hvis, htells⟩ := htold _ _ _ hr hb may
    refine isPending_iff.mp (isPending_of_push hfor hpush) ?_
    rw [(tells_collectNodeStatus env.fetch env.live auth _).reportedKey_eq, if_pos hvis, htells]

/-! ## Workers -/

namespace Worker

variable {w : Worker} {answer : Except String Unit} {entry e : PendingEntry}

theorem execute_dropping (hdrop : w.dropping = none) (h : (w.execute entry answer).dropping = some e) :
    entry = e ∧ e.op = .clear ∧ ((w.remotes.get? e.remote).isSome → callable e.key ∧ answer = .ok ()) := by
  unfold execute at h
  cases hop : entry.op with
  | push =>
    have hnone : w.dropping = some e := by
      simp only [hop] at h
      split at h
      · exact h
      · split at h <;> exact h
    rw [hdrop] at hnone
    cases hnone
  | clear =>
    simp only [hop] at h
    split at h
    · cases hdrop.symm.trans h
    · next productType product =>
      split at h
      · next remote =>
        obtain rfl := Option.some.inj h
        exact ⟨rfl, hop, fun hsome => by simp [remote] at hsome⟩
      · split at h
        · cases hdrop.symm.trans h
        · next delete =>
          obtain rfl := Option.some.inj h
          refine ⟨rfl, hop, fun _ => ?_⟩
          cases productType <;> simp_all [deleteSubscriptionOnRemote, callable]

theorem next_dropping (h : (w.next config answer).dropping = some e) :
    (w.dropping = some e ∧ w.call config = none) ∨ (e.op = .clear ∧ ((w.call config = some e ∧ answer = .ok ()) ∨
        (w.call config = none ∧ (w.remotes.get? e.remote).isSome = false))) := by
  cases hdrop : w.dropping with
  | some => exact .inl ⟨by simpa [next, hdrop] using h, by simp [call, hdrop]⟩
  | none =>
    cases hp : w.pending with
    | nil => simp [next, hdrop, hp] at h
    | cons entry =>
      simp only [next, hdrop, hp] at h
      split at h
      · next hval =>
        obtain ⟨rfl, hop, hcall⟩ := execute_dropping rfl h
        refine .inr ⟨hop, ?_⟩
        cases hsome : (w.remotes.get? entry.remote).isSome with
        | false => exact .inr ⟨by simp [call, hdrop, hp, hsome], rfl⟩
        | true =>
          obtain ⟨hcalla, hans⟩ := hcall hsome
          exact .inl ⟨by simp [call, hdrop, hp, hval, hsome, hcalla], hans⟩
      · cases h

end Worker

end Nexus.Subscriptions
