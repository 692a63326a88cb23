import Nexus.Access
import Nexus.Resource

/-!
# Refreshing the cached update summaries

`refresh_remote_update_summaries` of `server/src/api/remotes/updates.rs`, with the cache of
`server/src/remote_updates.rs`. The handler asks the remotes that the caller may modify, and a final pass takes every
remote that was not asked for a removed one (`refresh_keepsToCaller_iff`).
-/

namespace Nexus.RemoteUpdates

open Lib (OrderedMap)

/-! ## Summaries -/

inductive RemoteUpdateStatus
  | success | error | unknown

inductive NodeUpdateStatus
  | success
  | error

inductive ProductRepositoryStatus
  | ok | nonProductionReady | missingSubscriptionForEnterprise | noProductRepository | error

structure PackageVersion where
  (package version : String)

structure NodeUpdateSummary where
  numberOfUpdates : UInt32
  lastRefresh : Int
  status : NodeUpdateStatus
  statusMessage : Option String
  versions : List PackageVersion
  repositoryStatus : ProductRepositoryStatus

structure RemoteUpdateSummary where
  nodes : OrderedMap String NodeUpdateSummary
  remoteType : RemoteType
  status : RemoteUpdateStatus
  statusMessage : Option String

abbrev UpdateSummary := OrderedMap String RemoteUpdateSummary

structure NodeUpdateInfo where
  updates : List String
  lastRefresh : Int
  versions : List PackageVersion
  repositoryStatus : ProductRepositoryStatus

def NodeUpdateInfo.toSummary (value : NodeUpdateInfo) : NodeUpdateSummary where
  numberOfUpdates := UInt32.ofNat value.updates.length
  lastRefresh := value.lastRefresh
  status := .success
  statusMessage := none
  versions := value.versions
  repositoryStatus := value.repositoryStatus

def nodeErrorSummary (err : String) : NodeUpdateSummary where
  numberOfUpdates := 0
  lastRefresh := 0
  status := .error
  statusMessage := some err
  versions := []
  repositoryStatus := .error

def nodeSummary : Except String NodeUpdateInfo → NodeUpdateSummary
  | .ok updateInfo => updateInfo.toSummary
  | .error err => nodeErrorSummary err

/-! ## Asking the remotes -/

structure Fetch where
  listNodes : Remote → Except String (List String)
  fetchAvailableUpdates : Remote → String → Except String NodeUpdateInfo

structure NodeResponse where
  nodeName : String
  data : Except String NodeUpdateInfo

structure RemoteResponse where
  remote : String
  remoteType : RemoteType
  nodes : Except String (List NodeResponse)

variable (fetch : Fetch) (content : UpdateSummary)

def Fetch.nodes (remote : Remote) : Except String (List String) :=
  match remote.ty with
  | .pve => fetch.listNodes remote
  | .pbs => .ok ["localhost"]

def Fetch.remoteResponse (remote : Remote) : RemoteResponse :=
  ⟨remote.id, remote.ty,
    (fetch.nodes remote).map fun nodes => nodes.map fun node => ⟨node, fetch.fetchAvailableUpdates remote node⟩⟩

def Fetch.responses (remotes : List Remote) : List RemoteResponse :=
  (remotes.map fetch.remoteResponse).mergeSort fun a b => a.remote ≤ b.remote

def Fetch.asked (remotes : List Remote) : List (Remote × String) :=
  remotes.flatMap fun remote => match fetch.nodes remote with
    | .ok nodes => nodes.map fun node => (remote, node)
    | .error _ => []

/-! ## Writing to the cache -/

/-- What comes of an access to the cache. -/
inductive Access
  | written | unreadable | failed
  deriving DecidableEq

def Access.change (access : Access) (f : UpdateSummary → UpdateSummary) (content : UpdateSummary) : UpdateSummary :=
  match access with
  | .written => f content
  | .unreadable => f .empty
  | .failed => content

def entryOr (remote : String) (remoteType : RemoteType) : RemoteUpdateSummary :=
  (content.get? remote).getD ⟨.empty, remoteType, .success, none⟩

def updateCachedSummaryForNode (remote : Remote) (node : String) (nodeData : NodeUpdateSummary)
    (content : UpdateSummary) : UpdateSummary :=
  let entry := entryOr content remote.id remote.ty
  content.insert remote.id { entry with nodes := entry.nodes.insert node nodeData }

def refreshEntry (response : RemoteResponse) (entry : RemoteUpdateSummary) : RemoteUpdateSummary :=
  match response.nodes with
  | .ok nodeResponses =>
    { entry with
      nodes := nodeResponses.foldl (fun nodes n => nodes.insert n.nodeName (nodeSummary n.data))
        (entry.nodes.retain fun name _ => nodeResponses.any (·.nodeName = name))
      status := .success
      statusMessage := none }
  | .error err => { entry with status := .error, statusMessage := some err, nodes := .empty }

def finalPass (responses : List RemoteResponse) (content : UpdateSummary) : UpdateSummary :=
  responses.foldl (fun content r => content.insert r.remote (refreshEntry r (entryOr content r.remote r.remoteType)))
    (content.retain fun remote _ => responses.any (·.remote = remote))

/-- The answers, the order of the writes, and what comes of them. -/
structure Course (remotes : List Remote) where
  fetch : Fetch
  writes : List ((Remote × String) × Access)
  all : (writes.map Prod.fst).Perm (fetch.asked remotes)
  final : Access

def Fetch.write (w : (Remote × String) × Access) : UpdateSummary :=
  w.2.change (updateCachedSummaryForNode w.1.1 w.1.2 (nodeSummary (fetch.fetchAvailableUpdates w.1.1 w.1.2))) content

def refreshUpdateSummaryCache {remotes : List Remote} (course : Course remotes) (content : UpdateSummary) :
    UpdateSummary :=
  course.final.change (finalPass (course.fetch.responses remotes)) (course.writes.foldl course.fetch.write content)

/-! ## The handler -/

structure World where
  userInfo : CachedUserInfo
  remotes : RemotesConfig

def World.MayModify (w : World) (auth : Authid) (remote : String) : Prop :=
  w.userInfo.Holds auth ["resource", remote] privResourceModify

instance (w : World) (auth : Authid) (remote : String) : Decidable (w.MayModify auth remote) :=
  inferInstanceAs (Decidable (CachedUserInfo.Holds _ _ _ _))

def World.modifiable (w : World) (auth : Authid) : List Remote :=
  (w.remotes.entries.filter fun p => w.MayModify auth p.1).map Prod.snd

def refreshRemoteUpdateSummaries (w : World) (rpcenv : RpcEnvironment) : Except ApiError (List Remote) := do
  let authId ← rpcenv.getAuthId
  if !(← w.userInfo.anyPrivsBelow authId ["resource"] privResourceModify) then
    throw (.forbidden "user has no access to resources")
  return w.modifiable authId

/-! ## What a refresh leaves alone -/

variable {content} {w : World} {auth : Authid} {remotes : List Remote} {id : String}

def KeptOrGone (before after : Option RemoteUpdateSummary) : Prop := after = before ∨ after = none

theorem KeptOrGone.trans {a b c} (h : KeptOrGone a b) (h' : KeptOrGone b c) : KeptOrGone a c := by
  rcases h' with rfl | rfl
  · exact h
  · exact .inr rfl

theorem keptOrGone_change {f} (access : Access) (h : ∀ content, KeptOrGone (content.get? id) ((f content).get? id)) :
    KeptOrGone (content.get? id) ((access.change f content).get? id) := by
  cases access with
  | written => exact h content
  | unreadable => exact .inr ((h .empty).elim (fun e => e) fun e => e)
  | failed => exact .inl rfl

theorem get?_finalPass {responses} (h : ∀ r ∈ responses, id ≠ r.remote)
    (content) : (finalPass responses content).get? id = none := by
  have start : (content.retain fun remote _ => responses.any (·.remote = remote)).get? id = none := by
    have unanswered : (responses.any (·.remote = id)) = false := by
      refine List.any_eq_false.mpr fun r hr => ?_
      simpa using Ne.symm (h r hr)
    rw [OrderedMap.get?_retain_key content (fun remote => responses.any (·.remote = remote)), unanswered]
    rfl
  refine List.foldlRecOn (motive := fun c : UpdateSummary => c.get? id = none) _ _ start fun c hc r hr => ?_
  rw [OrderedMap.get?_insert, if_neg (h r hr), hc]

theorem remote_of_mem_responses {fetch : Fetch} {r : RemoteResponse} (h : r ∈ fetch.responses remotes) :
    ∃ remote ∈ remotes, r.remote = remote.id := by
  obtain ⟨remote, hrem, rfl⟩ := List.mem_map.mp (List.mem_mergeSort.mp h)
  exact ⟨remote, hrem, rfl⟩

theorem remote_of_mem_asked {fetch : Fetch} {a : Remote × String} (h : a ∈ fetch.asked remotes) : a.1 ∈ remotes := by
  obtain ⟨remote, hrem, h⟩ := List.mem_flatMap.mp h
  cases hn : fetch.nodes remote with
  | error => simp [hn] at h
  | ok =>
    rw [hn] at h
    obtain ⟨node, -, rfl⟩ := List.mem_map.mp h
    exact hrem

theorem keptOrGone_write {fetch : Fetch} {a : (Remote × String) × Access} (h : id ≠ a.1.1.id) :
    KeptOrGone (content.get? id) ((fetch.write content a).get? id) :=
  keptOrGone_change a.2 fun content => .inl (by rw [updateCachedSummaryForNode, OrderedMap.get?_insert, if_neg h])

theorem keptOrGone_refresh (content : UpdateSummary) (course : Course remotes)
    (h : ∀ remote ∈ remotes, id ≠ remote.id) :
    KeptOrGone (content.get? id) ((refreshUpdateSummaryCache course content).get? id) := by
  have written : KeptOrGone (content.get? id) ((course.writes.foldl course.fetch.write content).get? id) := by
    refine List.foldlRecOn (motive := fun c : UpdateSummary => KeptOrGone (content.get? id) (c.get? id)) _ _
      (.inl rfl) fun c hc a ha => ?_
    have asked : a.1 ∈ course.fetch.asked remotes := course.all.mem_iff.mp (List.mem_map_of_mem ha)
    exact hc.trans (keptOrGone_write (h _ (remote_of_mem_asked asked)))
  refine written.trans (keptOrGone_change course.final fun content => .inr (get?_finalPass (fun r hr => ?_) content))
  obtain ⟨remote, hrem, e⟩ := remote_of_mem_responses hr
  exact e ▸ h remote hrem

theorem mem_modifiable {remote} (h : remote ∈ w.modifiable auth) :
    w.remotes.get? remote.id = some remote ∧ w.MayModify auth remote.id := by
  obtain ⟨p, hp, rfl⟩ := List.mem_map.mp h
  obtain ⟨hp, may⟩ := List.mem_filter.mp hp
  have hid := w.remotes.id_eq p hp
  rw [hid]
  exact ⟨OrderedMap.get?_eq_some.mpr hp, of_decide_eq_true may⟩

theorem ne_of_not_mayModify (h : ¬ w.MayModify auth id) : ∀ remote ∈ w.modifiable auth, id ≠ remote.id := by
  rintro remote hrem rfl
  exact h (mem_modifiable hrem).2

theorem ne_of_not_configured (h : w.remotes.get? id = none) : ∀ remote ∈ w.modifiable auth, id ≠ remote.id := by
  rintro remote hrem rfl
  cases h.symm.trans (mem_modifiable hrem).1

theorem refreshRemoteUpdateSummaries_eq_ok {rpcenv} :
    refreshRemoteUpdateSummaries w rpcenv = .ok remotes ↔ ∃ auth, rpcenv.getAuthId = .ok auth ∧
      w.userInfo.anyPrivsBelow auth ["resource"] privResourceModify = .ok true ∧ remotes = w.modifiable auth := by
  unfold refreshRemoteUpdateSummaries
  cases ha : rpcenv.getAuthId with
  | error => simp [bind, Except.bind]
  | ok auth =>
    cases hp : w.userInfo.anyPrivsBelow auth ["resource"] privResourceModify with
    | error => simp [bind, Except.bind, hp]
    | ok below =>
      cases below <;> simp [bind, Except.bind, hp, pure, Except.pure, throw, throwThe, MonadExceptOf.throw, eq_comm]

/-! ## The result -/

/-- Entries of other configured remotes are as before. -/
structure KeepsToCaller (w : World) (auth : Authid) (before after : UpdateSummary) : Prop where
  others : ∀ id, (w.remotes.get? id).isSome → ¬ w.MayModify auth id → after.get? id = before.get? id
  unconfigured : ∀ id, w.remotes.get? id = none → after.get? id = before.get? id ∨ after.get? id = none

def unreachable (remotes : List Remote) : Course remotes where
  fetch := ⟨fun _ => .error "unreachable", fun _ _ => .error "unreachable"⟩
  writes := (Fetch.asked ⟨fun _ => .error "unreachable", fun _ _ => .error "unreachable"⟩ remotes).map (·, .written)
  all := by simp [Function.comp_def]
  final := .written

theorem get?_unreachable (h : ∀ remote ∈ remotes, id ≠ remote.id) :
    (refreshUpdateSummaryCache (unreachable remotes) content).get? id = none := by
  refine get?_finalPass (fun r hr => ?_) _
  obtain ⟨remote, hrem, e⟩ := remote_of_mem_responses hr
  exact e ▸ h remote hrem

/-- **A refresh keeps to the remotes of the caller exactly if every configured remote with a cached entry is one that
the caller may modify** (or the caller is refused). -/
theorem refresh_keepsToCaller_iff (w : World) (rpcenv : RpcEnvironment) (content : UpdateSummary) :
    (∀ auth remotes, rpcenv.getAuthId = .ok auth → refreshRemoteUpdateSummaries w rpcenv = .ok remotes →
      ∀ course : Course remotes, KeepsToCaller w auth content (refreshUpdateSummaryCache course content)) ↔
    (∀ auth, rpcenv.getAuthId = .ok auth → w.userInfo.anyPrivsBelow auth ["resource"] privResourceModify = .ok true →
      ∀ id, (w.remotes.get? id).isSome → (content.get? id).isSome → w.MayModify auth id) := by
  constructor
  · intro h auth hauth hbelow id configured cached
    by_contra may
    have run := refreshRemoteUpdateSummaries_eq_ok.mpr ⟨auth, hauth, hbelow, rfl⟩
    have kept := (h auth _ hauth run (unreachable _)).others id configured may
    rw [get?_unreachable (ne_of_not_mayModify may)] at kept
    simp [← kept] at cached
  · intro h auth remotes hauth hrun course
    obtain ⟨auth', hauth', hbelow, rfl⟩ := refreshRemoteUpdateSummaries_eq_ok.mp hrun
    cases hauth.symm.trans hauth'
    refine ⟨fun id configured may => ?_, fun id hnone => keptOrGone_refresh content course (ne_of_not_configured hnone)⟩
    have notCached : content.get? id = none := by
      cases hc : content.get? id with
      | none => rfl
      | some entry => exact absurd (h auth hauth hbelow id configured (by simp [hc])) may
    rcases keptOrGone_refresh content course (ne_of_not_mayModify may) with e | e
    · exact e
    · rw [e, notCached]

namespace Sample

def world : World where
  userInfo :=
    { lookupPrivs := fun _ path => if path = ["resource", "east"] then privResourceModify else 0
      anyPrivsBelow := fun _ _ _ => .ok true }
  remotes :=
    { entries := [("east", ⟨.pve, "east"⟩), ("west", ⟨.pve, "west"⟩)], keys_nodup := by decide, id_eq := by decide }

def cached (entries : List String) (h : entries.Nodup) : UpdateSummary :=
  ⟨entries.map fun id => (id, ⟨.empty, .pve, .success, none⟩), by simpa [List.map_map, Function.comp_def] using h⟩

end Sample

open Sample

/-- The cached entry of `west` is gone, which the caller may not modify. -/
theorem refresh_drops_entry_of_other_remote :
    refreshRemoteUpdateSummaries world ⟨some (.ok "joe@pve")⟩ = .ok [⟨.pve, "east"⟩] ∧
    ¬ world.MayModify "joe@pve" "west" ∧ (world.remotes.get? "west").isSome ∧
    ((cached ["east", "west"] (by decide)).get? "west").isSome ∧
    ((refreshUpdateSummaryCache (unreachable [⟨.pve, "east"⟩]) (cached ["east", "west"] (by decide))).get?
      "west").isSome = false := by
  refine ⟨by decide, by decide, by decide, by decide, ?_⟩
  rw [get?_unreachable (by decide)]
  rfl

end Nexus.RemoteUpdates
