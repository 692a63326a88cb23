import Nexus.RemoteTasks.Update
import Nexus.View

/-!
# The task list and views

`remote_tasks::get_tasks` asks `is_node_included` with the node that the UPID names. The node of a PBS remote is always
reported as `localhost`, so rules that name a node by its id can treat the two differently: `getTasks_respects_view_iff`
says when they do not.
-/

namespace Nexus.RemoteTasks

open Lib

/-! ## Native UPIDs -/

structure PveUpid where
  node : String
  pid : Int
  pstart : UInt64
  starttime : Int
  (workerType authId : String)

structure PbsUpid where
  node : String
  pid : Int
  pstart : UInt64
  starttime : Int
  workerType : String
  workerId : Option String
  authId : String

inductive NativeUpid
  | pve (upid : PveUpid)
  | pbs (upid : PbsUpid)

def NativeUpid.node : NativeUpid → String
  | .pve upid => upid.node
  | .pbs upid => upid.node

/-- Not part of the repository. -/
structure UpidParsers where
  pve : String → Option PveUpid
  pbs : String → Option PbsUpid

variable (parsers : UpidParsers) (filters : TaskFilters) (remote : String)

def RemoteUpid.nativeUpid (u : RemoteUpid) : Option NativeUpid :=
  match u.remoteType with
  | .pve => (parsers.pve u.upid).map .pve
  | .pbs => (parsers.pbs u.upid).map .pbs

/-! ## The list -/

structure TaskListItem where
  (upid node : String)
  pid : Int
  pstart : UInt64
  starttime : Int
  workerType : String
  workerId : Option String
  user : String
  endtime : Option Int
  status : Option String

inductive TaskStateType
  | ok | warning | error | unknown
  deriving DecidableEq

def TaskStateType.newFromStr (status : String) : TaskStateType :=
  if status = "unknown" ∨ status = "" then .unknown
  else if status = "OK" then .ok
  else if Text.startsWith status "WARNINGS: " then .warning
  else .error

structure TaskFilters where
  (start limit : UInt64)
  (errors running : Bool)
  userfilter : Option String
  (since until_ : Option Int)
  typefilter : Option String
  statusfilter : Option (List TaskStateType)

def TaskFilters.none : TaskFilters := ⟨0, 0, false, false, .none, .none, .none, .none, .none⟩

def TaskFilters.accepts (item : TaskListItem) : Bool :=
  let state := item.status.map TaskStateType.newFromStr
  !(filters.running && item.endtime.isSome) && filters.until_.all (item.starttime ≤ ·) &&
    filters.since.all (· ≤ item.starttime) && filters.userfilter.all (Text.contains item.user) &&
    filters.typefilter.all (Text.contains item.workerType) &&
    !(filters.errors && state = some .ok) &&
    match state, filters.statusfilter with
    | some state, some states => state ∈ states
    | .none, some _ => false
    | _, .none => true

def TaskCacheItem.item (task : TaskCacheItem) : NativeUpid → TaskListItem
  | .pve u => ⟨task.upid.toString, u.node, u.pid, u.pstart, u.starttime, u.workerType, none, u.authId, task.endtime,
      task.status⟩
  | .pbs u => ⟨task.upid.toString, u.node, u.pid, u.pstart, u.starttime, u.workerType, u.workerId, u.authId,
      task.endtime, task.status⟩

def allowsTask (view : Option View) (checkPrivs : String → Bool) (remote node : String) : Bool :=
  match view with
  | some view => view.isNodeIncluded remote node
  | none => checkPrivs remote

def listedItem (remoteFilter : Option String) (checkPrivs : String → Bool) (view : Option View)
    (task : TaskCacheItem) : Option TaskListItem :=
  if remoteFilter.all (task.upid.remote = ·) then
    match task.upid.nativeUpid parsers with
    | some native => if allowsTask view checkPrivs task.upid.remote native.node then some (task.item native) else none
    | none => none
  else none

def TaskFilters.page (items : List TaskListItem) : List TaskListItem :=
  let rest := items.drop filters.start.toNat
  if filters.limit = 0 then rest else rest.take filters.limit.toNat

def getTaskList (views : ViewsConfig) (parsers : UpidParsers) (filters : TaskFilters) (remoteFilter : Option String)
    (checkPrivs : String → Bool) (view : Option String) (fs : Files) : Except ApiError (List TaskListItem) := do
  let view ← getOptionalView views view
  let which := if filters.running then GetTasks.active else .all
  let items := (getTasks which fs).filterMap (listedItem parsers remoteFilter checkPrivs view)
  return filters.page (items.filter filters.accepts)

/-! ## Reported nodes -/

structure NodeReply where
  status : Option String
  uptime : UInt64

def mapPveNode (node status : Option String) : PveNodeResource :=
  ⟨"remote/" ++ remote ++ "/node/" ++ node.getD "", node.getD "", status.getD ""⟩

def mapPbsNodeStatus (uptime : UInt64) : Resource :=
  .pbsNode ⟨"remote/" ++ remote ++ "/node/localhost", "localhost", uptime⟩

def nodeResource (native : NativeUpid) (reply : NodeReply) : Resource :=
  match native with
  | .pve upid => .pveNode (mapPveNode remote (some upid.node) reply.status)
  | .pbs _ => mapPbsNodeStatus remote reply.uptime

def NativeUpid.reportedNode : NativeUpid → String
  | .pve upid => upid.node
  | .pbs _ => "localhost"

theorem resourceMatches_nodeResource (v : View) (remote : String) (native : NativeUpid) (reply : NodeReply) :
    v.resourceMatches remote (nodeResource remote native reply) = v.isNodeIncluded remote native.reportedNode := by
  cases native with
  | pve => rfl
  | pbs =>
    have id : "remote/" ++ remote ++ "/node/localhost" = "remote/" ++ remote ++ "/node/" ++ "localhost" := by
      rw [show "/node/localhost" = "/node/" ++ "localhost" from rfl, ← String.append_assoc]
    rw [View.resourceMatches, View.isNodeIncluded, View.nodeData, NativeUpid.reportedNode, ← id]
    rfl

/-! ## Rules that name a node -/

open View

variable {remote} {v : View}

/-- The rules take in both nodes or neither. -/
def TreatsAlike (v : View) (remote : String) (native : NativeUpid) : Prop :=
  native.node = native.reportedNode ∨ CoversNodes v.config.excludeRules remote ∨
    (TakesIn v remote native.node ↔ TakesIn v remote native.reportedNode)

theorem treatsAlike_iff {native} : TreatsAlike v remote native ↔
    (v.isNodeIncluded remote native.node ↔ v.isNodeIncluded remote native.reportedNode) := by
  rw [isNodeIncluded_iff, isNodeIncluded_iff, TreatsAlike]
  by_cases hnode : native.node = native.reportedNode
  · simp [hnode]
  · tauto

/-! ## Listed tasks -/

variable {parsers filters} {views : ViewsConfig} {remoteFilter : Option String} {checkPrivs : String → Bool}
  {view : String} {fs : Files} {task : TaskCacheItem} {native : NativeUpid}

/-- The filters ask for the task, and there is no paging. -/
structure Requested (parsers : UpidParsers) (filters : TaskFilters) (remoteFilter : Option String) (fs : Files)
    (task : TaskCacheItem) (native : NativeUpid) : Prop where
  cached : task ∈ getTasks (if filters.running then .active else .all) fs
  remote : ∀ name, remoteFilter = some name → task.upid.remote = name
  accepted : filters.accepts (task.item native)
  unpaged : filters.start = 0 ∧ filters.limit = 0

theorem item_upid (task : TaskCacheItem) (native : NativeUpid) : (task.item native).upid = task.upid.toString := by
  cases native <;> rfl

theorem listedItem_eq_some {item} : listedItem parsers remoteFilter checkPrivs (some v) task = some item ↔
    (∀ name, remoteFilter = some name → task.upid.remote = name) ∧
      ∃ native, task.upid.nativeUpid parsers = some native ∧ v.isNodeIncluded task.upid.remote native.node ∧
        item = task.item native := by
  unfold listedItem
  have filter : remoteFilter.all (task.upid.remote = ·) ↔
      ∀ name, remoteFilter = some name → task.upid.remote = name := by
    cases remoteFilter <;> simp
  rw [← filter]
  cases hnat : task.upid.nativeUpid parsers with
  | none => simp
  | some =>
    simp only [Option.ite_none_right_eq_some, Option.some.injEq, exists_eq_left']
    exact and_congr_right fun _ => and_congr_right fun _ => eq_comm

theorem mem_getTaskList_iff (hview : getOptionalView views (some view) = .ok (some v))
    (hnat : task.upid.nativeUpid parsers = some native) (h : Requested parsers filters remoteFilter fs task native) :
    (∃ out, getTaskList views parsers filters remoteFilter checkPrivs (some view) fs = .ok out ∧
      ∃ item ∈ out, item.upid = task.upid.toString) ↔ v.isNodeIncluded task.upid.remote native.node := by
  have page : ∀ items, filters.page items = items := fun items => by
    simp [TaskFilters.page, h.unpaged.1, h.unpaged.2]
  have out : getTaskList views parsers filters remoteFilter checkPrivs (some view) fs =
      .ok (((getTasks (if filters.running then .active else .all) fs).filterMap
        (listedItem parsers remoteFilter checkPrivs (some v))).filter filters.accepts) := by
    simp only [getTaskList, hview, bind, Except.bind, page, pure, Except.pure]
  rw [out]
  constructor
  · rintro ⟨_, hout, item, hitem, hupid⟩
    obtain rfl := Except.ok.inj hout
    obtain ⟨task', -, hlist⟩ := List.mem_filterMap.mp (List.mem_filter.mp hitem).1
    obtain ⟨-, native', hnat', hincl, rfl⟩ := listedItem_eq_some.mp hlist
    -- the task that is listed has the same UPID, and so the same node
    rw [item_upid] at hupid
    have same := RemoteUpid.toString_injective hupid
    rw [same, hnat] at hnat'
    obtain rfl := Option.some.inj hnat'
    rwa [same] at hincl
  · intro hincl
    have hlist : listedItem parsers remoteFilter checkPrivs (some v) task = some (task.item native) :=
      listedItem_eq_some.mpr ⟨h.remote, native, hnat, hincl, rfl⟩
    exact ⟨_, rfl, _, List.mem_filter.mpr ⟨List.mem_filterMap.mpr ⟨task, h.cached, hlist⟩, h.accepted⟩,
      item_upid task native⟩

theorem exists_views (v) : ∃ views, ∃ view, getOptionalView views (some view) = .ok (some v) := by
  refine ⟨⟨⟨[(v.config.id, v.config)], by simp⟩, by simp⟩, v.config.id, ?_⟩
  exact getOptionalView_some.mpr ⟨v.config, List.mem_singleton.mpr rfl, rfl⟩

theorem exists_requested (parsers) (task) (native) :
    Requested parsers .none none { Files.empty with journal := [task] } task native where
  cached := mem_merge_left _ _ (mem_sortedJournal.mpr (List.mem_singleton.mpr rfl))
  remote := by simp
  accepted := by
    cases hs : task.status <;> cases native <;> simp [TaskFilters.accepts, TaskFilters.none, TaskCacheItem.item, hs]
  unpaged := ⟨rfl, rfl⟩

/-- **A task is listed in a view exactly if the node that is reported for it is in the view, if and only if the rules
treat the node that the UPID names as the reported one.** -/
theorem getTasks_respects_view_iff (parsers : UpidParsers) (v : View) (task : TaskCacheItem) :
    (∀ native, task.upid.nativeUpid parsers = some native →
      ∀ views view filters remoteFilter checkPrivs fs reply, getOptionalView views (some view) = .ok (some v) →
      Requested parsers filters remoteFilter fs task native →
      ((∃ out, getTaskList views parsers filters remoteFilter checkPrivs (some view) fs = .ok out ∧
        ∃ item ∈ out, item.upid = task.upid.toString) ↔
          v.resourceMatches task.upid.remote (nodeResource task.upid.remote native reply))) ↔
    ∀ native, task.upid.nativeUpid parsers = some native → TreatsAlike v task.upid.remote native := by
  refine forall_congr' fun native => forall_congr' fun hnat => ?_
  rw [treatsAlike_iff]
  constructor
  · intro h
    obtain ⟨views, view, hview⟩ := exists_views v
    have requested := exists_requested parsers task native
    have listed := h views view _ _ (fun _ => true) _ ⟨none, 0⟩ hview requested
    rwa [mem_getTaskList_iff hview hnat requested, resourceMatches_nodeResource] at listed
  · intro h views view filters remoteFilter checkPrivs fs reply hview requested
    rw [mem_getTaskList_iff hview hnat requested, resourceMatches_nodeResource, h]

def backupNodeView : View := ⟨⟨"backup", none, [.resourceId (.exact "remote/backup/node/localhost")], []⟩⟩

def backupTask : TaskCacheItem := ⟨⟨"backup", .pbs, "UPID:pbs1:gc", by decide⟩, 100, some "OK", some 120⟩

def backupParsers : UpidParsers :=
  ⟨fun _ => none, fun s => if s = "UPID:pbs1:gc" then
    some ⟨"pbs1", 1, 1, 100, "garbage_collection", none, "root@pam"⟩ else none⟩

/-- The node of the backup server is in the view, and its task is not listed. -/
theorem task_of_backup_node_not_listed : backupNodeView.resourceMatches "backup" (nodeResource "backup"
      (.pbs ⟨"pbs1", 1, 1, 100, "garbage_collection", none, "root@pam"⟩) ⟨none, 1⟩) ∧
    backupTask ∈ getTasks .all { Files.empty with journal := [backupTask] } ∧
    getTaskList ⟨⟨[("backup", backupNodeView.config)], by simp⟩, by simp [backupNodeView]⟩ backupParsers .none none
      (fun _ => true) (some "backup") { Files.empty with journal := [backupTask] } = .ok [] :=
  ⟨by decide, by decide, rfl⟩

end Nexus.RemoteTasks
