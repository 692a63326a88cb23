import Mathlib.Data.List.Induction
import Mathlib.Data.List.Perm.Basic
import Mathlib.Data.Nat.Basic
import Nexus.Lib.BinarySearch
import Nexus.Resource

/-!
# The entities with the highest usage

`calculate_top` of `server/src/metric_collection/top_entities.rs` keeps three lists of entities, each sorted by a
coefficient and cut to a number of entries (`insertSorted`). These are the entries with the largest coefficients
(`topK`, `calculateTop_best`).
-/

namespace Nexus.Metrics

open Lib List Prod

variable {T : Type*}

/-! ## A list of limited length -/

variable (limit : Nat) (vec : List (Nat × T))

def insertSorted (value : Nat × T) : List (Nat × T) :=
  let index := BinarySearch.place fst value.1 vec
  let vec := vec.insertIdx index value
  if limit < vec.length then (List.range (vec.length - limit)).foldl (fun vec _ => vec.tail) vec else vec

/-- The `limit` largest that were seen, in rising order. -/
structure Top (limit : Nat) (seen vec : List (Nat × T)) : Prop where
  length_eq : vec.length = min limit seen.length
  sorted : vec.Pairwise fun a b => a.1 ≤ b.1
  largest : ∃ rest, (vec ++ rest).Perm seen ∧ ∀ a ∈ vec, ∀ b ∈ rest, b.1 ≤ a.1

theorem foldl_tail (vec : List (Nat × T)) : ∀ n, (List.range n).foldl (fun vec _ => vec.tail) vec = vec.drop n
  | 0 => rfl
  | n + 1 => by rw [range_succ, foldl_append, foldl_tail vec n, foldl_cons, foldl_nil, tail_drop]

theorem insertSorted_eq (value : Nat × T) : insertSorted limit vec value =
      (vec.insertIdx (BinarySearch.place fst value.1 vec) value).drop
        ((vec.insertIdx (BinarySearch.place fst value.1 vec) value).length - limit) := by
  unfold insertSorted
  simp only
  split
  · rw [foldl_tail]
  · next h =>
    rw [Nat.sub_eq_zero_of_le (Nat.le_of_not_lt h)]
    rfl

theorem top_nil : Top limit ([] : List (Nat × T)) [] := ⟨by simp, .nil, [], .nil, by simp⟩

theorem Top.insertSorted {limit seen vec} (h : Top limit seen vec) (value : Nat × T) :
    Top limit (seen ++ [value]) (insertSorted limit vec value) := by
  obtain ⟨rest, hperm, largest⟩ := h.largest
  rw [insertSorted_eq]
  have hsort : (vec.insertIdx (BinarySearch.place fst value.1 vec) value).Pairwise fun a b => a.1 ≤ b.1 :=
    BinarySearch.pairwise_insertIdx h.sorted value
  have hplace : BinarySearch.place fst value.1 vec ≤ vec.length := (BinarySearch.place_spec h.sorted value.1).1
  have insert := perm_insertIdx value vec hplace
  generalize vec.insertIdx (BinarySearch.place fst value.1 vec) value = w at hsort insert
  have hlen : w.length = vec.length + 1 := by rw [insert.length_eq, length_cons]
  have hvec := h.length_eq
  have hseen : vec.length + rest.length = seen.length := by rw [← length_append, hperm.length_eq]
  refine ⟨?_, hsort.sublist (drop_sublist _ _), w.take (w.length - limit) ++ rest, ?_, ?_⟩
  · rw [length_drop, length_append, length_singleton]
    omega
  · have parts : (w.drop (w.length - limit) ++ w.take (w.length - limit)).Perm w := by
      refine perm_append_comm.trans ?_
      rw [take_append_drop]
    rw [← append_assoc]
    refine ((parts.trans insert).append_right rest).trans ?_
    exact (hperm.cons value).trans (perm_append_singleton value seen).symm
  · intro a ha b hb
    obtain hrem | hrest := mem_append.mp hb
    · -- what was removed just now is at the front of the sorted list
      rw [← take_append_drop (w.length - limit) w] at hsort
      exact (pairwise_append.mp hsort).2.2 b hrem a ha
    · -- something was removed before, so there is one entry too many
      have hone : w.length - limit = 1 := by
        have hpos := length_pos_of_mem hrest
        omega
      rw [hone] at ha
      cases w with
      | nil => cases ha
      | cons c =>
        by_cases hc : c = value
        · subst hc
          exact largest a ((perm_cons _).mp insert |>.mem_iff.mp ha) b hrest
        · have hcvec : c ∈ vec := (mem_cons.mp (insert.mem_iff.mp mem_cons_self)).resolve_left hc
          exact (largest c hcvec b hrest).trans ((pairwise_cons.mp hsort).1 a ha)

def insertAll (values : List (Nat × T)) : List (Nat × T) := values.foldl (insertSorted limit) []

/-- **The list has the entries with the largest keys**, in the order of the keys. -/
theorem topK (limit : Nat) (values : List (Nat × T)) : Top limit values (insertAll limit values) := by
  induction values using List.reverseRecOn with
  | nil => exact top_nil limit
  | append_singleton values value ih =>
    rw [insertAll, foldl_append]
    exact ih.insertSorted value

/-! ## The three lists -/

structure RrdData where
  (start resolution : UInt64)
  data : List (Option Float)

structure TopEntity where
  remote : String
  resource : Resource
  rrdData : RrdData

def calculateCoefficient (values : RrdData) : Float :=
  values.data.foldl (fun coefficient point =>
    if (point.getD 0).isFinite then coefficient + point.getD 0 else coefficient) 0

def getEntity (extractData : String → String → Option RrdData) (remoteName : String) (res : Resource)
    (name metric : String) : Option (Float × TopEntity) :=
  (extractData name metric).bind fun values =>
    let coefficient := calculateCoefficient values
    if coefficient > 0 then some (coefficient, ⟨remoteName, res, values⟩) else none

def toKey (x : Float) : Nat := x.round.toUInt64.toNat

structure CachedRemote where
  name : String
  ty : RemoteType
  resources : Option (List Resource)

inductive Candidate
  | guestCpu (key : Nat) (entity : TopEntity)
  | nodeCpu (key : Nat) (entity : TopEntity)
  | nodeMemory (key : Nat) (entity : TopEntity)

def memoryCandidate (mem memTotal : Float × TopEntity) : Option Candidate :=
  let memRrd := mem.2.rrdData.data
  let memTotalRrd := memTotal.2.rrdData.data
  if memRrd.length ≠ memTotalRrd.length then none
  else
    let memUsage := (memRrd.zip memTotalRrd).map fun p =>
      match p with
      | (some mem, some total) => some (mem / total)
      | _ => none
    some (.nodeMemory (toKey (100 * mem.1 / memTotal.1))
      { mem.2 with rrdData := { mem.2.rrdData with data := memUsage } })

def candidatesOf (extractData : String → String → Option RrdData) (remote : CachedRemote) (res : Resource) :
    List Candidate :=
  let name := "pve/" ++ remote.name ++ "/" ++ res.id
  match res with
  | .pveStorage _ | .pveNetwork _ | .pbsDatastore _ => []
  | .pveQemu _ | .pveLxc _ =>
    ((getEntity extractData remote.name res name "cpu_current").map fun entity =>
      Candidate.guestCpu (toKey (entity.1 * 100)) entity.2).toList
  | .pveNode _ | .pbsNode _ =>
    -- the values of a node of a backup server are always kept under the same name
    let name := if remote.ty = .pbs then "pbs/" ++ remote.name ++ "/host" else name
    let cpu := (getEntity extractData remote.name res name "cpu_current").map fun entity =>
      Candidate.nodeCpu (toKey (entity.1 * 100)) entity.2
    let memory := (getEntity extractData remote.name res name "mem_used").bind fun mem =>
      (getEntity extractData remote.name res name "mem_total").bind fun memTotal => memoryCandidate mem memTotal
    cpu.toList ++ memory.toList

structure Tops where
  (guestCpu nodeCpu nodeMemory : List (Nat × TopEntity))

def Tops.insert (num : Nat) (tops : Tops) : Candidate → Tops
  | .guestCpu key entity => { tops with guestCpu := insertSorted num tops.guestCpu (key, entity) }
  | .nodeCpu key entity => { tops with nodeCpu := insertSorted num tops.nodeCpu (key, entity) }
  | .nodeMemory key entity => { tops with nodeMemory := insertSorted num tops.nodeMemory (key, entity) }

structure TopEntities where
  (guestCpu nodeCpu nodeMemory : List TopEntity)

variable (extractData : String → String → Option RrdData) (remotes : List CachedRemote) (num : Nat)
  (checkRemotePrivs : String → Bool) (isResourceIncluded : String → Resource → Bool)

def fillFrom (tops : Tops) (remote : CachedRemote) : Tops :=
  if !checkRemotePrivs remote.name then tops
  else
    (remote.resources.getD []).foldl (fun tops res => if !isResourceIncluded remote.name res then tops
      else (candidatesOf extractData remote res).foldl (Tops.insert num) tops) tops

def calculateTop : TopEntities :=
  let tops := remotes.foldl (fillFrom extractData num checkRemotePrivs isResourceIncluded) ⟨[], [], []⟩
  ⟨tops.guestCpu.map snd, tops.nodeCpu.map snd, tops.nodeMemory.map snd⟩

def candidates : List Candidate :=
  (remotes.filter fun remote => checkRemotePrivs remote.name).flatMap fun remote =>
    ((remote.resources.getD []).filter (isResourceIncluded remote.name)).flatMap (candidatesOf extractData remote)

def Candidate.forGuestCpu : Candidate → Option (Nat × TopEntity)
  | .guestCpu key entity => some (key, entity)
  | _ => none

def Candidate.forNodeCpu : Candidate → Option (Nat × TopEntity)
  | .nodeCpu key entity => some (key, entity)
  | _ => none

def Candidate.forNodeMemory : Candidate → Option (Nat × TopEntity)
  | .nodeMemory key entity => some (key, entity)
  | _ => none

theorem fillFrom_eq (tops) (remote) :
    fillFrom extractData num checkRemotePrivs isResourceIncluded tops remote = (if checkRemotePrivs remote.name then
        ((remote.resources.getD []).filter (isResourceIncluded remote.name)).flatMap (candidatesOf extractData remote)
      else []).foldl (Tops.insert num) tops := by
  unfold fillFrom
  cases checkRemotePrivs remote.name with
  | false => rfl
  | true =>
    simp only [Bool.not_true, Bool.false_eq_true, if_false, if_true]
    generalize remote.resources.getD [] = resources
    induction resources generalizing tops with
    | nil => rfl
    | cons res _ ih =>
      rw [foldl_cons, ih, filter_cons]
      cases isResourceIncluded remote.name res with
      | false => rfl
      | true => simp [foldl_append]

theorem foldl_fillFrom (tops) : remotes.foldl (fillFrom extractData num checkRemotePrivs isResourceIncluded) tops =
    (candidates extractData remotes checkRemotePrivs isResourceIncluded).foldl (Tops.insert num) tops := by
  unfold candidates
  induction remotes generalizing tops with
  | nil => rfl
  | cons remote _ ih =>
    rw [foldl_cons, ih, fillFrom_eq, filter_cons]
    cases checkRemotePrivs remote.name with
    | false => rfl
    | true => simp [foldl_append]

structure Tops.Best (num : Nat) (seen : List Candidate) (tops : Tops) : Prop where
  guestCpu : Top num (seen.filterMap Candidate.forGuestCpu) tops.guestCpu
  nodeCpu : Top num (seen.filterMap Candidate.forNodeCpu) tops.nodeCpu
  nodeMemory : Top num (seen.filterMap Candidate.forNodeMemory) tops.nodeMemory

variable {num}

theorem Tops.Best.insert {seen tops} (h : Tops.Best num seen tops) (c : Candidate) :
    Tops.Best num (seen ++ [c]) (tops.insert num c) := by
  obtain ⟨hguest, hnode, hmem⟩ := h
  have hnil : ∀ {l vec}, Top num (T := TopEntity) l vec → Top num (l ++ []) vec := by simp
  cases c <;> constructor <;> rw [filterMap_append]
  exacts [hguest.insertSorted _, hnil hnode, hnil hmem, hnil hguest, hnode.insertSorted _, hnil hmem,
    hnil hguest, hnil hnode, hmem.insertSorted _]

theorem Tops.Best.foldl_insert (cs) : Tops.Best num cs (cs.foldl (Tops.insert num) ⟨[], [], []⟩) := by
  induction cs using List.reverseRecOn with
  | nil => exact ⟨top_nil num, top_nil num, top_nil num⟩
  | append_singleton cs c ih =>
    rw [foldl_append]
    exact ih.insert c

/-- **Each list has the entities with the largest coefficients** among those of the resources that the caller may see.
-/
theorem calculateTop_best :
    ∃ tops, Tops.Best num (candidates extractData remotes checkRemotePrivs isResourceIncluded) tops ∧
      calculateTop extractData remotes num checkRemotePrivs isResourceIncluded =
        ⟨tops.guestCpu.map snd, tops.nodeCpu.map snd, tops.nodeMemory.map snd⟩ := by
  refine ⟨_, Tops.Best.foldl_insert _, ?_⟩
  rw [calculateTop, foldl_fillFrom]

end Nexus.Metrics
