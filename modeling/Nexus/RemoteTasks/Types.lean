import Mathlib.Algebra.Group.Int.Defs
import Mathlib.Algebra.GroupWithZero.Nat
import Mathlib.Data.Finset.Basic
import Mathlib.Data.Prod.Lex
import Mathlib.Data.String.Basic
import Mathlib.Order.Compare
import Nexus.Lib.Text

/-!
# Remote tasks and the files of the task cache

`RemoteUpid` and `TaskCacheItem` are the records of the cache, `State` its state file and `Files` everything that it
keeps on disk. Tasks are ordered by start time, and then by the text of the UPID backwards (`compareTasks_eq`,
`taskKey_eq_iff`).
-/

namespace Nexus.RemoteTasks

/-! ## Tasks -/

inductive RemoteType
  | pve
  | pbs
  deriving DecidableEq

def RemoteType.toString : RemoteType → String
  | .pve => "pve"
  | .pbs => "pbs"

structure RemoteUpid where
  remote : String
  remoteType : RemoteType
  upid : String
  remote_safe : '!' ∉ remote.toList
  deriving DecidableEq

def RemoteUpid.toString (u : RemoteUpid) : String :=
  u.remoteType.toString ++ ":" ++ u.remote ++ "!" ++ u.upid

theorem RemoteUpid.toString_injective {u v : RemoteUpid} (h : u.toString = v.toString) : u = v := by
  obtain ⟨r, ty, n, hr⟩ := u
  obtain ⟨r', ty', n', hr'⟩ := v
  have hl : (ty.toString ++ ":").toList ++ (r.toList ++ '!' :: n.toList) =
      (ty'.toString ++ ":").toList ++ (r'.toList ++ '!' :: n'.toList) := by
    simpa [RemoteUpid.toString] using congrArg String.toList h
  have len : ((ty.toString ++ ":").toList).length = ((ty'.toString ++ ":").toList).length := by
    cases ty <;> cases ty' <;> simp [RemoteType.toString]
  obtain ⟨hty, hrest⟩ := List.append_inj hl len
  have hty' : ty = ty' := by
    cases ty <;> cases ty' <;> simp [RemoteType.toString] at hty ⊢
  obtain ⟨hr, hn⟩ := Lib.Text.append_cons_inj hr hr' hrest
  obtain rfl := String.toList_inj.mp hr
  obtain rfl := String.toList_inj.mp hn
  rw [hty']

structure TaskCacheItem where
  upid : RemoteUpid
  starttime : Int
  status : Option String
  endtime : Option Int
  deriving DecidableEq

def TaskCacheItem.finished (t : TaskCacheItem) : Bool := t.endtime.isSome

/-! ## The order of tasks -/

def compareTasks (a b : TaskCacheItem) : Ordering :=
  (compare a.starttime b.starttime).then (compare b.upid.toString a.upid.toString)

def taskKey (t : TaskCacheItem) : Int ×ₗ Stringᵒᵈ := toLex (t.starttime, OrderDual.toDual t.upid.toString)

theorem compareTasks_eq (a) (b) : compareTasks a b = compare (taskKey a) (taskKey b) := rfl

theorem taskKey_eq_iff {a b : TaskCacheItem} : taskKey a = taskKey b ↔ a.starttime = b.starttime ∧ a.upid = b.upid := by
  constructor
  · intro h
    obtain ⟨hs, hu⟩ := Prod.mk.inj (toLex_inj.mp h)
    exact ⟨hs, RemoteUpid.toString_injective (OrderDual.toDual_inj.mp hu)⟩
  · rintro ⟨hs, hu⟩
    simp only [taskKey, hs, hu]

theorem starttime_le_of_taskKey_le {a b} (h : taskKey a ≤ taskKey b) : a.starttime ≤ b.starttime :=
  Prod.Lex.monotone_fst _ _ h

theorem taskKey_lt_of_starttime_lt {a b} (h : a.starttime < b.starttime) : taskKey a < taskKey b :=
  Prod.Lex.toLex_lt_toLex.mpr (.inl h)

/-! ## The state file -/

abbrev Node := String × String

structure State where
  cutoff : Node → Option Int
  trackedTasks : Finset RemoteUpid

def State.empty : State := ⟨fun _ => none, ∅⟩

def State.updateCutoffTimestamp (s : State) (n : Node) (updateFn : Option Int → Int) : State :=
  { s with cutoff := Function.update s.cutoff n (some (updateFn (s.cutoff n))) }

/-! ## The files of the cache -/

/-- The records that can be read, and whether there is more. -/
structure ArchiveFile where
  starttime : Int
  compressed : Bool
  tasks : List TaskCacheItem
  corrupted : Bool
  deriving DecidableEq

/-- `leftovers` are uncompressed files next to compressed ones. -/
structure Archive where
  (files leftovers : List ArchiveFile)
  descending : files.Pairwise fun f g => g.starttime < f.starttime

structure Files where
  archive : Archive
  (journal active : List TaskCacheItem)
  state : State

def Files.empty : Files := ⟨⟨[], [], List.Pairwise.nil⟩, [], [], State.empty⟩

def Files.archived (fs : Files) : List TaskCacheItem := fs.archive.files.flatMap (·.tasks)

/-- `nativeNode` parses UPIDs, and `lineSize` is the bytes of a record. -/
structure TaskCache where
  (journalMaxSize maxFiles uncompressedFiles : Nat)
  rotateAfter : UInt64
  nativeNode : RemoteUpid → Option String
  lineSize : TaskCacheItem → Nat

end Nexus.RemoteTasks
