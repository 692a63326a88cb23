import Mathlib.Data.Int.Order.Basic

/-!
# The cache of API responses

One entry of `server/src/namespaced_cache.rs`: a value with the time of its creation, read with a maximum age, and
replaced only by a value that is not older. Other requests may touch the entry between two accesses of one request, so
each access is given what it finds (`CacheLook`).
-/

namespace Nexus

structure CacheEntry (α : Type) where
  timestamp : Int
  value : α

def CacheEntry.isExpired {α : Type} (e : CacheEntry α) (now maxAge : Int) : Bool :=
  if maxAge = 0 then true else decide (now - e.timestamp ≥ maxAge) || decide (now - e.timestamp < 0)

theorem CacheEntry.isExpired_eq_false {α : Type} {e : CacheEntry α} {now maxAge : Int}
    (h : e.isExpired now maxAge = false) : e.timestamp ≤ now ∧ now - e.timestamp < maxAge := by
  unfold CacheEntry.isExpired at h
  split at h
  · cases h
  · simp only [Bool.or_eq_false_iff, decide_eq_false_iff_not] at h
    omega

structure CacheLook (α : Type) where
  entry : Except String (Option (CacheEntry α))
  now : Int

def CacheLook.getWithMaxAge {α : Type} (look : CacheLook α) (maxAge : Int) : Except String (Option α) :=
  look.entry.map fun entry => match entry with
    | some e => if e.isExpired look.now maxAge then none else some e.value
    | none => none

def CacheLook.setIfNewer {α : Type} (look : CacheLook α) (timestamp : Int) : Except String (Option α) :=
  look.entry.map fun entry => match entry with
    | some e => if e.timestamp > timestamp then some e.value else none
    | none => none

end Nexus
