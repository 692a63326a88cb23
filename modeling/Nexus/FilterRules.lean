import Nexus.Lib.Text
import Nexus.View

/-!
# The text of filter rules

`FromStr` and `Display` of `FilterRule` in `lib/pdm-api-types/src/views.rs`, the form of the rules in `views.cfg`. The
pattern of safe ids is a parameter.
-/

namespace Nexus

open Lib String

def ResourceType.fromStr (s : String) : Except ApiError ResourceType :=
  if s = "storage" then .ok .pveStorage
  else if s = "qemu" then .ok .pveQemu
  else if s = "lxc" then .ok .pveLxc
  else if s = "network" then .ok .pveNetwork
  else if s = "datastore" then .ok .pbsDatastore
  else if s = "node" then .ok .node
  else .error (.other "invalid resource type")

theorem ResourceType.fromStr_eq_ok_iff {s t} : fromStr s = .ok t ↔ s = t.asStr := by
  constructor
  · intro h
    unfold fromStr at h
    repeat' split at h
    all_goals cases h
    all_goals assumption
  · rintro rfl
    cases t <;> rfl

variable (isSafeId : String → Bool)

/-- `GLOBAL_RESOURCE_ID_REGEX`. -/
def isGlobalResourceId (s : String) : Bool :=
  let parts := Text.split '/' s
  2 ≤ parts.length && parts.all isSafeId

namespace FilterRule

def ofValue (isMatch : String → Bool) (message : String → String) (rule : StringMatcher → FilterRule) (value : String) :
    Except ApiError FilterRule :=
  if isMatch value then .ok (rule (.exact value)) else .error (.other (message value))

variable (schemaError : String → String)

/-- `schemaError` is what `REMOTE_ID_SCHEMA`, which has the same pattern, says of a value that is not a safe id. -/
def parseFilterRule (s : String) : Except ApiError FilterRule :=
  match Text.splitOnce '=' s with
  | none => .error (.other ("invalid filter rule: " ++ s))
  | some (ty, value) =>
    if ty = "resource-type" then (ResourceType.fromStr value).map fun t => .resourceType ⟨t⟩
    else if ty = "resource-pool" then ofValue isSafeId ("invalid resource-pool value: " ++ ·) .resourcePool value
    else if ty = "resource-id" then ofValue (isGlobalResourceId isSafeId)
      ("invalid resource-id value: " ++ ·) .resourceId value
    else if ty = "tag" then ofValue isSafeId ("invalid tag value: " ++ ·) .tag value
    else if ty = "remote" then ofValue isSafeId schemaError .remote value
    else .error (.other ("invalid type: " ++ ty))

def fromStr (s : String) : Except ApiError FilterRule :=
  if Text.startsWith s "exact:" then parseFilterRule isSafeId schemaError (ofList (s.toList.drop "exact:".length))
  else parseFilterRule isSafeId schemaError s

def toString : FilterRule → String
  | .resourceType ⟨t⟩ => "exact:resource-type=" ++ t.asStr
  | .resourceId (.exact value) => "exact:resource-id=" ++ value
  | .tag (.exact value) => "exact:tag=" ++ value
  | .remote (.exact value) => "exact:remote=" ++ value
  | .resourcePool (.exact value) => "exact:resource-pool=" ++ value

/-- The value has the form that its type asks for. -/
def WellFormed : FilterRule → Prop
  | .resourceType _ => True
  | .resourceId (.exact value) => isGlobalResourceId isSafeId value
  | .resourcePool (.exact value) | .tag (.exact value) | .remote (.exact value) => isSafeId value

def ty : FilterRule → String
  | .resourceType _ => "resource-type"
  | .resourceId _ => "resource-id"
  | .tag _ => "tag"
  | .remote _ => "remote"
  | .resourcePool _ => "resource-pool"

def value : FilterRule → String
  | .resourceType ⟨t⟩ => t.asStr
  | .resourceId (.exact value) | .tag (.exact value) | .remote (.exact value) | .resourcePool (.exact value) => value

variable {isSafeId} {schemaError} {s : String} {r : FilterRule}

theorem toString_eq (r : FilterRule) : r.toString = "exact:" ++ (r.ty ++ "=" ++ r.value) := by
  rw [← append_assoc, ← append_assoc]
  rcases r with ⟨⟩ | ⟨⟩ | ⟨⟩ | ⟨⟩ | ⟨⟩ <;> rfl

theorem splitOnce_eq_some_iff : Text.splitOnce '=' s = some (r.ty, r.value) ↔ "exact:" ++ s = r.toString := by
  have hty : '=' ∉ r.ty.toList := by
    cases r <;> dsimp only [ty] <;> decide
  rw [toString_eq, append_right_inj, Text.splitOnce_eq_some, and_iff_left hty, ← toList_inj]
  simp

theorem ofValue_eq_ok_iff {isMatch message rule value} :
    ofValue isMatch message rule value = .ok r ↔ isMatch value ∧ rule (.exact value) = r := by
  unfold ofValue
  split <;> simp [*]

theorem parseFilterRule_eq_ok_iff :
    parseFilterRule isSafeId schemaError s = .ok r ↔ r.WellFormed isSafeId ∧ "exact:" ++ s = r.toString := by
  rw [← splitOnce_eq_some_iff, parseFilterRule]
  constructor
  · intro h
    split at h
    · cases h
    · next ty value parts =>
      rw [parts]
      split at h
      · next e =>
        obtain ⟨t, ht, rfl⟩ : ∃ t, ResourceType.fromStr value = .ok t ∧ r = .resourceType ⟨t⟩ := by
          cases hv : ResourceType.fromStr value <;> rw [hv] at h <;> cases h
          exact ⟨_, rfl, rfl⟩
        exact ⟨trivial, by rw [e, ResourceType.fromStr_eq_ok_iff.mp ht]; rfl⟩
      repeat' split at h
      iterate 4
        · next e =>
          obtain ⟨hm, rfl⟩ := ofValue_eq_ok_iff.mp h
          exact ⟨hm, by rw [e]; rfl⟩
      cases h
  · rintro ⟨hwf, hs⟩
    rw [hs]
    rcases r with ⟨⟩ | ⟨⟩ | ⟨⟩ | ⟨⟩ | ⟨⟩
    · simp [ty, value, ResourceType.fromStr_eq_ok_iff.mpr rfl, Except.map]
    all_goals simp_all [ty, value, ofValue_eq_ok_iff, WellFormed]

/-- **The texts that are accepted are those that are printed**, with or without `exact:`: each rule is read as it was
written. -/
theorem fromStr_accepts_iff :
    fromStr isSafeId schemaError s = .ok r ↔ r.WellFormed isSafeId ∧ (s = r.toString ∨ "exact:" ++ s = r.toString) := by
  unfold fromStr
  split
  · next h =>
    obtain ⟨rest, hrest⟩ := List.isPrefixOf_iff_prefix.mp h
    have hs : s = "exact:" ++ ofList rest := String.toList_inj.mp (by simp [← hrest])
    have hno : "exact:" ++ s ≠ r.toString := by
      rw [toString_eq, ne_eq, append_right_inj, hs]
      intro he
      have hc := congrArg (fun s => s.toList.head?) he
      cases r <;> simp [ty] at hc
    rw [parseFilterRule_eq_ok_iff, or_iff_left hno, ← hrest, hs]
    exact Iff.rfl
  · next h =>
    have hno : s ≠ r.toString := by
      rintro rfl
      refine h (List.isPrefixOf_iff_prefix.mpr ?_)
      rw [toString_eq, toList_append]
      exact List.prefix_append _ _
    rw [parseFilterRule_eq_ok_iff, or_iff_right hno]

end FilterRule

end Nexus
