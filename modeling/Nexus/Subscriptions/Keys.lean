import Nexus.Subscriptions.Handlers

/-!
# Keys that a remote reports

`fetch_remote_subscription_info` of `server/src/api/resources.rs`, up to the case that it panics, which is `none` here.
`SubscriptionLevel::from_key` cuts the last byte before the dash off (`levelFromKey`), also inside a character
(`levelFromKey_eq_none_iff`), and a backup server sends any text for its key
(`fetchRemoteSubscriptionInfo_returns_iff`).
-/

namespace Nexus.Subscriptions

open Lib Option

/-! ## The level of a key -/

def levelFromKey : Option String → Option SubscriptionLevel
  | none => some .none
  | some key =>
    if key = "" then some .none
    else
      let keyType := ((Text.splitOnce '-' key).getD ("", "")).1.toList
      if keyType ≠ [] then
        (Text.sliceFrom (Text.byteLength keyType - 1) keyType).map fun last => .fromStr (String.ofList last)
      else some .unknown

theorem levelFromKey_eq (key) : levelFromKey key = SubscriptionLevel.fromKey key := by
  cases key with
  | none => rfl
  | some key =>
    unfold levelFromKey SubscriptionLevel.fromKey
    simp only
    split
    · rfl
    · cases hparts : Text.splitOnce '-' key with
      | none => rfl
      | some parts =>
        obtain ⟨keyType, rest⟩ := parts
        rcases List.eq_nil_or_concat keyType.toList with hnil | ⟨cs, c, hlast⟩
        · simp [hnil]
        · have hsize := Text.sliceFrom_last c cs
          rw [List.concat_eq_append] at hlast
          simp only [getD_some, hlast, hsize]
          by_cases hone : c.utf8Size = 1 <;> simp [hone]

/-- The character before the dash has several bytes. -/
def WideBeforeDash (key : String) : Prop :=
  ∃ before c after, key.toList = before ++ c :: '-' :: after ∧ '-' ∉ before ∧ c.utf8Size ≠ 1

theorem WideBeforeDash.splitOnce {key} (h : WideBeforeDash key) : ∃ before c after, c.utf8Size ≠ 1 ∧
    Text.splitOnce '-' key = some (String.ofList (before ++ [c]), String.ofList after) := by
  obtain ⟨before, c, after, hkey, hbef, hwide⟩ := h
  have hdash : c ≠ '-' := fun he => hwide (he ▸ rfl)
  exact ⟨before, c, after, hwide, Text.splitOnce_eq_some.mpr ⟨by simpa using hkey, by simp [hbef, Ne.symm hdash]⟩⟩

theorem levelFromKey_eq_none_iff (key) : levelFromKey (some key) = none ↔ WideBeforeDash key := by
  rw [levelFromKey_eq]
  constructor
  · intro h
    unfold SubscriptionLevel.fromKey at h
    simp only at h
    split at h
    · cases h
    · split at h
      · cases h
      · next keyType rest parts =>
        split at h
        · cases h
        · next c hlast =>
          obtain ⟨hkey, hfront⟩ := Text.splitOnce_eq_some.mp parts
          obtain ⟨cs, hcs⟩ := List.getLast?_eq_some_iff.mp hlast
          rw [hcs] at hkey hfront
          refine ⟨cs, c, rest.toList, by simpa using hkey, fun hmem => hfront (by simp [hmem]), fun hone => ?_⟩
          simp [hone] at h
  · intro h
    obtain ⟨before, c, after, hwide, parts⟩ := h.splitOnce
    have hne : key ≠ "" := by
      rintro rfl
      simp [Text.splitOnce] at parts
    simp [SubscriptionLevel.fromKey, hne, parts, hwide]

/-! ## The reply of a remote -/

structure PveSubscription (σ : Type) where
  status : σ
  sockets : Option Int
  (key level : Option String)

structure PbsSubscription where
  status : SubscriptionStatus
  key : Option String

inductive SubscriptionReply (σ : Type)
  | pve (nodes : Except String (List (String × Option (PveSubscription σ) × Option Int)))
  | pbs (info : Except String (Option PbsSubscription))

variable {σ : Type} (convertStatus : σ → Option SubscriptionStatus)

def pveSubscriptionInfo (info : PveSubscription σ) (hwSockets : Option Int) : NodeSubscriptionInfo :=
  ⟨(convertStatus info.status).getD .notFound, info.sockets.or hwSockets, info.key,
    (info.level.map SubscriptionLevel.fromStr).getD .none⟩

def pbsSubscriptionInfo (info : PbsSubscription) : Option NodeSubscriptionInfo :=
  (levelFromKey info.key).map fun level => ⟨info.status, none, info.key, level⟩

/-- `none` is a panic. -/
def fetchRemoteSubscriptionInfo : SubscriptionReply σ → Option (Except String NodeSubscriptions)
  | .pve (.error e) => some (.error e)
  | .pve (.ok nodes) => some (.ok (nodes.foldl (fun list node =>
      list.insert node.1 (node.2.1.map fun info => pveSubscriptionInfo convertStatus info node.2.2)) OrderedMap.empty))
  | .pbs (.error e) => some (.error e)
  | .pbs (.ok none) => some (.ok (OrderedMap.empty.insert "localhost" none))
  | .pbs (.ok (some info)) =>
    (pbsSubscriptionInfo info).map fun info => .ok (OrderedMap.empty.insert "localhost" (some info))

/-- **A reply is taken in unless a character of several bytes stands before the first dash of the key of a backup
server.** -/
theorem fetchRemoteSubscriptionInfo_returns_iff (reply : SubscriptionReply σ) :
    (fetchRemoteSubscriptionInfo convertStatus reply).isSome ↔
      ∀ info key, reply = .pbs (.ok (some info)) → info.key = some key → ¬ WideBeforeDash key := by
  match reply with
  | .pve (.error e) => simp [fetchRemoteSubscriptionInfo]
  | .pve (.ok nodes) => simp [fetchRemoteSubscriptionInfo]
  | .pbs (.error e) => simp [fetchRemoteSubscriptionInfo]
  | .pbs (.ok none) => simp [fetchRemoteSubscriptionInfo]
  | .pbs (.ok (some info)) =>
    rw [fetchRemoteSubscriptionInfo, pbsSubscriptionInfo, isSome_map, isSome_map]
    cases hkey : info.key with
    | none =>
      refine iff_of_true rfl fun info' key' heq hkey' => ?_
      obtain rfl : info = info' := by simpa using heq
      exact absurd (hkey.symm.trans hkey') nofun
    | some key =>
      rw [isSome_iff_ne_none, ne_eq, levelFromKey_eq_none_iff]
      constructor
      · rintro hnot info' key' heq hkey'
        obtain rfl : info = info' := by simpa using heq
        obtain rfl : key = key' := Option.some.inj (hkey.symm.trans hkey')
        exact hnot
      · exact fun h => h info key rfl hkey

/-- A letter with an accent before the dash. -/
theorem fetchRemoteSubscriptionInfo_panics :
    fetchRemoteSubscriptionInfo (σ := Unit) (fun _ => none) (.pbs (.ok (some ⟨.active, some "é-1"⟩))) = none := by
  decide

end Nexus.Subscriptions
