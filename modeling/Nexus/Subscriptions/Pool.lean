import Nexus.Lib.Run
import Nexus.Lib.Text
import Nexus.NodeInfo

/-!
# The subscription key pool

The entries of the key pool and everything that can be done to it. `PoolOk` is what the pool is for: an assignment of
keys to nodes in which no node has two keys, and clears that are queued for assigned keys only. Whatever a request does
to the pool is a sequence of changes (`Change`), each of which keeps this (`poolOk_step`).
-/

namespace Nexus

open Lib.OrderedMap String

def SubscriptionLevel.fromStr (s : String) : SubscriptionLevel :=
  if s ∈ ["p", "premium", "Premium"] then .premium
  else if s ∈ ["s", "standard", "Standard"] then .standard
  else if s ∈ ["b", "basic", "Basic"] then .basic
  else if s ∈ ["c", "community", "Community"] then .community
  else if s ∈ ["", "none", "None"] then .none
  else .unknown

/-- `none` where the source cuts inside of a character, and panics. -/
def SubscriptionLevel.fromKey : Option String → Option SubscriptionLevel
  | .none => some .none
  | .some key =>
    if key = "" then some .none
    else
      match Lib.Text.splitOnce '-' key with
      | .none => some .unknown
      | .some (keyType, _) =>
        match keyType.toList.getLast? with
        | .none => some .unknown
        | .some c => if c.utf8Size = 1 then some (fromStr (singleton c)) else .none

namespace Subscriptions

open Lib

/-! ## Keys -/

inductive ProductType
  | pve | pbs | pmg | pom
  deriving DecidableEq

namespace ProductType

def asSectionType : ProductType → String
  | pve => "pve"
  | pbs => "pbs"
  | pmg => "pmg"
  | pom => "pom"

def fromKey (key : String) : Option ProductType :=
  match Text.splitOnce '-' key with
  | none => none
  | some (keyPrefix, _) =>
    if Text.startsWith keyPrefix "pve" then some pve
    else if Text.startsWith keyPrefix "pbs" then some pbs
    else if Text.startsWith keyPrefix "pmg" then some pmg
    else if Text.startsWith keyPrefix "pom" then some pom
    else none

def matchesRemoteType : ProductType → RemoteType → Bool
  | pve, .pve => true
  | pbs, .pbs => true
  | _, _ => false

end ProductType

def matchesProductKey (key : String) : Bool :=
  match Text.splitOnce '-' key with
  | none => false
  | some (keyPrefix, secret) =>
    let isHex := fun c : Char => c.isDigit || ('a' ≤ c && c ≤ 'f')
    let product := keyPrefix.toList.dropLast
    let digits := product.drop 3
    (product = "pbs".toList || (product.take 3 = "pve".toList && digits ≠ [] && digits.all Char.isDigit)) &&
      (keyPrefix.toList.getLast?.any (· ∈ "cbsp".toList)) && secret.toList.length = 10 && secret.toList.all isHex

def isSubscriptionKey (key : String) : Bool :=
  matchesProductKey key && 15 ≤ key.toList.length && key.toList.length ≤ 18

def redactKey (key : String) : String :=
  match Text.splitOnce '-' key with
  | none => "<malformed-key>"
  | some (keyPrefix, secret) =>
    match secret.toList with
    | [] => keyPrefix ++ "-..."
    | [first] => keyPrefix ++ "-" ++ singleton first ++ "..."
    | first :: second :: rest =>
      keyPrefix ++ "-" ++ singleton first ++ "..." ++ singleton ((second :: rest).getLast (by simp))

/-! ## Entries -/

inductive SubscriptionKeySource
  | manual
  | adopted
  deriving DecidableEq

structure SubscriptionKeyEntry where
  key : String
  productType : ProductType
  level : SubscriptionLevel
  source : SubscriptionKeySource
  (remote node : Option String)
  pendingClear : Bool
  deriving DecidableEq

namespace SubscriptionKeyEntry

variable (e : SubscriptionKeyEntry)

def boundTo (remote node : String) : Bool := e.remote = some remote && e.node = some node

def binding : Option (String × String) := e.remote.bind fun remote => e.node.map fun node => (remote, node)

def bind (remote node : String) : SubscriptionKeyEntry := { e with remote := some remote, node := some node }

def unbind : SubscriptionKeyEntry := { e with remote := none, node := none, pendingClear := false }

def withPendingClear (pendingClear : Bool) : SubscriptionKeyEntry := { e with pendingClear := pendingClear }

end SubscriptionKeyEntry

abbrev KeyConfig := OrderedMap String SubscriptionKeyEntry

/-- How `ConfigDigest` compares; `detect_modification` lets the digest of the configuration itself pass. -/
structure DigestCheck (δ : Type) where
  sameDigest : δ → δ → Bool
  sameDigest_iff : ∀ a b, sameDigest a b ↔ a = b
  detectModification : δ → Option δ → Except ApiError Unit
  detectModification_self : ∀ actual, detectModification actual (some actual) = .ok ()

def Sample.digestCheck {δ : Type} [DecidableEq δ] : DigestCheck δ where
  sameDigest a b := a = b
  sameDigest_iff _ _ := decide_eq_true_iff
  detectModification actual expected :=
    if expected.all (· = actual) then .ok ()
    else .error (.other "detected modified configuration - file changed by other user? Try again.")
  detectModification_self _ := if_pos (by simp)

/-! ## What a pool is -/

/-- **The invariant of the pool.** -/
structure PoolOk (config : KeyConfig) : Prop where
  stored : ∀ p ∈ config, p.2.key = p.1
  both : ∀ p ∈ config, p.2.remote.isSome = p.2.node.isSome
  bound_of_pendingClear : ∀ p ∈ config, p.2.pendingClear → p.2.remote.isSome
  distinct : ∀ p ∈ config, ∀ q ∈ config, ∀ b, p.2.binding = some b → q.2.binding = some b → p.1 = q.1

theorem poolOk_empty : PoolOk OrderedMap.empty := by
  constructor <;> intro p hp <;> exact absurd hp mem_empty

/-- What can happen to the entry of a key. -/
inductive Change
  | add (entry : SubscriptionKeyEntry)
  | remove (key : String)
  | bind (key remote node : String) (keepClear : Bool)
  | unbind (key : String)
  | setPendingClear (key : String) (pendingClear : Bool)

def FreeFor (config : KeyConfig) (key : String) (b : String × String) : Prop :=
  ∀ p ∈ config, p.2.binding = some b → p.1 = key

inductive ChangeStep : KeyConfig → Change → KeyConfig → Prop
  | add {config entry} (new : config.get? entry.key = none)
      (both : entry.remote.isSome = entry.node.isSome) (pendingClear : entry.pendingClear = false)
      (free : ∀ b, entry.binding = some b → FreeFor config entry.key b) :
      ChangeStep config (.add entry) (config.insert entry.key entry)
  | remove (config : KeyConfig) (key : String) : ChangeStep config (.remove key) (config.remove key)
  | bind {config key remote node entry}
      (stored : config.get? key = some entry) (free : FreeFor config key (remote, node)) (keepClear : Bool) :
      ChangeStep config (.bind key remote node keepClear)
        (config.insert key ((entry.bind remote node).withPendingClear (keepClear && entry.pendingClear)))
  | unbind {config key entry} (stored : config.get? key = some entry) :
      ChangeStep config (.unbind key) (config.insert key entry.unbind)
  | setPendingClear {config key entry pendingClear}
      (stored : config.get? key = some entry) (bound : pendingClear = true → entry.remote.isSome = true) :
      ChangeStep config (.setPendingClear key pendingClear)
        (config.insert key (entry.withPendingClear pendingClear))

variable {config config' : KeyConfig} {c : Change} {key : String} {entry entry' : SubscriptionKeyEntry}

theorem PoolOk.insert (h : PoolOk config) (stored : entry.key = key) (both : entry.remote.isSome = entry.node.isSome)
    (pendingClear : entry.pendingClear → entry.remote.isSome)
    (free : ∀ b, entry.binding = some b → FreeFor config key b) : PoolOk (config.insert key entry) := by
  constructor
  · intro p hp
    rcases mem_insert.mp hp with rfl | ⟨-, hp⟩
    · exact stored
    · exact h.stored p hp
  · intro p hp
    rcases mem_insert.mp hp with rfl | ⟨-, hp⟩
    · exact both
    · exact h.both p hp
  · intro p hp
    rcases mem_insert.mp hp with rfl | ⟨-, hp⟩
    · exact pendingClear
    · exact h.bound_of_pendingClear p hp
  · intro p hp q hq b hb hb'
    rcases mem_insert.mp hp with rfl | ⟨hpk, hp⟩ <;> rcases mem_insert.mp hq with rfl | ⟨hqk, hq⟩
    · rfl
    · exact absurd (free b hb q hq hb') hqk
    · exact absurd (free b hb' p hp hb) hpk
    · exact h.distinct p hp q hq b hb hb'

theorem PoolOk.replace (h : PoolOk config) (old : config.get? key = some entry) (key_eq : entry'.key = entry.key)
    (both : entry'.remote.isSome = entry'.node.isSome) (pendingClear : entry'.pendingClear → entry'.remote.isSome)
    (kept : ∀ b, entry'.binding = some b → entry.binding = some b) : PoolOk (config.insert key entry') := by
  have hold := get?_eq_some.mp old
  refine h.insert (key_eq.trans (h.stored _ hold)) both pendingClear fun b hb p hp hpb => ?_
  exact h.distinct p hp _ hold b hpb (kept b hb)

/-- **Every change keeps the invariant.** -/
theorem poolOk_step (hs : ChangeStep config c config') (h : PoolOk config) : PoolOk config' := by
  cases hs with
  | add _ both pendingClear free => exact h.insert rfl both (by simp [pendingClear]) free
  | remove =>
    constructor
    · exact fun p hp => h.stored p (mem_remove.mp hp).2
    · exact fun p hp => h.both p (mem_remove.mp hp).2
    · exact fun p hp => h.bound_of_pendingClear p (mem_remove.mp hp).2
    · exact fun p hp q hq => h.distinct p (mem_remove.mp hp).2 q (mem_remove.mp hq).2
  | bind stored free =>
    have hold := get?_eq_some.mp stored
    refine h.insert (h.stored _ hold) rfl (fun _ => rfl) fun b hb => ?_
    obtain rfl : _ = b := Option.some.inj hb
    exact free
  | unbind stored => exact h.replace stored rfl rfl (fun hp => by cases hp) fun b hb => by cases hb
  | setPendingClear stored bound =>
    have hold := get?_eq_some.mp stored
    exact h.replace stored rfl (h.both _ hold) bound fun b hb => hb

def Changes (config config' : KeyConfig) : Prop := ∃ cs, Run ChangeStep config cs config'

namespace Changes

theorem refl (config) : Changes config config := ⟨[], .nil config⟩

theorem trans {config''} (h : Changes config config') (h' : Changes config' config'') : Changes config config'' := by
  obtain ⟨cs, hr⟩ := h
  obtain ⟨cs', hr'⟩ := h'
  exact ⟨cs ++ cs', hr.append hr'⟩

theorem single (h : ChangeStep config c config') : Changes config config' := ⟨[c], .single h⟩

theorem ite (h : Changes config config') (p : Prop) [Decidable p] : Changes config (if p then config else config') :=
  ite_related refl h p

theorem poolOk (hc : Changes config config') (h : PoolOk config) : PoolOk config' := by
  obtain ⟨cs, hr⟩ := hc
  exact hr.invariant (fun _ _ _ hi hs => poolOk_step hs hi) h

theorem foldl {τ β : Type} {π : τ → KeyConfig} {f : τ → β → τ}
    (body : ∀ x b, PoolOk (π x) → Changes (π x) (π (f x b))) (l : List β) (x : τ) (h : PoolOk (π x)) :
    Changes (π x) (π (l.foldl f x)) :=
  Run.exists_foldl (fun _ _ _ hi hs => poolOk_step hs hi) body l x h

end Changes

end Subscriptions

end Nexus
