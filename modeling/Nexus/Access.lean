import Mathlib.Data.Nat.Bitwise

/-!
# Callers and their privileges

The privilege bits of `pdm-api-types/src/acl.rs`, and the part of the user information that the handlers ask: which
privileges a caller has on an ACL path (`lookupPrivs`), and whether there are any below a path (`anyPrivsBelow`). The
ACL tree itself is outside the repository, so both are arbitrary functions here.
-/

namespace Nexus

open UInt64

inductive HttpStatus
  | badRequest | notFound | conflict | notImplemented
  deriving DecidableEq

inductive ApiError
  /-- `check_privs` found less than the required privileges on an ACL path. -/
  | missingPrivileges (path : List String) (required : UInt64)
  /-- `http_bail!(FORBIDDEN, ..)`. -/
  | forbidden (message : String)
  /-- An HTTP error with another status. -/
  | http (status : HttpStatus) (message : String)
  /-- Any other error, with its message. -/
  | other (message : String)
  deriving DecidableEq

abbrev Authid := String

def privBit (i : Nat) : UInt64 := ofNat (2 ^ i)

def privResourceAudit : UInt64 := privBit 4

def privResourceModify : UInt64 := privBit 6

structure CachedUserInfo where
  lookupPrivs : Authid → List String → UInt64
  anyPrivsBelow : Authid → List String → UInt64 → Except ApiError Bool

namespace CachedUserInfo

/-- All bits are held on the path. -/
def Holds (u : CachedUserInfo) (auth : Authid) (path : List String) (required : UInt64) : Prop :=
  u.lookupPrivs auth path &&& required = required

instance (u : CachedUserInfo) (auth : Authid) (path : List String) (required : UInt64) :
    Decidable (u.Holds auth path required) := inferInstanceAs (Decidable (_ = _))

def checkPrivs (u : CachedUserInfo) (auth : Authid) (path : List String) (required : UInt64) : Except ApiError Unit :=
  if u.Holds auth path required then .ok () else .error (.missingPrivileges path required)

variable {u : CachedUserInfo} {auth : Authid} {path : List String}

@[simp] theorem checkPrivs_eq_ok {required} :
    u.checkPrivs auth path required = .ok () ↔ u.Holds auth path required := by
  unfold checkPrivs
  split <;> simp_all

theorem holds_privBit_iff {i} (hi : i < 64) :
    u.Holds auth path (privBit i) ↔ u.lookupPrivs auth path &&& privBit i ≠ 0 := by
  unfold Holds
  generalize u.lookupPrivs auth path = privs
  have hlt : 2 ^ i < 2 ^ 64 := Nat.pow_lt_pow_right (by omega) hi
  have priv : (privBit i).toNat = 2 ^ i := by rw [privBit, UInt64.toNat_ofNat_of_lt' hlt]
  have hbit : (privs &&& privBit i).toNat = (privs.toNat.testBit i).toNat * 2 ^ i := by
    rw [UInt64.toNat_and, priv, Nat.and_two_pow]
  rw [ne_eq, ← UInt64.toNat_inj, ← UInt64.toNat_inj, hbit, priv]
  have hpos : 0 < 2 ^ i := Nat.two_pow_pos i
  cases privs.toNat.testBit i with
  | false =>
    rw [Bool.toNat_false, Nat.zero_mul, UInt64.toNat_zero]
    exact ⟨fun h => absurd h hpos.ne, fun h => absurd rfl h⟩
  | true =>
    rw [Bool.toNat_true, Nat.one_mul, UInt64.toNat_zero]
    exact ⟨fun _ => hpos.ne', fun _ => rfl⟩

theorem holds_resourceAudit_iff :
    u.Holds auth path privResourceAudit ↔ u.lookupPrivs auth path &&& privResourceAudit ≠ 0 :=
  holds_privBit_iff (by omega)

end CachedUserInfo

structure RpcEnvironment where
  authId : Option (Except ApiError Authid)

def RpcEnvironment.getAuthId (rpcenv : RpcEnvironment) : Except ApiError Authid :=
  match rpcenv.authId with
  | none => .error (.other "no authid available")
  | some parsed => parsed

end Nexus
