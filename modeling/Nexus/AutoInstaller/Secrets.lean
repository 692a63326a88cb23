import Nexus.AutoInstaller.Requests

/-!
# Secrets of answer tokens

A token has its record in `tokens.cfg` and the hash of its secret in `tokens.shadow`, and every request writes the
record first. A hash that an interrupted deletion has left verifies for the record of a later creation that stops after
its first write, and for no other (`own_secrets_iff`).
-/

namespace Nexus.AutoInstaller

open Lib Lib.OrderedMap

structure IssuedToken extends AnswerToken where
  secret : String
  deriving DecidableEq

structure TokenFiles where
  tokens : OrderedMap String IssuedToken
  shadow : OrderedMap String String

/-! ## Verification -/

def AnswerToken.isActive (now : Int) (token : AnswerToken) : Bool :=
  token.enabled.getD true && (token.expireAt.map fun exp => exp = 0 || exp > now).getD true

def credentials (header : String) : String × String × String :=
  let (scheme, token) := (Text.splitOnce ' ' header).getD ("", "")
  (scheme, (Text.splitOnce ':' token).getD ("", ""))

variable (files : TokenFiles)

def verifySecret (id secret : String) : Bool := files.shadow.get? id = some secret

def verifyAnswerAuthorizationHeader (now : Int) (header : String) : Option String :=
  let (scheme, id, secret) := credentials header
  if Text.toAsciiLowercase scheme ≠ "bearer" then none
  else match files.tokens.get? id with
    | none => none
    | some token => if token.isActive now && verifySecret files id secret then some id else none

/-! ## Requests -/

structure TokenUpdate where
  comment : Option String
  enabled : Option Bool
  expireAt : Option Int
  (deleteComment deleteExpireAt : Bool)

def IssuedToken.updated (token : IssuedToken) (update : TokenUpdate) : IssuedToken :=
  { token with
    comment := update.comment.or (if update.deleteComment then none else token.comment)
    enabled := update.enabled.or token.enabled
    expireAt := update.expireAt.or (if update.deleteExpireAt then none else token.expireAt) }

inductive TokenRequest
  | create (token : AnswerToken) (secret : String)
  | update (id : String) (update : TokenUpdate)
  | regenerate (id : String) (update : TokenUpdate) (secret : String)
  | delete (id : String)

abbrev TokenWrite := TokenFiles → TokenFiles

def addToken (id : String) (token : IssuedToken) : List TokenWrite :=
  [fun files => { files with tokens := files.tokens.insert id token },
    fun files => { files with shadow := files.shadow.insert id token.secret }]

def deleteToken (id : String) : List TokenWrite :=
  [fun files => { files with tokens := files.tokens.remove id },
    fun files => { files with shadow := files.shadow.remove id }]

def TokenRequest.writes : TokenRequest → List TokenWrite
  | .create token secret =>
    if (files.tokens.get? token.id).isSome then [] else addToken token.id { token with secret }
  | .update id changes => match files.tokens.get? id with
    | none => []
    | some token => [fun files => { files with tokens := files.tokens.insert id (token.updated changes) }]
  | .regenerate id changes secret => match files.tokens.get? id with
    | none => []
    | some token => deleteToken id ++ addToken id { token.updated changes with secret }
  | .delete id => if (files.tokens.get? id).isNone then [] else deleteToken id

/-- A request that stops after some of its writes. -/
def TokenFiles.after (request : TokenRequest × Nat) : TokenFiles :=
  ((request.1.writes files).take request.2).foldl (fun files write => write files) files

/-! ## Which secrets pass -/

/-- The stored hash belongs to the record. -/
def Own (files : TokenFiles) : Prop :=
  ∀ id token, files.tokens.get? id = some token → ∀ secret, verifySecret files id secret → secret = token.secret

/-- A creation stops over the hash of another secret. -/
def MeetsLeftover (request : TokenRequest × Nat) : Prop :=
  ∃ token secret old, request = (.create token secret, 1) ∧ files.tokens.get? token.id = none ∧
    files.shadow.get? token.id = some old ∧ old ≠ secret

variable {files files' : TokenFiles}

section

variable (h : Own files)

include h

theorem Own.iff_at (id) (hoth : ∀ other, other ≠ id →
    files'.tokens.get? other = files.tokens.get? other ∧ files'.shadow.get? other = files.shadow.get? other) :
    Own files' ↔ ∀ token, files'.tokens.get? id = some token → ∀ secret, files'.shadow.get? id = some secret →
      secret = token.secret := by
  simp only [Own, verifySecret, decide_eq_true_eq] at h ⊢
  refine ⟨fun h => h id, fun hid other => ?_⟩
  by_cases hne : other = id
  · exact hne ▸ hid
  · rw [(hoth other hne).1, (hoth other hne).2]
    exact h other

theorem Own.create_iff (token) (secret) (done : Nat) :
    Own (files.after (.create token secret, done)) ↔ ¬ MeetsLeftover files (.create token secret, done) := by
  cases htok : files.tokens.get? token.id with
  | some => simpa [TokenFiles.after, TokenRequest.writes, MeetsLeftover, htok] using h
  | none =>
    rw [h.iff_at token.id fun other hne => by
      rcases done with _ | _ | n <;>
        simp [TokenFiles.after, TokenRequest.writes, addToken, htok, get?_insert, hne]]
    rcases done with _ | _ | n <;>
      simp [TokenFiles.after, TokenRequest.writes, addToken, MeetsLeftover, htok, get?_insert]

theorem Own.update (id) (changes) (done : Nat) : Own (files.after (.update id changes, done)) := by
  cases htok : files.tokens.get? id with
  | none => simpa [TokenFiles.after, TokenRequest.writes, htok] using h
  | some token =>
    have hkeep : ∀ secret, files.shadow.get? id = some secret → secret = token.secret :=
      fun secret hsecret => h _ _ htok secret (decide_eq_true hsecret)
    rcases done with _ | n
    · exact h
    · rw [h.iff_at id fun other hne => by
        simp [TokenFiles.after, TokenRequest.writes, htok, get?_insert, hne]]
      simpa [TokenFiles.after, TokenRequest.writes, htok, get?_insert, IssuedToken.updated] using hkeep

theorem Own.regenerate (id) (changes) (secret) (done : Nat) :
    Own (files.after (.regenerate id changes secret, done)) := by
  cases token : files.tokens.get? id with
  | none => simpa [TokenFiles.after, TokenRequest.writes, token] using h
  | some =>
    rcases done with _ | _ | _ | _ | n
    · exact h
    all_goals
      rw [h.iff_at id fun other hne => by
        simp [TokenFiles.after, TokenRequest.writes, deleteToken, addToken, token, get?_insert, get?_remove, hne]]
      simp [TokenFiles.after, TokenRequest.writes, deleteToken, addToken, token, get?_insert, get?_remove]

theorem Own.delete (id) (done : Nat) : Own (files.after (.delete id, done)) := by
  cases token : files.tokens.get? id with
  | none => simpa [TokenFiles.after, TokenRequest.writes, token] using h
  | some =>
    rcases done with _ | _ | n
    · exact h
    all_goals
      rw [h.iff_at id fun other hne => by
        simp [TokenFiles.after, TokenRequest.writes, deleteToken, token, get?_remove, hne]]
      simp [TokenFiles.after, TokenRequest.writes, deleteToken, token, get?_remove]

theorem own_after_iff (request) : Own (files.after request) ↔ ¬ MeetsLeftover files request := by
  obtain ⟨request, done⟩ := request
  cases request with
  | create token secret => exact h.create_iff token secret done
  | update id changes => exact iff_of_true (h.update id changes done) (by simp [MeetsLeftover])
  | regenerate id changes secret =>
    exact iff_of_true (h.regenerate id changes secret done) (by simp [MeetsLeftover])
  | delete id => exact iff_of_true (h.delete id done) (by simp [MeetsLeftover])

theorem Own.passes {now header id} (hpass : verifyAnswerAuthorizationHeader files now header = some id) :
    ∃ token, files.tokens.get? id = some token ∧ (credentials header).2 = (id, token.secret) := by
  unfold verifyAnswerAuthorizationHeader at hpass
  split at hpass
  next scheme other secret header =>
  split_ifs at hpass
  split at hpass
  · cases hpass
  · next token htok =>
    split_ifs at hpass with hver
    obtain rfl := Option.some.inj hpass
    refine ⟨token, htok, ?_⟩
    rw [header, h _ _ htok secret (Bool.and_eq_true_iff.mp hver).2]

end

/-- **All along a sequence of interrupted requests every stored hash belongs to the record exactly if no creation stops
after its first write where there is the hash of another secret. Then only the secret of the record passes.** -/
theorem own_secrets_iff (requests : List (TokenRequest × Nat)) :
    let run := fun before : List (TokenRequest × Nat) => before.foldl TokenFiles.after ⟨.empty, .empty⟩
    ((∀ before, before <+: requests → Own (run before)) ↔
      ∀ before request, before ++ [request] <+: requests → ¬ MeetsLeftover (run before) request) ∧
    ((∀ before request, before ++ [request] <+: requests → ¬ MeetsLeftover (run before) request) →
      ∀ before, before <+: requests → ∀ now header id,
        verifyAnswerAuthorizationHeader (run before) now header = some id →
          ∃ token, (run before).tokens.get? id = some token ∧ (credentials header).2 = (id, token.secret)) := by
  have hiff := always_iff (fun files request (h : Own files) => own_after_iff h request)
    (show Own ⟨.empty, .empty⟩ from nofun) requests
  exact ⟨hiff, fun h before hbef now header id hpass => (hiff.mpr h before hbef).passes hpass⟩

/-- The secret of a deleted token passes for the new one. -/
theorem revoked_secret_passes : let token : AnswerToken := ⟨"rack", "root@pam", none, none, none⟩
    let files := [(TokenRequest.create token "old", 2), (.delete "rack", 1), (.create token "new", 1)].foldl
      TokenFiles.after ⟨.empty, .empty⟩
    files.tokens.get? "rack" = some { token with secret := "new" } ∧
      verifyAnswerAuthorizationHeader files 0 "Bearer rack:old" = some "rack" := by
  decide

end Nexus.AutoInstaller
