import Nexus.Lib.LockedUpdate

/-!
# Second factors: concurrent changes of the TFA configuration

Logins (`server/src/auth/mod.rs`) and the handlers of `server/src/api/access/tfa.rs` are read-modify-write sessions on
one file, but the logins share the lock that `read_lock` opens. Nothing is lost if every login saves while the file is
still what it read (`tfa_serial_of_current_logins`, `tfa_overlapping_logins_lose_updates`).
-/

namespace Nexus

open Lib Lib.LockedUpdate

/-! ## Requests -/

inductive TfaType
  | totp | u2f | webauthn | recovery | yubico

inductive TfaRequest
  | login (userid response : String)
  | addTfaEntry (userid : String) (description totp value challenge : Option String) (type : TfaType)
  | updateTfaEntry (userid id : String) (description : Option String) (enable : Option Bool)
  | deleteTfa (userid id : String)

/-- The library functions on a TFA configuration. -/
structure TfaMethods (C : Type) where
  verify : (userid response : String) → C → Option C × Bool
  addTfaEntry : (userid : String) → (description totp value challenge : Option String) → TfaType → C → Option C
  updateTfaEntry : (userid id : String) → (description : Option String) → (enable : Option Bool) → C → Option C
  deleteTfa : (userid id : String) → C → Option C

def readLock : Bool := false

def writeLock : Bool := true

def tfaConfigWriteLock : Bool := readLock

def TfaRequest.lock : TfaRequest → Bool
  | login .. => tfaConfigWriteLock
  | addTfaEntry .. => writeLock
  | updateTfaEntry .. => writeLock
  | deleteTfa .. => writeLock

def TfaRequest.update {C : Type} (m : TfaMethods C) : TfaRequest → C → Option C × Bool
  | login userid response, c => m.verify userid response c
  | addTfaEntry userid description totp value challenge type, c =>
    let written := m.addTfaEntry userid description totp value challenge type c
    (written, written.isSome)
  | updateTfaEntry userid id description enable, c =>
    let written := m.updateTfaEntry userid id description enable c
    (written, written.isSome)
  | deleteTfa userid id, c =>
    let written := m.deleteTfa userid id c
    (written, written.isSome)

def tfaSystem {ι C : Type} (m : TfaMethods C) (req : ι → TfaRequest) : System ι C Bool :=
  ⟨fun i => (req i).lock, fun i => (req i).update m⟩

/-- Accepted while it is available, and used up then. -/
structure OneTimeCode {ι C : Type} (m : TfaMethods C) (req : ι → TfaRequest) (userid code : String)
    (available : C → Prop) : Prop where
  accepted : ∀ c, (m.verify userid code c).2 → available c ∧ ∃ c', (m.verify userid code c).1 = some c' ∧
    ¬ available c'
  stays_used : ∀ i c c', ¬ available c → ((req i).update m c).1 = some c' → ¬ available c'

/-! ## Serialisability -/

/-- **If every login that saves finds the file as it read it, the requests have the effect of one after another; a
one-time code is accepted by one login at most.** -/
theorem tfa_serial_of_current_logins {ι C : Type} [DecidableEq ι] (m : TfaMethods C) (req : ι → TfaRequest) (c₀ : C)
    {acts : List (Act ι)} {s : State ι C Bool} (hrun : Run (CurrentStep (tfaSystem m req)) (State.init c₀) acts s)
    (hfinal : ∀ i, s.phase i = .idle ∨ ∃ b, s.phase i = .released b) :
    SerialOutcome (tfaSystem m req) c₀ s ∧ ∀ userid code available, OneTimeCode m req userid code available →
        ∀ i j, req i = .login userid code → req j = .login userid code → s.phase i = .released true →
          s.phase j = .released true → i = j := by
  have serial := serialOutcome_of_run hrun hfinal
  refine ⟨serial, fun userid code available hcode i j hreqi hreqj hi hj => ?_⟩
  have hperf : ∀ k c c', ((req k).update m c).1 = some c' → perform (tfaSystem m req) c k = c' := by
    intro k c c' h
    simp [perform, tfaSystem, h]
  refine serial_accepts_once available (· = true) (req · = .login userid code) ?_ ?_ serial hi hj hreqi hreqj rfl rfl
  · intro k c hk hacc
    simp only [tfaSystem, hk, TfaRequest.update] at hacc
    obtain ⟨havail, c', hc', hused⟩ := hcode.accepted c hacc
    rw [hperf k c c' (by simp [hk, TfaRequest.update, hc'])]
    exact ⟨havail, hused⟩
  · intro k c hused
    cases h : ((req k).update m c).1 with
    | none => rwa [perform, show ((tfaSystem m req).update k c).1 = none from h]
    | some c' => rw [hperf k c c' h]; exact hcode.stays_used k c c' hused h

def recoveryMethods : TfaMethods (List String) where
  verify _ code codes := if code ∈ codes then (some (codes.filter (· ≠ code)), true) else (none, false)
  addTfaEntry _ _ _ _ _ _ _ := none
  updateTfaEntry _ _ _ _ _ := none
  deleteTfa _ _ _ := none

def twoLogins (code₁ code₂ : String) (i : Bool) : TfaRequest := .login "joe@pdm" (if i then code₂ else code₁)

def oneByOne : List (Act Bool) :=
  [.acquire false, .load false, .store false, .release false, .acquire true, .load true, .store true, .release true]

theorem oneTimeCode_recovery (code) : OneTimeCode recoveryMethods (twoLogins code code) "joe@pdm" code (code ∈ ·) where
  accepted codes h := by
    by_cases hmem : code ∈ codes
    · exact ⟨hmem, codes.filter (· ≠ code), by simp [recoveryMethods, hmem], by simp⟩
    · simp [recoveryMethods, hmem] at h
  stays_used i codes codes' hused h := by
    cases i <;> simp [twoLogins, TfaRequest.update, recoveryMethods, hused] at h

theorem tfa_logins_one_by_one :
    ∃ s, Run (CurrentStep (tfaSystem recoveryMethods (twoLogins "c1" "c1"))) (State.init ["c1", "c2"]) oneByOne s ∧
      s.phase false = .released true ∧ s.phase true = .released false ∧
      SerialOutcome (tfaSystem recoveryMethods (twoLogins "c1" "c1")) ["c1", "c2"] s ∧
      ∀ i, s.phase i = .released true → i = false := by
  refine Run.exists_imp (P := fun s => s.phase false = .released true ∧ s.phase true = .released false) ?_ ?_
  · refine ⟨_, .cons ⟨?_, .acquire rfl fun j h => ?_⟩ <| .cons ⟨?_, .load rfl⟩ <| .cons ⟨?_, .store rfl⟩ <|
      .cons ⟨?_, .release rfl⟩ <| .cons ⟨?_, .acquire rfl fun j h => ?_⟩ <| .cons ⟨?_, .load rfl⟩ <|
      .cons ⟨?_, .store rfl⟩ <| .cons ⟨?_, .release rfl⟩ (.nil _), rfl, rfl⟩
    all_goals first
      | (cases j <;> cases h)
      | (rintro _ _ ⟨⟩; done)
      | (rintro _ _ ⟨⟩ - hload -; exact Phase.loaded.inj hload)
  · intro s hrun ⟨hfalse, htrue⟩
    obtain ⟨serial, honce⟩ := tfa_serial_of_current_logins recoveryMethods (twoLogins "c1" "c1") ["c1", "c2"] hrun
      fun i => by cases i with
        | false => exact .inr ⟨_, hfalse⟩
        | true => exact .inr ⟨_, htrue⟩
    refine ⟨hfalse, htrue, serial, fun i hi => ?_⟩
    exact honce "joe@pdm" "c1" ("c1" ∈ ·) (oneTimeCode_recovery "c1") i false (by cases i <;> rfl) rfl hi hfalse

def overlapping : List (Act Bool) :=
  [.acquire false, .acquire true, .load false, .load true, .store false, .store true, .release false, .release true]

theorem overlapping_run {C : Type} (m : TfaMethods C) (code₁ code₂ : String) (c : C) :
    ∃ s, Run (Step (tfaSystem m (twoLogins code₁ code₂))) (State.init c) overlapping s ∧
      s.content = (m.verify "joe@pdm" code₂ c).1.getD ((m.verify "joe@pdm" code₁ c).1.getD c) ∧
      s.phase false = .released (m.verify "joe@pdm" code₁ c).2 ∧
      s.phase true = .released (m.verify "joe@pdm" code₂ c).2 := by
  refine ⟨_, .cons (.acquire rfl fun j h => ?_) <| .cons (.acquire rfl fun j h => ?_) <| .cons (.load rfl) <|
    .cons (.load rfl) <| .cons (.store rfl) <| .cons (.store rfl) <| .cons (.release rfl) <| .cons (.release rfl)
    (.nil _), rfl, rfl, rfl⟩
  · cases h
  · cases j with
    | false => exact ⟨rfl, rfl⟩
    | true => cases h

theorem perform_twoLogins (code₁) (code₂) (codes) (i : Bool) :
    perform (tfaSystem recoveryMethods (twoLogins code₁ code₂)) codes i =
      codes.filter (· ≠ if i then code₂ else code₁) := by
  simp only [perform, tfaSystem, twoLogins, TfaRequest.update, recoveryMethods]
  generalize (if i then code₂ else code₁) = code
  split
  · rfl
  · next hmem =>
    refine (List.filter_eq_self.mpr fun other hoth => ?_).symm
    simp only [ne_eq, decide_not, Bool.not_eq_true', decide_eq_false_iff_not]
    rintro rfl
    exact hmem hoth

/-- The first recovery code is not used up; and one code is accepted twice. -/
theorem tfa_overlapping_logins_lose_updates :
    (∃ acts s, Run (Step (tfaSystem recoveryMethods (twoLogins "c1" "c2"))) (State.init ["c1", "c2"]) acts s ∧
      (∀ i, s.phase i = .idle ∨ ∃ b, s.phase i = .released b) ∧
      ¬ SerialOutcome (tfaSystem recoveryMethods (twoLogins "c1" "c2")) ["c1", "c2"] s) ∧
    (∃ acts s, Run (Step (tfaSystem recoveryMethods (twoLogins "c1" "c1"))) (State.init ["c1"]) acts s ∧
      s.phase false = .released true ∧ s.phase true = .released true) := by
  constructor
  · obtain ⟨s, hrun, content, hfalse, htrue⟩ := overlapping_run recoveryMethods "c1" "c2" ["c1", "c2"]
    refine ⟨overlapping, s, hrun, fun i => ?_, ?_⟩
    · cases i with
      | false => exact .inr ⟨_, hfalse⟩
      | true => exact .inr ⟨_, htrue⟩
    · rintro ⟨order, -, hmem, serial, -⟩
      have hkeep : ∀ (i : Bool) (codes : List String), ¬ "c1" ∈ codes →
          ¬ "c1" ∈ perform (tfaSystem recoveryMethods (twoLogins "c1" "c2")) codes i := by
        intro i codes h
        rw [perform_twoLogins]
        exact fun hc => h (List.mem_of_mem_filter hc)
      obtain ⟨pre, post, rfl⟩ := List.append_of_mem ((hmem false).mpr ⟨_, hfalse⟩)
      have hgone : ¬ "c1" ∈ s.content := by
        rw [serial, serial_append_cons]
        exact not_avail_serial hkeep post (by simp [perform_twoLogins])
      rw [content] at hgone
      exact hgone (by decide)
  · obtain ⟨s, hrun, -, hfalse, htrue⟩ := overlapping_run recoveryMethods "c1" "c1" ["c1"]
    exact ⟨overlapping, s, hrun, hfalse, htrue⟩

end Nexus
