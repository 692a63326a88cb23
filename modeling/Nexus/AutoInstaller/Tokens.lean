import Nexus.AutoInstaller.Snapshots

/-!
# Tokens in use

`delete_token` looks for the token in the prepared answers before it takes the lock of the tokens, and not again after
that. An edit that names the token may be saved in between (`token_removed_in_use`). If none is, then no prepared answer
lists the token at the moment when it is removed (`not_listed_at_removal`).
-/

namespace Nexus.AutoInstaller

open Lib (Floor OrderedMap Run)

variable {ι Info Rest Answer : Type} {load : Workload ι Info Rest Answer} {s t : State ι Info Rest Answer} {a : Act ι}
  {p q : Phase Info Rest Answer} {token : String}

def Phase.deletes (token : String) : Phase Info Rest Answer → Bool
  | .deleting id stage => id = token && stage.pending
  | _ => false

def Quiet (load : Workload ι Info Rest Answer) (token : String) (s : State ι Info Rest Answer) (a : Act ι) : Prop :=
  ∀ i preparedGuard content edit, a = .write i → s.phase i = .saving preparedGuard content →
    load.requests i = .edit edit → edit.Names token → ∀ j, (s.phase j).deletes token = false

/-- No edit that names the token is saved while it is being deleted. -/
def QuietStep [DecidableEq ι] (load : Workload ι Info Rest Answer) (token : String) (s : State ι Info Rest Answer)
    (a : Act ι) (t : State ι Info Rest Answer) : Prop :=
  Step load s a t ∧ Quiet load token s a

def Unlisted (token : String) (s : State ι Info Rest Answer) : Prop :=
  ∀ i, (s.phase i).deletes token → ¬ s.files.prepared.Lists token

variable {request : Request Info Rest} {files files' : Files Info Rest}

theorem deletes_of_asks {lock next guard} (hasks : Asks request p lock next) (hnext : (next guard).deletes token) :
    p.deletes token := by
  cases hasks with
  | delete => exact hnext
  | _ => cases hnext

theorem deletes_of_reads {prepared} (hread : Reads prepared request p q)
    (hq : q.deletes token) : p.deletes token ∨ ¬ prepared.Lists token := by
  cases hread with
  | @unused id hunused =>
    have hid : id = token := by simpa [Phase.deletes, TokenStage.pending] using hq
    exact .inr (hid ▸ hunused)
  | deleting _ pending => exact .inl (by rwa [Phase.deletes, pending] at hq)
  | _ => cases hq

theorem not_deletes_of_writes (hwr : Writes files p q files') : q.deletes token = false := by
  cases hwr with
  | deleting _ pending => simp [Phase.deletes, pending]
  | @generated preparedGuard snapshot config refusal => cases refusal <;> rfl
  | _ => rfl

theorem lists_of_writes (hwr : Writes files p q files') (hcur : Current files.prepared request p)
    (hlists : files'.prepared.Lists token) : files.prepared.Lists token ∨
      ∃ preparedGuard content edit, p = .saving preparedGuard content ∧ request = .edit edit ∧ edit.Names token := by
  cases hwr with
  | counters => exact .inl (lists_of_increment hcur hlists)
  | saved =>
    obtain ⟨edit, hreq, hres⟩ := hcur
    rcases hres.lists token hlists with names | hlist
    · exact .inr ⟨_, _, edit, rfl, hreq, names⟩
    · exact .inl hlist
  | _ => exact .inl hlists

variable [DecidableEq ι]

theorem unlisted_move (hord : Ordered load s) (h : Unlisted token s) (hquiet : Quiet load token s a)
    (hmove : Move load s a t) : Unlisted token t := by
  -- while the prepared answers stay as they are, only the request that acts matters
  have hupd : ∀ i p, (p.deletes token → ¬ s.files.prepared.Lists token) →
      ∀ j, (Function.update s.phase i p j).deletes token → ¬ s.files.prepared.Lists token :=
    fun _ _ => Floor.forall_update (R := fun _ p => Phase.deletes token p → ¬ s.files.prepared.Lists token) h
  cases hmove with
  | @acquire i lock next hasks hfree => exact hupd i _ fun hp => h i (deletes_of_asks hasks hp)
  | @timeout i lock next hasks => exact hupd i _ fun hp => h i (deletes_of_asks hasks hp)
  | @read i random p hread => exact hupd i p fun hp => (deletes_of_reads hread hp).elim (h i) id
  | fail => exact hupd _ _ fun hp => by cases hp
  | @write i p files hwr =>
    intro j hj hlists
    have hji : j ≠ i := by
      rintro rfl
      simp only [Floor.enter, Function.update_self, not_deletes_of_writes hwr] at hj
      cases hj
    simp only [Floor.enter, Function.update_of_ne hji] at hj
    rcases lists_of_writes hwr (hord.current i) hlists with
      hlist | ⟨preparedGuard, content, edit, hi, hreq, names⟩
    · exact h j hj hlist
    · cases hj.symm.trans (hquiet i preparedGuard content edit rfl hi hreq names j)

/-- **When `delete_token` removes a token, no prepared answer lists it**, if no edit that names it is saved between the
check and the removal. -/
theorem not_listed_at_removal (load : Workload ι Info Rest Answer) (token : String) {files : Files Info Rest}
    {acts : List (Act ι)} {s : State ι Info Rest Answer} (h : Run (QuietStep load token) (.start files) acts s)
    (hlocks : ∀ i lock, Act.timeout i lock ∉ acts) {i : ι} {guard : Bool} {content : OrderedMap String AnswerToken}
    (hi : s.phase i = .deleting token (.readTokens guard content)) : ¬ s.files.prepared.Lists token := by
  have hrun : Ordered load s ∧ Unlisted token s := by
    refine h.invariant_of_mem (P := fun s => Ordered load s ∧ Unlisted token s) (fun s a t ha hs hstep => ?_)
      ⟨ordered_start load files, fun _ start => by cases start⟩
    have hmove := move_of_step hstep.1
    have hobt : Obtained load a := by
      refine ⟨fun i e => ?_, fun _ i e => ?_⟩
      · exact hlocks i _ (e ▸ ha)
      · exact hlocks i _ (e ▸ ha)
    exact ⟨ordered_move hs.1 hobt hmove, unlisted_move hs.1 hs.2 hstep.2 hmove⟩
  refine hrun.2 i ?_
  rw [hi]
  simp [Phase.deletes, TokenStage.pending]

/-! ## A deletion and an edit -/

def deleteAndCreate (token : String) : Workload Bool Unit Unit (Option I32) :=
  ⟨hostEnv, fun i => if i then .edit (.create (hostConfig firstValue) (some "password")) else .deleteToken token⟩

def tokenFiles : Files Unit Unit where
  prepared := ⟨.empty, by simp [OrderedMap.empty]⟩
  tokens := ⟨[("rack", ⟨"rack", "root@pam", none, none, none⟩), ("spare", ⟨"spare", "root@pam", none, none, none⟩)],
    by decide⟩
  shadow := ⟨[("rack", "hashed"), ("spare", "hashed")], by decide⟩
  installations := []

/-- The edit is saved between the check and the removal. -/
def savedBetween : List (Act Bool) :=
  [.read false someRandom, .acquire true .prepared, .read true someRandom, .write true, .acquire false .tokens,
    .read false someRandom]

/-- The edit names the token `rack`, and `spare` is deleted. -/
theorem not_listed_at_removal_spare : ∃ s content,
    Run (QuietStep (deleteAndCreate "spare") "spare") (.start tokenFiles) savedBetween s ∧
      s.phase false = .deleting "spare" (.readTokens true content) ∧ s.files.prepared.Lists "rack" ∧
      ¬ s.files.prepared.Lists "spare" := by
  have hquiet : ∀ s a, Quiet (deleteAndCreate "spare") "spare" s a := by
    intro s a i _ _ edit _ _ hreq names
    cases i with
    | false => cases hreq
    | true =>
      cases hreq
      exact absurd names (by simp [Edit.Names, hostConfig])
  obtain ⟨s, content, hrun, hi, hlists⟩ : ∃ s content,
      Run (QuietStep (deleteAndCreate "spare") "spare") (.start tokenFiles) savedBetween s ∧
        s.phase false = .deleting "spare" (.readTokens true content) ∧ s.files.prepared.Lists "rack" :=
    ⟨_, _, .cons ⟨rfl, hquiet _ _⟩ (.cons ⟨rfl, hquiet _ _⟩ (.cons ⟨rfl, hquiet _ _⟩ (.cons ⟨rfl, hquiet _ _⟩
      (.cons ⟨rfl, hquiet _ _⟩ (.cons ⟨rfl, hquiet _ _⟩ (.nil _)))))), rfl,
      ⟨_, List.mem_cons_self, List.mem_cons_self⟩⟩
  exact ⟨s, content, hrun, hi, hlists, not_listed_at_removal _ _ hrun (by simp [savedBetween]) hi⟩

/-- **The answer lists the token afterwards.** -/
theorem token_removed_in_use : ∃ s t, Run (Step (deleteAndCreate "rack")) (.start tokenFiles) savedBetween s ∧
    Step (deleteAndCreate "rack") s (.write false) t ∧ (s.files.tokens.get? "rack").isSome ∧
    s.files.prepared.Lists "rack" ∧ t.files.tokens.get? "rack" = none ∧ t.files.prepared.Lists "rack" :=
  ⟨_, _, Run.of_foldlM rfl, rfl, rfl, ⟨_, List.mem_cons_self, List.mem_cons_self⟩, rfl,
    ⟨_, List.mem_cons_self, List.mem_cons_self⟩⟩

end Nexus.AutoInstaller
