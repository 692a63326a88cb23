import Nexus.AutoInstaller.Requests

/-!
# What the requests have read is what there is

With the guards, a request that is to write the prepared answers finds them as it has read them. The lock of the
installations keeps installations apart from each other, and that of the prepared answers keeps edits apart from each
other and from installations. So as long as nobody edits, a timeout at the latter does no harm (`Obtained`,
`ordered_of_obtained`).
-/

namespace Nexus.AutoInstaller

open Lib (Floor Run)

variable {ι Info Rest Answer : Type} {load : Workload ι Info Rest Answer} {s t : State ι Info Rest Answer} {a : Act ι}
  {p q : Phase Info Rest Answer} {i j : ι}

def Edits (load : Workload ι Info Rest Answer) : Prop := ∃ i edit, load.requests i = .edit edit

/-- No acquisition that matters times out. -/
def Obtained (load : Workload ι Info Rest Answer) (a : Act ι) : Prop :=
  (∀ i, a ≠ .timeout i .installations) ∧ (Edits load → ∀ i, a ≠ .timeout i .prepared)

/-! ## Guards -/

def Guarded (edits : Prop) : Phase Info Rest Answer → Prop
  | .entered guard | .rendered guard _ | .incremented guard _ | .unmatched guard _ => guard
  | .incrementing guard _ preparedGuard | .readCounters guard _ preparedGuard _ =>
    guard ∧ (edits → preparedGuard)
  | .editing preparedGuard | .generating preparedGuard _ _ _ _ _ _ | .saving preparedGuard _ =>
    edits ∧ preparedGuard
  | _ => True

variable {lock : LockFile} {next : Bool → Phase Info Rest Answer} {guard : Bool} {edits : Prop}
  {prepared : Prepared Rest} {request : Request Info Rest} {files files' : Files Info Rest}

theorem guarded_of_asks (hasks : Asks (load.requests i) p lock next) (hp : Guarded (Edits load) p)
    (hguard : guard = false → lock ≠ .installations ∧ (Edits load → lock ≠ .prepared)) :
    Guarded (Edits load) (next guard) := by
  have hinst : lock = .installations → guard := fun e => by
    by_contra hnot
    exact (hguard (by simpa using hnot)).1 e
  have hprep : Edits load → lock = .prepared → guard := fun hedits e => by
    by_contra hnot
    exact (hguard (by simpa using hnot)).2 hedits e
  generalize hreq : load.requests i = request at hasks
  cases hasks with
  | installation => exact hinst rfl
  | edit => exact ⟨⟨i, _, hreq⟩, hprep ⟨i, _, hreq⟩ rfl⟩
  | increment => exact ⟨hp, fun hedits => hprep hedits rfl⟩
  | generate => exact hp
  | delete => trivial

theorem guarded_of_reads (hread : Reads prepared request p q) (hp : Guarded edits p) : Guarded edits q := by
  cases hread with
  | fails | unused | deleting => trivial
  | _ => exact hp

theorem guarded_of_writes (hwr : Writes files p q files') (hp : Guarded edits p) : Guarded edits q := by
  cases hwr with
  | counters => exact hp.1
  | @generated preparedGuard snapshot config refusal =>
    cases refusal with
    | some => trivial
    | none => exact hp
  | generating => exact hp
  | _ => trivial

theorem guarded_move [DecidableEq ι] (h : ∀ i, Guarded (Edits load) (s.phase i)) (ha : Obtained load a)
    (hmove : Move load s a t) : ∀ i, Guarded (Edits load) (t.phase i) := by
  have hupd : ∀ i p, Guarded (Edits load) p → ∀ j, Guarded (Edits load) (Function.update s.phase i p j) :=
    fun _ _ => Floor.forall_update (R := fun _ => Guarded (Edits load)) h
  cases hmove with
  | acquire hasks => exact hupd _ _ (guarded_of_asks hasks (h _) fun hguard => by cases hguard)
  | timeout hasks =>
    refine hupd _ _ (guarded_of_asks hasks (h _) fun _ => ⟨?_, ?_⟩)
    · rintro rfl
      exact ha.1 _ rfl
    · rintro hedits rfl
      exact ha.2 hedits _ rfl
  | read hread => exact hupd _ _ (guarded_of_reads hread (h _))
  | write hwr => exact hupd _ _ (guarded_of_writes hwr (h _))
  | fail => exact hupd _ _ trivial

def Phase.snapshot : Phase Info Rest Answer → Bool
  | .readCounters _ _ _ _ | .generating _ _ _ _ _ _ _ | .saving _ _ => true
  | _ => false

theorem snapshot_unique (hcoh : Coherent s) (h : ∀ i, Guarded (Edits load) (s.phase i))
    (hi : (s.phase i).snapshot) (hj : (s.phase j).snapshot) : i = j := by
  -- without edits there are installations only, and they hold the other lock
  have hguarded : ∀ k, (s.phase k).snapshot → (Edits load → (s.phase k).holds .prepared) ∧
      (¬ Edits load → (s.phase k).holds .installations) := fun k hk => by
    have guarded := h k
    revert hk guarded
    cases s.phase k with
    | readCounters => exact fun _ guarded => ⟨guarded.2, fun _ => guarded.1⟩
    | generating => exact fun _ guarded => ⟨fun _ => guarded.2, fun hnot => absurd guarded.1 hnot⟩
    | saving => exact fun _ guarded => ⟨fun _ => guarded.2, fun hnot => absurd guarded.1 hnot⟩
    | _ => exact fun hk => by cases hk
  by_cases hedits : Edits load
  · exact hcoh.unique ((hguarded i hi).1 hedits) ((hguarded j hj).1 hedits)
  · exact hcoh.unique ((hguarded i hi).2 hedits) ((hguarded j hj).2 hedits)

/-! ## Snapshots -/

structure Result (edit : Edit Rest) (prepared content : Prepared Rest) : Prop where
  get?_of_ne : ∀ id, id ≠ edit.id → content.get? id = prepared.get? id
  lists : ∀ token, content.Lists token → edit.Names token ∨ prepared.Lists token

theorem result_remove (edit : Edit Rest) (prepared : Prepared Rest) : Result edit prepared (prepared.remove edit.id) :=
  ⟨fun id hid => by rw [Prepared.get?_remove, if_neg hid], fun _ hlists => .inr (Prepared.lists_remove hlists)⟩

theorem result_insert {edit config}
    (hid : config.id = edit.id) (tokens : ∀ token ∈ config.authorizedTokens, edit.Names token ∨ prepared.Lists token) :
    Result edit prepared (prepared.insert config) := by
  refine ⟨fun id hne => ?_, fun token hlists => ?_⟩
  · rw [Prepared.get?_insert, hid, if_neg hne]
  · rcases Prepared.lists_insert hlists with htok | hlists
    · exact tokens token htok
    · exact .inr hlists

def Current (prepared : Prepared Rest) (request : Request Info Rest) : Phase Info Rest Answer → Prop
  | .readCounters _ answer _ content => incrementTemplateCounters prepared answer.config.id = .ok content
  | .generating _ snapshot config _ _ _ _ => snapshot = prepared ∧ ∃ edit, request = .edit edit ∧ config.id = edit.id ∧
      ∀ token ∈ config.authorizedTokens, edit.Names token
  | .saving _ content => ∃ edit, request = .edit edit ∧ Result edit prepared content
  | _ => True

theorem current_of_not_snapshot (h : p.snapshot = false) : Current prepared request p := by
  cases p with
  | readCounters | generating | saving => cases h
  | _ => trivial

theorem current_of_asks (hasks : Asks request p lock next)
    (hp : Current prepared request p) : Current prepared request (next guard) := by
  cases hasks with
  | generate => exact hp
  | _ => trivial

theorem current_of_reads (hread : Reads prepared request p q)
    (hp : Current prepared request p) : Current prepared request q := by
  cases hread with
  | counters content => exact content
  | removed => exact ⟨_, rfl, result_remove _ _⟩
  | stored hid tokens => exact ⟨_, rfl, result_insert hid tokens⟩
  | generate hid tokens => exact ⟨rfl, _, rfl, hid, tokens⟩
  | generating => exact hp
  | _ => trivial

theorem current_of_writes (hwr : Writes files p q files') (hp : Current files.prepared request p) :
    (files'.prepared = files.prepared ∧ Current files'.prepared request q) ∨ p.snapshot ∧ q.snapshot = false := by
  cases hwr with
  | counters | saved => exact .inr ⟨rfl, rfl⟩
  | generating => exact .inl ⟨rfl, hp⟩
  | @generated preparedGuard snapshot config refusal =>
    refine .inl ⟨rfl, ?_⟩
    obtain ⟨rfl, edit, hreq, hid, tokens⟩ := hp
    cases refusal with
    | some => trivial
    | none => exact ⟨edit, hreq, result_insert hid fun token htok => .inl (tokens token htok)⟩
  | _ => exact .inl ⟨rfl, trivial⟩

structure Ordered (load : Workload ι Info Rest Answer) (s : State ι Info Rest Answer) : Prop where
  coherent : Coherent s
  guarded : ∀ i, Guarded (Edits load) (s.phase i)
  current : ∀ i, Current s.files.prepared (load.requests i) (s.phase i)

theorem ordered_start (load) (files) : Ordered load (.start files : State ι Info Rest Answer) :=
  ⟨coherent_start files, fun _ => trivial, fun _ => trivial⟩

variable [DecidableEq ι]

theorem current_move (h : Ordered load s) (hmove : Move load s a t) :
    ∀ i, Current t.files.prepared (load.requests i) (t.phase i) := by
  have hupd : ∀ i p, Current s.files.prepared (load.requests i) p →
      ∀ j, Current s.files.prepared (load.requests j) (Function.update s.phase i p j) :=
    fun _ _ => Floor.forall_update (R := fun j => Current s.files.prepared (load.requests j)) h.current
  cases hmove with
  | acquire hasks => exact hupd _ _ (current_of_asks hasks (h.current _))
  | timeout hasks => exact hupd _ _ (current_of_asks hasks (h.current _))
  | read hread => exact hupd _ _ (current_of_reads hread (h.current _))
  | fail => exact hupd _ _ trivial
  | @write i p files hwr =>
    rcases current_of_writes hwr (h.current i) with ⟨hprep, hp⟩ | ⟨hi, hp⟩
    · simp only [hprep] at hp ⊢
      exact hupd _ _ hp
    · -- the prepared answers are written, and nobody else is between a read and a write
      intro j
      refine current_of_not_snapshot ?_
      by_cases hji : j = i
      · subst hji
        simpa [Floor.enter] using hp
      · by_contra hj
        simp only [Floor.enter, Function.update_of_ne hji, Bool.not_eq_false] at hj
        exact hji (snapshot_unique h.coherent h.guarded hj hi)

theorem ordered_move (h : Ordered load s) (ha : Obtained load a) (hmove : Move load s a t) : Ordered load t :=
  ⟨coherent_move h.coherent hmove, guarded_move h.guarded ha hmove, current_move h hmove⟩

theorem ordered_of_obtained {acts} (h : Run (Step load) (.start files) acts s)
    (hacts : ∀ a ∈ acts, Obtained load a) : Ordered load s :=
  h.invariant_of_mem (fun _ a _ ha hs hstep => ordered_move hs (hacts a ha) (move_of_step hstep))
    (ordered_start load files)

end Nexus.AutoInstaller
