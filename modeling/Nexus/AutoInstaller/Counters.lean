import Nexus.AutoInstaller.Snapshots

/-!
# Template counters

Installations that get the same prepared answer get different values of each counter (`template_counters_distinct`),
unless a lock timed out (`timed_out_lock_repeats_counter`) or the answer is edited in between.
-/

namespace Nexus.AutoInstaller

open Lib (OrderedMap Run)
open Function

variable {ι Info Rest Answer : Type} {load : Workload ι Info Rest Answer} {s t : State ι Info Rest Answer} {a : Act ι}
  {p q : Phase Info Rest Answer} {id : String} {config config' : PreparedConfig Rest}

def Above (stored : Option (PreparedConfig Rest)) (config : PreparedConfig Rest) : Prop :=
  ∀ conf ∈ stored, ∀ name v w, config.templateCounters.get? name = some v → v ≠ I32.max →
    conf.templateCounters.get? name = some w → v.val < w.val

theorem above_incremented (config : PreparedConfig Rest) : Above (some config.incremented) config := by
  rintro _ ⟨⟩ name v w hv hmax hw
  obtain ⟨v', hv', rfl⟩ := PreparedConfig.get?_incremented hw
  cases hv.symm.trans hv'
  exact I32.lt_saturatingSucc hmax

theorem Above.increment {stored} (h : Above stored config) : Above (stored.map PreparedConfig.incremented) config := by
  rintro _ hconf name v w hv hmax hw
  obtain ⟨conf, hstored, rfl⟩ := Option.map_eq_some_iff.mp hconf
  obtain ⟨w', hw', rfl⟩ := PreparedConfig.get?_incremented hw
  exact Int.lt_of_lt_of_le (h conf hstored name v w' hv hmax hw') (I32.le_saturatingSucc w')

/-- No counter has the same value in both, unless it is at its end. -/
def Distinct (config config' : PreparedConfig Rest) : Prop :=
  ∀ name v w, config.templateCounters.get? name = some v → config'.templateCounters.get? name = some w →
    v ≠ I32.max → v ≠ w

theorem Distinct.symm (h : Distinct config config') : Distinct config' config := by
  rintro name v _ hv hw hmax rfl
  exact h name v v hw hv hmax rfl

theorem Above.distinct (h : Above (some config') config) : Distinct config config' := by
  rintro name v _ hv hw hmax rfl
  exact Int.lt_irrefl _ (h config' rfl name v v hv hmax hw)

def Phase.inHand : Phase Info Rest Answer → Option (Rendered Info Rest Answer)
  | .rendered _ answer | .incrementing _ answer _ | .readCounters _ answer _ _ => some answer
  | _ => none

def Phase.given : Phase Info Rest Answer → Option (Rendered Info Rest Answer)
  | .incremented _ answer | .answered answer => some answer
  | _ => none

structure Counted (id : String) (new : ι → Prop) (s : State ι Info Rest Answer) : Prop where
  inHand : ∀ i, new i → ∀ answer ∈ (s.phase i).inHand, answer.config.id = id →
    s.files.prepared.get? id = some answer.config
  given : ∀ i, new i → ∀ answer ∈ (s.phase i).given, answer.config.id = id →
    Above (s.files.prepared.get? id) answer.config
  distinct : ∀ i j, new i → new j → i ≠ j → ∀ answer ∈ (s.phase i).given, ∀ answer' ∈ (s.phase j).given,
    answer.config.id = id → answer'.config.id = id → Distinct answer.config answer'.config

theorem inHand_unique (h : Ordered load s) {i j} (hi : (s.phase i).inHand.isSome) (hj : (s.phase j).inHand.isSome) :
    i = j := by
  have hholds : ∀ k, (s.phase k).inHand.isSome → (s.phase k).holds .installations := fun k hk => by
    have guarded := h.guarded k
    revert hk guarded
    cases s.phase k with
    | rendered => exact fun _ guarded => guarded
    | incrementing => exact fun _ guarded => guarded.1
    | readCounters => exact fun _ guarded => guarded.1
    | _ => exact fun hk => by cases hk
  exact h.coherent.unique (hholds i hi) (hholds j hj)

/-! ## One act -/

structure Keeps (prepared : Prepared Rest) (p q : Phase Info Rest Answer) : Prop where
  inHand : ∀ answer ∈ q.inHand, answer ∈ p.inHand ∨ prepared.get? answer.config.id = some answer.config
  given : ∀ answer ∈ q.given, answer ∈ p.given

variable {prepared : Prepared Rest} {request : Request Info Rest}

theorem keeps_of_none (hinHand : q.inHand = none) (hgiven : q.given = none) : Keeps prepared p q :=
  ⟨by simp [hinHand], by simp [hgiven]⟩

theorem keeps_of_eq (hinHand : q.inHand = p.inHand) (hgiven : q.given = p.given) : Keeps prepared p q :=
  ⟨fun _ h => .inl (hinHand ▸ h), fun _ h => hgiven ▸ h⟩

theorem keeps_of_asks {lock next guard} (hasks : Asks request p lock next) : Keeps prepared p (next guard) := by
  cases hasks with
  | increment => exact keeps_of_eq rfl rfl
  | _ => exact keeps_of_none rfl rfl

theorem keeps_of_reads (hread : Reads prepared request p q) : Keeps prepared p q := by
  cases hread with
  | found hfnd =>
    refine ⟨?_, by simp [Phase.given]⟩
    rintro _ ⟨⟩
    exact .inr hfnd
  | counters => exact keeps_of_eq rfl rfl
  | _ => exact keeps_of_none rfl rfl

theorem keeps_of_writes {files files'} (hwr : Writes files p q files') :
    (files'.prepared = files.prepared ∧ Keeps files.prepared p q) ∨
      (∃ guard answer preparedGuard, p = .readCounters guard answer preparedGuard files'.prepared ∧
        q = .incremented guard answer) ∨ ∃ preparedGuard, p = .saving preparedGuard files'.prepared ∧ q = .done := by
  cases hwr with
  | counters => exact .inr (.inl ⟨_, _, _, rfl, rfl⟩)
  | saved => exact .inr (.inr ⟨_, rfl, rfl⟩)
  | answered => exact .inl ⟨rfl, keeps_of_eq rfl rfl⟩
  | @generated preparedGuard snapshot config refusal =>
    refine .inl ⟨rfl, ?_⟩
    cases refusal with
    | some => exact keeps_of_none rfl rfl
    | none => exact keeps_of_none rfl rfl
  | _ => exact .inl ⟨rfl, keeps_of_none rfl rfl⟩

variable {new : ι → Prop}

section

variable [DecidableEq ι] {i : ι} {files : Files Info Rest} {owner : LockFile → Option ι}

theorem Counted.keep (h : Counted id new s) (stored : files.prepared.get? id = s.files.prepared.get? id)
    (hkeeps : Keeps s.files.prepared (s.phase i) p) : Counted id new ⟨⟨update s.phase i p, owner⟩, files⟩ := by
  have hgiven : ∀ j, ∀ answer ∈ (update s.phase i p j).given, answer ∈ (s.phase j).given :=
      fun j answer hj => by
        by_cases hji : j = i
        · subst hji
          rw [update_self] at hj
          exact hkeeps.given answer hj
        · rwa [update_of_ne hji] at hj
  refine ⟨fun j hnew answer hj hid => ?_, fun j hnew answer hj hid => ?_, fun j k hj hk hjk a ha b hb authId bid => ?_⟩
  · rw [stored]
    by_cases hji : j = i
    · subst hji
      simp only [update_self] at hj
      rcases hkeeps.inHand answer hj with before | found
      · exact h.inHand j hnew answer before hid
      · rwa [hid] at found
    · simp only [update_of_ne hji] at hj
      exact h.inHand j hnew answer hj hid
  · rw [stored]
    exact h.given j hnew answer (hgiven j answer hj) hid
  · exact h.distinct j k hj hk hjk a (hgiven j a ha) b (hgiven k b hb) authId bid

theorem Counted.increment (h : Counted id new s) (hord : Ordered load s) {guard preparedGuard answer}
    (hi : s.phase i = .readCounters guard answer preparedGuard files.prepared) :
    Counted id new ⟨⟨update s.phase i (.incremented guard answer), owner⟩, files⟩ := by
  have content := hord.current i
  rw [hi] at content
  have stored := get?_of_increment content id
  have hinHand : (s.phase i).inHand = some answer := by rw [hi]; rfl
  have hbef : ∀ j, j ≠ i → update s.phase i (.incremented guard answer) j = s.phase j := fun j hji =>
    update_of_ne hji _ _
  have hself : update s.phase i (.incremented guard answer) i = .incremented guard answer :=
    update_self _ _ _
  -- what was given before is below the counters of the answer in hand
  have hdist : new i → ∀ j, new j → ∀ b ∈ (s.phase j).given, answer.config.id = id → b.config.id = id →
      Distinct b.config answer.config := fun hnew j hj b hb hid bid => by
    have habove := h.given j hj b hb bid
    rw [h.inHand i hnew answer hinHand hid] at habove
    exact habove.distinct
  refine ⟨fun j hnew a hj hid => ?_, fun j hnew a hj hid => ?_, fun j k hj hk hjk a ha b hb authId bid => ?_⟩
  · by_cases hji : j = i
    · subst hji
      simp only [hself] at hj
      cases hj
    · simp only [hbef j hji] at hj
      exact absurd (inHand_unique hord (Option.isSome_of_mem hj) (Option.isSome_of_mem hinHand)) hji
  · by_cases hji : j = i
    · subst hji
      simp only [hself] at hj
      cases hj
      rw [stored, if_pos hid.symm, hid, h.inHand j hnew answer hinHand hid]
      exact above_incremented answer.config
    · simp only [hbef j hji] at hj
      have habove := h.given j hnew a hj hid
      rw [stored]
      split
      · next hsame =>
        rw [← hsame]
        exact habove.increment
      · exact habove
  · by_cases hji : j = i
    · subst hji
      simp only [hself] at ha
      cases ha
      simp only [hbef k hjk.symm] at hb
      exact (hdist hj k hk b hb authId bid).symm
    · simp only [hbef j hji] at ha
      by_cases hki : k = i
      · subst hki
        simp only [hself] at hb
        cases hb
        exact hdist hk j hj a ha bid authId
      · simp only [hbef k hki] at hb
        exact h.distinct j k hj hk hjk a ha b hb authId bid

end

/-- No edit of the answer is saved in between. -/
def Untouched (load : Workload ι Info Rest Answer) (id : String) (s₀ s : State ι Info Rest Answer) : Prop :=
  ∀ i edit, load.requests i = .edit edit → edit.id = id → s.phase i = .done → s₀.phase i = .done

theorem counted_move [DecidableEq ι] (hord : Ordered load s) (h : Counted id new s)
    (unset : ∀ i edit, load.requests i = .edit edit → edit.id = id → s.phase i ≠ .done → t.phase i ≠ .done)
    (hmove : Move load s a t) : Counted id new t := by
  cases hmove with
  | acquire hasks => exact h.keep rfl (keeps_of_asks hasks)
  | timeout hasks => exact h.keep rfl (keeps_of_asks hasks)
  | read hread => exact h.keep rfl (keeps_of_reads hread)
  | fail => exact h.keep rfl (keeps_of_none rfl rfl)
  | @write i p files hwr =>
    rcases keeps_of_writes hwr with ⟨hprep, hkeeps⟩ | ⟨guard, answer, preparedGuard, hi, rfl⟩ |
      ⟨preparedGuard, hi, rfl⟩
    · exact h.keep (by rw [hprep]) hkeeps
    · exact h.increment hord hi
    · have saved := hord.current i
      rw [hi] at saved
      obtain ⟨edit, hreq, hres⟩ := saved
      refine h.keep (hres.get?_of_ne id ?_) (keeps_of_none rfl rfl)
      rintro rfl
      exact unset i edit hreq rfl (by simp [hi]) (update_self _ _ _)

/-! ## Runs -/

variable [DecidableEq ι]

theorem counted_of_run {acts s₀} (h : Run (Step load) s₀ acts s)
    (hord : Ordered load s₀) (hacts : ∀ a ∈ acts, Obtained load a) (hunt : Untouched load id s₀ s) :
    Counted id (fun k => s₀.phase k = .idle) s := by
  -- a request that was done then is done now
  have hrun : Ordered load s ∧ (∀ k, s₀.phase k = .done → s.phase k = .done) ∧
      (Untouched load id s₀ s → Counted id (fun k => s₀.phase k = .idle) s) := by
    refine h.invariant_of_mem (P := fun s => Ordered load s ∧ (∀ k, s₀.phase k = .done → s.phase k = .done) ∧
      (Untouched load id s₀ s → Counted id (fun k => s₀.phase k = .idle) s)) (fun s a t ha hs hstep => ?_)
      ⟨hord, fun _ hk => hk, fun _ => ?_⟩
    · obtain ⟨hord, hdone, count⟩ := hs
      have hmove := move_of_step hstep
      have hstays : ∀ k, s.phase k = .done → t.phase k = .done := fun k hk => by
        rw [phase_of_ended (by rw [hk]; rfl) hmove, hk]
      refine ⟨ordered_move hord (hacts a ha) hmove, fun k hk => hstays k (hdone k hk), fun hunt => ?_⟩
      have count := count fun k edit hreq hid hk => hunt k edit hreq hid (hstays k hk)
      refine counted_move hord count (fun k edit hreq hid hnot hk => ?_) hmove
      exact hnot (hdone k (hunt k edit hreq hid hk))
    · refine ⟨fun i hnew => ?_, fun i hnew => ?_, fun i j hnew _ _ => ?_⟩ <;> simp [hnew, Phase.inHand, Phase.given]
  exact hrun.2.2 hunt

/-- **Two installations that get an answer from the same prepared answer get it with different values of each counter
that is not at its end**, if the locks are obtained and no edit of it is saved meanwhile. -/
theorem template_counters_distinct (load : Workload ι Info Rest Answer) {files : Files Info Rest}
    {acts₀ acts : List (Act ι)} {s₀ s : State ι Info Rest Answer} (h₀ : Run (Step load) (.start files) acts₀ s₀)
    (h : Run (Step load) s₀ acts s) (hacts : ∀ a ∈ acts₀ ++ acts, Obtained load a) {id : String}
    (huntouched : Untouched load id s₀ s) {i j : ι} (hij : i ≠ j) (hi₀ : s₀.phase i = .idle)
    (hj₀ : s₀.phase j = .idle) {answer answer' : Rendered Info Rest Answer} (hi : s.phase i = .answered answer)
    (hj : s.phase j = .answered answer') (hid : answer.config.id = id) (hid' : answer'.config.id = id) {name : String}
    {v w : I32} (hv : answer.config.templateCounters.get? name = some v)
    (hw : answer'.config.templateCounters.get? name = some w) (hmax : v ≠ I32.max) : v ≠ w := by
  have hord : Ordered load s₀ := ordered_of_obtained h₀ fun a ha => hacts a (List.mem_append_left _ ha)
  have count := counted_of_run h hord (fun a ha => hacts a (List.mem_append_right _ ha)) huntouched
  have hdist : Distinct answer.config answer'.config :=
    count.distinct i j hi₀ hj₀ hij answer (by rw [hi]; rfl) answer' (by rw [hj]; rfl) hid hid'
  exact hdist name v w hv hw hmax

/-! ## Two installations -/

def twoInstallations : Workload Bool Unit Unit (Option I32) := ⟨hostEnv, fun _ => .newInstallation "rack" ()⟩

def hostFiles : Files Unit Unit where
  prepared := ⟨⟨[("hosts", hostConfig firstValue)], by decide⟩, by simp [hostConfig]⟩
  tokens := .empty
  shadow := .empty
  installations := []

def installation (i : Bool) : List (Act Bool) :=
  [.acquire i .installations, .read i someRandom, .acquire i .prepared, .read i someRandom, .write i, .write i]

theorem obtained_installation (i : Bool) : ∀ a ∈ installation i, Obtained twoInstallations a := by
  simp [installation, Obtained]

theorem template_counters_distinct_twoInstallations : ∃ s answer answer' v w,
    Run (Step twoInstallations) (.start hostFiles) (installation false ++ installation true) s ∧
      s.phase false = .answered answer ∧ s.phase true = .answered answer' ∧
      answer.config.templateCounters.get? "n" = some v ∧ answer'.config.templateCounters.get? "n" = some w ∧ v ≠ w := by
  obtain ⟨s, answer, answer', hrun, hi, hj, hid, hid', hv, hw⟩ : ∃ s answer answer',
      Run (Step twoInstallations) (.start hostFiles) (installation false ++ installation true) s ∧
        s.phase false = .answered answer ∧ s.phase true = .answered answer' ∧ answer.config.id = "hosts" ∧
        answer'.config.id = "hosts" ∧ answer.config.templateCounters.get? "n" = some firstValue ∧
        answer'.config.templateCounters.get? "n" = some firstValue.saturatingSucc :=
    ⟨_, _, _, Run.of_foldlM rfl, rfl, rfl, rfl, rfl, rfl, rfl⟩
  refine ⟨s, answer, answer', _, _, hrun, hi, hj, hv, hw, ?_⟩
  refine template_counters_distinct twoInstallations (.nil _) hrun (fun a ha => ?_)
    (fun _ _ hreq => by cases hreq) Bool.false_ne_true rfl rfl hi hj hid hid' hv hw (by decide)
  rw [List.nil_append] at ha
  rcases List.mem_append.mp ha with ha | ha
  · exact obtained_installation false a ha
  · exact obtained_installation true a ha

def timedOut : List (Act Bool) :=
  [.acquire false .installations, .timeout true .installations, .read false someRandom, .read true someRandom,
    .acquire false .prepared, .read false someRandom, .write false, .acquire true .prepared, .read true someRandom,
    .write true, .write false, .write true]

/-- **Both get the same value of the counter.** -/
theorem timed_out_lock_repeats_counter : ∃ s answer answer', Run (Step twoInstallations) (.start hostFiles) timedOut s ∧
    s.phase false = .answered answer ∧ s.phase true = .answered answer' ∧ answer.config.id = answer'.config.id ∧
      answer.config.templateCounters.get? "n" = some firstValue ∧
      answer'.config.templateCounters.get? "n" = some firstValue ∧ firstValue ≠ I32.max :=
  ⟨_, _, _, Run.of_foldlM rfl, rfl, rfl, rfl, rfl, rfl, by decide⟩

end Nexus.AutoInstaller
