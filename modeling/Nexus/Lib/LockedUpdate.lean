import Mathlib.Logic.Function.Basic
import Mathlib.Data.List.Nodup
import Nexus.Lib.Run

/-!
# Read-modify-write sessions under a shared or exclusive lock

A session takes a lock, loads the content, computes a new content and an answer, stores the new content, if there is
one, and releases the lock. `serialOutcome_of_run`: a run has the effect of its sessions one after another if a shared
session only ever stores while the content is still what it loaded.
-/

namespace Nexus.Lib.LockedUpdate

open Function List

variable {ι σ β : Type*}

structure System (ι σ β : Type*) where
  exclusive : ι → Bool
  update : ι → σ → Option σ × β

inductive Phase (σ β : Type*)
  | idle
  | locked
  | loaded (c : σ)
  | stored (b : β)
  | released (b : β)

def Phase.holds : Phase σ β → Bool
  | .idle => false
  | .locked => true
  | .loaded _ => true
  | .stored _ => true
  | .released _ => false

structure State (ι σ β : Type*) where
  content : σ
  phase : ι → Phase σ β

def State.init (c : σ) : State ι σ β := ⟨c, fun _ => .idle⟩

inductive Act (ι : Type*)
  | acquire (i : ι)
  | load (i : ι)
  | store (i : ι)
  | release (i : ι)

section

variable [DecidableEq ι]

def State.move (s : State ι σ β) (i : ι) (p : Phase σ β) : State ι σ β := ⟨s.content, update s.phase i p⟩

inductive Step (sys : System ι σ β) : State ι σ β → Act ι → State ι σ β → Prop
  | acquire {s i} (hidle : s.phase i = .idle)
      (hfree : ∀ j, (s.phase j).holds → sys.exclusive i = false ∧ sys.exclusive j = false) :
      Step sys s (.acquire i) (s.move i .locked)
  | load {s i} (hlocked : s.phase i = .locked) :
      Step sys s (.load i) (s.move i (.loaded s.content))
  | store {s i c} (hloaded : s.phase i = .loaded c) :
      Step sys s (.store i)
        ⟨(sys.update i c).1.getD s.content, update s.phase i (.stored (sys.update i c).2)⟩
  | release {s i b} (hstored : s.phase i = .stored b) :
      Step sys s (.release i) (s.move i (.released b))

/-- A shared session that stores finds what it loaded. -/
def StoresCurrent (sys : System ι σ β) (s : State ι σ β) (a : Act ι) : Prop :=
  ∀ i c, a = .store i → sys.exclusive i = false → s.phase i = .loaded c → (sys.update i c).1.isSome →
    s.content = c

def CurrentStep (sys : System ι σ β) (s : State ι σ β) (a : Act ι) (t : State ι σ β) : Prop :=
  StoresCurrent sys s a ∧ Step sys s a t

end

/-! ## One session after another -/

variable (sys : System ι σ β)

def perform (c : σ) (i : ι) : σ := (sys.update i c).1.getD c

def serial (order : List ι) (c : σ) : σ := order.foldl (perform sys) c

def Placed (order : List ι) (c₀ : σ) (i : ι) (c : σ) : Prop :=
  ∃ pre post, order = pre ++ i :: post ∧ c = serial sys pre c₀

/-- The state and the answers are those of some serial order. -/
def SerialOutcome (c₀ : σ) (s : State ι σ β) : Prop :=
  ∃ order : List ι, order.Nodup ∧ (∀ i, i ∈ order ↔ ∃ b, s.phase i = .released b) ∧ s.content = serial sys order c₀ ∧
    ∀ i b, s.phase i = .released b → ∃ c, Placed sys order c₀ i c ∧ b = (sys.update i c).2

variable {sys} {order : List ι} {c₀ c : σ} {i j : ι}

theorem serial_concat : serial sys (order ++ [i]) c₀ = perform sys (serial sys order c₀) i := by
  simp [serial, foldl_append]

theorem perform_of_none (h : (sys.update i c).1 = none) : perform sys c i = c := by
  simp [perform, h]

theorem Placed.mem (h : Placed sys order c₀ i c) : i ∈ order := by
  obtain ⟨pre, post, rfl, -⟩ := h
  simp

theorem Placed.concat (h : Placed sys order c₀ i c) (j : ι) : Placed sys (order ++ [j]) c₀ i c := by
  obtain ⟨pre, post, rfl, hc⟩ := h
  exact ⟨pre, post ++ [j], by simp, hc⟩

theorem placed_last : Placed sys (order ++ [i]) c₀ i (serial sys order c₀) := ⟨order, [], rfl, rfl⟩

/-! ## Runs -/

section

variable {sys : System ι σ β} {p : Phase σ β}

def Consistent (sys : System ι σ β) (order : List ι) (c₀ : σ) (i : ι) : Phase σ β → Prop
  | .idle => i ∉ order
  | .locked => i ∉ order
  | .loaded c => ((sys.update i c).1 = none ∧ Placed sys order c₀ i c) ∨ ((sys.update i c).1 ≠ none ∧ i ∉ order)
  | .stored b => ∃ c, Placed sys order c₀ i c ∧ b = (sys.update i c).2
  | .released b => ∃ c, Placed sys order c₀ i c ∧ b = (sys.update i c).2

theorem Consistent.concat (h : Consistent sys order c₀ i p) (hij : i ≠ j) : Consistent sys (order ++ [j]) c₀ i p := by
  have hmem : i ∉ order → i ∉ order ++ [j] := fun hi => by simp [hi, hij]
  cases p with
  | idle => exact hmem h
  | locked => exact hmem h
  | loaded =>
    rcases h with ⟨hnone, hpl⟩ | ⟨hsome, hi⟩
    · exact .inl ⟨hnone, hpl.concat j⟩
    · exact .inr ⟨hsome, hmem hi⟩
  | stored => exact h.imp fun _ hc => ⟨hc.1.concat j, hc.2⟩
  | released => exact h.imp fun _ hc => ⟨hc.1.concat j, hc.2⟩

def Ordered (sys : System ι σ β) (c₀ : σ) (s : State ι σ β) : Prop :=
  ∃ order : List ι, order.Nodup ∧ s.content = serial sys order c₀ ∧ ∀ i, Consistent sys order c₀ i (s.phase i)

/-- An exclusive session is alone, and there is a serial order. -/
structure Inv (sys : System ι σ β) (c₀ : σ) (s : State ι σ β) : Prop where
  alone : ∀ i j, i ≠ j → (s.phase i).holds → (s.phase j).holds → sys.exclusive i = false
  current : ∀ i c, sys.exclusive i → s.phase i = .loaded c → s.content = c
  ordered : Ordered sys c₀ s

theorem inv_init : Inv sys c₀ (State.init c₀) where
  alone _ _ _ h _ := by cases h
  current _ _ _ h := by cases h
  ordered := ⟨[], nodup_nil, rfl, fun _ => not_mem_nil⟩

variable [DecidableEq ι] {s t : State ι σ β} {a : Act ι}

theorem holds_of_step (h : Step sys s a t) (ha : ∀ i, a ≠ .acquire i) {k} (hk : (t.phase k).holds) :
    (s.phase k).holds := by
  have hmoved : ∀ {i} {p}, (update s.phase i p k).holds → (s.phase i).holds →
      (s.phase k).holds := fun {i p} hp hi => by
    by_cases hki : k = i
    · exact hki ▸ hi
    · simpa [update_of_ne hki] using hp
  cases h with
  | acquire => exact absurd rfl (ha _)
  | load hlock => exact hmoved hk (by rw [hlock]; rfl)
  | store hload => exact hmoved hk (by rw [hload]; rfl)
  | release stored => exact hmoved hk (by rw [stored]; rfl)

theorem alone_step (hinv : Inv sys c₀ s) (h : Step sys s a t) (j k : ι) (hjk : j ≠ k)
    (hj : (t.phase j).holds) (hk : (t.phase k).holds) : sys.exclusive j = false := by
  by_cases ha : ∀ i, a ≠ .acquire i
  · exact hinv.alone j k hjk (holds_of_step h ha hj) (holds_of_step h ha hk)
  · obtain ⟨i, rfl⟩ := not_forall_not.mp ha
    obtain ⟨-, hfree⟩ := h
    by_cases hji : j = i
    · subst hji
      have hk' : (s.phase k).holds := by simpa [State.move, update_of_ne hjk.symm] using hk
      exact (hfree k hk').1
    · have hj' : (s.phase j).holds := by simpa [State.move, update_of_ne hji] using hj
      exact (hfree j hj').2

theorem current_step (hinv : Inv sys c₀ s) (h : Step sys s a t) (j : ι) (c) (hexcl : sys.exclusive j)
    (hj : t.phase j = .loaded c) : t.content = c := by
  cases h with
  | @acquire i _ _ =>
    by_cases hji : j = i
    · simp [State.move, hji] at hj
    · exact hinv.current j c hexcl (by simpa [State.move, update_of_ne hji] using hj)
  | @load i _ =>
    by_cases hji : j = i
    · simpa [State.move, hji] using hj
    · exact hinv.current j c hexcl (by simpa [State.move, update_of_ne hji] using hj)
  | @store i c' hload =>
    by_cases hji : j = i
    · simp [hji] at hj
    · -- an exclusive session and the one that stores cannot both hold the lock
      have hj' : s.phase j = .loaded c := by simpa [update_of_ne hji] using hj
      have := hinv.alone j i hji (by rw [hj']; rfl) (by rw [hload]; rfl)
      simp [hexcl] at this
  | @release i b _ =>
    by_cases hji : j = i
    · simp [State.move, hji] at hj
    · exact hinv.current j c hexcl (by simpa [State.move, update_of_ne hji] using hj)

theorem Ordered.move (horder : Ordered sys c₀ s)
    (hp : ∀ order, Consistent sys order c₀ i (s.phase i) → Consistent sys order c₀ i p) :
    Ordered sys c₀ (s.move i p) := by
  obtain ⟨order, hnd, content, hcons⟩ := horder
  refine ⟨order, hnd, content, fun j => ?_⟩
  by_cases hji : j = i
  · subst hji
    simpa [State.move] using hp order (hcons j)
  · simpa [State.move, update_of_ne hji] using hcons j

theorem Ordered.place (hnd : order.Nodup) (hcons : ∀ j, Consistent sys order c₀ j (s.phase j))
    (hfr : i ∉ order) (hc : c = serial sys (order ++ [i]) c₀)
    (hp : Consistent sys (order ++ [i]) c₀ i p) : Ordered sys c₀ ⟨c, update s.phase i p⟩ := by
  refine ⟨order ++ [i], ?_, hc, fun j => ?_⟩
  · rw [nodup_append]
    refine ⟨hnd, nodup_singleton i, ?_⟩
    rintro j hj _ hmem rfl
    exact hfr (List.mem_singleton.mp hmem ▸ hj)
  · by_cases hji : j = i
    · subst hji
      simpa using hp
    · simpa [update_of_ne hji] using (hcons j).concat hji

theorem ordered_step (hinv : Inv sys c₀ s) (hcur : StoresCurrent sys s a) (h : Step sys s a t) : Ordered sys c₀ t := by
  cases h with
  | @acquire i hidle _ => exact hinv.ordered.move fun order hi => by rwa [hidle] at hi
  | @release i b hstored => exact hinv.ordered.move fun order hi => by rwa [hstored] at hi
  | @load i hlock =>
    by_cases hnone : (sys.update i s.content).1 = none
    · -- nothing will be stored: this is the session's place
      obtain ⟨order, hnd, hcont, hcons⟩ := hinv.ordered
      have hfr : i ∉ order := by
        have hi := hcons i
        rwa [hlock] at hi
      refine Ordered.place hnd hcons hfr ?_ (.inl ⟨hnone, hcont ▸ placed_last⟩)
      rw [serial_concat, ← hcont, perform_of_none hnone]
    · exact hinv.ordered.move fun order hi => by
        rw [hlock] at hi
        exact .inr ⟨hnone, hi⟩
  | @store i c hload =>
    by_cases hnone : (sys.update i c).1 = none
    · simp only [hnone, Option.getD_none]
      refine hinv.ordered.move fun order hi => ?_
      rw [hload] at hi
      rcases hi with ⟨-, hplace⟩ | ⟨hsome, -⟩
      · exact ⟨c, hplace, rfl⟩
      · exact absurd hnone hsome
    · -- the session finds the content that it loaded
      obtain ⟨order, hnd, hcont, hcons⟩ := hinv.ordered
      have hfr : i ∉ order := by
        have hi := hcons i
        rw [hload] at hi
        exact (hi.resolve_left fun hi => hnone hi.1).2
      have hsome : (sys.update i c).1.isSome := Option.isSome_iff_ne_none.mpr hnone
      have hc : s.content = c := by
        cases hexcl : sys.exclusive i with
        | true => exact hinv.current i c hexcl hload
        | false => exact hcur i c rfl hexcl hload hsome
      refine Ordered.place hnd hcons hfr ?_ ⟨c, ?_, rfl⟩
      · rw [serial_concat, ← hcont, hc, perform]
      · rw [← hc, hcont]
        exact placed_last

theorem inv_step (hinv : Inv sys c₀ s) (h : CurrentStep sys s a t) : Inv sys c₀ t :=
  ⟨alone_step hinv h.2, current_step hinv h.2, ordered_step hinv h.1 h.2⟩

theorem serialOutcome_of_run {acts} (h : Run (CurrentStep sys) (State.init c₀) acts s)
    (hfin : ∀ i, s.phase i = .idle ∨ ∃ b, s.phase i = .released b) : SerialOutcome sys c₀ s := by
  have hinv : Inv sys c₀ s := h.invariant (fun _ _ _ hi hstep => inv_step hi hstep) inv_init
  obtain ⟨order, hnd, content, hcons⟩ := hinv.ordered
  refine ⟨order, hnd, fun i => ⟨fun hi => ?_, fun ⟨b, hb⟩ => ?_⟩, content, fun i b hb => ?_⟩
  · rcases hfin i with hidle | hdone
    · have hc := hcons i
      rw [hidle] at hc
      exact absurd hi hc
    · exact hdone
  · have hc := hcons i
    rw [hb] at hc
    obtain ⟨_, place, _⟩ := hc
    exact place.mem
  · have hc := hcons i
    rwa [hb] at hc

end

/-! ## Answers that can be given only once -/

variable {sys : System ι σ β}

theorem serial_append_cons {pre mid} :
    serial sys (pre ++ i :: mid) c₀ = serial sys mid (perform sys (serial sys pre c₀) i) := by
  simp [serial, foldl_append]

theorem not_avail_serial {avail : σ → Prop} (hkeep : ∀ i c, ¬ avail c → ¬ avail (perform sys c i)) :
    ∀ (order : List ι) {c : σ}, ¬ avail c → ¬ avail (serial sys order c)
  | [], _, h => h
  | i :: order, _, h => not_avail_serial hkeep order (hkeep i _ h)

theorem serial_accepts_once (avail : σ → Prop) (accepted : β → Prop) (presents : ι → Prop)
    (huse : ∀ i c, presents i → accepted (sys.update i c).2 → avail c ∧ ¬ avail (perform sys c i))
    (hkeep : ∀ i c, ¬ avail c → ¬ avail (perform sys c i)) {s} (hs : SerialOutcome sys c₀ s) {bᵢ bⱼ}
    (hi : s.phase i = .released bᵢ) (hj : s.phase j = .released bⱼ) (hpi : presents i) (hpj : presents j)
    (hai : accepted bᵢ) (haj : accepted bⱼ) : i = j := by
  -- the later of the two would find it gone
  have hlat : ∀ {k l} {pre mid}, presents k → presents l →
      accepted (sys.update k (serial sys pre c₀)).2 → accepted (sys.update l (serial sys (pre ++ k :: mid) c₀)).2 →
      False := fun {k l pre mid} hpk hpl hak hal => by
    rw [serial_append_cons] at hal
    exact not_avail_serial hkeep mid (huse k _ hpk hak).2 (huse l _ hpl hal).1
  obtain ⟨order, -, -, -, answer⟩ := hs
  obtain ⟨_, ⟨preᵢ, postᵢ, heᵢ, rfl⟩, rfl⟩ := answer i bᵢ hi
  obtain ⟨_, ⟨preⱼ, postⱼ, heⱼ, rfl⟩, rfl⟩ := answer j bⱼ hj
  rw [heᵢ] at heⱼ
  rcases List.append_eq_append_iff.mp heⱼ with ⟨_ | ⟨k, mid⟩, rfl, hrest⟩ | ⟨_ | ⟨k, mid⟩, rfl, hrest⟩
  · exact (List.cons.inj hrest).1
  · obtain rfl : i = k := (List.cons.inj hrest).1
    exact (hlat hpi hpj hai haj).elim
  · exact (List.cons.inj hrest).1.symm
  · obtain rfl : j = k := (List.cons.inj hrest).1
    exact (hlat hpj hpi haj hai).elim

end Nexus.Lib.LockedUpdate
