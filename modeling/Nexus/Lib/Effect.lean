import Mathlib.Init

/-!
# Computations with a state that may fail

A failure keeps the state that was reached. What a computation can do to the state is bounded by a relation (`Within`).
A failure that leaves the state as it was is `Atomic`: each part that may fail does so before the state is changed
(`atomic_after_iff`), and what follows cannot fail (`Sure`).
-/

namespace Nexus.Lib

theorem bind_eq_ok {ε α β : Type} {x : Except ε α} {f : α → Except ε β} {b : β} :
    (x >>= f) = .ok b ↔ ∃ a, x = .ok a ∧ f a = .ok b := by
  cases x <;> simp [bind, Except.bind]

theorem map_eq_ok {ε α β : Type} {x : Except ε α} {f : α → β} {b : β} : x.map f = .ok b ↔ ∃ a, x = .ok a ∧ f a = b := by
  cases x <;> simp [Except.map]

theorem pure_eq_ok {ε α : Type} {a b} : (pure a : Except ε α) = .ok b ↔ a = b := by
  simp [pure, Except.pure]

/-- From a state, the outcome and the state that was reached. -/
structure Effect (σ ε α : Type) where
  run : σ → Except ε α × σ

namespace Effect

variable {σ ε α β : Type} {handler : ε → Effect σ ε α}

instance : Monad (Effect σ ε) where
  pure a := ⟨fun s => (.ok a, s)⟩
  bind m f := ⟨fun s => match m.run s with
    | (.ok a, t) => (f a).run t
    | (.error e, t) => (.error e, t)⟩

def fail (e : ε) : Effect σ ε α := ⟨fun s => (.error e, s)⟩

def ofExcept (x : Except ε α) : Effect σ ε α := ⟨fun s => (x, s)⟩

def read (f : σ → α) : Effect σ ε α := ⟨fun s => (.ok (f s), s)⟩

def modify (f : σ → σ) : Effect σ ε Unit := ⟨fun s => (.ok (), f s)⟩

def catching (m : Effect σ ε α) (handler : ε → Effect σ ε α) : Effect σ ε α := ⟨fun s => match m.run s with
  | (.ok a, t) => (.ok a, t)
  | (.error e, t) => (handler e).run t⟩

def zoom {τ : Type} (get : τ → σ) (set : σ → τ → τ) (m : Effect σ ε α) : Effect τ ε α :=
  ⟨fun t => ((m.run (get t)).1, set (m.run (get t)).2 t)⟩

variable {s t : σ} {m : Effect σ ε α} {f : α → Effect σ ε β}

@[simp] theorem run_pure (a : α) : (pure a : Effect σ ε α).run s = (.ok a, s) := rfl

@[simp] theorem run_fail (e) : (fail e : Effect σ ε α).run s = (.error e, s) := rfl

@[simp] theorem run_ofExcept (x) : (ofExcept x : Effect σ ε α).run s = (x, s) := rfl

@[simp] theorem run_modify (f) : (modify f : Effect σ ε Unit).run s = (.ok (), f s) := rfl

theorem run_bind_of_ok {a} (h : m.run s = (.ok a, t)) : (m >>= f).run s = (f a).run t := by
  show (match m.run s with | (.ok a, t) => (f a).run t | (.error e, t) => (.error e, t)) = _
  rw [h]

theorem run_bind_of_error {e} (h : m.run s = (.error e, t)) : (m >>= f).run s = (.error e, t) := by
  show (match m.run s with | (.ok a, t) => (f a).run t | (.error e, t) => (.error e, t)) = _
  rw [h]

@[simp] theorem run_read_bind (g) : (read g >>= f).run s = (f (g s)).run s := rfl

@[simp] theorem run_ofExcept_ok_bind (a : α) : (ofExcept (.ok a) >>= f).run s = (f a).run s := rfl

@[simp] theorem run_ofExcept_error_bind (e) : (ofExcept (.error e) >>= f).run s = (.error e, s) := rfl

def after (x : Except ε α) (t : σ) (next : α → Except ε β × σ) : Except ε β × σ :=
  match x with
  | .ok a => next a
  | .error e => (.error e, t)

variable {x : Except ε α} {next : α → Except ε β × σ}

theorem run_bind_of_eq (h : m.run s = (x, t)) : (m >>= f).run s = after x t fun a => (f a).run t := by
  cases x with
  | ok => exact run_bind_of_ok h
  | error => exact run_bind_of_error h

theorem after_cases (P : Except ε β × σ → Prop)
    (hfail : ∀ e, x = .error e → P (.error e, t)) (hok : ∀ a, x = .ok a → P (next a)) : P (after x t next) := by
  cases x with
  | ok a => exact hok a rfl
  | error e => exact hfail e rfl

theorem after_of_ok {b} (h : (after x t next).1 = .ok b) : ∃ a, x = .ok a ∧ after x t next = next a := by
  cases x with
  | ok a => exact ⟨a, rfl, rfl⟩
  | error => cases h

theorem pure_bind (a : α) : (pure a : Effect σ ε α) >>= f = f a := rfl

theorem bind_assoc {γ : Type} (g : β → Effect σ ε γ) : m >>= f >>= g = m >>= fun a => f a >>= g := by
  refine congrArg Effect.mk (funext fun s => ?_)
  show ((m >>= f) >>= g).run s = (m >>= fun a => f a >>= g).run s
  rcases hrun : m.run s with ⟨e | a, t⟩
  · rw [run_bind_of_error hrun, run_bind_of_error (run_bind_of_error hrun)]
  · rw [run_bind_of_ok hrun]
    show (match (m >>= f).run s with | (.ok b, u) => (g b).run u | (.error e, u) => (.error e, u)) = _
    rw [run_bind_of_ok hrun]
    rfl

theorem bind_keeps {P : σ → Prop} (hm : P (m.run s).2) (hf : ∀ a t, P t → P ((f a).run t).2) :
    P ((m >>= f).run s).2 := by
  rcases hrun : m.run s with ⟨a | a, t⟩
  · rw [hrun] at hm
    rw [run_bind_of_error hrun]
    exact hm
  · rw [hrun] at hm
    rw [run_bind_of_ok hrun]
    exact hf a t hm

variable {r : σ → σ → Prop}

/-- Whatever the outcome, the states are related. -/
def Within (r : σ → σ → Prop) (m : Effect σ ε α) : Prop := ∀ s, r s (m.run s).2

section

variable (refl : ∀ s, r s s)

include refl

theorem Within.pure (a : α) : Within r (Pure.pure a : Effect σ ε α) := fun s => refl s

theorem Within.fail (e) : Within r (Effect.fail e : Effect σ ε α) := fun s => refl s

theorem Within.ofExcept (x) : Within r (Effect.ofExcept x : Effect σ ε α) :=
  fun s => refl s

theorem Within.read (g) : Within r (Effect.read g : Effect σ ε α) := fun s => refl s

end

theorem Within.bind (trans : ∀ s t u, r s t → r t u → r s u) (hm : Within r m) (hf : ∀ a, Within r (f a)) :
    Within r (m >>= f) := by
  intro s
  exact bind_keeps (P := r s) (hm s) fun a t ht => trans s t _ ht (hf a t)

theorem Within.catching (trans : ∀ s t u, r s t → r t u → r s u) (hm : Within r m)
    (hhand : ∀ e, Within r (handler e)) : Within r (m.catching handler) := by
  intro s
  have first := hm s
  unfold Effect.catching
  rcases hrun : m.run s with ⟨e | a, t⟩
  · rw [hrun] at first
    simp only [hrun]
    exact trans s t _ first (hhand e t)
  · rw [hrun] at first
    simp only [hrun]
    exact first

theorem Within.ite {c : Prop} [Decidable c] {m' : Effect σ ε α} (hm : Within r m) (hm' : Within r m') :
    Within r (if c then m else m') := by
  split
  · exact hm
  · exact hm'

/-- A failure has left the state as it was. -/
def Atomic (s : σ) (result : Except ε α × σ) : Prop := ∀ e, result.1 = .error e → result.2 = s

theorem atomic_ok (a : α) : Atomic s ((.ok a, t) : Except ε α × σ) := nofun

theorem atomic_after_iff : Atomic s (after x t next) ↔
    (∀ e, x = .error e → t = s) ∧ ∀ a, x = .ok a → Atomic s (next a) := by
  cases x with
  | ok a => exact ⟨fun h => ⟨nofun, fun _ ha => by cases ha; exact h⟩, fun h => h.2 a rfl⟩
  | error e => exact ⟨fun h => ⟨fun _ _ => h e rfl, nofun⟩, fun h _ _ => h.1 e rfl⟩

theorem atomic_after_same_iff : Atomic s (after x s next) ↔ ∀ a, x = .ok a → Atomic s (next a) := by
  rw [atomic_after_iff]
  exact and_iff_right fun _ _ => rfl

theorem atomic_after_ne_iff (ht : t ≠ s) : Atomic s (after x t next) ↔ ∃ a, x = .ok a ∧ Atomic s (next a) := by
  rw [atomic_after_iff]
  cases x with
  | ok a => exact ⟨fun h => ⟨a, rfl, h.2 a rfl⟩,
    fun ⟨_, ha, h⟩ => ⟨nofun, fun _ ha' => by cases ha; cases ha'; exact h⟩⟩
  | error e => exact ⟨fun h => absurd (h.1 e rfl) ht, fun ⟨_, ha, _⟩ => by cases ha⟩

theorem atomic_bind (hm : m.run s = (x, s))
    (hf : ∀ a, x = .ok a → Atomic s ((f a).run s)) : Atomic s ((m >>= f).run s) := by
  rw [run_bind_of_eq hm]
  exact atomic_after_same_iff.mpr hf

theorem atomic_zoom_iff {τ : Type} {get : τ → σ} {set : σ → τ → τ} {t : τ} (hset : set (get t) t = t)
    (hget : ∀ s, get (set s t) = s) : Atomic t ((m.zoom get set).run t) ↔ Atomic (get t) (m.run (get t)) := by
  refine forall₂_congr fun e _ => ⟨fun h => ?_, fun h => ?_⟩
  · rw [← hget (m.run (get t)).2]
    exact congrArg get h
  · show set (m.run (get t)).2 t = t
    rw [h, hset]

/-- It cannot fail. -/
def Sure (m : Effect σ ε α) : Prop := ∀ s, ∃ a, (m.run s).1 = .ok a

theorem Sure.bind (hm : Sure m) (hf : ∀ a, Sure (f a)) : Sure (m >>= f) := by
  intro s
  obtain ⟨a, ha⟩ := hm s
  obtain ⟨b, hb⟩ := hf a (m.run s).2
  exact ⟨b, by rw [run_bind_of_ok (Prod.ext ha rfl), hb]⟩

theorem Sure.read (g) : Sure (Effect.read g : Effect σ ε α) := fun s => ⟨g s, rfl⟩

theorem Sure.modify (g) : Sure (Effect.modify g : Effect σ ε Unit) := fun _ => ⟨(), rfl⟩

theorem Sure.catching (hhand : ∀ e, Sure (handler e)) : Sure (m.catching handler) := by
  intro s
  unfold Effect.catching
  rcases hrun : m.run s with ⟨e | a, t⟩
  · obtain ⟨a, ha⟩ := hhand e t
    exact ⟨a, by simp only [hrun, ha]⟩
  · exact ⟨a, by simp only [hrun]⟩

theorem Sure.atomic (h : Sure m) : Atomic s (m.run t) := by
  intro e he
  obtain ⟨a, ha⟩ := h t
  cases ha.symm.trans he

theorem Atomic.bind_sure (hm : Atomic s (m.run s)) (hf : ∀ a, Sure (f a)) : Atomic s ((m >>= f).run s) := by
  rcases hrun : m.run s with ⟨e | a, t⟩
  · rw [hrun] at hm
    rw [run_bind_of_error hrun]
    exact fun _ _ => hm e rfl
  · rw [run_bind_of_ok hrun]
    exact (hf a).atomic

end Effect

end Nexus.Lib
