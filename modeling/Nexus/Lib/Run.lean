import Mathlib.Data.List.Infix
import Mathlib.Order.Basic

/-!
# Runs of labelled transition systems

`Run.invariant` is the induction over a chain of labelled steps. What a program does to its state can also be bounded by
a relation (`foldl_related`). Where it is known exactly which steps keep a property, `always_iff` says which runs have
it all along, and `monotone_iff` does so for a measure.
-/

namespace Nexus.Lib

open List

variable {σ α : Type*} {τ β : Type*}

/-- Steps, one after another. -/
inductive Run (Step : σ → α → σ → Prop) : σ → List α → σ → Prop
  | nil (s : σ) : Run Step s [] s
  | cons {s t u : σ} {a : α} {as : List α} : Step s a t → Run Step t as u → Run Step s (a :: as) u

namespace Run

variable {Step : σ → α → σ → Prop} {s t : σ} {as : List α} {m : σ → Nat}

theorem invariant {P : σ → Prop} (hstep : ∀ s a t, P s → Step s a t → P t) (h : Run Step s as t) (hs : P s) : P t := by
  induction h with
  | nil => exact hs
  | cons hst _ ih => exact ih (hstep _ _ _ hs hst)

theorem invariant_of_mem {P : σ → Prop} (h : Run Step s as t)
    (hstep : ∀ s a t, a ∈ as → P s → Step s a t → P t) (hs : P s) : P t := by
  induction h with
  | nil => exact hs
  | cons hst _ ih =>
    exact ih (fun s a t ha => hstep s a t (mem_cons_of_mem _ ha)) (hstep _ _ _ mem_cons_self hs hst)

theorem exists_imp {P Q : σ → Prop} (h : ∃ t, Run Step s as t ∧ P t) (hQ : ∀ t, Run Step s as t → P t → Q t) :
    ∃ t, Run Step s as t ∧ Q t :=
  h.imp fun t ht => ⟨ht.1, hQ t ht.1 ht.2⟩

theorem single {a} (h : Step s a t) : Run Step s [a] t := .cons h (.nil t)

theorem append {u bs} (h : Run Step s as t) (h' : Run Step t bs u) : Run Step s (as ++ bs) u := by
  induction h with
  | nil => exact h'
  | cons hst _ ih => exact .cons hst (ih h')

theorem length_add_le (hstep : ∀ s a t, Step s a t → m t < m s) (h : Run Step s as t) : as.length + m t ≤ m s := by
  induction h with
  | nil => exact Nat.le_of_eq (Nat.zero_add _)
  | cons hst =>
    have hless := hstep _ _ _ hst
    rw [length_cons]
    omega

theorem exists_final {I F : σ → Prop} (keeps : ∀ s a t, I s → Step s a t → I t)
    (smaller : ∀ s a t, Step s a t → m t < m s) (progress : ∀ s, I s → F s ∨ ∃ a t, Step s a t) (s) (hs : I s) :
    ∃ as t, Run Step s as t ∧ F t := by
  induction s using (measure m).wf.induction with
  | _ s ih =>
    rcases progress s hs with final | ⟨a, t, hst⟩
    · exact ⟨[], s, .nil s, final⟩
    · obtain ⟨as, u, hrun, final⟩ := ih t (smaller s a t hst) (keeps s a t hs hst)
      exact ⟨a :: as, u, .cons hst hrun, final⟩

theorem of_foldlM {f} : ∀ {as : List α} {s t : σ}, as.foldlM f s = some t → Run (fun s a t => f s a = some t) s as t
  | [], s, _, h => by
    cases h
    exact .nil s
  | a :: as, s, t, h => by
    rw [foldlM_cons] at h
    obtain ⟨u, hu, h⟩ := Option.bind_eq_some_iff.mp h
    exact .cons hu (of_foldlM h)

theorem exists_foldl {π : τ → σ} {f : τ → β → τ} {I : σ → Prop}
    (keeps : ∀ s a s', I s → Step s a s' → I s') (body : ∀ x b, I (π x) → ∃ as, Run Step (π x) as (π (f x b))) :
    ∀ (l : List β) (x : τ), I (π x) → ∃ as, Run Step (π x) as (π (l.foldl f x))
  | [], x, _ => ⟨[], .nil (π x)⟩
  | b :: l, x, h => by
    obtain ⟨as, hs⟩ := body x b h
    obtain ⟨bs, hl⟩ := exists_foldl keeps body l (f x b) (hs.invariant keeps h)
    exact ⟨as ++ bs, hs.append hl⟩

end Run

variable {r : σ → σ → Prop} {s t : σ}

theorem foldl_related {π : τ → σ} {f : τ → β → τ} {l : List β} (refl : ∀ s, r s s)
    (trans : ∀ s t u, r s t → r t u → r s u) (body : ∀ x, ∀ b ∈ l, r (π x) (π (f x b))) (x) :
    r (π x) (π (l.foldl f x)) :=
  List.foldlRecOn (motive := fun y => r (π x) (π y)) l f (refl _) fun y hy b hb => trans _ _ _ hy (body y b hb)

theorem ite_related (refl : ∀ s, r s s) (h : r s t) (p : Prop) [Decidable p] : r s (if p then s else t) := by
  split
  · exact refl s
  · exact h

variable {f : σ → α → Bool × σ}

/-- A loop whose body says whether it has changed anything. -/
def flagged (f : σ → α → Bool × σ) (acc : Bool × σ) (a : α) : Bool × σ := (acc.1 || (f acc.2 a).1, (f acc.2 a).2)

theorem eq_of_foldl_flagged (hexact : ∀ s a, (f s a).1 = false → (f s a).2 = s) : ∀ (as : List α) {acc : Bool × σ},
    (as.foldl (flagged f) acc).1 = false → acc.1 = false ∧ (as.foldl (flagged f) acc).2 = acc.2
  | [], _, h => ⟨h, rfl⟩
  | a :: as, acc, h => by
    obtain ⟨first, hrest⟩ := eq_of_foldl_flagged hexact as h
    obtain ⟨hacc, ha⟩ := Bool.or_eq_false_iff.mp first
    exact ⟨hacc, hrest.trans (hexact _ a ha)⟩

theorem foldl_flagged_eq_self (b : Bool) : ∀ {as : List α}, (∀ a ∈ as, f s a = (false, s)) →
    as.foldl (flagged f) (b, s) = (b, s)
  | [], _ => rfl
  | a :: as, h => by
    obtain ⟨ha, has⟩ := forall_mem_cons.mp h
    have hround : flagged f (b, s) a = (b, s) := by simp [flagged, ha]
    rw [foldl_cons, hround]
    exact foldl_flagged_eq_self b has

variable {step : σ → α → σ} {P : σ → Prop} {C : σ → α → Prop}

theorem always_iff (hkeeps : ∀ s a, P s → (P (step s a) ↔ C s a)) (hs : P s) (as) :
    (∀ bs, bs <+: as → P (bs.foldl step s)) ↔ ∀ bs a, bs ++ [a] <+: as → C (bs.foldl step s) a := by
  constructor
  · intro h bs a hbs
    have before := h bs ((prefix_append bs [a]).trans hbs)
    have after := h _ hbs
    rw [foldl_concat] at after
    exact (hkeeps _ a before).mp after
  · intro h bs
    induction bs using List.reverseRecOn with
    | nil => exact fun _ => hs
    | append_singleton bs a ih =>
      intro hbs
      rw [foldl_concat]
      exact (hkeeps _ a (ih ((prefix_append bs [a]).trans hbs))).mpr (h bs a hbs)

theorem always_step_iff {Q : σ → α → Prop} (hkeeps : ∀ s a, P s → (P (step s a) ∧ Q s a ↔ C s a)) (hs : P s)
    (as) : (∀ bs a, bs ++ [a] <+: as → P (step (bs.foldl step s) a) ∧ Q (bs.foldl step s) a) ↔
      ∀ bs a, bs ++ [a] <+: as → C (bs.foldl step s) a := by
  constructor
  · intro h
    have before : ∀ bs, bs <+: as → P (bs.foldl step s) := by
      intro bs hbs
      induction bs using List.reverseRecOn with
      | nil => exact hs
      | append_singleton bs a => exact foldl_concat _ _ a bs ▸ (h bs a hbs).1
    exact fun bs a hbs => (hkeeps _ a (before bs ((prefix_append bs [a]).trans hbs))).mp (h bs a hbs)
  · intro h bs a hbs
    have before : P (bs.foldl step s) := by
      induction bs using List.reverseRecOn generalizing a with
      | nil => exact hs
      | append_singleton bs b ih =>
        have hpref : bs ++ [b] <+: as := (prefix_append (bs ++ [b]) [a]).trans hbs
        exact foldl_concat _ _ b bs ▸ ((hkeeps _ b (ih b hpref)).mpr (h bs b hpref)).1
    exact (hkeeps _ a before).mpr (h bs a hbs)

theorem monotone_iff [Preorder β] (f : σ → β) (as : List α) :
    (∀ bs cs, bs <+: cs → cs <+: as → f (bs.foldl step s) ≤ f (cs.foldl step s)) ↔
      ∀ bs a, bs ++ [a] <+: as → f (bs.foldl step s) ≤ f (step (bs.foldl step s) a) := by
  constructor
  · intro h bs a hbs
    have hnext := h bs (bs ++ [a]) (prefix_append bs [a]) hbs
    rwa [foldl_concat] at hnext
  · rintro h bs _ ⟨ds, rfl⟩
    induction ds using List.reverseRecOn with
    | nil => exact fun _ => by rw [append_nil]
    | append_singleton _ a ih =>
      intro hds
      rw [← append_assoc] at hds ⊢
      rw [foldl_concat]
      exact (ih ((prefix_append _ [a]).trans hds)).trans (h _ a hds)

end Nexus.Lib
