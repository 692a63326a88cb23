import Mathlib.Logic.Function.Basic

/-!
# Maps with a reverse index

An index leads from a name to a thing that has it. A thing that gets another name is entered under it, and its old name
is taken out of the index (`assign`); so are the names of things that are dropped (`Keeps`). The index stays complete
exactly as long as no name is taken out that another thing still has (`complete_assign_iff`, `Keeps.complete_iff`).
-/

namespace Nexus.Lib

open Function

variable {α β : Type*}

@[ext] structure ReverseIndex (α β : Type*) where
  name : α → Option β
  find : β → Option α

namespace ReverseIndex

def Complete (x : ReverseIndex α β) : Prop :=
  ∀ a b, x.name a = some b → ∃ a', x.find b = some a' ∧ x.name a' = some b

section

variable [DecidableEq α] [DecidableEq β]

def assign (x : ReverseIndex α β) (a : α) (new : Option β) : ReverseIndex α β where
  name := update x.name a new
  find b := if new = some b then some a else if x.name a = some b then none else x.find b

theorem complete_assign_iff {x : ReverseIndex α β} (hx : x.Complete) (a : α) (new) :
    (x.assign a new).Complete ↔ ∀ b, x.name a = some b → new ≠ some b → ∀ a', a' ≠ a → x.name a' ≠ some b := by
  constructor
  · intro h b hold hnew a' hne shared
    obtain ⟨a'', hfind, -⟩ := h a' b (by simpa [assign, update_of_ne hne] using shared)
    simp [assign, hnew, hold] at hfind
  · intro h a' b hb
    by_cases hnew : new = some b
    · exact ⟨a, by simp [assign, hnew], by simp [assign, hnew]⟩
    · have hne : a' ≠ a := by
        rintro rfl
        exact hnew (by simpa [assign] using hb)
      have hname : x.name a' = some b := by simpa [assign, update_of_ne hne] using hb
      have hold : x.name a ≠ some b := fun hold => h b hold hnew a' hne hname
      obtain ⟨a'', hfind, hname''⟩ := hx a' b hname
      have hne'' : a'' ≠ a := fun he => hold (he ▸ hname'')
      exact ⟨a'', by simp [assign, hnew, hold, hfind], by simpa [assign, update_of_ne hne''] using hname''⟩

end

/-- The index after all but some things were dropped. -/
structure Keeps (x y : ReverseIndex α β) (p : α → Prop) : Prop where
  kept : ∀ a, p a → y.name a = x.name a
  dropped : ∀ a, ¬ p a → y.name a = none
  removed : ∀ a b, ¬ p a → x.name a = some b → y.find b = none
  found : ∀ b, (∀ a, ¬ p a → x.name a ≠ some b) → y.find b = x.find b

theorem Keeps.complete_iff {x y : ReverseIndex α β} {p : α → Prop} (hx : x.Complete) (h : Keeps x y p) :
    y.Complete ↔ ∀ a a' b, ¬ p a → p a' → x.name a = some b → x.name a' ≠ some b := by
  constructor
  · intro hy a a' b ha ha' hname shared
    obtain ⟨a'', hfind, -⟩ := hy a' b ((h.kept a' ha').trans shared)
    cases (h.removed a b ha hname).symm.trans hfind
  · intro hfree a' b hb
    have ha' : p a' := by
      by_contra hnot
      cases (h.dropped a' hnot).symm.trans hb
    have hname := (h.kept a' ha').symm.trans hb
    obtain ⟨a'', hfind, hname''⟩ := hx a' b hname
    have hgone : ∀ a, ¬ p a → x.name a ≠ some b := fun a ha shared => hfree a a' b ha ha' shared hname
    have ha'' : p a'' := by
      by_contra hnot
      exact hgone a'' hnot hname''
    exact ⟨a'', (h.found b hgone).trans hfind, (h.kept a'' ha'').trans hname''⟩

end ReverseIndex

end Nexus.Lib
