import Nexus.Lib.Effect
import Mathlib.Data.List.Nodup

/-!
# Writes that are only made where they are admitted

A program that makes writes in turn, each only if the state admits it, can stop after any of them (`Reached`), or come
to its end, and then all were admitted (`Admitted`) and made (`written`). `Performs` says so of a computation that may
fail. Where every write has its own part of the state (`Apart`), they are all admitted if they are from the start
(`Apart.admitted_iff`).
-/

namespace Nexus.Lib

open List Effect

structure GuardedWrite (τ : Type*) where
  admits : τ → Prop
  write : τ → τ

namespace GuardedWrite

section

variable {τ : Type*} {w : GuardedWrite τ} {ws vs : List (GuardedWrite τ)} {x y z : τ}

def Admitted : List (GuardedWrite τ) → τ → Prop
  | [], _ => True
  | w :: ws, x => w.admits x ∧ Admitted ws (w.write x)

def written (ws : List (GuardedWrite τ)) (x : τ) : τ := ws.foldl (fun x w => w.write x) x

inductive Reached : List (GuardedWrite τ) → τ → τ → Prop
  | here (ws : List (GuardedWrite τ)) (x : τ) : Reached ws x x
  | write {w : GuardedWrite τ} {ws x y} (admits : w.admits x)
      (rest : Reached ws (w.write x) y) : Reached (w :: ws) x y

theorem admitted_append : Admitted (ws ++ vs) x ↔ Admitted ws x ∧ Admitted vs (written ws x) := by
  induction ws generalizing x with
  | nil => exact (and_iff_right trivial).symm
  | cons _ _ ih => rw [cons_append, Admitted, Admitted, ih, and_assoc, written, written, foldl_cons]

theorem written_append : written (ws ++ vs) x = written vs (written ws x) := foldl_append

theorem Reached.append_right (h : Reached ws x y) : Reached (ws ++ vs) x y := by
  induction h with
  | here _ x => exact .here _ x
  | write admits _ ih => exact .write admits ih

theorem Reached.append : ∀ {ws} {x}, Admitted ws x → Reached vs (written ws x) y → Reached (ws ++ vs) x y
  | [], _, _, h => h
  | _ :: _, _, hadm, h => .write hadm.1 (Reached.append hadm.2 h)

theorem Reached.related {r : τ → τ → Prop} (refl : ∀ x, r x x) (trans : ∀ x y z, r x y → r y z → r x z)
    (h : Reached ws x y) (hwr : ∀ w ∈ ws, ∀ x, w.admits x → r x (w.write x)) : r x y := by
  induction h with
  | here _ x => exact refl x
  | write admits _ ih =>
    obtain ⟨first, hrest⟩ := forall_mem_cons.mp hwr
    exact trans _ _ _ (first _ admits) (ih hrest)

end

variable {σ τ ε α β : Type} {π : σ → τ} {good : Prop} {standing : σ → Prop} {ws vs : List (GuardedWrite τ)}
  {m : Effect σ ε α} {f : α → Effect σ ε β}

/-- It makes the writes in turn; if it fails, some of them. -/
structure Performs (π : σ → τ) (good : Prop) (standing : σ → Prop) (ws : List (GuardedWrite τ)) (m : Effect σ ε α) :
    Prop where
  reached : ∀ s, Reached ws (π s) (π (m.run s).2)
  finished : ∀ s a, (m.run s).1 = .ok a → Admitted ws (π s) ∧ π (m.run s).2 = written ws (π s)
  completes : good → ∀ s, standing s → Admitted ws (π s) → ∃ a, (m.run s).1 = .ok a
  keeps : ∀ s, standing s → standing (m.run s).2

theorem Performs.bind {l} (hm : Performs π good standing l m)
    (hf : ∀ a, Performs π good standing vs (f a)) : Performs π good standing (l ++ vs) (m >>= f) where
  reached s := by
    rcases hrun : m.run s with ⟨e | a, t⟩
    · have h := hm.reached s
      rw [hrun] at h
      rw [run_bind_of_error hrun]
      exact h.append_right
    · obtain ⟨hadm, heq⟩ := hm.finished s a (by rw [hrun])
      rw [hrun] at heq
      rw [run_bind_of_ok hrun]
      exact .append hadm (heq ▸ (hf a).reached t)
  finished s b hb := by
    rcases hrun : m.run s with ⟨e | a, t⟩
    · rw [run_bind_of_error hrun] at hb
      cases hb
    · rw [run_bind_of_ok hrun] at hb ⊢
      obtain ⟨first, heq⟩ := hm.finished s a (by rw [hrun])
      obtain ⟨second, heq'⟩ := (hf a).finished t b hb
      rw [hrun] at heq
      rw [admitted_append, written_append, ← heq]
      exact ⟨⟨first, second⟩, heq'⟩
  completes hgood s hs hadm := by
    obtain ⟨first, second⟩ := admitted_append.mp hadm
    obtain ⟨a, ha⟩ := hm.completes hgood s hs first
    have hrun : m.run s = (.ok a, (m.run s).2) := Prod.ext ha rfl
    rw [run_bind_of_ok hrun]
    rw [← (hm.finished s a ha).2] at second
    exact (hf a).completes hgood _ (hm.keeps s hs) second
  keeps s hs := bind_keeps (P := standing) (hm.keeps s hs) fun a t ht => (hf a).keeps t ht

theorem Performs.mono {good' : Prop} (h : Performs π good standing ws m) (hgood : good' → good) :
    Performs π good' standing ws m :=
  ⟨h.reached, h.finished, fun hg => h.completes (hgood hg), h.keeps⟩

theorem Performs.idle (hπ : ∀ s, π (m.run s).2 = π s) (completes : good → ∀ s, standing s → ∃ a, (m.run s).1 = .ok a)
    (keeps : ∀ s, standing s → standing (m.run s).2) : Performs π good standing [] m where
  reached s := by
    rw [hπ]
    exact .here _ _
  finished s _ _ := ⟨trivial, hπ s⟩
  completes hgood s hs _ := completes hgood s hs
  keeps := keeps

theorem Performs.pure (a : α) : Performs π good standing [] (Pure.pure a : Effect σ ε α) :=
  .idle (fun _ => rfl) (fun _ _ _ => ⟨a, rfl⟩) fun _ hs => hs

theorem Performs.read (g) : Performs π good standing [] (Effect.read g : Effect σ ε α) :=
  .idle (fun _ => rfl) (fun _ s _ => ⟨g s, rfl⟩) fun _ hs => hs

theorem Performs.single {w} (refuses : ∀ s, ¬ w.admits (π s) → π (m.run s).2 = π s ∧ ∃ e, (m.run s).1 = .error e)
    (writes : ∀ s, w.admits (π s) → π (m.run s).2 = w.write (π s) ∨ π (m.run s).2 = π s ∧ ∃ e, (m.run s).1 = .error e)
    (completes : good → ∀ s, standing s → w.admits (π s) → ∃ a, (m.run s).1 = .ok a)
    (keeps : ∀ s, standing s → standing (m.run s).2) : Performs π good standing [w] m where
  reached s := by
    by_cases hw : w.admits (π s)
    · rcases writes s hw with h | ⟨h, -⟩
      · rw [h]
        exact .write hw (.here _ _)
      · rw [h]
        exact .here _ _
    · rw [(refuses s hw).1]
      exact .here _ _
  finished s a ha := by
    have hno : ¬ ∃ e, (m.run s).1 = .error e := by
      rintro ⟨e, he⟩
      cases he.symm.trans ha
    have hw : w.admits (π s) := Classical.byContradiction fun hw => hno (refuses s hw).2
    exact ⟨⟨hw, trivial⟩, (writes s hw).resolve_right fun h => hno h.2⟩
  completes hgood s hs hw := completes hgood s hs hw.1
  keeps := keeps

theorem Performs.ofExcept {x} (h : good → ∃ a, x = .ok a) :
    Performs π good standing [] (Effect.ofExcept x : Effect σ ε α) :=
  .idle (fun _ => rfl) (fun hgood _ _ => h hgood) fun _ hs => hs

theorem Performs.fail (ws) (e) (h : ¬ good) : Performs π good standing ws (Effect.fail e : Effect σ ε α) :=
  ⟨fun _ => .here _ _, (fun _ _ ha => nomatch ha), fun hgood => absurd hgood h, fun _ hs => hs⟩

variable {ι τ β : Type*} {part : ι → τ → β} {ok : ι → β → Prop} {next : ι → β} {w : ι → GuardedWrite τ}

/-- Each write goes by its own part of the state. -/
structure Apart (part : ι → τ → β) (ok : ι → β → Prop) (next : ι → β) (w : ι → GuardedWrite τ) : Prop where
  admits_iff : ∀ i x, (w i).admits x ↔ ok i (part i x)
  own : ∀ i x, (w i).admits x → part i ((w i).write x) = next i
  others : ∀ i j, i ≠ j → ∀ x, part j ((w i).write x) = part j x

variable (h : Apart part ok next w)

include h

theorem Apart.admitted_iff : ∀ {l : List ι}, l.Nodup → ∀ {x : τ}, Admitted (l.map w) x ↔ ∀ i ∈ l, ok i (part i x)
  | [], _, _ => by simp [Admitted]
  | i :: l, hnd, x => by
    obtain ⟨hi, hl⟩ := nodup_cons.mp hnd
    rw [map_cons, Admitted, h.admits_iff, Apart.admitted_iff hl, forall_mem_cons]
    refine and_congr_right fun _ => forall₂_congr fun j hj => ?_
    rw [h.others i j (fun hij => hi (hij ▸ hj))]

theorem Apart.part_written_of_not_mem {j} : ∀ {l : List ι}, j ∉ l → ∀ x, part j (written (l.map w) x) = part j x
  | [], _, _ => rfl
  | i :: l, hj, x => by
    have hne : i ≠ j := fun hij => hj (hij ▸ mem_cons_self)
    have hrest : j ∉ l := fun hl => hj (mem_cons_of_mem i hl)
    exact (Apart.part_written_of_not_mem hrest _).trans (h.others i j hne x)

theorem Apart.part_written {j} : ∀ {l : List ι}, l.Nodup → j ∈ l → ∀ {x : τ}, Admitted (l.map w) x →
    part j (written (l.map w) x) = next j
  | i :: l, hnd, hj, x, hadm => by
    obtain ⟨hi, hl⟩ := nodup_cons.mp hnd
    rcases mem_cons.mp hj with rfl | hj
    · exact (h.part_written_of_not_mem hi _).trans (h.own j x hadm.1)
    · exact Apart.part_written hl hj hadm.2

end GuardedWrite

end Nexus.Lib
