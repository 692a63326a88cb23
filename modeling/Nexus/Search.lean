import Nexus.Lib.Text

/-!
# Search terms

The search of `pdm-search/src/lib.rs`: `matches` accepts if all required terms do and, should there be any optional
ones, at least one of them does. Its callback may have state (`matchesMut`); `matches_eq_true` is what remains of it for
one without.
-/

namespace Nexus

structure SearchTerm where
  optional : Bool
  value : String
  category : Option String
  deriving DecidableEq

def SearchTerm.fromStr (term : String) : SearchTerm :=
  let (optional, term) := match Lib.Text.stripChar '+' term with
    | some rest => if rest = "" then (true, term) else (false, rest)
    | none => (true, term)
  match Lib.Text.splitOnce ':' term with
  | some (category, newTerm) =>
    if category = "" ∨ newTerm = "" then ⟨optional, term, none⟩ else ⟨optional, newTerm, some category⟩
  | none => ⟨optional, term, none⟩

structure Search where
  (requiredTerms optionalTerms : List SearchTerm)

namespace Search

def default : Search := ⟨[], []⟩

def fromIter (terms : List SearchTerm) : Search :=
  ⟨terms.filter fun t => !t.optional, terms.filter fun t => t.optional⟩

def fromStr (s : String) : Search := fromIter ((Lib.Text.splitWhitespace s).map SearchTerm.fromStr)

def isEmpty (s : Search) : Bool := s.requiredTerms.isEmpty && s.optionalTerms.isEmpty

variable {σ : Type} (f : SearchTerm → σ → Bool × σ)

def callUntil (answer : Bool) : List SearchTerm → σ → Bool × σ
  | [], st => (false, st)
  | t :: ts, st =>
    let (b, st') := f t st
    if b = answer then (true, st') else callUntil answer ts st'

def matchesMut (s : Search) (st : σ) : Bool × σ :=
  if s.isEmpty then (true, st)
  else
    let (someRequiredFails, st) := callUntil f false s.requiredTerms st
    if someRequiredFails then (false, st)
    else if s.optionalTerms.isEmpty then (true, st)
    else callUntil f true s.optionalTerms st

end Search

def Search.matches (s : Search) (f : SearchTerm → Bool) : Bool := (s.matchesMut (fun t _ => (f t, ())) ()).1

theorem Search.callUntil_pure (f : SearchTerm → Bool) (answer : Bool) : ∀ ts,
    callUntil (fun t _ => (f t, ())) answer ts () = (ts.any fun t => f t == answer, ())
  | [] => rfl
  | t :: ts => by
    simp only [callUntil, List.any_cons]
    split
    · next h => simp [h]
    · next h => rw [callUntil_pure f answer ts, beq_false_of_ne h, Bool.false_or]

theorem Search.matches_eq_true {s : Search} {f : SearchTerm → Bool} : s.matches f ↔
      (∀ t ∈ s.requiredTerms, f t) ∧ (s.optionalTerms = [] ∨ ∃ t ∈ s.optionalTerms, f t) := by
  obtain ⟨required, optional⟩ := s
  have hfails : (required.any fun t => f t == false) = !required.all f := by
    simp [List.all_eq_not_any_not]
  simp only [Search.matches, matchesMut, isEmpty, callUntil_pure, hfails, ← List.all_eq_true]
  cases optional with
  | nil =>
    cases required with
    | nil => simp
    | cons r rs => cases (r :: rs).all f <;> simp
  | cons => cases required.all f <;> simp

/-! ## Printing -/

def SearchTerm.toString (t : SearchTerm) : String :=
  (if t.optional then "" else "+") ++ (match t.category with
    | some cat => cat ++ ":"
    | none => "") ++ t.value

def Search.toString (s : Search) : String :=
  " ".intercalate ((s.requiredTerms ++ s.optionalTerms).map SearchTerm.toString)

theorem SearchTerm.toString_fromStr (term) : (fromStr term).toString = term := by
  -- the sign is cut off first, then the category, and each is printed back where it was
  have categorized : ∀ optional term, (match Lib.Text.splitOnce ':' term with
      | some (category, newTerm) =>
        if category = "" ∨ newTerm = "" then (⟨optional, term, none⟩ : SearchTerm)
        else ⟨optional, newTerm, some category⟩
      | none => ⟨optional, term, none⟩).toString = (if optional then "" else "+") ++ term := by
    intro optional term
    split
    · next category newTerm parts =>
      have hterm : category ++ ":" ++ newTerm = term := by
        rw [← String.toList_inj, (Lib.Text.splitOnce_eq_some.mp parts).1]
        simp
      split
      · simp [toString]
      · simp [toString, ← hterm, String.append_assoc]
    · simp [toString]
  unfold fromStr
  cases hstrip : Lib.Text.stripChar '+' term with
  | none => simpa using categorized true term
  | some rest =>
    by_cases hrest : rest = ""
    · simpa [hrest] using categorized true term
    · have hterm : "+" ++ rest = term := by
        unfold Lib.Text.stripChar at hstrip
        split at hstrip
        · cases hstrip
        · next d cs hcs =>
          split at hstrip
          · next hd =>
            obtain rfl := Option.some.inj hstrip
            rw [← String.toList_inj, hcs, hd]
            simp
          · cases hstrip
      simpa [hrest, hterm] using categorized false rest

theorem Search.toString_fromStr (s) : (fromStr s).toString = " ".intercalate
    (((Lib.Text.splitWhitespace s).filter fun word => !(SearchTerm.fromStr word).optional) ++
      (Lib.Text.splitWhitespace s).filter fun word => (SearchTerm.fromStr word).optional) := by
  simp [toString, fromStr, fromIter, List.filter_map, Function.comp_def, SearchTerm.toString_fromStr]

/-- **What is printed reads back as what was printed**: a term as its very text, and a search as the same required and
the same optional terms. -/
theorem search_text_roundTrip : (∀ term, (SearchTerm.fromStr term).toString = term) ∧
    ∀ s, Search.fromStr (Search.fromStr s).toString = Search.fromStr s := by
  refine ⟨SearchTerm.toString_fromStr, fun s => ?_⟩
  have hwords : ∀ word ∈ ((Lib.Text.splitWhitespace s).filter fun word => !(SearchTerm.fromStr word).optional) ++
      (Lib.Text.splitWhitespace s).filter fun word => (SearchTerm.fromStr word).optional,
      word ∈ Lib.Text.splitWhitespace s := by
    intro word hword
    rcases List.mem_append.mp hword with hword | hword <;> exact (List.mem_filter.mp hword).1
  have parts := Lib.Text.splitWhitespace_intercalate _ fun word hword =>
    (Lib.Text.of_mem_splitWhitespace (hwords word hword)).1
  rw [List.filter_eq_self.mpr fun word hword =>
    decide_eq_true (Lib.Text.of_mem_splitWhitespace (hwords word hword)).2] at parts
  rw [Search.toString_fromStr, Search.fromStr, parts]
  -- the required words come first now, and the order within each kind is as before
  simp [Search.fromStr, Search.fromIter, List.filter_map, Function.comp_def]

example : (SearchTerm.fromStr "+:").toString = "+:" ∧ (Search.fromStr "b +a: a::b").toString = "+a: b a::b" := by decide

end Nexus
