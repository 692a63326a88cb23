import Mathlib.Data.List.Basic

/-!
# Lines of text in a file of bytes

Texts are lists of characters and are written as UTF-8 (`utf8`). A reader splits the bytes at newlines (`splitLines`)
and decodes one line after the other; at a line that is not UTF-8 it stops (`readLines`). Where a text was cut off and
another one was appended to the rest, the two make one line: it is not UTF-8 if the cut was inside a character
(`fromUtf8_append_eq_none`).
-/

namespace Nexus.Lib

open List String

/-! ## UTF-8 -/

def utf8 (s : List Char) : List UInt8 := s.flatMap utf8EncodeChar

def fromUtf8 (b : List UInt8) : Option (List Char) := b.toByteArray.utf8Decode?.map Array.toList

variable {s t : List Char} {b b' : List UInt8} {c : Char}

theorem utf8_append (s) (t) : utf8 (s ++ t) = utf8 s ++ utf8 t := flatMap_append

theorem toByteArray_utf8 (s) : (utf8 s).toByteArray = s.utf8Encode := rfl

@[simp] theorem fromUtf8_utf8 (s) : fromUtf8 (utf8 s) = some s := by
  simp [fromUtf8, toByteArray_utf8]

theorem eq_utf8_of_fromUtf8 (h : fromUtf8 b = some s) : b = utf8 s := by
  obtain ⟨a, ha, rfl⟩ := Option.map_eq_some_iff.mp h
  have hs : b.toByteArray.utf8Decode?.isSome := by rw [ha]; rfl
  have encoded : (b.toByteArray.utf8Decode?.get hs).toList.utf8Encode = b.toByteArray :=
    ByteArray.utf8Encode_get_utf8Decode?
  simp only [ha, Option.get_some] at encoded
  exact (List.toByteArray_inj (l := utf8 a.toList).mp encoded).symm

theorem eq_nil_of_utf8EncodeChar_append {d x y} (hd : utf8EncodeChar d = b ++ b')
    (hc : b' ++ x = utf8EncodeChar c ++ y) : b = [] ∨ b' = [] := by
  by_contra hne
  obtain ⟨hb, hb'⟩ := not_or.mp hne
  obtain ⟨z, zs, rfl⟩ := List.exists_cons_of_ne_nil hb'
  have hlen : b.length < (utf8EncodeChar d).length := by simp [hd]
  obtain ⟨w, ws, hw⟩ := List.exists_cons_of_ne_nil (utf8EncodeChar_ne_nil (c := c))
  have hwz : w = z := by
    rw [hw] at hc
    exact (List.cons.inj hc).1.symm
  have hz : (utf8EncodeChar c)[0]? = some z := by rw [hw, hwz]; rfl
  have hz' : (utf8EncodeChar d)[b.length] = z := by simp [hd]
  have first : (utf8EncodeChar d)[b.length].IsUTF8FirstByte := by
    rw [hz', ← (List.getElem?_eq_some_iff.mp hz).2]
    exact UInt8.isUTF8FirstByte_getElem_zero_utf8EncodeChar
  exact hb (List.eq_nil_of_length_eq_zero (UInt8.isUTF8FirstByte_getElem_utf8EncodeChar.mp first))

theorem exists_utf8_of_append : ∀ t b, b ++ utf8 (c :: s) = utf8 t → ∃ r, b = utf8 r
  | [], b, h => ⟨[], (append_eq_nil_iff.mp h).1⟩
  | d :: t, b, h => by
    rcases append_eq_append_iff.mp (h : b ++ utf8 (c :: s) = utf8EncodeChar d ++ utf8 t) with
      ⟨b', hd, hc⟩ | ⟨b', rfl, ht⟩
    · rcases eq_nil_of_utf8EncodeChar_append hd (y := utf8 s) hc.symm with rfl | rfl
      · exact ⟨[], rfl⟩
      · exact ⟨[d], by simpa [utf8] using hd.symm⟩
    · obtain ⟨r, rfl⟩ := exists_utf8_of_append t b' ht.symm
      exact ⟨d :: r, rfl⟩

/-- **After bytes that end inside a character nothing is UTF-8.** -/
theorem fromUtf8_append_eq_none (h : fromUtf8 b = none) : fromUtf8 (b ++ utf8 (c :: s)) = none := by
  cases ht : fromUtf8 (b ++ utf8 (c :: s)) with
  | none => rfl
  | some t =>
    obtain ⟨r, rfl⟩ := exists_utf8_of_append t b (eq_utf8_of_fromUtf8 ht)
    simp at h

/-! ## Lines -/

def newline : UInt8 := 10

def splitLines : List UInt8 → List (List UInt8)
  | [] => []
  | b :: bs =>
    if b = newline then [] :: splitLines bs
    else
      match splitLines bs with
      | [] => [[b]]
      | l :: ls => (b :: l) :: ls

def trimCarriageReturn (l : List UInt8) : List UInt8 := if l.getLast? = some 13 then l.dropLast else l

def decodeLines : List (List UInt8) → List (List Char)
  | [] => []
  | l :: ls =>
    match fromUtf8 (trimCarriageReturn l) with
    | none => []
    | some s => s :: decodeLines ls

def readLines (file : List UInt8) : List (List Char) := decodeLines (splitLines file)

def Readable (file : List UInt8) : Prop := ∀ l ∈ splitLines file, fromUtf8 (trimCarriageReturn l) ≠ none

def AtLineStart (file : List UInt8) : Prop := file = [] ∨ file.getLast? = some newline

variable {l file rest : List UInt8}

theorem splitLines_newline (bs) : splitLines (newline :: bs) = [] :: splitLines bs := if_pos rfl

theorem splitLines_cons {b bs l ls} (hb : b ≠ newline)
    (h : splitLines bs = l :: ls) : splitLines (b :: bs) = (b :: l) :: ls := by
  rw [splitLines, if_neg hb, h]

theorem splitLines_line (rest) : ∀ {l}, newline ∉ l → splitLines (l ++ newline :: rest) = l :: splitLines rest
  | [], _ => splitLines_newline rest
  | _ :: _, h => splitLines_cons (fun e => h (e ▸ mem_cons_self))
      (splitLines_line rest (not_mem_of_not_mem_cons h))

theorem splitLines_ne_nil : ∀ {file}, file ≠ [] → splitLines file ≠ []
  | [], h => absurd rfl h
  | b :: file, _ => by
    unfold splitLines
    split
    · exact cons_ne_nil _ _
    · split <;> exact cons_ne_nil _ _

theorem splitLines_append : ∀ {file}, AtLineStart file → ∀ rest,
    splitLines (file ++ rest) = splitLines file ++ splitLines rest
  | [], _, _ => rfl
  | [b], h, rest => by
    have hb : b = newline := by simpa [AtLineStart] using h
    rw [hb]
    exact splitLines_newline rest
  | b :: c :: file, h, rest => by
    have start : AtLineStart (c :: file) := by simpa [AtLineStart] using h
    have ih := splitLines_append start rest
    obtain ⟨l, ls, e⟩ := exists_cons_of_ne_nil (splitLines_ne_nil (cons_ne_nil c file))
    rw [e] at ih
    by_cases hb : b = newline
    · rw [hb, splitLines_newline, e]
      exact (splitLines_newline _).trans (congrArg _ ih)
    · rw [splitLines_cons hb e]
      exact splitLines_cons hb ih

theorem decodeLines_append : ∀ {ls}, (∀ l ∈ ls, fromUtf8 (trimCarriageReturn l) ≠ none) →
    ∀ ls', decodeLines (ls ++ ls') = decodeLines ls ++ decodeLines ls'
  | [], _, _ => rfl
  | l :: ls, h, ls' => by
    obtain ⟨s, hs⟩ := Option.ne_none_iff_exists'.mp (h l mem_cons_self)
    simp [decodeLines, hs, decodeLines_append (fun l hl => h l (mem_cons_of_mem _ hl)) ls']

theorem decodeLines_append_of_not : ∀ {ls}, (¬ ∀ l ∈ ls, fromUtf8 (trimCarriageReturn l) ≠ none) →
    ∀ ls', decodeLines (ls ++ ls') = decodeLines ls
  | [], h, _ => by simp at h
  | l :: ls, h, ls' => by
    cases hs : fromUtf8 (trimCarriageReturn l) with
    | none => simp [decodeLines, hs]
    | some =>
      have hls : ¬ ∀ l ∈ ls, fromUtf8 (trimCarriageReturn l) ≠ none := by simpa [hs] using h
      simp [decodeLines, hs, decodeLines_append_of_not hls ls']

theorem readLines_append (h : AtLineStart file) (hr : Readable file) (rest) :
    readLines (file ++ rest) = readLines file ++ readLines rest := by
  rw [readLines, splitLines_append h, decodeLines_append hr]
  rfl

theorem readLines_append_of_not_readable (h : AtLineStart file) (hr : ¬ Readable file) (rest) :
    readLines (file ++ rest) = readLines file := by
  rw [readLines, splitLines_append h, decodeLines_append_of_not hr]
  rfl

theorem readLines_line (hn : newline ∉ l) (hlast : l.getLast? ≠ some 13) (rest) :
    readLines (l ++ newline :: rest) = (fromUtf8 l).elim [] (· :: readLines rest) := by
  rw [readLines, splitLines_line rest hn, decodeLines, trimCarriageReturn, if_neg hlast]
  cases fromUtf8 l <;> rfl

end Nexus.Lib
