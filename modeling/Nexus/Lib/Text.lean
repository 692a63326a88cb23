import Mathlib.Data.List.DropRight
import Mathlib.Data.List.Infix

/-!
# Text operations

The string operations of a standard library, on the characters of a string: cutting at white space, cutting at the
first or at every occurrence of a character, cutting into lines, trimming, looking for a piece of text, and cutting at a
byte offset. They are defined by structural recursion on lists of characters, so they evaluate.
-/

namespace Nexus.Lib.Text

open List

def isWhitespace (c : Char) : Bool :=
  let n := c.toNat
  (0x9 ≤ n && n ≤ 0xD) || n == 0x20 || n == 0x85 || n == 0xA0 || n == 0x1680 || (0x2000 ≤ n && n ≤ 0x200A)
    || n == 0x2028 || n == 0x2029 || n == 0x202F || n == 0x205F || n == 0x3000

def splitWhitespace (s : String) : List String :=
  ((s.toList.splitOnP isWhitespace).filter (· ≠ [])).map String.ofList

theorem splitWhitespace_intercalate : ∀ words, (∀ word ∈ words, ∀ c ∈ word.toList, isWhitespace c = false) →
    splitWhitespace (" ".intercalate words) = words.filter (· ≠ "")
  | [], _ => rfl
  | [word], h => by
    have hword := h word mem_cons_self
    rw [String.intercalate_singleton, splitWhitespace, splitOnP_eq_singleton hword]
    by_cases empty : word = ""
    · subst empty
      rfl
    · have hne : word.toList ≠ [] := fun hnil => empty (String.toList_eq_nil_iff.mp hnil)
      simp [empty, hne]
  | word :: next :: words, h => by
    have hword := h word mem_cons_self
    have ih := splitWhitespace_intercalate (next :: words) fun w hw => h w (mem_cons_of_mem word hw)
    unfold splitWhitespace at ih ⊢
    rw [String.intercalate_cons_cons, String.toList_append, String.toList_append, append_assoc]
    rw [show " ".toList ++ (" ".intercalate (next :: words)).toList =
        ' ' :: (" ".intercalate (next :: words)).toList from rfl,
      splitOnP_append_cons_of_forall_mem hword ' ' rfl, filter_cons]
    by_cases empty : word = ""
    · subst empty
      simpa using ih
    · have hne : word.toList ≠ [] := fun hnil => empty (String.toList_eq_nil_iff.mp hnil)
      have hkeep : (word :: next :: words).filter (· ≠ "") = word :: (next :: words).filter (· ≠ "") :=
        filter_cons_of_pos (decide_eq_true empty)
      rw [hkeep, ← ih]
      simp [hne]

def split (c : Char) (s : String) : List String :=
  (s.toList.splitOn c).map String.ofList

def splitOnce (c : Char) (s : String) : Option (String × String) :=
  if c ∈ s.toList then
    some (String.ofList (s.toList.takeWhile (· ≠ c)), String.ofList (s.toList.dropWhile (· ≠ c)).tail)
  else none

theorem splitOnce_eq_some {c s front back} :
    splitOnce c s = some (front, back) ↔ s.toList = front.toList ++ c :: back.toList ∧ c ∉ front.toList := by
  have hcut : ∀ xs ys, s.toList = xs ++ c :: ys → c ∉ xs →
      splitOnce c s = some (String.ofList xs, String.ofList ys) := by
    intro xs ys hs hxs
    have hne : ∀ d ∈ xs, decide (d ≠ c) := fun d hd => decide_eq_true fun he => hxs (he ▸ hd)
    rw [splitOnce, hs, if_pos (by simp), takeWhile_append_of_pos hne, dropWhile_append_of_pos hne]
    simp
  constructor
  · intro h
    have hmem : c ∈ s.toList := by
      by_contra hnot
      simp [splitOnce, hnot] at h
    obtain ⟨xs, ys, hs, hxs⟩ := eq_append_cons_of_mem hmem
    rw [hcut xs ys hs hxs] at h
    obtain ⟨rfl, rfl⟩ := Prod.mk.inj (Option.some.inj h)
    exact ⟨by simpa using hs, by simpa using hxs⟩
  · rintro ⟨hs, hfront⟩
    simpa using hcut _ _ hs hfront

def stripChar (c : Char) (s : String) : Option String :=
  match s.toList with
  | [] => none
  | d :: rest => if d = c then some (String.ofList rest) else none

def startsWith (s piece : String) : Bool := piece.toList.isPrefixOf s.toList

def contains (s piece : String) : Bool := decide (piece.toList <:+: s.toList)

def endsWith (s piece : String) : Bool := piece.toList.isSuffixOf s.toList

def trimEndBy (p : Char → Bool) (s : String) : String := String.ofList (s.toList.rdropWhile p)

def trimBy (p : Char → Bool) (s : String) : String := String.ofList ((s.toList.dropWhile p).rdropWhile p)

def trim (s : String) : String := trimBy isWhitespace s

def toAsciiLowercase (s : String) : String := String.ofList (s.toList.map Char.toLower)

def stripCarriageReturn (line : List Char) : List Char := if line.getLast? = some '\r' then line.dropLast else line

def lines (s : String) : List String :=
  let pieces := s.toList.splitOn '\n'
  let last := pieces.getLastD []
  ((pieces.dropLast.map stripCarriageReturn) ++ if last = [] then [] else [last]).map String.ofList

theorem append_cons_inj {α : Type*} {c : α} : ∀ {a a' b b'}, c ∉ a → c ∉ a' →
    a ++ c :: b = a' ++ c :: b' → a = a' ∧ b = b'
  | [], [], _, _, _, _, h => ⟨rfl, (List.cons.inj h).2⟩
  | [], x :: a', _, _, _, h', h => absurd (List.cons.inj h).1 (ne_of_not_mem_cons h')
  | x :: a, [], _, _, ha, _, h => absurd (List.cons.inj h).1.symm (ne_of_not_mem_cons ha)
  | x :: a, y :: a', _, _, ha, ha', h => by
    obtain ⟨rfl, htail⟩ := List.cons.inj h
    obtain ⟨rfl, hb⟩ := append_cons_inj (not_mem_of_not_mem_cons ha)
      (not_mem_of_not_mem_cons ha') htail
    exact ⟨rfl, hb⟩

/-! ## Texts made of lines -/

theorem not_of_mem_splitOnP {p} : ∀ {cs piece : List Char}, piece ∈ cs.splitOnP p → ∀ c ∈ piece, p c = false
  | [], piece, h => by
    obtain rfl : piece = [] := by simpa using h
    exact forall_mem_nil _
  | d :: cs, piece, h => by
    rw [splitOnP_cons_eq_if_modifyHead] at h
    split at h
    · rcases mem_cons.mp h with rfl | hpiece
      · exact forall_mem_nil _
      · exact not_of_mem_splitOnP hpiece
    · next hd =>
      obtain ⟨first, rest, parts⟩ := exists_cons_of_ne_nil (splitOnP_ne_nil p cs)
      have htail : ∀ piece ∈ first :: rest, ∀ c ∈ piece, p c = false := fun piece hpiece =>
        not_of_mem_splitOnP (by rwa [parts])
      rw [parts, modifyHead_cons] at h
      rcases mem_cons.mp h with rfl | hpiece
      · exact forall_mem_cons.mpr ⟨Bool.eq_false_iff.mpr hd, htail first mem_cons_self⟩
      · exact htail piece (mem_cons_of_mem first hpiece)

theorem not_mem_of_mem_splitOn {c : Char} {cs piece : List Char} (h : piece ∈ cs.splitOn c) : c ∉ piece := fun hc =>
  absurd (not_of_mem_splitOnP h c hc) (by simp)

theorem of_mem_splitWhitespace {s word} (h : word ∈ splitWhitespace s) :
    (∀ c ∈ word.toList, isWhitespace c = false) ∧ word ≠ "" := by
  obtain ⟨piece, hpiece, rfl⟩ := mem_map.mp h
  obtain ⟨hmem, hne⟩ := mem_filter.mp hpiece
  rw [String.toList_ofList]
  refine ⟨not_of_mem_splitOnP hmem, fun empty => ?_⟩
  rw [← String.toList_inj, String.toList_ofList] at empty
  simp [empty] at hne

theorem newline_not_mem_of_mem_lines {s line : String} (h : line ∈ lines s) : '\n' ∉ line.toList := by
  obtain ⟨piece, hpiece, rfl⟩ := mem_map.mp h
  rw [String.toList_ofList]
  rcases mem_append.mp hpiece with hend | hlast
  · obtain ⟨ended, hmem, rfl⟩ := mem_map.mp hend
    have hnot := not_mem_of_mem_splitOn (mem_of_mem_dropLast hmem)
    unfold stripCarriageReturn
    split
    · exact fun hmem => hnot (mem_of_mem_dropLast hmem)
    · exact hnot
  · split at hlast
    · cases hlast
    · next hne =>
      obtain rfl := mem_singleton.mp hlast
      rw [getLastD_eq_getLast?] at hne ⊢
      cases hgetLast : (s.toList.splitOn '\n').getLast? with
      | none => simp [hgetLast] at hne
      | some => exact not_mem_of_mem_splitOn (mem_of_getLast? hgetLast)

def unlines (ls : List String) : String := String.ofList (ls.flatMap fun line => line.toList ++ ['\r', '\n'])

theorem lines_unlines : ∀ {ls}, (∀ line ∈ ls, '\n' ∉ line.toList) → lines (unlines ls) = ls
  | [], _ => rfl
  | line :: ls, h => by
    have ih := lines_unlines fun l hl => h l (mem_cons_of_mem line hl)
    have hfree : ∀ c ∈ line.toList ++ ['\r'], (c == '\n') = false := by
      intro c hc
      rcases mem_append.mp hc with hc | hc
      · exact beq_false_of_ne fun heq => h line mem_cons_self (heq ▸ hc)
      · rw [mem_singleton.mp hc]
        rfl
    have pieces : (unlines (line :: ls)).toList.splitOn '\n' =
        (line.toList ++ ['\r']) :: (unlines ls).toList.splitOn '\n' := by
      have htext : (unlines (line :: ls)).toList = (line.toList ++ ['\r']) ++ '\n' :: (unlines ls).toList := by
        simp [unlines]
      rw [htext]
      exact splitOnP_append_cons_of_forall_mem hfree '\n' rfl _
    obtain ⟨first, rest, parts⟩ := exists_cons_of_ne_nil
      (splitOnP_ne_nil (· == '\n') (unlines ls).toList)
    rw [← List.splitOn] at parts
    unfold lines at ih ⊢
    rw [parts] at ih
    rw [pieces, parts]
    simp only [getLastD_cons, dropLast_cons_cons, map_cons, cons_append] at ih ⊢
    rw [ih]
    simp [stripCarriageReturn]

theorem intercalate_newline_inj {ls ls'} (hls : ∀ line ∈ ls, '\n' ∉ line.toList)
    (hls' : ∀ line ∈ ls', '\n' ∉ line.toList) (hne : ls ≠ []) (hne' : ls' ≠ [])
    (h : "\n".intercalate ls = "\n".intercalate ls') : ls = ls' := by
  have parts : ∀ ls, (∀ line ∈ ls, '\n' ∉ line.toList) → ls ≠ [] →
      ("\n".intercalate ls).toList.splitOn '\n' = ls.map String.toList := fun ls hls hne => by
    rw [String.toList_intercalate]
    exact splitOn_intercalate '\n' (forall_mem_map.mpr hls) (by simpa using hne)
  have hlines := (parts ls hls hne).symm.trans ((congrArg (·.toList.splitOn '\n') h).trans (parts ls' hls' hne'))
  exact map_injective_iff.mpr (fun _ _ => String.toList_injective) hlines

theorem mem_of_mem_trim {c s} (h : c ∈ (trim s).toList) : c ∈ s.toList := by
  rw [trim, trimBy, String.toList_ofList] at h
  exact (dropWhile_sublist _).subset (( rdropWhile_prefix _ _).subset h)

/-! ## Byte offsets -/

def byteLength : List Char → Nat
  | [] => 0
  | c :: cs => c.utf8Size + byteLength cs

def sliceFrom : Nat → List Char → Option (List Char)
  | 0, cs => some cs
  | _ + 1, [] => none
  | n + 1, c :: cs => if n + 1 < c.utf8Size then none else sliceFrom (n + 1 - c.utf8Size) cs

theorem byteLength_pos {cs} (h : cs ≠ []) : 0 < byteLength cs := by
  cases cs with
  | nil => exact absurd rfl h
  | cons c => exact Nat.add_pos_left c.utf8Size_pos _

theorem sliceFrom_cons {n c} (hn : c.utf8Size ≤ n) (cs) : sliceFrom n (c :: cs) = sliceFrom (n - c.utf8Size) cs := by
  have hpos := c.utf8Size_pos
  obtain ⟨m, rfl⟩ : ∃ m, n = m + 1 := ⟨n - 1, by omega⟩
  rw [sliceFrom, if_neg (by omega)]

theorem sliceFrom_last (c) : ∀ cs,
    sliceFrom (byteLength (cs ++ [c]) - 1) (cs ++ [c]) = if c.utf8Size = 1 then some [c] else none
  | [] => by
    have hpos := c.utf8Size_pos
    by_cases hone : c.utf8Size = 1
    · simp [byteLength, hone, sliceFrom]
    · obtain ⟨m, hm⟩ : ∃ m, c.utf8Size = m + 2 := ⟨c.utf8Size - 2, by omega⟩
      simp [byteLength, hm, sliceFrom]
  | d :: cs => by
    have hpos : 0 < byteLength (cs ++ [c]) := byteLength_pos (by simp)
    rw [cons_append, sliceFrom_cons (by rw [byteLength]; omega), byteLength, ← sliceFrom_last c cs]
    congr 1
    omega

end Nexus.Lib.Text
