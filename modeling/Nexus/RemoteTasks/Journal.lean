import Mathlib.Data.Countable.Basic
import Mathlib.Logic.Equiv.List
import Nexus.Lib.Lines
import Nexus.RemoteTasks.Update

/-!
# The bytes of the journal

The journal has one line for each record, with the record as JSON. It is only appended to, and it is read leniently: a
line that is not a record is skipped, and at a line that is not UTF-8 the reader stops. An append may be cut off
anywhere (`cutOff`). `readJournal_tail` says what is then found of the next one.
-/

namespace Nexus.RemoteTasks

open Lib List Option

/-! ## Records as lines -/

/-- The writer and the reader of `serde_json`: what starts like a record and has another one at its end is not a record.
-/
structure Codec where
  toJson : TaskCacheItem → List Char
  fromStr : List Char → Option TaskCacheItem
  fromStr_toJson : ∀ t, fromStr (toJson t) = some t
  oneLine : ∀ t, newline ∉ utf8 (toJson t)
  brace : ∀ t, (utf8 (toJson t)).head? = some 123
  braceEnd : ∀ t, (utf8 (toJson t)).getLast? = some 125
  fromStr_append_toJson : ∀ s t, (utf8 s).head? = some 123 → fromStr (s ++ toJson t) = none

theorem exists_injective_item : ∃ f : TaskCacheItem → Nat, Function.Injective f := by
  have char : Countable Char := Function.Injective.countable (f := Char.toNat) fun _ _ h => Char.toNat_inj.mp h
  have text : Countable String := Function.Injective.countable (f := String.toList) fun _ _ h => String.toList_inj.mp h
  have item : Function.Injective fun t : TaskCacheItem => (t.upid.toString, t.starttime, t.status, t.endtime) := by
    rintro ⟨⟩ ⟨⟩ h
    simp only [Prod.mk.injEq] at h
    obtain ⟨hu, rfl, rfl, rfl⟩ := h
    rw [RemoteUpid.toString_injective hu]
  exact item.countable.exists_injective_nat

open Classical in
theorem nonempty_codec : Nonempty Codec := by
  obtain ⟨f, hf⟩ := exists_injective_item
  -- a number in unary between braces: in no record a closing brace is followed by anything
  let toJson (t : TaskCacheItem) : List Char := '{' :: (replicate (f t) '1' ++ ['}'])
  have bytes : ∀ t, utf8 (toJson t) = 123 :: (replicate (f t) 49 ++ [125]) := by
    intro t
    have ones : ∀ n, utf8 (replicate n '1') = replicate n 49 := by
      intro n
      induction n with
      | zero => rfl
      | succ n ih => exact congrArg (49 :: ·) ih
    have split : toJson t = ['{'] ++ replicate (f t) '1' ++ ['}'] := by simp [toJson]
    rw [split, utf8_append, utf8_append, ones]
    rfl
  have inj : ∀ {t t'}, toJson t = toJson t' → t = t' := by
    intro t t' h
    have hlen := congrArg List.length h
    exact hf (by simpa [toJson] using hlen)
  have single : ∀ s t t', (utf8 s).head? = some 123 → toJson t' ≠ s ++ toJson t := by
    intro s t t' hs h
    obtain ⟨rest, e⟩ := head?_eq_some_iff.mp hs
    have inside := congrArg utf8 h
    rw [utf8_append, bytes, bytes, e] at inside
    have brace : 123 ∈ replicate (f t') (49 : UInt8) ++ [125] := by
      rw [(List.cons.inj inside).2]
      exact mem_append_right _ mem_cons_self
    rcases mem_append.mp brace with hm | hm
    · exact absurd (eq_of_mem_replicate hm) (by decide)
    · exact absurd (mem_singleton.mp hm) (by decide)
  refine ⟨⟨toJson, fun s => if h : ∃ t, toJson t = s then some h.choose else none, fun t => ?_, fun t => ?_,
    fun t => by rw [bytes]; rfl, fun t => ?_, fun s t hs => dif_neg fun ⟨t', h⟩ => single s t t' hs h⟩⟩
  · have ht : ∃ t', toJson t' = toJson t := ⟨t, rfl⟩
    rw [dif_pos ht, inj ht.choose_spec]
  · rw [bytes]
    simp [newline]
  · rw [bytes, ← cons_append, getLast?_concat]

variable (d : Codec)

def Codec.line (t : TaskCacheItem) : List UInt8 := utf8 (d.toJson t) ++ [newline]

def Codec.lines (ts : List TaskCacheItem) : List UInt8 := ts.flatMap d.line

def Codec.readJournal (file : List UInt8) : List TaskCacheItem := (readLines file).filterMap d.fromStr

/-! ## Reading the journal -/

variable {d} {file torn : List UInt8} {s t : TaskCacheItem}

theorem readJournal_append (h : AtLineStart file) (hr : Readable file) (rest) :
    d.readJournal (file ++ rest) = d.readJournal file ++ d.readJournal rest := by
  rw [Codec.readJournal, readLines_append h hr, filterMap_append]
  rfl

theorem readJournal_append_of_not_readable (h : AtLineStart file) (hr : ¬ Readable file) (rest) :
    d.readJournal (file ++ rest) = d.readJournal file := by
  rw [Codec.readJournal, readLines_append_of_not_readable h hr]
  rfl

/-- A line that a record ends is read as a whole. -/
theorem readJournal_line (ht : newline ∉ torn) (rest) : d.readJournal (torn ++ (d.line t ++ rest)) =
    (fromUtf8 (torn ++ utf8 (d.toJson t))).elim [] fun s => (d.fromStr s).toList ++ d.readJournal rest := by
  have line : torn ++ (d.line t ++ rest) = torn ++ utf8 (d.toJson t) ++ newline :: rest := by simp [Codec.line]
  have hn : newline ∉ torn ++ utf8 (d.toJson t) := fun h => (mem_append.mp h).elim ht (d.oneLine t)
  have hlast : (torn ++ utf8 (d.toJson t)).getLast? ≠ some 13 := by
    rw [getLast?_append, d.braceEnd, some_or]
    decide
  rw [line, Codec.readJournal, readLines_line hn hlast]
  cases fromUtf8 (torn ++ utf8 (d.toJson t)) with
  | none => rfl
  | some s => cases hs : d.fromStr s <;> simp [hs, Codec.readJournal]

theorem readJournal_lines (rest) : ∀ ts, d.readJournal (d.lines ts ++ rest) = ts ++ d.readJournal rest
  | [] => rfl
  | t :: ts => by
    have first := readJournal_line (d := d) (t := t) not_mem_nil (d.lines ts ++ rest)
    rw [nil_append, nil_append, fromUtf8_utf8, elim_some, d.fromStr_toJson, readJournal_lines rest ts,
      ← append_assoc] at first
    exact first

theorem readJournal_lines_nil (ts) : d.readJournal (d.lines ts) = ts := by
  have h := readJournal_lines (d := d) [] ts
  rwa [append_nil, show d.readJournal [] = [] from rfl, append_nil] at h

/-- The start of a record, without the end of its line. -/
structure Torn (bytes : List UInt8) : Prop where
  brace : bytes.head? = some 123
  noNewline : newline ∉ bytes

theorem Torn.ne_nil (h : Torn torn) : torn ≠ [] := by
  rintro rfl
  cases h.brace

theorem Torn.append {bytes} (h : Torn torn) (hb : newline ∉ bytes) : Torn (torn ++ bytes) where
  brace := by rw [head?_append_of_ne_nil _ h.ne_nil, h.brace]
  noNewline hm := (mem_append.mp hm).elim h.noNewline hb

theorem torn_of_isPrefix (hne : torn ≠ []) (h : torn <+: utf8 (d.toJson t)) : Torn torn where
  brace := by
    obtain ⟨rest, e⟩ := h
    have brace := d.brace t
    rwa [← e, head?_append_of_ne_nil _ hne] at brace
  noNewline hm := d.oneLine t (h.subset hm)

/-- A record after a part of one makes a line that is no record. -/
theorem readJournal_torn (h : Torn torn) (rest) : d.readJournal (torn ++ (d.line t ++ rest)) =
    if fromUtf8 torn = none then [] else d.readJournal rest := by
  rw [readJournal_line h.noNewline]
  by_cases utf8 : fromUtf8 torn = none
  · have full : d.toJson t ≠ [] := fun e => absurd (e ▸ d.brace t) (by decide)
    obtain ⟨c, s, e⟩ := exists_cons_of_ne_nil full
    rw [if_pos utf8, e, fromUtf8_append_eq_none utf8]
    rfl
  · obtain ⟨r, hr⟩ := ne_none_iff_exists'.mp utf8
    obtain rfl := eq_utf8_of_fromUtf8 hr
    rw [if_neg utf8, ← utf8_append, fromUtf8_utf8, elim_some, d.fromStr_append_toJson r t h.brace]
    rfl

/-- What is found of the lines of `ts`, appended to a line that has no end yet. -/
def foundAfter (tail : List UInt8) (ts : List TaskCacheItem) : List TaskCacheItem :=
  if fromUtf8 tail = none then [] else if tail = [] then ts else ts.tail

theorem mem_of_mem_foundAfter {tail ts} (h : t ∈ foundAfter tail ts) : t ∈ ts := by
  unfold foundAfter at h
  split at h
  · exact absurd h not_mem_nil
  · split at h
    · exact h
    · exact mem_of_mem_tail h

theorem readJournal_tail {tail ts} (h : tail = [] ∨ Torn tail) (hne : ts ≠ []) (rest) :
    d.readJournal (tail ++ (d.lines ts ++ rest)) =
      if fromUtf8 tail = none then [] else foundAfter tail ts ++ d.readJournal rest := by
  rcases h with rfl | h
  · have utf8 : fromUtf8 [] = some [] := fromUtf8_utf8 []
    simp [foundAfter, utf8, readJournal_lines]
  · obtain ⟨t, ts, rfl⟩ := exists_cons_of_ne_nil hne
    have cons : d.lines (t :: ts) = d.line t ++ d.lines ts := rfl
    rw [cons, append_assoc, readJournal_torn h]
    split
    · rfl
    · next utf8 => rw [foundAfter, if_neg utf8, if_neg h.ne_nil, readJournal_lines, tail_cons]

/-! ## An append that is cut off -/

variable (d)

/-- The whole lines of the first `k` bytes, and what there is of the next. -/
def cutOff : List TaskCacheItem → Nat → List TaskCacheItem × List UInt8
  | [], _ => ([], [])
  | t :: ts, k =>
    if (d.line t).length ≤ k then
      let (whole, torn) := cutOff ts (k - (d.line t).length)
      (t :: whole, torn)
    else ([], (d.line t).take k)

variable {d}

theorem take_lines : ∀ ts k, (d.lines ts).take k = d.lines (cutOff d ts k).1 ++ (cutOff d ts k).2
  | [], k => by simp [Codec.lines, cutOff]
  | t :: ts, k => by
    have ih := take_lines ts (k - (d.line t).length)
    have cons : ∀ ts, d.lines (t :: ts) = d.line t ++ d.lines ts := fun _ => rfl
    unfold cutOff
    split
    · next hk => rw [cons, take_append, take_of_length_le hk, ih, cons, append_assoc]
    · next hk =>
      rw [cons, take_append_of_le_length (by omega)]
      rfl

theorem cutOff_isPrefix : ∀ ts k, (cutOff d ts k).1 <+: ts
  | [], _ => prefix_rfl
  | t :: ts, k => by
    unfold cutOff
    split
    · exact (prefix_cons_inj t).mpr (cutOff_isPrefix ts _)
    · exact nil_prefix

theorem cutOff_torn : ∀ ts k, (cutOff d ts k).2 = [] ∨ Torn (cutOff d ts k).2
  | [], _ => .inl rfl
  | t :: ts, k => by
    unfold cutOff
    split
    · exact cutOff_torn ts _
    · next hk =>
      have hle : k ≤ (utf8 (d.toJson t)).length := by
        simp only [Codec.line, length_append, length_cons, length_nil] at hk
        omega
      rw [Codec.line, take_append_of_le_length hle]
      exact or_iff_not_imp_left.mpr fun hne => torn_of_isPrefix hne ( take_prefix _ _)

end Nexus.RemoteTasks
