import Mathlib.Data.String.Basic
import Nexus.Domains.Validate
import Nexus.Lib.StableSort

/-!
# Fingerprints of DNS answers

`canonical_dns_lines` of `server/src/api/nexus/domains.rs` sorts lines by their lowercase texts, and the sort is stable.
So what is adopted of a domain does not depend on the order of the answers exactly if no two of the lines that count
differ in the case of letters only (`adopted_order_iff`).
-/

namespace Nexus.Domains

open Lib List Option Text Value

/-! ## The lines that count -/

variable (net : Network) (domain : String)

def digText (recordType name : String) : String :=
  match net.dig recordType name with
  | .ok output => output
  | .error _ => ""

theorem recordText_dig (recordType) (name) :
    recordText (dig net recordType name) = some (digText net recordType name) := by
  unfold dig digText
  cases net.dig recordType name with
  | error => rfl
  | ok output =>
    by_cases empty : output = ""
    · subst empty
      rfl
    · simp only [ne_eq, empty, not_false_eq_true, if_true]
      rfl

def checkedQuery : String → String × String
  | "mx" => ("MX", domain)
  | "spf" => ("TXT", domain)
  | "dkim" => ("TXT", "mail._domainkey." ++ domain)
  | "dmarc" => ("TXT", "_dmarc." ++ domain)
  | _ => ("CNAME", "webmail." ++ domain)

theorem checkedText_validateDomainRaw : ∀ key ∈ adoptableDnsChecks, checkedText (validateDomainRaw net domain) key =
      some (digText net (checkedQuery domain key).1 (checkedQuery domain key).2) := by
  simp only [adoptableDnsChecks, forall_mem_cons, not_mem_nil, false_imp_iff, implies_true, and_true]
  exact ⟨recordText_dig net "MX" domain, recordText_dig net "TXT" domain,
    recordText_dig net "TXT" ("mail._domainkey." ++ domain), recordText_dig net "TXT" ("_dmarc." ++ domain),
    recordText_dig net "CNAME" ("webmail." ++ domain)⟩

def countedLines (key : String) (lines : List String) : List String :=
  ((lines.filter fun line => (fingerprintPrefix key).all (·.all (hasTxtPrefix · line))).map Text.trim).filter (· ≠ "")

def sortLines (lines : List String) : List String :=
  lines.insertionSort fun a b => Text.toAsciiLowercase a ≤ Text.toAsciiLowercase b

def answerLines (domain key : String) : List String :=
  Text.lines (digText net (checkedQuery domain key).1 (checkedQuery domain key).2)

def fingerprintOf (lines : List String) : Option String :=
  if "\n".intercalate (sortLines lines) = "" then none else some ("\n".intercalate (sortLines lines))

theorem recordFingerprint_validateDomainRaw {key} (hkey : key ∈ adoptableDnsChecks) :
    recordFingerprint (validateDomainRaw net domain) key =
      fingerprintOf (countedLines key (answerLines net domain key)) := by
  have hsome : ∀ key ∈ adoptableDnsChecks, (fingerprintPrefix key).isSome := by decide
  obtain ⟨pre, hpre⟩ := Option.isSome_iff_exists.mp (hsome key hkey)
  unfold recordFingerprint
  rw [checkedText_validateDomainRaw net domain key hkey, hpre]
  simp only [bind_eq_bind, bind_some, fingerprintOf, countedLines, hpre, all_some]
  rfl

theorem countedLines_perm {key lines lines'} (h : lines.Perm lines') :
    (countedLines key lines).Perm (countedLines key lines') :=
  ((h.filter _).map _).filter _

/-! ## Answers in another order -/

/-- The answers have the same lines in another order. -/
def Network.Reordered (net net' : Network) : Prop :=
  ∀ recordType name, (Text.lines (digText net' recordType name)).Perm (Text.lines (digText net recordType name))

/-- No two lines differ in case only. -/
def CaseDetermined (lines : List String) : Prop :=
  ∀ a ∈ lines, ∀ b ∈ lines, Text.toAsciiLowercase a = Text.toAsciiLowercase b → a = b

variable {net net' : Network} {domain key : String} {a b : String} {lines : List String}

theorem adoptedDnsSnapshots_eq_iff {result result'} : adoptedDnsSnapshots result = adoptedDnsSnapshots result' ↔
      ∀ key ∈ adoptableDnsChecks, recordFingerprint result key = recordFingerprint result' key := by
  have hvalue : ∀ x y : Option String, (x.map Value.string).getD .null = (y.map Value.string).getD .null ↔ x = y := by
    intro x y
    cases x <;> cases y <;> simp
  unfold adoptedDnsSnapshots
  simp [hvalue]

theorem newline_not_mem_countedLines {line} (h : line ∈ countedLines key (answerLines net domain key)) :
    '\n' ∉ line.toList := by
  obtain ⟨raw, hraw, rfl⟩ := mem_map.mp (mem_of_mem_filter h)
  exact fun hmem => newline_not_mem_of_mem_lines (mem_of_mem_filter hraw) (mem_of_mem_trim hmem)

theorem sortLines_eq_of_fingerprintOf {lines'} (hlines : ∀ line ∈ lines, '\n' ∉ line.toList)
    (hlines' : ∀ line ∈ lines', '\n' ∉ line.toList) (hne : lines ≠ []) (hne' : lines' ≠ [])
    (h : fingerprintOf lines = fingerprintOf lines') : sortLines lines = sortLines lines' := by
  have hperm : ∀ lines, (sortLines lines).Perm lines := fun lines => perm_insertionSort _ _
  have htext : "\n".intercalate (sortLines lines) = "\n".intercalate (sortLines lines') := by
    unfold fingerprintOf at h
    split at h <;> split at h <;> simp_all
  exact intercalate_newline_inj (fun line hline => hlines line ((hperm lines).mem_iff.mp hline))
    (fun line hline => hlines' line ((hperm lines').mem_iff.mp hline))
    (fun hnil => hne ((hnil ▸ hperm lines).nil_eq).symm) (fun hnil => hne' ((hnil ▸ hperm lines').nil_eq).symm) htext

def Network.answering (net : Network) (domain key : String) (lines : List String) : Network :=
  { net with
    dig := fun recordType name =>
      if (recordType, name) = checkedQuery domain key then .ok (Text.unlines lines) else net.dig recordType name }

theorem answerLines_answering (h : ∀ line ∈ lines, '\n' ∉ line.toList) :
    answerLines (net.answering domain key lines) domain key = lines := by
  unfold answerLines digText Network.answering
  simp only [Prod.mk.eta, if_true]
  exact lines_unlines h

theorem reordered_answering (h : lines.Perm (answerLines net domain key)) :
    net.Reordered (net.answering domain key lines) := by
  intro recordType name
  by_cases hquery : (recordType, name) = checkedQuery domain key
  · have hfree : ∀ line ∈ lines, '\n' ∉ line.toList := fun line hline =>
      newline_not_mem_of_mem_lines (h.mem_iff.mp hline)
    have hlines : answerLines (net.answering domain key lines) domain key = lines := answerLines_answering hfree
    unfold answerLines at hlines h
    rw [← hquery] at hlines h
    rw [hlines]
    exact h
  · have hsame : digText (net.answering domain key lines) recordType name = digText net recordType name := by
      unfold digText Network.answering
      simp only [if_neg hquery]
    rw [hsame]

theorem exists_reordered (ha : a ∈ countedLines key (answerLines net domain key)) :
    ∃ net' rest, net.Reordered net' ∧ countedLines key (answerLines net' domain key) = a :: rest := by
  obtain ⟨hmem, hne⟩ := mem_filter.mp ha
  obtain ⟨raw, hraw, rfl⟩ := mem_map.mp hmem
  obtain ⟨hraw, count⟩ := mem_filter.mp hraw
  obtain ⟨before, after, hlines⟩ := append_of_mem hraw
  have hperm : (raw :: (before ++ after)).Perm (answerLines net domain key) := hlines ▸ perm_middle.symm
  refine ⟨net.answering domain key (raw :: (before ++ after)), countedLines key (before ++ after),
    reordered_answering hperm, ?_⟩
  rw [answerLines_answering fun line hline => newline_not_mem_of_mem_lines (hperm.mem_iff.mp hline)]
  unfold countedLines
  rw [filter_cons, if_pos count, map_cons, filter_cons, if_pos hne]

theorem caseDetermined_of_stable (hkey : key ∈ adoptableDnsChecks) (h : ∀ net', net.Reordered net' →
      recordFingerprint (validateDomainRaw net' domain) key = recordFingerprint (validateDomainRaw net domain) key) :
    CaseDetermined (countedLines key (answerLines net domain key)) := by
  intro a ha b hb hcase
  have first : ∀ c ∈ countedLines key (answerLines net domain key),
      ∃ rest, sortLines (c :: rest) = sortLines (countedLines key (answerLines net domain key)) := by
    intro c hc
    obtain ⟨net', rest, reordered, hlines⟩ := exists_reordered hc
    have hsame := h net' reordered
    rw [recordFingerprint_validateDomainRaw _ _ hkey, recordFingerprint_validateDomainRaw _ _ hkey] at hsame
    refine ⟨rest, hlines ▸ sortLines_eq_of_fingerprintOf (fun _ => newline_not_mem_countedLines)
      (fun _ => newline_not_mem_countedLines) ?_ (ne_nil_of_mem hc) hsame⟩
    rw [hlines]
    exact cons_ne_nil _ _
  obtain ⟨rest, hsort⟩ := first a ha
  obtain ⟨rest', hsort'⟩ := first b hb
  exact StableSort.eq_of_insertionSort_cons hcase (hsort.trans hsort'.symm)

theorem recordFingerprint_reordered (reordered : net.Reordered net') (hkey : key ∈ adoptableDnsChecks)
    (h : CaseDetermined (countedLines key (answerLines net domain key))) :
    recordFingerprint (validateDomainRaw net' domain) key = recordFingerprint (validateDomainRaw net domain) key := by
  have hperm : (countedLines key (answerLines net' domain key)).Perm (countedLines key (answerLines net domain key)) :=
    countedLines_perm (reordered _ _)
  have hsort : sortLines (countedLines key (answerLines net' domain key)) =
      sortLines (countedLines key (answerLines net domain key)) := StableSort.insertionSort_eq_of_perm h hperm
  rw [recordFingerprint_validateDomainRaw _ _ hkey, recordFingerprint_validateDomainRaw _ _ hkey, fingerprintOf, hsort]
  rfl

/-! ## An adopted configuration that is found as it was -/

def Present (result : Value) (key : String) : Prop := ∃ check, checkOf result key = some check ∧ check.Assignable

def Passing (result : Value) (key : String) : Prop :=
  ∃ check, checkOf result key = some check ∧ check.Assignable ∧ check.get "ok" = some (.bool true)

def Passes (mark : Value → Value) : Prop :=
  ∀ check, check.Assignable → (mark check).Assignable ∧ (mark check).get "ok" = some (.bool true)

variable {result : Value} {key' : String} {mark : Value → Value}

theorem Present.updateCheck (hmark : Passes mark) (h : Present result key) (key') :
    Present (updateCheck result key' mark) key := by
  obtain ⟨check, hcheck, assigned⟩ := h
  refine ⟨_, by rw [checkOf_updateCheck, hcheck]; rfl, ?_⟩
  split
  · exact (hmark check assigned).1
  · exact assigned

theorem Passing.updateCheck (hmark : Passes mark) (h : Passing result key) :
    Passing (updateCheck result key' mark) key := by
  obtain ⟨check, hcheck, assigned, hok⟩ := h
  refine ⟨_, by rw [checkOf_updateCheck, hcheck]; rfl, ?_⟩
  split
  · exact hmark check assigned
  · exact ⟨assigned, hok⟩

theorem Present.passing_updateCheck (hmark : Passes mark) (h : Present result key) :
    Passing (Domains.updateCheck result key mark) key := by
  obtain ⟨check, hcheck, assigned⟩ := h
  refine ⟨mark check, ?_, hmark check assigned⟩
  rw [checkOf_updateCheck, hcheck, if_pos rfl, map_some]

theorem Present.foldl_updateCheck (hmark : Passes mark) : ∀ (keys : List String) {result : Value}, Present result key →
    Present (keys.foldl (fun result key => Domains.updateCheck result key mark) result) key ∧
      (key ∈ keys ∨ Passing result key →
        Passing (keys.foldl (fun result key => Domains.updateCheck result key mark) result) key)
  | [], _, h => ⟨h, fun hor => hor.resolve_left not_mem_nil⟩
  | key' :: keys, result, h => by
    obtain ⟨present, hpassi⟩ := Present.foldl_updateCheck hmark keys (h.updateCheck hmark key')
    refine ⟨present, fun hor => hpassi ?_⟩
    rcases hor with hmem | hpass
    · rcases mem_cons.mp hmem with rfl | hmem
      · exact .inr (h.passing_updateCheck hmark)
      · exact .inl hmem
    · exact .inr (hpass.updateCheck hmark)

theorem Passing.checkOk (h : Passing result key) : checkOk result key := by
  obtain ⟨check, hcheck, -, hok⟩ := h
  unfold Domains.checkOk
  rw [← checkOf, hcheck, bind_some, hok]
  rfl

def AdoptedFrom (domainEntry result : Value) : Prop :=
  domainEntry.get "adopted_checks" = some (.object (adoptedDnsSnapshots result))

/-- All adopted checks pass, and nothing is left to decide. -/
structure Kept (result : Value) : Prop where
  healthy : flag result "healthy"
  noDecision : flag result "decision_required" = false
  checks : ∀ key ∈ adoptableDnsChecks, checkOk result key

def markAdopted (check : Value) : Value :=
  ((check.set "ok" (.bool true)).set "adopted" (.bool true)).set "policy" (.string "existing")

def markNotApplicable (check : Value) : Value :=
  (((check.set "ok" (.bool true)).set "adopted" (.bool true)).set "not_applicable" (.bool true)).set
    "policy" (.string "existing")

theorem passes_markAdopted : Passes markAdopted := fun check h => by
  refine ⟨assignable_set (assignable_set (assignable_set h)), ?_⟩
  rw [markAdopted, get_set_ne (by decide), get_set_ne (by decide), get_set_self h]

theorem passes_markNotApplicable : Passes markNotApplicable := fun check h => by
  refine ⟨assignable_set (assignable_set (assignable_set (assignable_set h))), ?_⟩
  rw [markNotApplicable, get_set_ne (by decide), get_set_ne (by decide), get_set_ne (by decide), get_set_self h]

variable {domainEntry : Value}

theorem assignable_dig (net) (recordType) (name) : (dig net recordType name).Assignable := by
  unfold dig
  split
  · split <;> exact .inl ⟨_, rfl⟩
  · exact .inl ⟨_, rfl⟩

theorem assignable_opensslCheck (net) (host : String) (port : Nat) (starttls) :
    (opensslCheck net host port starttls).Assignable := by
  unfold opensslCheck
  simp only
  split <;> exact .inl ⟨_, rfl⟩

theorem present_validateDomainRaw (net) (domain) : ∀ key ∈ requiredCheckKeys,
    Present (validateDomainRaw net domain) key := by
  simp only [requiredCheckKeys, forall_mem_cons, not_mem_nil, false_imp_iff, implies_true, and_true]
  exact ⟨⟨_, rfl, assignable_dig _ _ _⟩, ⟨_, rfl, .inl ⟨_, rfl⟩⟩, ⟨_, rfl, .inl ⟨_, rfl⟩⟩, ⟨_, rfl, .inl ⟨_, rfl⟩⟩,
    ⟨_, rfl, .inl ⟨_, rfl⟩⟩, ⟨_, rfl, assignable_opensslCheck _ _ _ _⟩, ⟨_, rfl, assignable_opensslCheck _ _ _ _⟩,
    ⟨_, rfl, .inl ⟨_, rfl⟩⟩, ⟨_, rfl, assignable_opensslCheck _ _ _ _⟩⟩

theorem foldl_applyAdopted_of_matches : ∀ (keys : List String) {acc : Value × Bool},
    (∀ key ∈ keys, matchesAdopted (adoptedCheck domainEntry key) (recordFingerprint acc.1 key)) →
    keys.foldl (applyAdopted domainEntry) acc =
      (keys.foldl (fun result key => updateCheck result key markAdopted) acc.1, acc.2)
  | [], _, _ => rfl
  | key :: keys, acc, h => by
    obtain ⟨hkey, hkeys⟩ := forall_mem_cons.mp h
    have hround : applyAdopted domainEntry acc key = (updateCheck acc.1 key markAdopted, acc.2) := by
      simp only [applyAdopted, hkey, Bool.not_true, Bool.or_false]
      rfl
    have hframe : ∀ key', recordFingerprint (updateCheck acc.1 key markAdopted) key' = recordFingerprint acc.1 key' :=
      fun key' => recordFingerprint_updateCheck fun check => by
        rw [markAdopted, get_set_ne (by decide), get_set_ne (by decide), get_set_ne (by decide)]
    rw [foldl_cons, hround, foldl_cons]
    exact foldl_applyAdopted_of_matches keys fun key' hkey' => (hframe key').symm ▸ hkeys key' hkey'

theorem foldl_applyNotApplicable (keys : List String) (result : Value) :
    keys.foldl applyNotApplicable result = (keys.filter (· ∉ adoptableDnsChecks)).foldl
      (fun result key => updateCheck result key markNotApplicable) result := by
  rw [foldl_filter]
  congr 1
  funext result key
  unfold applyNotApplicable
  by_cases hkey : key ∈ adoptableDnsChecks
  · simp [hkey]
  · simp only [hkey, if_false, not_false_eq_true, decide_true, if_true]
    rfl

def marked (result : Value) : Value :=
  requiredCheckKeys.foldl applyNotApplicable
    (adoptableDnsChecks.foldl (fun result key => updateCheck result key markAdopted) result)

theorem passing_marked (net : Network) (domain : String) (hkey : key ∈ requiredCheckKeys) :
    Passing (marked (validateDomainRaw net domain)) key := by
  rw [marked, foldl_applyNotApplicable]
  obtain ⟨present, hadopt⟩ := (present_validateDomainRaw net domain key hkey).foldl_updateCheck
    passes_markAdopted adoptableDnsChecks
  refine (present.foldl_updateCheck passes_markNotApplicable _).2 ?_
  by_cases adopted : key ∈ adoptableDnsChecks
  · exact .inr (hadopt (.inl adopted))
  · exact .inl (mem_filter.mpr ⟨hkey, decide_eq_true adopted⟩)

theorem assignable_marked (h : result.Assignable) : (marked result).Assignable :=
  assignable_foldl_applyNotApplicable requiredCheckKeys
    (List.foldlRecOn (motive := Value.Assignable) adoptableDnsChecks _ h fun _ hres _ _ => assignable_updateCheck hres)

theorem kept_applyExistingPolicy (h : Unchanged net domain domainEntry) :
    Kept (applyExistingPolicy (validateDomainRaw net domain) domainEntry) := by
  have hloop : adoptableDnsChecks.foldl (applyAdopted domainEntry) (validateDomainRaw net domain, false) =
      (adoptableDnsChecks.foldl (fun result key => updateCheck result key markAdopted) (validateDomainRaw net domain),
        false) := foldl_applyAdopted_of_matches adoptableDnsChecks h
  have assignable : (marked (validateDomainRaw net domain)).Assignable := assignable_marked (.inl ⟨_, rfl⟩)
  have hheal : allRequiredChecksHealthy (marked (validateDomainRaw net domain)) :=
    all_eq_true.mpr fun key hkey => (passing_marked net domain hkey).checkOk
  refine ⟨?_, ?_, fun key hkey => ?_⟩
  · unfold flag applyExistingPolicy
    rw [hloop]
    simp only
    rw [← marked, get_set_ne (by decide), get_set_ne (by decide), get_set_ne (by decide),
      get_set_self assignable, hheal]
    rfl
  · rw [decisionRequired_applyExistingPolicy, decide_eq_true h]
    rfl
  · have required : ∀ key ∈ adoptableDnsChecks, key ∈ requiredCheckKeys := by decide
    rw [← (passing_marked net domain (required key hkey)).checkOk]
    unfold checkOk applyExistingPolicy
    rw [hloop]
    simp only
    rw [← marked, get_set_ne (by decide), get_set_ne (by decide), get_set_ne (by decide), get_set_ne (by decide)]

theorem adoptedCheck_of_adoptedFrom (entry : AdoptedFrom domainEntry result) (hkey : key ∈ adoptableDnsChecks) :
    adoptedCheck domainEntry key = some (((recordFingerprint result key).map Value.string).getD .null) := by
  have hlook : ∀ key ∈ adoptableDnsChecks, ∀ f : String → Value,
      (adoptableDnsChecks.map fun key => (key, f key)).lookup key = some (f key) := by
    simp only [adoptableDnsChecks, forall_mem_cons, not_mem_nil, false_imp_iff, implies_true, and_true]
    exact ⟨fun _ => rfl, fun _ => rfl, fun _ => rfl, fun _ => rfl, fun _ => rfl⟩
  rw [adoptedCheck, entry]
  exact hlook key hkey fun key => ((recordFingerprint result key).map Value.string).getD .null

/-- **What is adopted does not depend on the order of the lines, and is found again in every other order, exactly if no
two lines that count differ in the case of letters only.** -/
theorem adopted_order_iff (net : Network) (domain : String) : (∀ net', net.Reordered net' →
      adoptedDnsSnapshots (validateDomainRaw net' domain) = adoptedDnsSnapshots (validateDomainRaw net domain) ∧
        ∀ domainEntry, AdoptedFrom domainEntry (validateDomainRaw net domain) →
          Kept (applyExistingPolicy (validateDomainRaw net' domain) domainEntry)) ↔
      ∀ key ∈ adoptableDnsChecks, CaseDetermined (countedLines key (answerLines net domain key)) := by
  constructor
  · intro h key hkey
    exact caseDetermined_of_stable hkey fun net' reordered =>
      adoptedDnsSnapshots_eq_iff.mp (h net' reordered).1 key hkey
  · intro h net' reordered
    have hsame : adoptedDnsSnapshots (validateDomainRaw net' domain) =
        adoptedDnsSnapshots (validateDomainRaw net domain) :=
      adoptedDnsSnapshots_eq_iff.mpr fun key hkey => recordFingerprint_reordered reordered hkey (h key hkey)
    refine ⟨hsame, fun domainEntry entry => kept_applyExistingPolicy fun key hkey => ?_⟩
    rw [adoptedCheck_of_adoptedFrom entry hkey, ← adoptedDnsSnapshots_eq_iff.mp hsame key hkey]
    cases recordFingerprint (validateDomainRaw net' domain) key with
    | none => rfl
    | some fingerprint => exact decide_eq_true rfl

def Network.exchangers (answer : String) : Network where
  dig recordType _ := if recordType = "MX" then .ok answer else .error "record not found"
  openssl _ _ _ := .error "connection refused"

theorem reordered_exchangers {answer answer'} (h : (Text.lines answer').Perm (Text.lines answer)) :
    (Network.exchangers answer).Reordered (.exchangers answer') := by
  intro recordType name
  unfold digText Network.exchangers
  by_cases hmx : recordType = "MX"
  · simp only [if_pos hmx]
    exact h
  · simp only [if_neg hmx, List.Perm.refl]

theorem recordFingerprint_exchangers (answer) (domain) :
    recordFingerprint (validateDomainRaw (.exchangers answer) domain) "mx" =
      fingerprintOf (countedLines "mx" (Text.lines answer)) :=
  recordFingerprint_validateDomainRaw _ _ mem_cons_self

/-- Two lines in the other order are taken for a changed configuration. -/
theorem swapped_lines_differ :
    ∃ net net' domainEntry, net.Reordered net' ∧ AdoptedFrom domainEntry (validateDomainRaw net "example.org") ∧
      adoptedDnsSnapshots (validateDomainRaw net' "example.org") ≠
        adoptedDnsSnapshots (validateDomainRaw net "example.org") ∧
      flag (applyExistingPolicy (validateDomainRaw net' "example.org") domainEntry) "decision_required" := by
  have adopted : fingerprintOf (countedLines "mx" (Text.lines "10 Mail.example.org.\n10 mail.example.org.")) =
      some "10 Mail.example.org.\n10 mail.example.org." := by decide
  have found : fingerprintOf (countedLines "mx" (Text.lines "10 mail.example.org.\n10 Mail.example.org.")) =
      some "10 mail.example.org.\n10 Mail.example.org." := by decide
  obtain ⟨domainEntry, entry⟩ : ∃ domainEntry, AdoptedFrom domainEntry
      (validateDomainRaw (.exchangers "10 Mail.example.org.\n10 mail.example.org.") "example.org") :=
    ⟨.object [("adopted_checks", .object (adoptedDnsSnapshots _))], rfl⟩
  have hperm : (Text.lines "10 mail.example.org.\n10 Mail.example.org.").Perm
      (Text.lines "10 Mail.example.org.\n10 mail.example.org.") := by decide
  refine ⟨.exchangers "10 Mail.example.org.\n10 mail.example.org.",
    .exchangers "10 mail.example.org.\n10 Mail.example.org.", domainEntry, reordered_exchangers hperm, entry,
    fun hsame => ?_, ?_⟩
  · have hmx := adoptedDnsSnapshots_eq_iff.mp hsame "mx" mem_cons_self
    rw [recordFingerprint_exchangers, recordFingerprint_exchangers, adopted, found] at hmx
    revert hmx
    decide
  · rw [decisionRequired_applyExistingPolicy, decide_eq_false fun unchanged => ?_]
    · rfl
    · have hmx := unchanged "mx" mem_cons_self
      rw [adoptedCheck_of_adoptedFrom entry mem_cons_self, recordFingerprint_exchangers, adopted,
        recordFingerprint_exchangers, found] at hmx
      revert hmx
      decide

end Nexus.Domains
