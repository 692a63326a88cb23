import Nexus.Domains.Onboard
import Nexus.Lib.LockedUpdate

/-!
# Writers of the inventory of domains

`persist_mail_domain`, `persist_discovered_domain` and `persist_adopted_domain` of `server/src/api/nexus/domains.rs`.
Each replaces the entry of its own domain in place, or adds it at the end (`EntriesChange`), under
`INVENTORY_WRITE_LOCK`. So no name gets a second entry, no entry disappears, and what belongs to other domains stays
(`inventory_frame`).
-/

namespace Nexus.Domains

open Lib Lib.LockedUpdate List Value

/-! ## The writers -/

def markExisting (adoptedChecks : List (String × Value)) (entry : Value) : Value :=
  (entry.set "configuration_mode" (.string "existing")).set "adopted_checks" (.object adoptedChecks)

def withDomainEntry (inventory : Value) (domain mode : String) : Except String Value :=
  if (findDomainEntry inventory domain).isSome then .ok inventory
  else match domainsOf inventory with
    | none => .error missingDomains
    | some _ => .ok (inventory.update "domains" (·.mapItems (· ++ [newEntry domain false mode])))

def persistAdoptedDomain (w : Surroundings) (domain : String) (adoptedChecks : List (String × Value)) : Call Unit := do
  let inventory ← lockInventory w
  let inventory ← Effect.ofExcept (withDomainEntry inventory domain "existing")
  if (findDomainEntry inventory domain).isSome then
    writeInventory w (inventory.update "domains" (·.mapItems (updateFirst domain (markExisting adoptedChecks))))
  else Effect.fail "unable to persist adopted domain"

inductive Persist
  | mail (domain : String)
  | discovered (domain : String)
  | adopted (domain : String) (adoptedChecks : List (String × Value))

namespace Persist

def domain : Persist → String
  | .mail domain | .discovered domain | .adopted domain _ => domain

def call (w : Surroundings) : Persist → Call Unit
  | .mail domain => persistMailDomain w domain
  | .discovered domain => persistDiscoveredDomain w domain
  | .adopted domain adoptedChecks => persistAdoptedDomain w domain adoptedChecks

def run (w : Surroundings) (op : Persist) (file : InventoryFile) : InventoryFile × Except String Unit :=
  let (outcome, s) := (op.call w).run ⟨file, [], []⟩
  (s.file, outcome)

end Persist

def inventorySystem {ι : Type*} (w : ι → Surroundings) (ops : ι → Persist) :
    System ι InventoryFile (Except String Unit) where
  exclusive _ := true
  update i file := let (file, outcome) := (ops i).run (w i) file
    (some file, outcome)

/-! ## What one writer can do -/

def nameOf (entry : Value) : Option String := (entry.get "name").bind Value.asStr

def UniqueNames (entries : List Value) : Prop := (entries.filterMap nameOf).Nodup

/-- The entry of a domain is replaced in place or added at the end. -/
inductive EntriesChange (domain : String) : List Value → List Value → Prop
  | same (entries : List Value) : EntriesChange domain entries entries
  | replace (before : List Value) {after : List Value} {entry entry' : Value} (hentry : nameOf entry = some domain)
      (hentry' : nameOf entry' = some domain) :
      EntriesChange domain (before ++ entry :: after) (before ++ entry' :: after)
  | add {entries : List Value} {entry : Value} (hnone : ∀ e ∈ entries, nameOf e ≠ some domain)
      (hentry : nameOf entry = some domain) : EntriesChange domain entries (entries ++ [entry])

def entriesOf (file : InventoryFile) : List Value :=
  match readInventory file with
  | .ok inventory => (domainsOf inventory).getD []
  | .error _ => []

structure Changes (domain : String) (file file' : InventoryFile) : Prop where
  entries : EntriesChange domain (entriesOf file) (entriesOf file')
  others : ∀ inventory, readInventory file = .ok inventory →
    ∃ inventory', readInventory file' = .ok inventory' ∧ ∀ k ≠ "domains", inventory'.get k = inventory.get k

theorem Changes.refl (domain) (file) : Changes domain file file :=
  ⟨.same _, fun inventory hread => ⟨inventory, hread, fun _ _ => rfl⟩⟩

/-- An entry is the same unless it belongs to one of the domains. -/
def Survive (touched : String → Prop) (entries entries' : List Value) : Prop :=
  ∀ (i : Nat) (entry : Value), entries[i]? = some entry → ∃ entry', entries'[i]? = some entry' ∧
    nameOf entry' = nameOf entry ∧ (entry' = entry ∨ ∃ domain, touched domain ∧ nameOf entry = some domain)

variable {domain : String} {entries entries' entries'' : List Value} {touched : String → Prop}

theorem EntriesChange.uniqueNames (h : EntriesChange domain entries entries') (huniq : UniqueNames entries) :
    UniqueNames entries' := by
  cases h with
  | same => exact huniq
  | replace _ hent hent' =>
    unfold UniqueNames at huniq ⊢
    rw [filterMap_append, filterMap_cons_some hent] at huniq
    rw [filterMap_append, filterMap_cons_some hent']
    exact huniq
  | add hnone hent =>
    unfold UniqueNames at huniq ⊢
    rw [filterMap_append, filterMap_cons_some hent, filterMap_nil, nodup_append]
    refine ⟨huniq, nodup_singleton _, ?_⟩
    rintro name hname _ hdom rfl
    obtain ⟨e, he, hsame⟩ := mem_filterMap.mp hname
    exact hnone e he (hsame.trans (congrArg some (mem_singleton.mp hdom)))

theorem EntriesChange.survive (h : EntriesChange domain entries entries') (htouched : touched domain) :
    Survive touched entries entries' := by
  intro i entry hi
  cases h with
  | same => exact ⟨entry, hi, rfl, .inl rfl⟩
  | @replace before after old new hold hnew =>
    rcases Nat.lt_trichotomy i before.length with hlt | rfl | hgt
    · rw [List.getElem?_append_left hlt] at hi
      exact ⟨entry, by rw [List.getElem?_append_left hlt, hi], rfl, .inl rfl⟩
    · obtain rfl : old = entry := by simpa using hi
      exact ⟨new, by simp, hnew.trans hold.symm, .inr ⟨domain, htouched, hold⟩⟩
    · obtain ⟨k, rfl⟩ := Nat.exists_eq_add_of_lt hgt
      have hrest : ∀ e, (before ++ e :: after)[before.length + k + 1]? = after[k]? := fun e => by
        rw [List.getElem?_append_right (by omega), Nat.add_assoc, Nat.add_sub_cancel_left, List.getElem?_cons_succ]
      rw [hrest] at hi
      exact ⟨entry, by rw [hrest, hi], rfl, .inl rfl⟩
  | add =>
    obtain ⟨hlt, -⟩ := List.getElem?_eq_some_iff.mp hi
    exact ⟨entry, by rw [List.getElem?_append_left hlt, hi], rfl, .inl rfl⟩

theorem Survive.refl (touched : String → Prop) (entries) : Survive touched entries entries :=
  fun _ entry hi => ⟨entry, hi, rfl, .inl rfl⟩

theorem Survive.trans (h : Survive touched entries entries') (h' : Survive touched entries' entries'') :
    Survive touched entries entries'' := by
  intro i entry hi
  obtain ⟨entry', hi', hname, hsame⟩ := h i entry hi
  obtain ⟨entry'', hi'', hname', hsame'⟩ := h' i entry' hi'
  refine ⟨entry'', hi'', hname'.trans hname, ?_⟩
  rcases hsame' with rfl | ⟨d, hd, hd'⟩
  · exact hsame
  · exact .inr ⟨d, hd, hname.symm.trans hd'⟩

variable {inventory updated : Value} {f : Value → Value} {g : List Value → List Value} {s : CallState}
  {w : Surroundings}

theorem isNamed_iff {entry} : isNamed domain entry ↔ nameOf entry = some domain := decide_eq_true_iff

theorem EntriesChange.cons (entry) (other : nameOf entry ≠ some domain)
    (h : EntriesChange domain entries entries') : EntriesChange domain (entry :: entries) (entry :: entries') := by
  cases h with
  | same => exact .same _
  | @replace before after old new hold hnew => exact .replace (entry :: before) hold hnew
  | add hnone hnew => exact .add (forall_mem_cons.mpr ⟨other, hnone⟩) hnew

theorem entriesChange_updateFirst (hf : ∀ entry, nameOf (f entry) = nameOf entry) : ∀ entries,
    EntriesChange domain entries (updateFirst domain f entries)
  | [] => .same []
  | entry :: entries => by
    unfold updateFirst
    split
    · next hnamed =>
      have hname := isNamed_iff.mp hnamed
      exact .replace [] hname ((hf entry).trans hname)
    · next hnamed =>
      exact (entriesChange_updateFirst hf entries).cons entry fun hname => hnamed (isNamed_iff.mpr hname)

theorem updateFirst_append_of_none (entry) (hent : nameOf entry = some domain) : ∀ {entries},
    (∀ e ∈ entries, nameOf e ≠ some domain) → updateFirst domain f (entries ++ [entry]) = entries ++ [f entry]
  | [], _ => if_pos (isNamed_iff.mpr hent)
  | e :: entries, h => by
    obtain ⟨he, hents⟩ := forall_mem_cons.mp h
    rw [cons_append, updateFirst, if_neg fun hnamed => he (isNamed_iff.mp hnamed),
      updateFirst_append_of_none entry hent hents, cons_append]

theorem nameOf_newEntry (domain) (managed : Bool) (mode) : nameOf (newEntry domain managed mode) = some domain := rfl

theorem nameOf_markNexus (entry) : nameOf (markNexus entry) = nameOf entry :=
  congrArg (·.bind Value.asStr) (name_markNexus entry)

theorem nameOf_markExisting (adoptedChecks) (entry) : nameOf (markExisting adoptedChecks entry) = nameOf entry := by
  rw [nameOf, markExisting, get_set_ne (by decide), get_set_ne (by decide), nameOf]

theorem domainsOf_update (inventory) (g) :
    domainsOf (inventory.update "domains" (·.mapItems g)) = (domainsOf inventory).map g := by
  unfold domainsOf
  rw [get_update_self]
  cases inventory.get "domains" with
  | none => rfl
  | some domains => cases domains <;> rfl

theorem findDomainEntry_isSome_iff :
    (findDomainEntry inventory domain).isSome ↔ ∃ entries, domainsOf inventory = some entries ∧
      ∃ e ∈ entries, nameOf e = some domain := by
  unfold findDomainEntry
  cases domainsOf inventory with
  | none => simp
  | some => simp [find?_isSome, isNamed_iff]

theorem entriesOf_of_read {file} (h : readInventory file = .ok inventory) :
    entriesOf file = (domainsOf inventory).getD [] := by
  unfold entriesOf
  rw [h]

theorem changes_writeInventory (hread : readInventory s.file = .ok inventory)
    (hdom : domainsOf updated = (domainsOf inventory).map g) (other : ∀ k ≠ "domains", updated.get k = inventory.get k)
    (hg : ∀ entries, domainsOf inventory = some entries → EntriesChange domain entries (g entries)) :
    Changes domain s.file ((writeInventory w updated).run s).2.file := by
  have write : Changes domain s.file (.parsed updated) := by
    refine ⟨?_, fun inventory' hread' => ⟨updated, rfl, ?_⟩⟩
    · have hread' : readInventory (.parsed updated) = .ok updated := rfl
      rw [entriesOf_of_read hread, entriesOf_of_read hread', hdom]
      cases hents : domainsOf inventory with
      | none => exact .same []
      | some entries => exact hg entries hents
    · cases hread.symm.trans hread'
      exact other
  unfold writeInventory
  cases w.writeFails with
  | some => exact .refl domain s.file
  | none => exact write

theorem changes_writeInventory_update (hread : readInventory s.file = .ok inventory)
    (hg : ∀ entries, domainsOf inventory = some entries → EntriesChange domain entries (g entries)) :
    Changes domain s.file ((writeInventory w (inventory.update "domains" (·.mapItems g))).run s).2.file :=
  changes_writeInventory hread (domainsOf_update inventory g) (fun _ hk => get_update_ne hk inventory) hg

theorem changes_persistMailDomain (w) (domain) (s) :
    Changes domain s.file ((persistMailDomain w domain).run s).2.file := by
  refine lockInventory_keeps (P := fun t => Changes domain s.file t.file)
    (.refl domain s.file) fun inventory hread => ?_
  unfold upsertMailDomain
  cases hents : domainsOf inventory with
  | none => exact .refl domain s.file
  | some entries =>
    simp only
    split
    · exact changes_writeInventory_update hread fun entries _ => entriesChange_updateFirst nameOf_markNexus entries
    · next hnew =>
      refine changes_writeInventory_update hread fun _ hents' => ?_
      cases hents.symm.trans hents'
      refine .add (fun e he hname => hnew ?_) (nameOf_newEntry domain true "nexus")
      exact any_eq_true.mpr ⟨e, he, isNamed_iff.mpr hname⟩

theorem changes_persistDiscoveredDomain (w) (domain) (s) :
    Changes domain s.file ((persistDiscoveredDomain w domain).run s).2.file := by
  refine lockInventory_keeps (P := fun t => Changes domain s.file t.file)
    (.refl domain s.file) fun inventory hread => ?_
  split
  · exact .refl domain s.file
  · next hnew =>
    split
    · exact .refl domain s.file
    · refine changes_writeInventory_update hread fun entries hents => ?_
      refine .add (fun e he hname => hnew ?_) (nameOf_newEntry domain false "discovered")
      exact findDomainEntry_isSome_iff.mpr ⟨entries, hents, e, he, hname⟩

theorem changes_persistAdoptedDomain (w) (domain) (adoptedChecks)
    (s) : Changes domain s.file ((persistAdoptedDomain w domain adoptedChecks).run s).2.file := by
  refine lockInventory_keeps (P := fun t => Changes domain s.file t.file)
    (.refl domain s.file) fun inventory hread => ?_
  unfold withDomainEntry
  split
  · next hold =>
    rw [Effect.run_ofExcept_ok_bind, if_pos hold]
    exact changes_writeInventory_update hread fun entries _ =>
      entriesChange_updateFirst (nameOf_markExisting adoptedChecks) entries
  · next hnew =>
    cases hents : domainsOf inventory with
    | none => exact .refl domain s.file
    | some entries =>
      rw [Effect.run_ofExcept_ok_bind]
      split
      · -- the entry that was added is the first of its name
        refine changes_writeInventory (g := fun entries => updateFirst domain (markExisting adoptedChecks)
          (entries ++ [newEntry domain false "existing"])) hread ?_ (fun k hk => ?_) fun entries' hents' => ?_
        · rw [domainsOf_update, domainsOf_update, Option.map_map]
          rfl
        · rw [get_update_ne hk, get_update_ne hk]
        · have hnone : ∀ e ∈ entries', nameOf e ≠ some domain := fun e he hname =>
            hnew (findDomainEntry_isSome_iff.mpr ⟨entries', hents', e, he, hname⟩)
          rw [updateFirst_append_of_none _ (nameOf_newEntry domain false "existing") hnone]
          exact .add hnone (nameOf_markExisting adoptedChecks _)
      · exact .refl domain s.file

theorem Persist.changes (w : Surroundings) (op : Persist) (file : InventoryFile) :
    Changes op.domain file (op.run w file).1 := by
  cases op with
  | mail domain => exact changes_persistMailDomain w domain ⟨file, [], []⟩
  | discovered domain => exact changes_persistDiscoveredDomain w domain ⟨file, [], []⟩
  | adopted domain adoptedChecks => exact changes_persistAdoptedDomain w domain adoptedChecks ⟨file, [], []⟩

/-! ## All writers -/

variable {ι : Type*} {w : ι → Surroundings} {ops : ι → Persist} {file file' : InventoryFile} {a : Act ι}

/-- Only a store changes the file, and only for its domain. -/
def StepChanges (ops : ι → Persist) (a : Act ι) (file file' : InventoryFile) : Prop :=
  match a with
  | .store i => Changes (ops i).domain file file'
  | .acquire _ | .load _ | .release _ => file' = file

theorem StepChanges.uniqueNames (h : StepChanges ops a file file') (huniq : UniqueNames (entriesOf file)) :
    UniqueNames (entriesOf file') := by
  cases a with
  | store => exact h.entries.uniqueNames huniq
  | acquire i | load i | release i =>
    obtain rfl : file' = file := h
    exact huniq

theorem StepChanges.survive (h : StepChanges ops a file file') :
    Survive (fun domain => ∃ i, (ops i).domain = domain) (entriesOf file) (entriesOf file') := by
  cases a with
  | store i => exact h.entries.survive ⟨i, rfl⟩
  | acquire i | load i | release i =>
    obtain rfl : file' = file := h
    exact .refl _ _

variable [DecidableEq ι] {s t : State ι InventoryFile (Except String Unit)}

theorem inv_step_inventory (hinv : Inv (inventorySystem w ops) file s) (h : Step (inventorySystem w ops) s a t) :
    Inv (inventorySystem w ops) file t :=
  inv_step hinv ⟨fun _ _ _ shared => absurd shared (by simp [inventorySystem]), h⟩

theorem stepChanges (hinv : Inv (inventorySystem w ops) file s) (h : Step (inventorySystem w ops) s a t) :
    StepChanges ops a s.content t.content := by
  cases h with
  | acquire _ _ | load _ | release _ => rfl
  | @store i file' hload =>
    obtain rfl := hinv.current i file' rfl hload
    exact (ops i).changes (w i) s.content

/-- **In every interleaving** no name has two entries, no entry has disappeared, and the next step changes the entry of
its own domain only. -/
theorem inventory_frame (w : ι → Surroundings) (ops : ι → Persist) (file : InventoryFile)
    (hunique : UniqueNames (entriesOf file)) (acts : List (Act ι)) (s : State ι InventoryFile (Except String Unit))
    (hrun : Run (Step (inventorySystem w ops)) (.init file) acts s) : UniqueNames (entriesOf s.content) ∧
      Survive (fun domain => ∃ i, (ops i).domain = domain) (entriesOf file) (entriesOf s.content) ∧
      ∀ a t, Step (inventorySystem w ops) s a t → StepChanges ops a s.content t.content := by
  have hinv := hrun.invariant
    (P := fun s => Inv (inventorySystem w ops) file s ∧ UniqueNames (entriesOf s.content) ∧
      Survive (fun domain => ∃ i, (ops i).domain = domain) (entriesOf file) (entriesOf s.content))
    (fun s a t ⟨hinv, hunique, survive⟩ hstep => have changes := stepChanges hinv hstep
      ⟨inv_step_inventory hinv hstep, changes.uniqueNames hunique, survive.trans changes.survive⟩)
    ⟨inv_init, hunique, .refl _ _⟩
  exact ⟨hinv.2.1, hinv.2.2, fun a t hstep => stepChanges hinv.1 hstep⟩

theorem inventory_frame_default :
    ∃ s : State Unit InventoryFile (Except String Unit), (entriesOf s.content).length = 8 ∧
      UniqueNames (entriesOf s.content) ∧
      Survive (fun domain => ∃ _ : Unit, "example.org" = domain) (entriesOf .missing) (entriesOf s.content) := by
  let ops : Unit → Persist := fun _ => .adopted "example.org" []
  obtain ⟨s, hlen, hrun⟩ : ∃ s, (entriesOf s.content).length = 8 ∧
      Run (Step (inventorySystem (fun _ => Sample.surroundings) ops)) (.init .missing)
        [.acquire (), .load (), .store ()] s :=
    ⟨_, by rfl, .cons (.acquire rfl nofun) (.cons (.load rfl) (.cons (.store rfl) (.nil _)))⟩
  have huniq : UniqueNames (entriesOf .missing) := by
    unfold UniqueNames
    decide
  have h := inventory_frame (fun _ => Sample.surroundings) ops .missing huniq _ s hrun
  exact ⟨s, hlen, h.1, h.2.1⟩

end Nexus.Domains
