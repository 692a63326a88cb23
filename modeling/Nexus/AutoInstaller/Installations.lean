import Nexus.Lib.OrderedMap

/-!
# Records of installations

Installations were kept in one file, and are kept in one file for each UUID now (`lib/pdm-config/src/auto_install.rs`).
Every read first migrates the old file, also `list_installations`, which only has the shared lock. The list is right if
no two calls migrate at once and nothing is deleted that is still in the old file (`installations_survive`).
-/

namespace Nexus.AutoInstaller

open Lib Lib.OrderedMap Function List

variable {α : Type} {uuid : String}

/-! ## Files and readers -/

/-- `legacy` is the old file, with its records unless it cannot be parsed. -/
structure Store (α : Type) where
  legacy : Option (Option (List (String × α)))
  dir : OrderedMap String α

def Store.records (store : Store α) : List (String × α) := (store.legacy.bind id).getD []

def Store.view (store : Store α) (uuid : String) : Option α := (store.dir.get? uuid).or (store.records.lookup uuid)

inductive Reader (α : Type)
  | migrating (todo : List (String × α))
  | broken
  | listing
  | listed (answer : List (String × α))
  | failed
  deriving DecidableEq

def Store.reader (store : Store α) : Reader α :=
  match store.legacy with
  | none => .listing
  | some none => .broken
  | some (some records) => .migrating records

def Reader.next (store : Store α) : Reader α → Reader α × Store α
  | .migrating ((uuid, a) :: todo) =>
    (.migrating todo, if (store.dir.get? uuid).isSome then store else { store with dir := store.dir.insert uuid a })
  | .migrating [] | .broken =>
    if store.legacy.isNone then (.failed, store) else (.listing, { store with legacy := none })
  | .listing => (.listed (store.dir.entries.mergeSort fun p q => p.1 ≤ q.1), store)
  | reader => (reader, store)

def Reader.steps : Nat → Reader α × Store α → Reader α × Store α
  | 0, s => s
  | n + 1, s => Reader.steps n (s.1.next s.2)

/-! ## Requests -/

/-- `expected` are the installations that there should be. -/
structure Installs (α : Type) where
  store : Store α
  readers : List (Reader α)
  expected : String → Option α

/-- A call is also released where it is cut off. -/
inductive InstallEvent (α : Type)
  | start
  | advance (i : Nat)
  | release (i : Nat)
  | newInstallation (uuid : String) (a : α)
  | handlePostHook (uuid : String) (finish : α → Option α) (steps : Nat)
  | deleteInstallation (uuid : String)

namespace Installs

def save (s : Installs α) (uuid : String) (a : α) : Installs α :=
  { s with store.dir := s.store.dir.insert uuid a, expected := update s.expected uuid (some a) }

def step (s : Installs α) : InstallEvent α → Installs α
  | .start => { s with readers := s.readers ++ [s.store.reader] }
  | .advance i => match s.readers[i]? with
    | none => s
    | some reader => { s with store := (reader.next s.store).2, readers := s.readers.set i (reader.next s.store).1 }
  | .release i => { s with readers := s.readers.eraseIdx i }
  | .newInstallation uuid a => if s.readers.isEmpty then s.save uuid a else s
  | .handlePostHook uuid finish steps =>
    if s.readers.isEmpty then
      let (reader, store) := Reader.steps steps (s.store.reader, s.store)
      match reader with
      | .listed answer => match (answer.lookup uuid).bind finish with
        | some a => { s with store }.save uuid a
        | none => { s with store }
      | _ => { s with store }
    else s
  | .deleteInstallation uuid =>
    if s.readers.isEmpty && (s.store.dir.get? uuid).isSome then
      { s with store.dir := s.store.dir.remove uuid, expected := update s.expected uuid none }
    else s

/-- While the old file is there one call is under way, and nothing in it is deleted. -/
def Careful (s : Installs α) : InstallEvent α → Prop
  | .start => s.store.legacy.isSome → s.readers = []
  | .deleteInstallation uuid => s.store.records.lookup uuid = none
  | _ => True

def CarefulRun : Installs α → List (InstallEvent α) → Prop
  | _, [] => True
  | s, event :: events => s.Careful event ∧ CarefulRun (s.step event) events

end Installs

/-! ## One reader -/

variable {store : Store α} {reader : Reader α}

def Reader.Ok (store : Store α) : Reader α → Prop
  | .migrating todo => ∃ migrated, store.legacy = some (some (migrated ++ todo)) ∧
    ∀ p ∈ migrated, (store.dir.get? p.1).isSome
  | .broken => store.legacy = some none
  | .listing => store.legacy = none
  | .listed answer => store.legacy = none ∧ answer = store.dir.entries.mergeSort fun p q => p.1 ≤ q.1
  | .failed => False

theorem ok_reader (store : Store α) : store.reader.Ok store := by
  unfold Store.reader
  split
  · assumption
  · assumption
  · next records h => exact ⟨[], h, forall_mem_nil _⟩

theorem lookup_migrated {migrated : List (String × α)} (h : ∀ p ∈ migrated, (store.dir.get? p.1).isSome)
    (hnone : store.dir.get? uuid = none) : migrated.lookup uuid = none := by
  rw [lookup_eq_none_iff]
  intro p hp
  rw [bne_iff_ne]
  rintro rfl
  simpa [hnone] using h p hp

theorem Reader.Ok.next (h : reader.Ok store) :
    (reader.next store).1.Ok (reader.next store).2 ∧ (reader.next store).2.view = store.view := by
  cases reader with
  | migrating todo =>
    obtain ⟨migrated, legacy, hin⟩ := h
    have hrec : store.records = migrated ++ todo := by simp [Store.records, legacy]
    cases todo with
    | nil =>
      rw [Reader.next, legacy, if_neg (by simp)]
      refine ⟨rfl, funext fun uuid => ?_⟩
      rw [Store.view, Store.view, hrec, append_nil]
      cases hget : store.dir.get? uuid with
      | some => rfl
      | none => exact (lookup_migrated hin hget).symm
    | cons p =>
      obtain ⟨uuid, a⟩ := p
      simp only [Reader.next]
      split
      · next hsome =>
        refine ⟨⟨migrated ++ [(uuid, a)], by simpa using legacy, fun p hp => ?_⟩, rfl⟩
        obtain hp | hp := mem_append.mp hp
        · exact hin p hp
        · rwa [mem_singleton.mp hp]
      · next hnone =>
        have hnone : store.dir.get? uuid = none := by simpa using hnone
        refine ⟨⟨migrated ++ [(uuid, a)], by simpa using legacy, fun p hp => ?_⟩, funext fun other => ?_⟩
        · rw [get?_insert]
          split
          · rfl
          · next hne =>
            obtain hp | hp := mem_append.mp hp
            · exact hin p hp
            · exact absurd (congrArg Prod.fst (mem_singleton.mp hp)) hne
        · change ((store.dir.insert uuid a).get? other).or (store.records.lookup other) = store.view other
          rw [Store.view, get?_insert]
          split
          · next heq =>
            subst heq
            simp [hnone, hrec, lookup_append, lookup_migrated hin hnone]
          · rfl
  | broken =>
    have legacy : store.legacy = some none := h
    rw [Reader.next, legacy, if_neg (by simp)]
    exact ⟨rfl, by simp [Store.view, Store.records, legacy, funext_iff]⟩
  | listing => exact ⟨⟨h, rfl⟩, rfl⟩
  | listed => exact ⟨h, rfl⟩
  | failed => exact h.elim

theorem Reader.Ok.steps : ∀ (n : Nat) {s : Reader α × Store α}, s.1.Ok s.2 →
    (Reader.steps n s).1.Ok (Reader.steps n s).2 ∧ (Reader.steps n s).2.view = s.2.view
  | 0, _, h => ⟨h, rfl⟩
  | n + 1, s, h => by
    obtain ⟨hnext, hview⟩ := h.next
    obtain ⟨hok, hsteps⟩ := Reader.Ok.steps n hnext
    exact ⟨hok, hsteps.trans hview⟩

theorem Reader.Ok.next_store (h : reader.Ok store) (hnone : store.legacy = none) : (reader.next store).2 = store := by
  cases reader with
  | migrating =>
    obtain ⟨migrated, legacy, -⟩ := h
    exact absurd (legacy.symm.trans hnone) nofun
  | broken => exact absurd (h.symm.trans hnone) nofun
  | listing => rfl
  | listed => rfl
  | failed => exact h.elim

theorem Reader.Ok.lists : ∀ {reader : Reader α} {store : Store α}, reader.Ok store →
    ∃ n answer, (Reader.steps n (reader, store)).1 = .listed answer
  | .migrating (p :: todo), store, h => by
    obtain ⟨n, answer, hsteps⟩ := Reader.Ok.lists (show (Reader.migrating todo).Ok _ from h.next.1)
    exact ⟨n + 1, answer, hsteps⟩
  | .migrating [], store, ⟨migrated, legacy, _⟩ => ⟨2, _, by simp [Reader.steps, Reader.next, legacy]; rfl⟩
  | .broken, store, h => ⟨2, _, by simp [Reader.steps, Reader.next, show store.legacy = some none from h]; rfl⟩
  | .listing, store, _ => ⟨1, _, rfl⟩
  | .listed answer, store, _ => ⟨0, answer, rfl⟩

/-! ## All requests -/

variable {s : Installs α}

structure Installs.Ok (s : Installs α) : Prop where
  view : ∀ uuid, s.store.view uuid = s.expected uuid
  single : s.store.legacy.isSome → s.readers.length ≤ 1
  readers : ∀ reader ∈ s.readers, reader.Ok s.store

theorem Installs.Ok.alone (hread : s.readers = []) (hview : ∀ uuid, s.store.view uuid = s.expected uuid) : s.Ok :=
  ⟨hview, by simp [hread], by simp [hread]⟩

theorem view_save (hview : ∀ uuid, s.store.view uuid = s.expected uuid) (uuid) (a : α) (other) :
    (s.save uuid a).store.view other = (s.save uuid a).expected other := by
  change ((s.store.dir.insert uuid a).get? other).or (s.store.records.lookup other) =
    update s.expected uuid (some a) other
  rw [get?_insert, update_apply]
  split
  · rfl
  · exact hview other

theorem Installs.Ok.advance (h : s.Ok) (i : Nat) : (s.step (.advance i)).Ok := by
  simp only [Installs.step]
  split
  · exact h
  · next reader hread =>
    have hok := h.readers reader (List.mem_of_getElem? hread)
    obtain ⟨hnext, hview⟩ := hok.next
    cases legacy : s.store.legacy with
    | none =>
      have store := hok.next_store legacy
      refine ⟨fun uuid => (congrFun hview uuid).trans (h.view uuid), by simp [store, legacy], fun other hoth => ?_⟩
      obtain hoth | rfl := List.mem_or_eq_of_mem_set hoth
      · rw [store]
        exact h.readers other hoth
      · exact hnext
    | some =>
      -- the reader is the only one
      obtain ⟨only, honly⟩ : ∃ only, s.readers = [only] := by
        have hle := h.single (by rw [legacy]; rfl)
        have hlt := (List.getElem?_eq_some_iff.mp hread).1
        exact List.length_eq_one_iff.mp (by omega)
      refine ⟨fun uuid => (congrFun hview uuid).trans (h.view uuid), by simp [honly], fun other hoth => ?_⟩
      rw [honly] at hoth hread
      obtain ⟨rfl, rfl⟩ : i = 0 ∧ only = reader := by cases i <;> simp_all
      rwa [List.mem_singleton.mp hoth]

theorem Installs.Ok.handlePostHook (h : s.Ok) (uuid : String) (finish : α → Option α) (steps : Nat) :
    (s.step (.handlePostHook uuid finish steps)).Ok := by
  simp only [Installs.step]
  split
  · next empty =>
    have empty := isEmpty_iff.mp empty
    have hview : ∀ uuid, (Reader.steps steps (s.store.reader, s.store)).2.view uuid = s.expected uuid := fun uuid =>
      (congrFun (Reader.Ok.steps steps (ok_reader s.store)).2 uuid).trans (h.view uuid)
    split
    · split
      · exact .alone empty (view_save hview uuid _)
      · exact .alone empty hview
    · exact .alone empty hview
  · exact h

theorem Installs.Ok.deleteInstallation (h : s.Ok) (hcar : s.store.records.lookup uuid = none) :
    (s.step (.deleteInstallation uuid)).Ok := by
  simp only [Installs.step]
  split
  · next delete =>
    refine .alone (isEmpty_iff.mp (Bool.and_eq_true_iff.mp delete).1) fun other => ?_
    change ((s.store.dir.remove uuid).get? other).or (s.store.records.lookup other) = update s.expected uuid none other
    rw [get?_remove, update_apply]
    split
    · next heq =>
      subst heq
      exact hcar
    · exact h.view other
  · exact h

theorem Installs.Ok.step (h : s.Ok) {event} (hcar : s.Careful event) : (s.step event).Ok := by
  cases event with
  | start =>
    refine ⟨h.view, fun hsome => ?_, fun reader hread => ?_⟩
    · simp [Installs.step, hcar hsome]
    · obtain hread | hread := mem_append.mp hread
      · exact h.readers reader hread
      · exact mem_singleton.mp hread ▸ ok_reader s.store
  | release i =>
    refine ⟨h.view, fun hsome => ?_, fun reader hread => h.readers reader (mem_of_mem_eraseIdx hread)⟩
    exact Nat.le_trans (length_eraseIdx_le s.readers i) (h.single hsome)
  | advance i => exact h.advance i
  | newInstallation uuid a =>
    simp only [Installs.step]
    split
    · next empty => exact .alone (isEmpty_iff.mp empty) (view_save h.view uuid a)
    · exact h
  | handlePostHook uuid finish steps => exact h.handlePostHook uuid finish steps
  | deleteInstallation => exact h.deleteInstallation hcar

theorem Installs.Ok.run (h : s.Ok) {events} (hcar : s.CarefulRun events) : (events.foldl Installs.step s).Ok := by
  induction events generalizing s with
  | nil => exact h
  | cons _ _ ih => exact ih (h.step hcar.1) hcar.2

/-- **If no two calls are under way while the old file is there, and nothing is deleted that is in it, every call lists
exactly the installations that there should be.** -/
theorem installations_survive {events : List (InstallEvent α)}
    (hcareful : (⟨store, [], store.view⟩ : Installs α).CarefulRun events) :
    let s := events.foldl Installs.step ⟨store, [], store.view⟩
    ∀ reader ∈ s.readers, (∃ n answer, (Reader.steps n (reader, s.store)).1 = .listed answer) ∧
      ∀ answer, reader = .listed answer →
        (answer.map Prod.fst).Nodup ∧ ∀ uuid a, (uuid, a) ∈ answer ↔ s.expected uuid = some a := by
  intro s reader hread
  have h : s.Ok := Installs.Ok.run (.alone rfl fun _ => rfl) hcareful
  refine ⟨(h.readers reader hread).lists, ?_⟩
  rintro answer rfl
  obtain ⟨hnone, rfl⟩ := h.readers _ hread
  have hperm := mergeSort_perm s.store.dir.entries fun p q => p.1 ≤ q.1
  refine ⟨(hperm.map Prod.fst).nodup_iff.mpr s.store.dir.keys_nodup, fun uuid a => ?_⟩
  rw [hperm.mem_iff, ← mem_def, ← get?_eq_some, ← h.view]
  simp [Store.view, Store.records, hnone]

def halfMigrated : Store Nat := ⟨some (some [("a", 1), ("b", 2)]), OrderedMap.empty.insert "a" 3⟩

/-- One call ends the migration. Then an installation is added, one is deleted, and there are two calls at a time. -/
theorem list_after_migration :
    let s := [.start, .advance 0, .advance 0, .advance 0, .release 0, .newInstallation "c" 4, .deleteInstallation "a",
      .start, .start, .advance 1].foldl Installs.step ⟨halfMigrated, [], halfMigrated.view⟩
    s.readers = [.listing, .listed [("b", 2), ("c", 4)]] ∧
      ∀ uuid a, (uuid, a) ∈ [("b", 2), ("c", 4)] ↔ s.expected uuid = some a := by
  intro s
  have hsorted : [("b", 2), ("c", 4)].mergeSort (fun p q : String × Nat => p.1 ≤ q.1) = [("b", 2), ("c", 4)] :=
    mergeSort_of_pairwise (by decide)
  have hreaders : s.readers = [.listing, .listed [("b", 2), ("c", 4)]] := by
    rw [← hsorted]
    rfl
  refine ⟨hreaders, ((installations_survive ?_ _ (hreaders ▸ mem_cons_of_mem _ mem_cons_self)).2 _ rfl).2⟩
  exact ⟨fun _ => rfl, trivial, trivial, trivial, trivial, trivial, rfl, nofun, nofun, trivial, trivial⟩

/-- A migration was cut off before the old file was removed. A deleted installation comes back, and of two calls at the
same time one fails. -/
theorem deleted_installation_returns : let store : Store Nat := ⟨some (some [("a", 1)]), OrderedMap.empty.insert "a" 2⟩
    let deleted := [.deleteInstallation "a", .start, .advance 0, .advance 0, .advance 0].foldl Installs.step
      ⟨store, [], store.view⟩
    let together := [.start, .start, .advance 0, .advance 0, .advance 1, .advance 1].foldl Installs.step
      ⟨store, [], store.view⟩
    deleted.expected "a" = none ∧ deleted.readers = [.listed [("a", 1)]] ∧ together.readers = [.listing, .failed] := by
  decide +kernel

end Nexus.AutoInstaller
