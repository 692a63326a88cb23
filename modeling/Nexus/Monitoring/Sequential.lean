import Nexus.Lib.Effect
import Nexus.Monitoring.Requests

/-!
# One request for a device after another

`upsert_device`, `delete_device` and `delete_signoz_downtime` of `server/src/api/nexus/monitoring/mod.rs` as whole
requests: the first two take turns, and the third only deletes a window. A request leaves the other devices alone
exactly if what it finds under the slug bears the requested name (`upsertDevice_editsOnly_iff`). A device gets its
window, and gets rid of it, exactly if the recorded window exists (`heals_iff`).
-/

namespace Nexus.Monitoring

open Lib List

/-! ## SigNoz -/

/-- Carried out, failed before that, or the answer is lost. -/
inductive Reply
  | done
  | failed (err : String)
  | lost (err : String)

structure Signoz where
  newId : OrderedMap String String → String
  fresh : ∀ windows : OrderedMap String String, windows.get? (newId windows) = none
  (onCreate onDelete : Reply)
  notFound : String

namespace Signoz

variable (signoz : Signoz) (windows : OrderedMap String String)

def Normal : Prop := signoz.onCreate = .done ∧ signoz.onDelete = .done

def create (deviceId : String) : Except String String × OrderedMap String String :=
  match signoz.onCreate with
  | .done => (.ok (signoz.newId windows), windows.insert (signoz.newId windows) deviceId)
  | .failed err => (.error err, windows)
  | .lost err => (.error err, windows.insert (signoz.newId windows) deviceId)

def delete (id : String) : Except String Unit × OrderedMap String String :=
  match signoz.onDelete with
  | .done => if (windows.get? id).isSome then (.ok (), windows.remove id) else (.error signoz.notFound, windows)
  | .failed err => (.error err, windows)
  | .lost err => (.error err, windows.remove id)

end Signoz

/-! ## The requests -/

structure Records where
  file : Option Value
  windows : OrderedMap String String

def Records.inventory (s : Records) : Value := readInventory s.file

structure Edit where
  (name address kind : String)
  (site state : Option String)

def Edit.described (isIpAddress : String → Bool) (e : Edit) : Except String Device :=
  describedDevice isIpAddress e.name e.address e.kind e.site e.state

inductive Call
  | upsertDevice (edit : Edit)
  | deleteDevice (id : String)
  | deleteSignozDowntime (id : String)

section

variable (isIpAddress : String → Bool) (signoz : Signoz) (s : Records)

def settled (device : Device) : Option String × OrderedMap String String :=
  match recordedDowntime s.inventory device.id with
  | none =>
    if device.state = .maintenance then
      ((signoz.create s.windows device.id).1.toOption, (signoz.create s.windows device.id).2)
    else (none, s.windows)
  | some existing =>
    if device.state = .maintenance then (some existing, s.windows)
    else match signoz.delete s.windows existing with
      | (.ok _, windows) => (none, windows)
      -- the id is kept, so that the next update tries again
      | (.error _, windows) => (some existing, windows)

def upsert (device : Device) : Except String Unit × Records :=
  match storeUpsert s.inventory device (settled signoz s device).1 with
  | .error err => (.error err, { s with windows := (settled signoz s device).2 })
  | .ok inventory => (.ok (), ⟨some inventory, (settled signoz s device).2⟩)

def upsertDevice (edit : Edit) : Except String Unit × Records :=
  match edit.described isIpAddress with
  | .error err => (.error err, s)
  | .ok device => upsert signoz s device

def deleteDevice (id : String) : Except String Unit × Records :=
  match normalizeSlug id with
  | .error err => (.error err, s)
  | .ok id => match storeDelete s.inventory id with
    | .error err => (.error err, s)
    | .ok inventory =>
      -- whether the window can be deleted does not matter any more
      let windows := match recordedDowntime s.inventory id with
        | some downtimeId => (signoz.delete s.windows downtimeId).2
        | none => s.windows
      (.ok (), ⟨some inventory, windows⟩)

def deleteSignozDowntime (id : String) : Except String Unit × Records :=
  let id := Text.trim id
  if id = "" || id.utf8ByteSize > 128 || !id.toList.all (fun c => c.isAlphanum || c == '-') then
    (.error "invalid SigNoz planned-maintenance id", s)
  else ((signoz.delete s.windows id).1, { s with windows := (signoz.delete s.windows id).2 })

end

/-! ## Requests under the lock

The acts of `Requests` for one device, in a row, come to the same. -/

section

variable {ι : Type} [DecidableEq ι] {load : Workload ι} {t : State ι} {i : ι} {signoz : Signoz} {device : Device}

def Daemon.records (d : Daemon) : Records := ⟨d.file, d.downtimes⟩

def actsOf (i : ι) (signoz : Signoz) (s : Records) (device : Device) : List (Act ι) :=
  [.start i, .created i (signoz.create s.windows device.id).1,
    .deleted i ((recordedDowntime s.inventory device.id).elim (.ok ()) fun x => (signoz.delete s.windows x).1)]

/-- No answer is lost. -/
def Signoz.Answers (signoz : Signoz) : Prop := (∀ err, signoz.onCreate ≠ .lost err) ∧ ∀ err, signoz.onDelete ≠ .lost err

theorem answered_of_actsOf (hsta : step load t (.start i) =
      { t.enter i (settleDowntime t.daemon.inventory device) with lock := some i }) (answers : signoz.Answers) :
    ((actsOf i signoz t.daemon.records device).foldl (step load) t).phase i =
        .answered device (settled signoz t.daemon.records device).1 ∧
      ((actsOf i signoz t.daemon.records device).foldl (step load) t).daemon.records =
        ⟨t.daemon.file, (settled signoz t.daemon.records device).2⟩ := by
  have hinv : t.daemon.records.inventory = t.daemon.inventory := rfl
  have windows : t.daemon.records.windows = t.daemon.downtimes := rfl
  simp only [actsOf, foldl_cons, foldl_nil, hsta, settled, settleDowntime, hinv, windows]
  cases hrec : recordedDowntime t.daemon.inventory device.id with
  | none =>
    by_cases hst : device.state = .maintenance
    · cases hon : signoz.onCreate with
      | lost err => exact absurd hon (answers.1 err)
      | done =>
        simp [hst, Signoz.create, hon, step, State.enter, Daemon.records, Except.toOption,
          signoz.fresh t.daemon.downtimes]
      | failed => simp [hst, Signoz.create, hon, step, State.enter, Daemon.records, Except.toOption]
    · simp [hst, step, State.enter, Daemon.records]
  | some x =>
    by_cases hst : device.state = .maintenance
    · simp [hst, step, State.enter, Daemon.records]
    · cases hon : signoz.onDelete with
      | lost err => exact absurd hon (answers.2 err)
      | failed => simp [hst, Signoz.delete, hon, step, State.enter, Daemon.records]
      | done =>
        by_cases known : (t.daemon.downtimes.get? x).isSome
        · simp [hst, Signoz.delete, hon, known, step, State.enter, Daemon.records]
        · simp [hst, Signoz.delete, hon, known, step, State.enter, Daemon.records]

/-- **A request that no other comes in between leaves the same records.** -/
theorem records_of_actsOf {edit} (ready : t.phase i = .ready) (hfree : t.lock = none)
    (hreq : load.requests i = .upsertDevice edit.name edit.address edit.kind edit.site edit.state)
    (hdesc : edit.described load.isIpAddress = .ok device) (answers : signoz.Answers) :
    (step load ((actsOf i signoz t.daemon.records device).foldl (step load) t) (.store i)).daemon.records =
      (upsertDevice load.isIpAddress signoz t.daemon.records edit).2 := by
  have start : step load t (.start i) =
      { t.enter i (settleDowntime t.daemon.inventory device) with lock := some i } := by
    unfold Edit.described at hdesc
    simp [step, ready, hreq, hdesc, hfree]
  obtain ⟨hph, hrec⟩ := answered_of_actsOf start answers
  rw [upsertDevice, hdesc]
  generalize (actsOf i signoz t.daemon.records device).foldl (step load) t = u at hph hrec
  have hinv : u.daemon.inventory = t.daemon.records.inventory := congrArg Records.inventory hrec
  have windows : u.daemon.downtimes = (settled signoz t.daemon.records device).2 := congrArg Records.windows hrec
  have hfile : u.daemon.file = t.daemon.records.file := congrArg Records.file hrec
  simp only [step, hph, hinv, upsert]
  cases storeUpsert t.daemon.records.inventory device (settled signoz t.daemon.records device).1 with
  | error => simp only [State.finish, Daemon.records, hfile, windows]
  | ok => simp only [Daemon.records, windows]

end

/-! ## What the requests do to the devices -/

section

variable {isIpAddress : String → Bool} {signoz : Signoz} {s : Records} {device : Device} {entry d : Value} {id : String}
  {ds : List Value}

theorem replaceDevice_of_find?_eq_none : ∀ {ds}, ds.find? (deviceId · = some id) = none →
    replaceDevice id entry ds = ds ++ [entry]
  | [], _ => rfl
  | x :: ds, h => by
    rw [find?_cons] at h
    split at h
    · cases h
    · next hx =>
      rw [replaceDevice, if_neg (of_decide_eq_false hx), replaceDevice_of_find?_eq_none h]
      rfl

theorem replaceDevice_of_find?_eq_some (entry) : ∀ {ds}, ds.find? (deviceId · = some id) = some d →
    ∃ before after, ds = before ++ d :: after ∧ replaceDevice id entry ds = before ++ entry :: after
  | [], h => by cases h
  | x :: ds, h => by
    rw [find?_cons] at h
    split at h
    · next hx =>
      cases h
      exact ⟨[], ds, rfl, by rw [replaceDevice, if_pos (of_decide_eq_true hx)]; rfl⟩
    · next hx =>
      obtain ⟨before, after, hds, replace⟩ := replaceDevice_of_find?_eq_some entry h
      refine ⟨x :: before, after, by rw [hds]; rfl, ?_⟩
      rw [replaceDevice, if_neg (of_decide_eq_false hx), replace]
      rfl

theorem name_deviceEntry {dt} : textOf (deviceEntry device dt) "name" = some device.name := by
  cases dt <;> rfl

def othersThan (name : String) (ds : List Value) : List Value := ds.filter (textOf · "name" ≠ some name)

theorem othersThan_replaceDevice (dt) :
    (othersThan device.name (replaceDevice device.id (deviceEntry device dt) ds)).Perm (othersThan device.name ds) ↔
      ∀ d, ds.find? (deviceId · = some device.id) = some d → textOf d "name" = some device.name := by
  have entry : othersThan device.name [deviceEntry device dt] = [] := by simp [othersThan, name_deviceEntry]
  cases hfind : ds.find? (deviceId · = some device.id) with
  | none =>
    rw [replaceDevice_of_find?_eq_none hfind]
    refine iff_of_true ?_ nofun
    rw [othersThan, filter_append, ← othersThan, ← othersThan, entry, append_nil]
  | some d =>
    obtain ⟨before, after, rfl, replace⟩ := replaceDevice_of_find?_eq_some (deviceEntry device dt) hfind
    rw [replace]
    by_cases hname : textOf d "name" = some device.name
    · refine iff_of_true ?_ fun d' hd' => by cases hd'; exact hname
      simp [othersThan, name_deviceEntry, hname]
    · refine iff_of_false (fun hperm => ?_) fun h => hname (h d rfl)
      have hlen := hperm.length_eq
      simp [othersThan, name_deviceEntry, hname] at hlen

theorem name_of_described {edit : Edit} (h : edit.described isIpAddress = .ok device) :
    device.name = Text.trim edit.name := by
  have trimmed : ∀ {name}, normalizeName edit.name = .ok name → name = Text.trim edit.name := by
    intro name hname
    simp only [normalizeName] at hname
    split at hname
    · cases hname
    · split at hname
      · cases hname
      · exact (Except.ok.inj hname).symm
  unfold Edit.described describedDevice at h
  obtain ⟨name, hname, h⟩ := bind_eq_ok.mp h
  obtain ⟨address, -, h⟩ := bind_eq_ok.mp h
  obtain ⟨kind, -, h⟩ := bind_eq_ok.mp h
  obtain ⟨site, -, h⟩ := bind_eq_ok.mp h
  obtain ⟨state, -, h⟩ := bind_eq_ok.mp h
  obtain ⟨id, -, h⟩ := bind_eq_ok.mp h
  cases h
  exact trimmed hname

@[simp] theorem windows_upsert : (upsert signoz s device).2.windows = (settled signoz s device).2 := by
  unfold upsert
  split <;> rfl

theorem inventory_upsert_of_none (h : devicesOf s.inventory = none) :
    (upsert signoz s device).2.inventory = s.inventory := by
  unfold upsert storeUpsert
  rw [h]
  rfl

theorem devices_upsert (h : devicesOf s.inventory = some ds) : devices (upsert signoz s device).2.inventory =
    sortByName (replaceDevice device.id (deviceEntry device (settled signoz s device).1) ds) := by
  have store : ∀ dt, storeUpsert s.inventory device dt = .ok (s.inventory.update "devices" (·.mapItems fun ds =>
      sortByName (replaceDevice device.id (deviceEntry device dt) ds))) := fun dt => by rw [storeUpsert, h]
  rw [upsert, store]
  refine (congrArg (·.getD []) (devicesOf_update _)).trans ?_
  rw [h]
  rfl

theorem mem_settled_of_none (h : recordedDowntime s.inventory device.id = none) {w}
    (hw : w ∈ s.windows) : w ∈ (settled signoz s device).2 := by
  have insert : w ∈ s.windows.insert (signoz.newId s.windows) device.id := by
    refine OrderedMap.mem_insert.mpr (.inr ⟨?_, hw⟩)
    rintro heq
    have hnone := signoz.fresh s.windows
    rw [← heq, OrderedMap.get?_eq_some.mpr hw] at hnone
    cases hnone
  unfold settled Signoz.create
  rw [h]
  simp only
  split
  · cases signoz.onCreate with
    | done => exact insert
    | failed => exact hw
    | lost => exact insert
  · exact hw

end

/-! ## Other devices -/

/-- Devices with other names stay as they are. -/
structure EditsOnly (name : String) (s t : Records) : Prop where
  others : (othersThan name (devices t.inventory)).Perm (othersThan name (devices s.inventory))
  added : (∀ d ∈ devices s.inventory, textOf d "name" ≠ some name) →
    (devices s.inventory).Subperm (devices t.inventory) ∧ ∀ w ∈ s.windows, w ∈ t.windows

/-- **A request edits only the device of the requested name exactly if the one that is found under the slug, if any, has
this name.** -/
theorem upsertDevice_editsOnly_iff (isIpAddress : String → Bool) (signoz : Signoz) (s : Records) (edit : Edit) :
    EditsOnly (Text.trim edit.name) s (upsertDevice isIpAddress signoz s edit).2 ↔
      ∀ device, edit.described isIpAddress = .ok device → ∀ d, findDevice s.inventory device.id = some d →
        textOf d "name" = some (Text.trim edit.name) := by
  unfold upsertDevice
  cases hdesc : edit.described isIpAddress with
  | error err => exact iff_of_true ⟨.refl _, fun _ => ⟨.refl _, fun _ hw => hw⟩⟩ nofun
  | ok device =>
    rw [← name_of_described hdesc]
    simp only [Except.ok.injEq, forall_eq']
    cases hds : devicesOf s.inventory with
    | none =>
      -- the request fails, and at most a window has been created
      have hfind : findDevice s.inventory device.id = none := by rw [findDevice, hds]; rfl
      refine iff_of_true ?_ fun d hd => by cases hfind.symm.trans hd
      refine ⟨by rw [inventory_upsert_of_none hds], fun _ => ⟨by rw [inventory_upsert_of_none hds], fun w hw => ?_⟩⟩
      rw [windows_upsert]
      exact mem_settled_of_none (by rw [recordedDowntime, hfind]; rfl) hw
    | some ds =>
      have hsame : devices s.inventory = ds := by rw [devices, hds]; rfl
      have hfind : findDevice s.inventory device.id = ds.find? (deviceId · = some device.id) := by
        rw [findDevice, hds]; rfl
      have hsort := (perm_insertionSort (fun left right => (textOf left "name").getD "" ≤ (textOf right "name").getD "")
        (replaceDevice device.id (deviceEntry device (settled signoz s device).1) ds))
      rw [hfind, ← othersThan_replaceDevice (settled signoz s device).1]
      constructor
      · intro h
        have other := h.others
        rw [devices_upsert hds, hsame] at other
        exact (hsort.filter _).symm.trans other
      · intro h
        refine ⟨?_, fun hnew => ?_⟩
        · rw [devices_upsert hds, hsame]
          exact (hsort.filter _).trans h
        · -- with a new name, nothing is found under the slug
          have hnone : ds.find? (deviceId · = some device.id) = none := by
            cases hd : ds.find? (deviceId · = some device.id) with
            | none => rfl
            | some d =>
              have hname := (othersThan_replaceDevice _).mp h d hd
              exact absurd hname (hnew d (hsame ▸ mem_of_find?_eq_some hd))
          refine ⟨?_, fun w hw => ?_⟩
          · rw [devices_upsert hds, hsame]
            refine List.Subperm.trans ?_ hsort.symm.subperm
            rw [replaceDevice_of_find?_eq_none hnone]
            exact (sublist_append_left ds _).subperm
          · rw [windows_upsert]
            exact mem_settled_of_none (by rw [recordedDowntime, hfind, hnone]; rfl) hw

namespace Sample

def newId (windows : OrderedMap String String) : String := String.ofList ('d' :: windows.entries.flatMap (·.1.toList))

theorem newId_fresh (windows : OrderedMap String String) : windows.get? (newId windows) = none := by
  cases hget : windows.get? (newId windows) with
  | none => rfl
  | some =>
    obtain ⟨before, after, parts⟩ := append_of_mem (OrderedMap.get?_eq_some.mp hget)
    have hshort : (newId windows).toList.length ≤ (windows.entries.flatMap (·.1.toList)).length := by
      simp only [parts, flatMap_append, flatMap_cons, length_append]
      omega
    simp only [newId, String.toList_ofList, length_cons] at hshort
    omega

def signoz : Signoz := ⟨newId, newId_fresh, .done, .done, "SigNoz API returned 404 Not Found"⟩

def television : Records where
  file := some (.object [("devices", .array
    [deviceEntry ⟨"tv-01", "TV 01", "192.168.0.10", "tv", "home", .maintenance⟩ (some "dt-1")])])
  windows := OrderedMap.empty.insert "dt-1" "tv-01"

def camera : Edit := ⟨"tv-01", "192.168.0.20", "camera", none, none⟩

end Sample

open Sample

/-- `tv-01` takes the place of `TV 01`, whose window is deleted. -/
theorem other_name_replaced : (devices television.inventory).map (textOf · "name") = [some "TV 01"] ∧
    (devices (upsertDevice (fun _ => true) signoz television camera).2.inventory).map
      (textOf · "name") = [some "tv-01"] ∧
    (upsertDevice (fun _ => true) signoz television camera).2.windows.entries = [] ∧ ¬ EditsOnly "tv-01" television
      (upsertDevice (fun _ => true) signoz television camera).2 := by
  refine ⟨by decide, by decide, by decide, fun h => ?_⟩
  have hlen := h.others.length_eq
  revert hlen
  decide

/-! ## The window of a device -/

section

variable {isIpAddress : String → Bool} {signoz : Signoz} {s : Records} {device : Device}

/-- The devices are a list with distinct ids. -/
structure Usable (s : Records) : Prop where
  array : devicesOf s.inventory ≠ none
  distinct : DistinctIds (devices s.inventory)

section

variable (h : Usable s)

include h

theorem upsert_of_usable (signoz) (device) : Usable (upsert signoz s device).2 ∧
    recordedDowntime (upsert signoz s device).2.inventory device.id = (settled signoz s device).1 := by
  obtain ⟨inventory, store⟩ := exists_storeUpsert h.array device (settled signoz s device).1
  obtain ⟨harray, hdist, hmem⟩ := devices_storeUpsert h.distinct store
  rw [upsert, store]
  refine ⟨⟨harray, hdist⟩, ?_⟩
  ext x
  refine (recordedDowntime_eq_some hdist).trans ?_
  constructor
  · rintro ⟨d, hd, hid, hx⟩
    rcases (hmem d).mp hd with rfl | ⟨-, hne⟩
    · rwa [downtimeId_deviceEntry] at hx
    · exact absurd hid hne
  · intro hx
    exact ⟨_, (hmem _).mpr (.inl rfl), deviceId_deviceEntry, by rw [downtimeId_deviceEntry, hx]⟩

theorem usable_upsertDevice (edit) : Usable (upsertDevice isIpAddress signoz s edit).2 := by
  unfold upsertDevice
  split
  · exact h
  · exact (upsert_of_usable h signoz _).1

theorem usable_deleteDevice (id) : Usable (deleteDevice signoz s id).2 := by
  unfold deleteDevice
  split
  · exact h
  · split
    · exact h
    · next store =>
      obtain ⟨harray, hdist, -⟩ := devices_storeDelete h.distinct store
      exact ⟨harray, hdist⟩

theorem usable_deleteSignozDowntime (id) : Usable (deleteSignozDowntime signoz s id).2 := by
  simp only [deleteSignozDowntime]
  split
  · exact h
  · exact ⟨h.array, h.distinct⟩

def serve (isIpAddress : String → Bool) (s : Records) (c : Signoz × Call) : Records :=
  match c.2 with
  | .upsertDevice edit => (upsertDevice isIpAddress c.1 s edit).2
  | .deleteDevice id => (deleteDevice c.1 s id).2
  | .deleteSignozDowntime id => (deleteSignozDowntime c.1 s id).2

theorem usable_serve (c) : Usable (serve isIpAddress s c) := by
  obtain ⟨signoz, call⟩ := c
  cases call with
  | upsertDevice edit => exact usable_upsertDevice h edit
  | deleteDevice id => exact usable_deleteDevice h id
  | deleteSignozDowntime id => exact usable_deleteSignozDowntime h id

theorem usable_run (calls : List (Signoz × Call)) : Usable (calls.foldl (serve isIpAddress) s) :=
  List.foldlRecOn (motive := Usable) calls _ h fun _ hs c _ => usable_serve hs c

end

def Covered (s : Records) (id : String) : Prop :=
  ∃ x, recordedDowntime s.inventory id = some x ∧ (s.windows.get? x).isSome

/-- The device has the id of a downtime that is gone. -/
def Dangling (s : Records) (id : String) : Prop :=
  ∃ x, recordedDowntime s.inventory id = some x ∧ s.windows.get? x = none

def again (isIpAddress : String → Bool) (signoz : Nat → Signoz) (edit : Edit) (s : Records) : Nat → Records
  | 0 => s
  | n + 1 => (upsertDevice isIpAddress (signoz n) (again isIpAddress signoz edit s n) edit).2

theorem settled_of_dangling (hnorm : signoz.Normal) {x}
    (hrec : recordedDowntime s.inventory device.id = some x) (hmiss : s.windows.get? x = none) :
    settled signoz s device = (some x, s.windows) := by
  unfold settled
  rw [hrec]
  simp only
  split
  · rfl
  · simp [Signoz.delete, hnorm.2, hmiss]

theorem dangling_upsert (h : Usable s) (hnorm : signoz.Normal) (dangling : Dangling s device.id) :
    Dangling (upsert signoz s device).2 device.id := by
  obtain ⟨x, hrec, hmiss⟩ := dangling
  have settled := settled_of_dangling hnorm hrec hmiss
  refine ⟨x, ?_, ?_⟩
  · rw [(upsert_of_usable h signoz device).2, settled]
  · rw [windows_upsert, settled]
    exact hmiss

theorem dangling_again {edit signoz} (hdesc : edit.described isIpAddress = .ok device)
    (hnorm : ∀ n, (signoz n).Normal) (h : Usable s) (dangling : Dangling s device.id) : ∀ n,
    Usable (again isIpAddress signoz edit s n) ∧ Dangling (again isIpAddress signoz edit s n) device.id
  | 0 => ⟨h, dangling⟩
  | n + 1 => by
    obtain ⟨usable, hstill⟩ := dangling_again hdesc hnorm h dangling n
    rw [again, upsertDevice, hdesc]
    exact ⟨(upsert_of_usable usable (signoz n) device).1, dangling_upsert usable (hnorm n) hstill⟩

theorem window_of_not_dangling {id x} (hok : ¬ Dangling s id) (hrec : recordedDowntime s.inventory id = some x) :
    (s.windows.get? x).isSome := by
  rw [Option.isSome_iff_ne_none]
  exact fun hmiss => hok ⟨x, hrec, hmiss⟩

theorem covered_upsert (h : Usable s) (hnorm : signoz.Normal) (hst : device.state = .maintenance)
    (hok : ¬ Dangling s device.id) : Covered (upsert signoz s device).2 device.id := by
  unfold Covered
  rw [(upsert_of_usable h signoz device).2, windows_upsert]
  cases hrec : recordedDowntime s.inventory device.id with
  | none =>
    refine ⟨signoz.newId s.windows, ?_, ?_⟩
    · simp [settled, hrec, hst, Signoz.create, hnorm.1, Except.toOption]
    · simp [settled, hrec, hst, Signoz.create, hnorm.1, OrderedMap.get?_insert]
  | some x =>
    have known := window_of_not_dangling hok hrec
    exact ⟨x, by simp [settled, hrec, hst], by simpa [settled, hrec, hst] using known⟩

theorem recordedDowntime_upsert_eq_none (h : Usable s) (hnorm : signoz.Normal) (hst : device.state ≠ .maintenance)
    (hok : ¬ Dangling s device.id) : recordedDowntime (upsert signoz s device).2.inventory device.id = none := by
  rw [(upsert_of_usable h signoz device).2]
  cases hrec : recordedDowntime s.inventory device.id with
  | none => simp [settled, hrec, hst]
  | some =>
    have known := window_of_not_dangling hok hrec
    simp [settled, hrec, hst, Signoz.delete, hnorm.2, known]

end

/-- Requests for maintenance get a window, and those that enable lose it. -/
def Heals (isIpAddress : String → Bool) (signoz : Nat → Signoz) (maintain enable : Edit) (s : Records) (id : String) :
    Prop :=
  ∃ k, Covered (again isIpAddress signoz maintain s k) id ∧
    recordedDowntime (again isIpAddress signoz enable s k).inventory id = none

theorem not_heals_of_dangling {isIpAddress signoz maintain enable s device}
    (hmain : maintain.described isIpAddress = .ok device) (hnorm : ∀ n, (signoz n).Normal)
    (h : Usable s) (dangling : Dangling s device.id) : ¬ Heals isIpAddress signoz maintain enable s device.id := by
  rintro ⟨k, ⟨x, hrec, known⟩, -⟩
  obtain ⟨-, y, hstill, hmiss⟩ := dangling_again hmain hnorm h dangling k
  cases hrec.symm.trans hstill
  rw [hmiss] at known
  cases known

/-- **After any requests, and with SigNoz back to normal, a device heals exactly if the window that is recorded for it,
if any, exists.** -/
theorem heals_iff (isIpAddress : String → Bool) (start : Records) (hstart : Usable start)
    (calls : List (Signoz × Call)) (maintain enable : Edit) (device device' : Device)
    (hmaintain : maintain.described isIpAddress = .ok device) (hin : device.state = .maintenance)
    (henable : enable.described isIpAddress = .ok device') (hout : device'.state = .enabled)
    (hid : device'.id = device.id) (signoz : Nat → Signoz) (hnormal : ∀ n, (signoz n).Normal) :
    Heals isIpAddress signoz maintain enable (calls.foldl (serve isIpAddress) start) device.id ↔
      ¬ Dangling (calls.foldl (serve isIpAddress) start) device.id := by
  have usable : Usable (calls.foldl (serve isIpAddress) start) := usable_run hstart calls
  generalize calls.foldl (serve isIpAddress) start = s at usable
  constructor
  · exact fun hheals dangling => not_heals_of_dangling hmaintain hnormal usable dangling hheals
  · intro hok
    refine ⟨1, ?_, ?_⟩
    · simp only [again, upsertDevice, hmaintain]
      exact covered_upsert usable (hnormal 0) hin hok
    · simp only [again, upsertDevice, henable, ← hid]
      exact recordedDowntime_upsert_eq_none usable (hnormal 0) (by rw [hout]; exact nofun) (hid ▸ hok)

namespace Sample

def nothing : Records := ⟨none, .empty⟩

theorem usable_nothing : Usable nothing := ⟨nofun, List.Pairwise.nil⟩

def withState (state : String) : Edit := ⟨"TV", "192.168.0.6", "tv", none, some state⟩

def maintained : List (Signoz × Call) := [(signoz, .upsertDevice (withState "maintenance"))]

def withdrawn : List (Signoz × Call) := maintained ++ [(signoz, .deleteSignozDowntime "d")]

end Sample

theorem records_of_actsOf_maintained :
    let load : Workload Unit := ⟨fun _ => .upsertDevice "TV" "192.168.0.6" "tv" none (some "maintenance"),
      fun _ => true⟩
    let acts := actsOf () signoz nothing ⟨"tv", "TV", "192.168.0.6", "tv", "home", .maintenance⟩
    (step load (acts.foldl (step load) (.start ⟨none, .empty, fun _ => false, none, none, []⟩))
      (.store ())).daemon.records =
      (upsertDevice (fun _ => true) signoz nothing (withState "maintenance")).2 :=
  records_of_actsOf rfl rfl rfl (by decide) ⟨fun _ h => (by cases h), fun _ h => (by cases h)⟩

theorem heals_maintained : Heals (fun _ => true) (fun _ => signoz) (withState "maintenance")
    (withState "enabled") (maintained.foldl (serve fun _ => true) nothing) "tv" := by
  refine (heals_iff (fun _ => true) nothing usable_nothing maintained
    (withState "maintenance") (withState "enabled") ⟨"tv", "TV", "192.168.0.6", "tv", "home", .maintenance⟩
    ⟨"tv", "TV", "192.168.0.6", "tv", "home", .enabled⟩ (by decide) rfl (by decide) rfl rfl
    (fun _ => signoz) fun _ => ⟨rfl, rfl⟩).mpr ?_
  rintro ⟨x, hrec, hmiss⟩
  have hd : recordedDowntime (maintained.foldl (serve fun _ => true) nothing).inventory "tv" =
      some "d" := by decide
  cases hd.symm.trans hrec
  revert hmiss
  decide

/-- A device whose window is deleted with `delete_signoz_downtime` never gets another one, and never gets rid of the
record. -/
theorem withdrawn_never_heals : ¬ Heals (fun _ => true) (fun _ => signoz) (withState "maintenance")
    (withState "enabled") (withdrawn.foldl (serve fun _ => true) nothing) "tv" := by
  have hdesc : (withState "maintenance").described (fun _ => true) =
      .ok ⟨"tv", "TV", "192.168.0.6", "tv", "home", .maintenance⟩ := by decide
  have hnorm : ∀ _ : Nat, signoz.Normal := fun _ => ⟨rfl, rfl⟩
  exact not_heals_of_dangling hdesc hnorm (usable_run usable_nothing withdrawn)
    ⟨"d", by decide, by decide⟩

end Nexus.Monitoring
