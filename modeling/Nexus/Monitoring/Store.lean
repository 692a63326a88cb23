import Mathlib.Data.List.Pairwise
import Mathlib.Data.List.Sort
import Nexus.Lib.JsonValue
import Nexus.Lib.Text

/-!
# The inventory of monitored devices

The inventory of `server/src/api/nexus/monitoring/store.rs`, and the collector configuration that `collector.rs` renders
from it. In an inventory where no id occurs twice, `devices_storeUpsert` and `devices_storeDelete` say which entries
there are after a request.
-/

namespace Nexus.Monitoring

open Lib List

/-! ## Input -/

inductive DeviceState
  | enabled | maintenance | disabled
  deriving DecidableEq

def DeviceState.text : DeviceState → String
  | enabled => "enabled"
  | maintenance => "maintenance"
  | disabled => "disabled"

structure Device where
  (id name address kind site : String)
  state : DeviceState
  deriving DecidableEq

def isControl (c : Char) : Bool := c.toNat < 0x20 || (0x7F ≤ c.toNat && c.toNat ≤ 0x9F)

def normalizeName (input : String) : Except String String :=
  let name := Text.trim input
  if name = "" || name.utf8ByteSize > 80 then .error "device name must contain between 1 and 80 characters"
  else if name.toList.any isControl then .error "device name contains invalid control characters"
  else .ok name

def slugStep (acc : List Char × Bool) (c : Char) : List Char × Bool :=
  if c.isAlphanum then (acc.1 ++ [c], false)
  else if !acc.2 && acc.1 ≠ [] then (acc.1 ++ ['-'], true)
  else acc

def normalizeSlug (input : String) : Except String String :=
  let output := Text.trimEndBy (· = '-')
    (String.ofList ((Text.toAsciiLowercase (Text.trim input)).toList.foldl slugStep ([], false)).1)
  if output = "" || output.utf8ByteSize > 64 then .error "device name cannot be converted to a valid device id"
  else .ok output

def normalizeSimpleLabel (input field : String) : Except String String :=
  let value := Text.toAsciiLowercase (Text.trim input)
  if value = "" || value.utf8ByteSize > 64 then .error (field ++ " must contain between 1 and 64 characters")
  else if value.toList.all (fun c => c.isAlphanum || c == '-' || c == '_') then .ok value
  else .error (field ++ " contains invalid characters")

def isHostLabel (label : List Char) : Bool :=
  label ≠ [] && label.length ≤ 63 && label.head?.any Char.isAlphanum && label.getLast?.any Char.isAlphanum &&
    label.all (fun c => c.isAlphanum || c == '-')

def normalizeAddress (isIpAddress : String → Bool) (input : String) : Except String String :=
  let address := Text.toAsciiLowercase (Text.trimEndBy (· = '.') (Text.trim input))
  if isIpAddress address then .ok address
  else if address = "" || address.utf8ByteSize > 253 || (address.toList.splitOn '.').any (!isHostLabel ·) then
    .error "invalid device IP address or hostname"
  else .ok address

def normalizeState (input : String) : Except String DeviceState :=
  let state := Text.toAsciiLowercase (Text.trim input)
  if state = "enabled" then .ok .enabled
  else if state = "maintenance" then .ok .maintenance
  else if state = "disabled" then .ok .disabled
  else .error "state must be enabled, maintenance or disabled"

def describedDevice (isIpAddress : String → Bool) (name address kind : String) (site state : Option String) :
    Except String Device := do
  let name ← normalizeName name
  let address ← normalizeAddress isIpAddress address
  let kind ← normalizeSimpleLabel kind "device kind"
  let site ← normalizeSimpleLabel (site.getD "home") "site"
  let state ← normalizeState (state.getD "enabled")
  let id ← normalizeSlug name
  return ⟨id, name, address, kind, site, state⟩

/-! ## The inventory -/

def defaultSignozUrl : String := "http://192.168.0.47:8080"

def defaultOtlpEndpoint : String := "192.168.0.47:4317"

def defaultInventory : Value :=
  .object [("version", .number (.unsigned 1)), ("signoz", .object [("url", .string defaultSignozUrl)]),
    ("probe", .object [("otlp_endpoint", .string defaultOtlpEndpoint), ("collection_interval", .string "30s")]),
    ("devices", .array [])]

def readInventory (file : Option Value) : Value := file.getD defaultInventory

def textOf (v : Value) (key : String) : Option String := (v.get key).bind Value.asStr

def devicesOf (inventory : Value) : Option (List Value) := (inventory.get "devices").bind Value.asArray

def devices (inventory : Value) : List Value := (devicesOf inventory).getD []

def deviceId (device : Value) : Option String := textOf device "id"

def downtimeId (device : Value) : Option String := textOf device "signoz_downtime_id"

variable (inventory : Value)

def findDevice (id : String) : Option Value :=
  (devicesOf inventory).bind fun ds => ds.find? (deviceId · = some id)

def recordedDowntime (id : String) : Option String := (findDevice inventory id).bind downtimeId

def deviceEntry (device : Device) (signozDowntimeId : Option String) : Value :=
  let entry := Value.object [("id", .string device.id), ("name", .string device.name),
    ("address", .string device.address), ("kind", .string device.kind), ("site", .string device.site),
    ("profile", .string "icmp"), ("state", .string device.state.text)]
  match signozDowntimeId with
  | some downtimeId => entry.set "signoz_downtime_id" (.string downtimeId)
  | none => entry

def replaceDevice (id : String) (entry : Value) : List Value → List Value
  | [] => [entry]
  | d :: ds => if deviceId d = some id then entry :: ds else d :: replaceDevice id entry ds

def sortByName (ds : List Value) : List Value :=
  ds.insertionSort fun left right => (textOf left "name").getD "" ≤ (textOf right "name").getD ""

def storeUpsert (device : Device) (signozDowntimeId : Option String) : Except String Value :=
  match devicesOf inventory with
  | none => .error "monitoring inventory is missing a devices array"
  | some _ => .ok (inventory.update "devices" (·.mapItems fun ds =>
      sortByName (replaceDevice device.id (deviceEntry device signozDowntimeId) ds)))

def storeDelete (id : String) : Except String Value :=
  match devicesOf inventory with
  | none => .error "monitoring inventory is missing a devices array"
  | some ds =>
    if (ds.filter (deviceId · ≠ some id)).length = ds.length then
      .error ("monitoring device '" ++ id ++ "' was not found")
    else .ok (inventory.update "devices" (·.mapItems (·.filter (deviceId · ≠ some id))))

def enabledDevices (inventory : Value) : List Value := (devices inventory).filter (textOf · "state" = some "enabled")

/-! ## What the store does to the devices -/

variable {inventory inventory' d entry : Value} {device : Device} {id : String} {dt : Option String} {ds : List Value}

@[simp] theorem deviceId_deviceEntry : deviceId (deviceEntry device dt) = some device.id := by
  cases dt <;> rfl

@[simp] theorem downtimeId_deviceEntry : downtimeId (deviceEntry device dt) = dt := by
  cases dt <;> rfl

@[simp] theorem state_deviceEntry : textOf (deviceEntry device dt) "state" = some device.state.text := by
  cases dt <;> rfl

theorem devicesOf_update (f) : devicesOf (inventory.update "devices" (·.mapItems f)) = (devicesOf inventory).map f := by
  unfold devicesOf
  rw [Value.get_update_self]
  cases inventory.get "devices" with
  | none => rfl
  | some v => cases v <;> rfl

def Apart (a b : Value) : Prop := ∀ id, deviceId a = some id → deviceId b ≠ some id

instance : Std.Symm Apart := ⟨fun _ _ h id hb ha => h id ha hb⟩

def DistinctIds (ds : List Value) : Prop := ds.Pairwise Apart

theorem DistinctIds.eq_of_mem (h : DistinctIds ds) {d'} (hd : d ∈ ds) (hd' : d' ∈ ds)
    (hid : deviceId d = some id) (hid' : deviceId d' = some id) : d = d' := by
  by_contra hne
  exact h.forall hd hd' hne id hid hid'

theorem DistinctIds.countP_le_one (h : DistinctIds ds) {p} (id)
    (hp : ∀ d ∈ ds, p d → deviceId d = some id) : ds.countP p ≤ 1 := by
  have hpass : ∀ d ∈ ds.filter p, deviceId d = some id := fun d hd =>
    hp d (mem_filter.mp hd).1 (mem_filter.mp hd).2
  have hdist : (ds.filter p).Pairwise Apart := h.sublist filter_sublist
  rw [countP_eq_length_filter]
  generalize ds.filter p = kept at hpass hdist
  match kept, hpass, hdist with
  | [], _, _ => exact Nat.zero_le 1
  | [_], _, _ => exact Nat.le_refl 1
  | a :: b :: rest, hpass, hdist =>
    have hab := rel_of_pairwise_cons hdist mem_cons_self
    exact absurd (hpass b (mem_cons_of_mem a mem_cons_self)) (hab id (hpass a mem_cons_self))

theorem mem_replaceDevice : ∀ {ds}, DistinctIds ds →
    (d ∈ replaceDevice id entry ds ↔ d = entry ∨ (d ∈ ds ∧ deviceId d ≠ some id))
  | [], _ => by simp [replaceDevice]
  | x :: ds, h => by
    obtain ⟨hx, hrest⟩ := pairwise_cons.mp h
    unfold replaceDevice
    split
    · next hid =>
      rw [mem_cons, mem_cons]
      refine or_congr_right ⟨fun hd => ⟨.inr hd, hx d hd id hid⟩, ?_⟩
      rintro ⟨rfl | hd, hne⟩
      · exact absurd hid hne
      · exact hd
    · next hid =>
      rw [mem_cons, mem_replaceDevice hrest, mem_cons]
      constructor
      · rintro (rfl | rfl | ⟨hd, hne⟩)
        · exact .inr ⟨.inl rfl, hid⟩
        · exact .inl rfl
        · exact .inr ⟨.inr hd, hne⟩
      · rintro (rfl | ⟨rfl | hd, hne⟩)
        · exact .inr (.inl rfl)
        · exact .inl rfl
        · exact .inr (.inr ⟨hd, hne⟩)

theorem distinct_replaceDevice (hent : deviceId entry = some id) : ∀ {ds}, DistinctIds ds →
    DistinctIds (replaceDevice id entry ds)
  | [], _ => pairwise_singleton _ _
  | x :: ds, h => by
    obtain ⟨hx, hrest⟩ := pairwise_cons.mp h
    unfold replaceDevice
    split
    · next hid =>
      refine pairwise_cons.mpr ⟨fun d hd id' hid' => ?_, hrest⟩
      rw [hent, ← hid] at hid'
      exact hx d hd id' hid'
    · next hid =>
      refine pairwise_cons.mpr ⟨fun d hd id' hid' => ?_, distinct_replaceDevice hent hrest⟩
      rcases (mem_replaceDevice hrest).mp hd with rfl | ⟨hd, -⟩
      · rintro hsame
        rw [hent] at hsame
        exact hid (hid'.trans hsame.symm)
      · exact hx d hd id' hid'

section

variable (h : DistinctIds (devices inventory))

include h

theorem devices_storeUpsert (hok : storeUpsert inventory device dt = .ok inventory') :
    devicesOf inventory' ≠ none ∧ DistinctIds (devices inventory') ∧
      ∀ d, d ∈ devices inventory' ↔ d = deviceEntry device dt ∨
        (d ∈ devices inventory ∧ deviceId d ≠ some device.id) := by
  unfold storeUpsert at hok
  unfold devices at h ⊢
  cases hds : devicesOf inventory with
  | none => rw [hds] at hok; cases hok
  | some =>
    rw [hds] at hok h
    cases hok
    rw [devicesOf_update, hds]
    refine ⟨nofun, ?_, fun d => ?_⟩
    · exact (perm_insertionSort _ _).pairwise_iff (symm_of Apart) |>.mpr
        (distinct_replaceDevice deviceId_deviceEntry h)
    · exact (mem_insertionSort _).trans (mem_replaceDevice h)

theorem devices_storeDelete (hok : storeDelete inventory id = .ok inventory') :
    devicesOf inventory' ≠ none ∧ DistinctIds (devices inventory') ∧
      ∀ d, d ∈ devices inventory' ↔ d ∈ devices inventory ∧ deviceId d ≠ some id := by
  unfold storeDelete at hok
  unfold devices at h ⊢
  cases hds : devicesOf inventory with
  | none => rw [hds] at hok; cases hok
  | some =>
    rw [hds] at hok h
    simp only at hok
    split at hok
    · cases hok
    · cases hok
      rw [devicesOf_update, hds]
      refine ⟨nofun, h.sublist filter_sublist, fun d => ?_⟩
      exact mem_filter.trans (and_congr_right fun _ => decide_eq_true_iff)

theorem recordedDowntime_eq_some {x} : recordedDowntime inventory id = some x ↔
      ∃ d ∈ devices inventory, deviceId d = some id ∧ downtimeId d = some x := by
  unfold recordedDowntime findDevice devices at *
  cases hds : devicesOf inventory with
  | none => simp
  | some ds =>
    rw [hds] at h
    simp only [Option.bind_some, Option.getD_some] at h ⊢
    constructor
    · intro hx
      obtain ⟨d, hfind, hd⟩ := Option.bind_eq_some_iff.mp hx
      exact ⟨d, mem_of_find?_eq_some hfind, by simpa using find?_some hfind, hd⟩
    · rintro ⟨d, hd, hid, hx⟩
      cases hfind : ds.find? (deviceId · = some id) with
      | none => exact absurd (decide_eq_true hid) (find?_eq_none.mp hfind d hd)
      | some d' =>
        have hid' : deviceId d' = some id := by simpa using find?_some hfind
        rw [Option.bind_some, h.eq_of_mem (mem_of_find?_eq_some hfind) hd hid' hid]
        exact hx

end

theorem exists_storeUpsert (h : devicesOf inventory ≠ none) (device) (dt) :
    ∃ inventory', storeUpsert inventory device dt = .ok inventory' := by
  unfold storeUpsert
  split
  · next hnone => exact absurd hnone h
  · exact ⟨_, rfl⟩

/-! ## The collector configuration -/

def yamlQuote (value : String) : String :=
  "'" ++ String.ofList (value.toList.flatMap fun c => if c.toNat = 39 then [c, c] else [c]) ++ "'"

def staticConfig (device : Value) : Except String String := do
  let id ← (textOf device "id").elim (throw "monitoring device is missing id") pure
  let name ← (textOf device "name").elim (throw "monitoring device is missing name") pure
  let address ← (textOf device "address").elim (throw "monitoring device is missing address") pure
  let kind := (textOf device "kind").getD "device"
  let site := (textOf device "site").getD "home"
  return "            - targets: [" ++ yamlQuote address ++
    "]\n              labels:\n                nexus_device_id: " ++
    yamlQuote id ++ "\n                nexus_device_name: " ++ yamlQuote name ++
    "\n                nexus_resource_type: " ++ yamlQuote kind ++ "\n                nexus_site: " ++ yamlQuote site ++
    "\n                nexus_monitoring_profile: 'icmp'\n"

def collectorConfig (inventory : Value) : Except String String := do
  if (enabledDevices inventory).isEmpty then throw "no enabled devices"
  let interval := ((inventory.pointer ["probe", "collection_interval"]).bind Value.asStr).getD "30s"
  let endpoint := ((inventory.pointer ["probe", "otlp_endpoint"]).bind Value.asStr).getD defaultOtlpEndpoint
  let staticConfigs ← (enabledDevices inventory).mapM staticConfig
  return "receivers:\n  prometheus/nexus_icmp:\n    config:\n      scrape_configs:\n" ++
    "        - job_name: 'nexus_icmp'\n" ++
    "          scrape_interval: " ++ interval ++ "\n          metrics_path: /probe\n          params:\n" ++
    "            module: ['icmp']\n          static_configs:\n" ++ String.join staticConfigs ++
    "          relabel_configs:\n            - source_labels: [__address__]\n" ++
    "              target_label: __param_target\n" ++
    "            - source_labels: [__param_target]\n              target_label: instance\n" ++
    "            - target_label: __address__\n              replacement: '127.0.0.1:9115'\n\nprocessors:\n" ++
    "  batch: \x7b\x7d\n\nexporters:\n  otlp:\n    endpoint: " ++ yamlQuote endpoint ++
    "\n    tls:\n      insecure: true\n\nservice:\n  telemetry:\n    metrics:\n      readers:\n        - pull:\n" ++
    "            exporter:\n              prometheus:\n                host: '127.0.0.1'\n" ++
    "                port: 8889\n" ++
    "  pipelines:\n    metrics/nexus_icmp:\n      receivers: [prometheus/nexus_icmp]\n      processors: [batch]\n" ++
    "      exporters: [otlp]\n"

end Nexus.Monitoring
