import Nexus.Lib.JsonValue
import Nexus.Lib.OrderedMap
import Nexus.MonitoringService.Calls

/-!
# Provisioning a guest

`ProvisioningService.plan` of `nexus/src/nexus_core/services/provisioning.py` checks the fields of the request;
`create_guest` of `nexus/src/nexus_core/providers/pdm_provisioning.py` builds the configuration from the stripped fields
and overlays it with the `advanced` entries. So the checks speak of the configuration only as far as it says what the
fields say (`provision_noCollision_iff`).
-/

namespace Nexus.Provisioning

open Lib (OrderedMap)
open MonitoringService (PythonText)

/-! ## Requests, options and resources -/

inductive ConfigValue
  | int (n : Int)
  | str (s : String)
  | other (v : Lib.Value)

def ConfigValue.text : ConfigValue → Option String
  | .int n => some (toString n)
  | .str s => some s
  | .other _ => none

structure GuestProvisionRequest where
  (kind remote node : String)
  vmid : Int
  name : String
  (cores memoryMb diskGb : Int)
  (storage bridge source ipConfig : String)
  (gateway nameserver : Option String)
  vlan : Option Int
  (onboot start unprivileged nesting sshEnabled : Bool)
  sshPublicKey : Option String
  monitoring : String
  advanced : OrderedMap String (Option ConfigValue)

structure ProvisioningNode where
  (remote name : String)

structure ProvisioningStorage where
  remote : String
  node : Option String
  name : String

structure ProvisioningOptions where
  nodes : List ProvisioningNode
  storages : List ProvisioningStorage

structure InfrastructureResource where
  (remote type name : String)
  vmid : Option Int

inductive ProvisioningError
  | value (message : String)
  | disabled (message : String)
  | conflict (message : String)
  deriving DecidableEq

def isBlank (value : Option String) : Bool := value.getD "" = ""

/-! ## The plan -/

section

variable (txt : PythonText) (request : GuestProvisionRequest)

def validateRequest : Except ProvisioningError Unit :=
  if request.kind ≠ "lxc" ∧ request.kind ≠ "qemu" then .error (.value "kind must be 'lxc' or 'qemu'")
  else if txt.strip request.remote = "" ∨ txt.strip request.node = "" then
    .error (.value "remote and node are required")
  else if txt.strip request.name = "" then .error (.value "guest name is required")
  else if request.vmid < 100 then .error (.value "VMID must be at least 100")
  else if request.cores < 1 ∨ request.memoryMb < 128 ∨ request.diskGb < 1 then
    .error (.value "CPU, memory and disk values must be positive")
  else if request.sshEnabled ∧ request.kind = "lxc" ∧ isBlank request.sshPublicKey then
    .error (.value "SSH-enabled LXC provisioning requires a public key")
  else .ok ()

def checkedStorages (options : ProvisioningOptions) : List String :=
  (options.storages.filter fun item =>
    item.remote = request.remote ∧ (item.node = none ∨ item.node = some request.node)).map (·.name)

def validateSelection (options : ProvisioningOptions) : Except ProvisioningError Unit :=
  if (request.remote, request.node) ∉ options.nodes.map fun item => (item.remote, item.name) then
    .error (.value ("node '" ++ request.node ++ "' is not available on PDM remote '" ++ request.remote ++ "'"))
  else if checkedStorages request options ≠ [] ∧ request.storage ∉ checkedStorages request options then
    .error (.value ("storage '" ++ request.storage ++ "' is not available on " ++ request.remote ++ "/" ++
      request.node))
  else .ok ()

def InfrastructureResource.isGuest (item : InfrastructureResource) : Bool :=
  item.type = "pve-lxc" || item.type = "pve-qemu"

def ensureAvailable : List InfrastructureResource → Except ProvisioningError Unit
  | [] => .ok ()
  | item :: resources =>
    if item.remote ≠ request.remote then ensureAvailable resources
    else if item.vmid = some request.vmid then
      .error (.conflict ("VMID " ++ toString request.vmid ++ " already exists on remote '" ++ request.remote ++ "'"))
    else if item.isGuest ∧ txt.casefold item.name = txt.casefold request.name then
      .error (.conflict ("guest name '" ++ request.name ++ "' already exists on remote '" ++ request.remote ++ "'"))
    else ensureAvailable resources

structure Plan where
  (kind remote node : String)
  vmid : Int
  (name cpu : String)
  memoryMb : Int
  (disk network ip : String)
  (onboot start ssh : Bool)
  monitoring : String
  advancedCount : Nat

def plan (options : ProvisioningOptions) (resources : List InfrastructureResource) : Except ProvisioningError Plan := do
  validateRequest txt request
  validateSelection request options
  ensureAvailable txt request resources
  return {
    kind := request.kind
    remote := request.remote
    node := request.node
    vmid := request.vmid
    name := request.name
    cpu := toString request.cores ++ " cores"
    memoryMb := request.memoryMb
    disk := toString request.diskGb ++ " GiB on " ++ request.storage
    network := request.bridge
    ip := request.ipConfig
    onboot := request.onboot
    start := request.start
    ssh := request.sshEnabled
    monitoring := request.monitoring
    advancedCount := request.advanced.entries.length }

end

/-! ## The native configuration -/

abbrev Config := OrderedMap String ConfigValue

def dict (entries : List (String × ConfigValue)) (config : Config) : Config :=
  entries.foldl (fun config e => config.insert e.1 e.2) config

def flag (b : Bool) : ConfigValue := .int (if b then 1 else 0)

section

variable (txt : PythonText) (request : GuestProvisionRequest)

def rootVolume : String := request.storage ++ ":" ++ toString request.diskGb

def tagPart : List String := request.vlan.toList.map fun vlan => "tag=" ++ toString vlan

def lxcOptions : List (String × ConfigValue) :=
  (if isBlank request.nameserver then [] else [("nameserver", .str (request.nameserver.getD ""))]) ++
    (if request.nesting then [("features", .str "nesting=1")] else []) ++
    (if request.sshEnabled ∧ ¬ isBlank request.sshPublicKey then
      [("ssh-public-keys", .str (txt.strip (request.sshPublicKey.getD "")))] else [])

def lxcFields : List (String × ConfigValue) :=
  let netParts := ["name=eth0", "bridge=" ++ request.bridge] ++ tagPart request ++
    ["ip=" ++ (if request.ipConfig = "" then "dhcp" else request.ipConfig)] ++
    (if isBlank request.gateway then [] else ["gw=" ++ request.gateway.getD ""])
  [("vmid", .int request.vmid), ("hostname", .str (txt.strip request.name)),
    ("ostemplate", .str (txt.strip request.source)), ("cores", .int request.cores), ("memory", .int request.memoryMb),
    ("rootfs", .str (rootVolume request)), ("net0", .str (",".intercalate netParts)), ("onboot", flag request.onboot),
    ("unprivileged", flag request.unprivileged), ("start", flag request.start)]

def lxcConfig : Config := dict (lxcFields txt request ++ lxcOptions txt request) .empty

def qemuConfig : Config :=
  let netParts := ["virtio", "bridge=" ++ request.bridge] ++ tagPart request
  dict [("vmid", .int request.vmid), ("name", .str (txt.strip request.name)), ("cores", .int request.cores),
    ("memory", .int request.memoryMb), ("scsihw", .str "virtio-scsi-pci"), ("scsi0", .str (rootVolume request)),
    ("net0", .str (",".intercalate netParts)), ("ide2", .str (txt.strip request.source ++ ",media=cdrom")),
    ("agent", .int 1), ("onboot", flag request.onboot), ("start", flag request.start)] .empty

def baseConfig : Config := if request.kind = "lxc" then lxcConfig txt request else qemuConfig txt request

def nexusMetadataKeys : List String :=
  ["monitoring_address", "monitoring_port", "monitoring_path", "monitoring_site", "health_metric"]

def isForwarded (normalized : String) : Bool :=
  normalized ≠ "" && normalized ≠ "vmid" && !nexusMetadataKeys.contains normalized

def overlayEntry (config : Config) (e : String × Option ConfigValue) : Config :=
  match e.2 with
  | some value => if isForwarded (txt.strip e.1) then config.insert (txt.strip e.1) value else config
  | none => config

def overlay (entries : List (String × Option ConfigValue)) (config : Config) : Config :=
  entries.foldl (overlayEntry txt) config

def nativeConfig : Except ProvisioningError Config :=
  if request.kind ≠ "lxc" ∧ request.kind ≠ "qemu" then .error (.value "kind must be 'lxc' or 'qemu'")
  else if request.vmid < 100 ∨ request.vmid > 999999999 then .error (.value "VMID is outside the PVE range")
  else if txt.strip request.name = "" ∨ txt.strip request.source = "" then
    .error (.value "guest name and template/ISO source are required")
  else if request.cores < 1 ∨ request.memoryMb < 128 ∨ request.diskGb < 1 then
    .error (.value "CPU, memory and disk values must be positive")
  else .ok (overlay txt request.advanced.entries (baseConfig txt request))

def provision (enabled : Bool) (options : ProvisioningOptions) (resources : List InfrastructureResource) :
    Except ProvisioningError Config := do
  if !enabled then
    throw (.disabled "Guest provisioning is disabled by configuration")
  let _ ← plan txt request options resources
  nativeConfig txt request

end

/-! ## What the configuration says -/

def nameKey (request : GuestProvisionRequest) : String := if request.kind = "lxc" then "hostname" else "name"

def rootDiskKey (request : GuestProvisionRequest) : String := if request.kind = "lxc" then "rootfs" else "scsi0"

def storageOf (volume : String) : String := String.ofList (volume.toList.takeWhile (· ≠ ':'))

def lastEntry (txt : PythonText) (key : String) : List (String × Option ConfigValue) → Option ConfigValue
  | [] => none
  | e :: entries => (lastEntry txt key entries).or (if txt.strip e.1 = key then e.2 else none)

section

variable {txt : PythonText} {request : GuestProvisionRequest} {key : String}

theorem get?_overlayEntry (hkey : isForwarded key) (config) (e) :
    (overlayEntry txt config e).get? key = (if txt.strip e.1 = key then e.2 else none).or (config.get? key) := by
  unfold overlayEntry
  by_cases he : txt.strip e.1 = key
  · cases hv : e.2 with
    | none => simp
    | some => simp [he, hkey, OrderedMap.get?_insert]
  · rw [if_neg he, Option.none_or]
    split
    · split
      · rw [OrderedMap.get?_insert, if_neg (Ne.symm he)]
      · rfl
    · rfl

theorem get?_overlay (hkey : isForwarded key) : ∀ entries config,
    (overlay txt entries config).get? key = (lastEntry txt key entries).or (config.get? key)
  | [], config => by simp [overlay, lastEntry]
  | e :: entries, config => by
    have ih := get?_overlay hkey entries (overlayEntry txt config e)
    rw [get?_overlayEntry hkey] at ih
    rw [lastEntry, Option.or_assoc, ← ih]
    rfl

theorem get?_overlay_of_not (hkey : isForwarded key = false) (entries)
    (config) : (overlay txt entries config).get? key = config.get? key := by
  refine List.foldlRecOn (motive := fun c : Config => c.get? key = config.get? key) _ _ rfl fun c hc e _ => ?_
  unfold overlayEntry
  split
  · split
    · next forward =>
      have hne : key ≠ txt.strip e.1 := by
        rintro rfl
        cases hkey.symm.trans forward
      rw [OrderedMap.get?_insert, if_neg hne, hc]
    · exact hc
  · exact hc

theorem get?_dict (entries) (config) :
    (dict entries config).get? key = entries.foldl (fun v e => if key = e.1 then some e.2 else v) (config.get? key) :=
  OrderedMap.get?_foldl_insert _ _ _ _ _

theorem foldl_of_forall_ne {entries : List (String × ConfigValue)} (h : ∀ e ∈ entries, key ≠ e.1)
    (v) : entries.foldl (fun v e => if key = e.1 then some e.2 else v) v = v := by
  refine List.foldlRecOn (motive := fun w => w = v) _ _ rfl fun w hw e he => ?_
  rw [if_neg (h e he), hw]

theorem key_of_mem_lxcOptions {e} (h : e ∈ lxcOptions txt request) :
    e.1 ∈ ["nameserver", "features", "ssh-public-keys"] := by
  simp only [lxcOptions, List.mem_append, List.mem_ite_nil_left, List.mem_ite_nil_right, List.mem_singleton] at h
  rcases h with (⟨-, rfl⟩ | ⟨-, rfl⟩) | ⟨-, rfl⟩ <;> simp

theorem get?_lxcConfig (hkey : key ∉ ["nameserver", "features", "ssh-public-keys"]) : (lxcConfig txt request).get? key =
      (lxcFields txt request).foldl (fun v e => if key = e.1 then some e.2 else v) none := by
  have other : ∀ e ∈ lxcOptions txt request, key ≠ e.1 := by
    rintro e he rfl
    exact hkey (key_of_mem_lxcOptions he)
  rw [lxcConfig, get?_dict, List.foldl_append, foldl_of_forall_ne other]
  rfl

theorem get?_baseConfig_vmid : (baseConfig txt request).get? "vmid" = some (.int request.vmid) := by
  unfold baseConfig
  split
  · rw [get?_lxcConfig (by decide)]
    simp [lxcFields]
  · simp [qemuConfig, get?_dict]

theorem get?_baseConfig_name : (baseConfig txt request).get? (nameKey request) =
    some (.str (txt.strip request.name)) := by
  unfold baseConfig nameKey
  split
  · rw [get?_lxcConfig (by decide)]
    simp [lxcFields]
  · simp [qemuConfig, get?_dict]

theorem get?_baseConfig_rootDisk :
    (baseConfig txt request).get? (rootDiskKey request) = some (.str (rootVolume request)) := by
  unfold baseConfig rootDiskKey
  split
  · rw [get?_lxcConfig (by decide)]
    simp [lxcFields]
  · simp [qemuConfig, get?_dict]

theorem storageOf_rootVolume : storageOf (rootVolume request) = storageOf request.storage := by
  have cut : ∀ l r, (l ++ ':' :: r).takeWhile (· ≠ ':') = l.takeWhile (· ≠ ':') := by
    intro l r
    induction l with
    | nil => simp
    | cons c => by_cases hc : c = ':' <;> simp_all
  have chars : (rootVolume request).toList = request.storage.toList ++ ':' :: (toString request.diskGb).toList := by
    simp [rootVolume]
  rw [storageOf, storageOf, chars, cut]

end

/-! ## The checks -/

section

variable {txt : PythonText} {request : GuestProvisionRequest} {options : ProvisioningOptions} {config : Config}

theorem ensureAvailable_eq_ok : ∀ {resources},
    ensureAvailable txt request resources = .ok () ↔ ∀ item ∈ resources, item.remote = request.remote →
      item.vmid ≠ some request.vmid ∧ (item.isGuest → txt.casefold item.name ≠ txt.casefold request.name)
  | [] => by simp [ensureAvailable]
  | item :: resources => by
    have ih := @ensureAvailable_eq_ok resources
    simp only [ensureAvailable, List.forall_mem_cons]
    by_cases remote : item.remote = request.remote
    · by_cases vmid : item.vmid = some request.vmid
      · simp [remote, vmid]
      · by_cases hname : item.isGuest ∧ txt.casefold item.name = txt.casefold request.name
        · simp [remote, vmid, hname]
        · have free : item.isGuest → txt.casefold item.name ≠ txt.casefold request.name := fun hg he =>
            hname ⟨hg, he⟩
          rw [if_neg (not_not.mpr remote), if_neg vmid, if_neg hname, ih]
          exact ⟨fun h => ⟨fun _ => ⟨vmid, free⟩, h⟩, fun h => h.2⟩
    · rw [if_pos remote, ih]
      exact ⟨fun h => ⟨fun e => absurd e remote, h⟩, fun h => h.2⟩

/-- The limits that `_native_config` adds. -/
structure InNativeLimits (txt : PythonText) (request : GuestProvisionRequest) : Prop where
  vmid : request.vmid ≤ 999999999
  source : txt.strip request.source ≠ ""

theorem nativeConfig_eq_ok (hval : validateRequest txt request = .ok ()) : nativeConfig txt request = .ok config ↔
      InNativeLimits txt request ∧ config = overlay txt request.advanced.entries (baseConfig txt request) := by
  unfold validateRequest at hval
  unfold nativeConfig
  split at hval
  · cases hval
  split at hval
  · cases hval
  split at hval
  · cases hval
  split at hval
  · cases hval
  split at hval
  · cases hval
  next hkind _ hname vmid hsizes =>
    rw [if_neg hkind, if_neg hsizes]
    by_cases hlim : request.vmid ≤ 999999999
    · rw [if_neg (by omega)]
      by_cases source : txt.strip request.source = ""
      · rw [if_pos (.inr source)]
        exact ⟨fun h => (by cases h), fun h => absurd source h.1.source⟩
      · rw [if_neg (by simp [hname, source])]
        exact ⟨fun h => ⟨⟨hlim, source⟩, (Except.ok.inj h).symm⟩, fun h => by rw [h.2]⟩
    · rw [if_pos (by omega)]
      exact ⟨fun h => (by cases h), fun h => absurd h.1.vmid hlim⟩

theorem provision_eq_ok {resources} :
    provision txt request true options resources = .ok config ↔ validateRequest txt request = .ok () ∧
      validateSelection request options = .ok () ∧ ensureAvailable txt request resources = .ok () ∧
      nativeConfig txt request = .ok config := by
  unfold provision plan
  cases hv : validateRequest txt request with
  | error => simp [bind, Except.bind]
  | ok u =>
    cases hs : validateSelection request options with
    | error => simp [bind, Except.bind]
    | ok u =>
      cases he : ensureAvailable txt request resources with
      | error => simp [bind, Except.bind]
      | ok => simp [bind, Except.bind, pure, Except.pure]

end

/-! ## Collisions -/

/-- VMID and name are free, and the root disk is on a checked storage. -/
structure NoCollision (txt : PythonText) (request : GuestProvisionRequest) (options : ProvisioningOptions)
    (resources : List InfrastructureResource) (config : Config) : Prop where
  vmid : ∃ n, config.get? "vmid" = some (.int n) ∧
    ∀ item ∈ resources, item.remote = request.remote → item.isGuest → item.vmid ≠ some n
  name : ∃ name, (config.get? (nameKey request)).bind ConfigValue.text = some name ∧
    ∀ item ∈ resources, item.remote = request.remote → item.isGuest → txt.casefold item.name ≠ txt.casefold name
  rootDisk : ∃ volume, (config.get? (rootDiskKey request)).bind ConfigValue.text = some volume ∧
    storageOf volume ∈ checkedStorages request options

/-- The guest gets the name that was checked. -/
def NameAsChecked (txt : PythonText) (request : GuestProvisionRequest) : Prop :=
  ∃ name, ((lastEntry txt (nameKey request) request.advanced.entries).getD (.str (txt.strip request.name))).text =
    some name ∧ txt.casefold name = txt.casefold request.name

/-- The root disk goes to a storage that was checked. -/
def RootDiskAsChecked (txt : PythonText) (request : GuestProvisionRequest) (options : ProvisioningOptions) : Prop :=
  ∃ volume, ((lastEntry txt (rootDiskKey request) request.advanced.entries).getD (.str request.storage)).text =
    some volume ∧ storageOf volume ∈ checkedStorages request options

section

variable {txt : PythonText} {request : GuestProvisionRequest} {options : ProvisioningOptions}

theorem isForwarded_nameKey : isForwarded (nameKey request) := by
  unfold nameKey
  split <;> decide

theorem isForwarded_rootDiskKey : isForwarded (rootDiskKey request) := by
  unfold rootDiskKey
  split <;> decide

def sentConfig (txt : PythonText) (request : GuestProvisionRequest) : Config :=
  overlay txt request.advanced.entries (baseConfig txt request)

theorem sentConfig_vmid : (sentConfig txt request).get? "vmid" = some (.int request.vmid) := by
  rw [sentConfig, get?_overlay_of_not (by decide), get?_baseConfig_vmid]

theorem sentConfig_name : (sentConfig txt request).get? (nameKey request) =
    some ((lastEntry txt (nameKey request) request.advanced.entries).getD (.str (txt.strip request.name))) := by
  rw [sentConfig, get?_overlay isForwarded_nameKey, get?_baseConfig_name, Option.or_some]

theorem rootDiskAsChecked_iff : RootDiskAsChecked txt request options ↔
    ∃ volume, ((sentConfig txt request).get? (rootDiskKey request)).bind ConfigValue.text = some volume ∧
      storageOf volume ∈ checkedStorages request options := by
  rw [sentConfig, get?_overlay isForwarded_rootDiskKey, get?_baseConfig_rootDisk, Option.or_some, RootDiskAsChecked]
  cases lastEntry txt (rootDiskKey request) request.advanced.entries with
  | some => rfl
  | none => simp [ConfigValue.text, storageOf_rootVolume]

theorem nameAsChecked_iff : NameAsChecked txt request ↔
    ∃ name, ((sentConfig txt request).get? (nameKey request)).bind ConfigValue.text = some name ∧
      txt.casefold name = txt.casefold request.name := by
  rw [sentConfig_name, NameAsChecked]
  rfl

def guestNamed (request : GuestProvisionRequest) (name : String) : InfrastructureResource :=
  ⟨request.remote, "pve-lxc", name, some (request.vmid + 1)⟩

theorem ensureAvailable_guestNamed {name} (h : txt.casefold name ≠ txt.casefold request.name) :
    ensureAvailable txt request [guestNamed request name] = .ok () := by
  refine ensureAvailable_eq_ok.mpr fun item hitem _ => ?_
  rw [List.mem_singleton.mp hitem]
  refine ⟨fun e => ?_, fun _ => h⟩
  have : request.vmid + 1 = request.vmid := Option.some.inj e
  omega

end

/-- **A request that is accepted never collides exactly if its advanced entries and the spelling of its name leave the
name as it was checked and the root disk on a storage that was there to be checked against.** -/
theorem provision_noCollision_iff (txt : PythonText) (request : GuestProvisionRequest) (options : ProvisioningOptions) :
    (∀ resources config, provision txt request true options resources = .ok config →
      NoCollision txt request options resources config) ↔
    (validateRequest txt request = .ok () → validateSelection request options = .ok () → InNativeLimits txt request →
      NameAsChecked txt request ∧ RootDiskAsChecked txt request options) := by
  constructor
  · intro h hval hsel hlim
    have hsent : ∀ {resources : List InfrastructureResource}, ensureAvailable txt request resources = .ok () →
        NoCollision txt request options resources (sentConfig txt request) := fun available =>
      h _ _ (provision_eq_ok.mpr ⟨hval, hsel, available, (nativeConfig_eq_ok hval).mpr ⟨hlim, rfl⟩⟩)
    -- in the empty snapshot nothing is taken, so that only the root disk and the name's being a text count
    have empty : NoCollision txt request options [] (sentConfig txt request) := hsent rfl
    obtain ⟨name, hname, -⟩ := empty.name
    refine ⟨nameAsChecked_iff.mpr ⟨name, hname, ?_⟩, rootDiskAsChecked_iff.mpr empty.rootDisk⟩
    by_contra hne
    obtain ⟨name', hname', hfree⟩ := (hsent (ensureAvailable_guestNamed hne)).name
    cases hname.symm.trans hname'
    exact hfree _ List.mem_cons_self rfl rfl rfl
  · intro h resources config hrun
    obtain ⟨hval, hsel, available, native⟩ := provision_eq_ok.mp hrun
    obtain ⟨hlim, rfl⟩ := (nativeConfig_eq_ok hval).mp native
    obtain ⟨hname, hdisk⟩ := h hval hsel hlim
    have free := ensureAvailable_eq_ok.mp available
    obtain ⟨name, htext, hsame⟩ := nameAsChecked_iff.mp hname
    refine ⟨⟨request.vmid, sentConfig_vmid, fun item hitem remote _ => (free item hitem remote).1⟩,
      ⟨name, htext, fun item hitem remote hguest => ?_⟩, rootDiskAsChecked_iff.mp hdisk⟩
    rw [hsame]
    exact (free item hitem remote).2 hguest

namespace Sample

def txt : PythonText := ⟨Lib.Text.trim, Lib.Text.toAsciiLowercase, fun _ => false⟩

def request (name : String) (advanced : OrderedMap String (Option ConfigValue)) : GuestProvisionRequest where
  kind := "lxc"
  remote := "pve"
  node := "node1"
  vmid := 101
  name := name
  cores := 1
  memoryMb := 512
  diskGb := 8
  storage := "local"
  bridge := "vmbr0"
  source := "local:vztmpl/debian.tar.zst"
  ipConfig := "dhcp"
  gateway := none
  nameserver := none
  vlan := none
  onboot := true
  start := true
  unprivileged := true
  nesting := false
  sshEnabled := false
  sshPublicKey := none
  monitoring := "pdm"
  advanced := advanced

def options : ProvisioningOptions := ⟨[⟨"pve", "node1"⟩], [⟨"pve", some "node1", "local"⟩]⟩

def web : InfrastructureResource := ⟨"pve", "pve-lxc", "web", some 100⟩

end Sample

open Sample

/-- A guest ` web`, with a blank in front, is accepted next to `web`, and sent as `web`. -/
theorem accepted_request_collides : (∃ config, provision txt (request " web" .empty) true options [web] = .ok config ∧
      config.get? "hostname" = some (.str "web") ∧ ¬ NoCollision txt (request " web" .empty) options [web] config) ∧
    ∃ config, provision txt (request "db" (OrderedMap.empty.insert "hostname" (some (.str "web")))) true
        options [web] = .ok config ∧ config.get? "hostname" = some (.str "web") ∧
      ¬ NoCollision txt (request "db" (OrderedMap.empty.insert "hostname" (some (.str "web"))))
        options [web] config := by
  have sent : ∀ {name : String} {advanced : OrderedMap String (Option ConfigValue)},
      validateRequest txt (request name advanced) = .ok () →
      ensureAvailable txt (request name advanced) [web] = .ok () →
      (sentConfig txt (request name advanced)).get? "hostname" = some (.str "web") →
      ∃ config, provision txt (request name advanced) true options [web] = .ok config ∧
        config.get? "hostname" = some (.str "web") ∧
        ¬ NoCollision txt (request name advanced) options [web] config := by
    intro name advanced hval available hname
    refine ⟨_, provision_eq_ok.mpr ⟨hval, rfl, available, (nativeConfig_eq_ok hval).mpr ⟨⟨?_, ?_⟩, rfl⟩⟩,
      hname, fun h => ?_⟩
    · exact (by decide : (101 : Int) ≤ 999999999)
    · exact (by decide : txt.strip "local:vztmpl/debian.tar.zst" ≠ "")
    · obtain ⟨text, htext, hfree⟩ := h.name
      have hweb : ((sentConfig txt (request name advanced)).get? "hostname").bind ConfigValue.text =
          some "web" := by rw [hname]; rfl
      cases hweb.symm.trans htext
      exact hfree web List.mem_cons_self rfl rfl rfl
  refine ⟨sent (by decide) (by decide) ?_, sent (by decide) (by decide) ?_⟩
  · exact sentConfig_name.trans rfl
  · exact sentConfig_name.trans rfl

end Nexus.Provisioning
