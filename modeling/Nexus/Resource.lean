import Nexus.Lib.OrderedMap

/-!
# Remotes and their resources

The data of `pdm-api-types/src/remotes.rs` and `pdm-api-types/src/resource.rs` that the list handlers read: the remote
sections of the configuration and the resources a remote reports, with the texts a search compares against.
-/

namespace Nexus

inductive RemoteType
  | pve
  | pbs
  deriving DecidableEq

def RemoteType.toString : RemoteType → String
  | .pve => "pve"
  | .pbs => "pbs"

def RemoteType.fromStr (s : String) : Option RemoteType :=
  if s = "pve" then some .pve else if s = "pbs" then some .pbs else none

structure Remote where
  ty : RemoteType
  id : String
  deriving DecidableEq

structure RemotesConfig extends Lib.OrderedMap String Remote where
  id_eq : ∀ p ∈ entries, p.2.id = p.1

inductive SdnStatus
  | available | error | pending | unknown
  deriving DecidableEq

def SdnStatus.asStr : SdnStatus → String
  | .available => "available"
  | .error => "error"
  | .pending => "pending"
  | .unknown => "unknown"

structure PveGuestResource where
  (id name node pool status : String)
  tags : List String
  template : Bool
  vmid : UInt32

structure PveNodeResource where
  (id node status : String)

structure PveStorageResource where
  (id storage node status : String)

structure NetworkZoneResource where
  (id node network : String)
  status : SdnStatus
  legacy : Bool

structure NetworkFabricResource where
  (id node network : String)
  status : SdnStatus

inductive PveNetworkResource
  | zone (z : NetworkZoneResource)
  | fabric (f : NetworkFabricResource)

namespace PveNetworkResource

def id : PveNetworkResource → String
  | zone z => z.id
  | fabric f => f.id

def name : PveNetworkResource → String
  | zone z => z.network
  | fabric f => f.network

def node : PveNetworkResource → String
  | zone z => z.node
  | fabric f => f.node

def status : PveNetworkResource → String
  | zone z => z.status.asStr
  | fabric f => f.status.asStr

def networkType : PveNetworkResource → String
  | zone _ => "zone"
  | fabric _ => "fabric"

end PveNetworkResource

structure PbsNodeResource where
  (id name : String)
  uptime : UInt64

structure PbsDatastoreResource where
  (id name : String)
  usage : Float
  (maintenance backingDevice backendType : Option String)

inductive Resource
  | pveStorage (r : PveStorageResource)
  | pveQemu (r : PveGuestResource)
  | pveLxc (r : PveGuestResource)
  | pveNode (r : PveNodeResource)
  | pveNetwork (r : PveNetworkResource)
  | pbsNode (r : PbsNodeResource)
  | pbsDatastore (r : PbsDatastoreResource)

inductive ResourceType
  | pveStorage | pveQemu | pveLxc | pveNetwork | pbsDatastore | node
  deriving DecidableEq

def ResourceType.asStr : ResourceType → String
  | .pveStorage => "storage"
  | .pveQemu => "qemu"
  | .pveLxc => "lxc"
  | .pveNetwork => "network"
  | .pbsDatastore => "datastore"
  | .node => "node"

namespace Resource

def id : Resource → String
  | pveStorage r => "storage/" ++ r.node ++ "/" ++ r.storage
  | pveQemu r => "qemu/" ++ toString r.vmid
  | pveLxc r => "lxc/" ++ toString r.vmid
  | pveNode r => "node/" ++ r.node
  | pveNetwork r =>
    match r with
    | .zone z =>
      if z.legacy then "sdn/" ++ r.node ++ "/" ++ r.name
      else "network/" ++ r.node ++ "/" ++ r.networkType ++ "/" ++ r.name
    | .fabric _ => "network/" ++ r.node ++ "/" ++ r.networkType ++ "/" ++ r.name
  | pbsNode r => "node/" ++ r.name
  | pbsDatastore r => r.name

def globalId : Resource → String
  | pveStorage r => r.id
  | pveQemu r => r.id
  | pveLxc r => r.id
  | pveNode r => r.id
  | pveNetwork r => r.id
  | pbsNode r => r.id
  | pbsDatastore r => r.id

def name : Resource → String
  | pveStorage r => r.storage
  | pveQemu r => r.name
  | pveLxc r => r.name
  | pveNode r => r.node
  | pveNetwork r => r.name
  | pbsNode r => r.name
  | pbsDatastore r => r.name

def resourceType : Resource → ResourceType
  | pveStorage _ => .pveStorage
  | pveQemu _ => .pveQemu
  | pveLxc _ => .pveLxc
  | pveNetwork _ => .pveNetwork
  | pveNode _ => .node
  | pbsNode _ => .node
  | pbsDatastore _ => .pbsDatastore

def status : Resource → String
  | pveStorage r => r.status
  | pveQemu r => r.status
  | pveLxc r => r.status
  | pveNode r => r.status
  | pveNetwork r => r.status
  | pbsNode r => if r.uptime > 0 then "online" else "offline"
  | pbsDatastore r => if r.maintenance.isNone then "online" else "under-maintenance"

def pbsDatastoreHighUsageThreshold : Float := 0.80

def properties : Resource → String
  | pbsDatastore r =>
    String.intercalate "," (r.backendType.toList ++ (if r.backingDevice.isSome then ["removable"] else [])
      ++ (if r.usage > pbsDatastoreHighUsageThreshold then ["high-usage"] else []))
  | _ => ""

end Resource

end Nexus
