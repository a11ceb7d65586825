import MeshSettings.Records
import MeshSettings.Foundation.Store

/-!
# The live runtime state

The persistence layer reads and restores structures the mesh stack owns: the
`bt_mesh` singleton with its flags, RPL and subnets, the application keys, the
models of the composition, the virtual-address labels, the provisioner's node
table, heartbeat publication and the configuration server.  Only the members
`settings.c` reads or writes are kept; each array is a list whose length is its
configured capacity.  Free slots carry the sentinel the C code tests:
`BT_MESH_KEY_UNUSED` for subnets and application keys, address zero for RPL
entries and nodes.

The helpers that find and allocate slots live in `net.c`, `cfg_srv.c`,
`nodes.c` and `transport.c`, which are not part of the sources modelled here.
They are modelled from the spec (section 9: an arena of slots with an explicit
free predicate): a lookup returns the first slot holding the index, an
allocation takes the first free slot.
-/

namespace MeshSettings

def keyUnused : UInt16 := 0xffff

def addrUnassigned : UInt16 := 0

/-- The bits of `bt_mesh.flags` that `settings.c` tests or sets. -/
inductive Flag
  | valid | ivuInProgress | node | provisioner
  | rplPending | keysPending | netPending | ivPending | seqPending | hbPubPending
  | cfgPending | modPending | vaPending | rolePending | nodesPending
  deriving DecidableEq, Repr

abbrev Flags := Flag → Bool

def Flags.setTo (f : Flags) (flag : Flag) (b : Bool) : Flags := Function.update f flag b

@[simp] theorem Flags.setTo_same (f : Flags) (flag : Flag) (b : Bool) :
    f.setTo flag b flag = b := Function.update_same _ _ _

@[simp] theorem Flags.setTo_other (f : Flags) {flag other : Flag} (b : Bool) (h : other ≠ flag) :
    f.setTo flag b other = f other := Function.update_noteq h _ _

structure Rpl where
  src : UInt16
  oldIv : Bool
  store : Bool
  seq : UInt32
  deriving DecidableEq, Repr

def Rpl.empty : Rpl := ⟨0, false, false, 0⟩

structure Subnet where
  netIdx : UInt16
  krFlag : Bool
  krPhase : UInt8
  net0 : Bytes16
  net1 : Bytes16
  deriving DecidableEq

structure AppKey where
  netIdx : UInt16
  appIdx : UInt16
  updated : Bool
  val0 : Bytes16
  val1 : Bytes16
  deriving DecidableEq

structure ModelPub where
  addr : UInt16
  key : UInt16
  cred : Bool
  ttl : UInt8
  retransmit : UInt8
  period : UInt8
  periodDiv : BitVec 4
  count : BitVec 3
  deriving DecidableEq, Repr

structure ModFlags where
  bindPending : Bool
  subPending : Bool
  pubPending : Bool
  dataPresent : Bool
  deriving DecidableEq, Repr

/--
The persisted members of `struct bt_mesh_model`; `hasSettingsSet` says whether
its callbacks include `settings_set`, which receives the model's opaque data.
-/
structure Model where
  vnd : Bool
  elemIdx : UInt8
  modIdx : UInt8
  keys : List UInt16
  groups : List UInt16
  pub : Option ModelPub
  flags : ModFlags
  hasSettingsSet : Bool
  deriving DecidableEq, Repr

structure Label where
  ref : UInt16
  addr : UInt16
  uuid : Bytes16
  changed : Bool
  deriving DecidableEq

structure Node where
  addr : UInt16
  netIdx : UInt16
  devKey : Bytes16
  numElem : UInt8
  deriving DecidableEq

structure HbPub where
  dst : UInt16
  count : UInt16
  period : UInt8
  ttl : UInt8
  feat : UInt16
  netIdx : UInt16
  deriving DecidableEq, Repr

/--
The live state the persistence layer observes.  `primaryAddr` is what
`bt_mesh_comp_provision` sets and `bt_mesh_primary_addr` returns; `hbPub` and
`cfg` are `bt_mesh_hb_pub_get()` and `bt_mesh_cfg_get()`, absent when the
composition has no configuration server.  The persisted members of
`struct bt_mesh_cfg_srv` are exactly those of `struct cfg_val`.
-/
structure Mesh where
  flags : Flags
  ivIndex : UInt32
  ivuDuration : UInt8
  seq : UInt32
  devKey : Bytes16
  primaryAddr : UInt16
  rpl : List Rpl
  sub : List Subnet
  appKeys : List AppKey
  models : List Model
  labels : List Label
  nodes : List Node
  hbPub : Option HbPub
  cfg : Option CfgVal

def Mesh.empty : Mesh :=
  ⟨fun _ => false, 0, 0, 0, fun _ => 0, 0, [], [], [], [], [], [], none, none⟩

/-! ## Slot lookup and allocation -/

/-- Modelled from the spec: `bt_mesh_subnet_get`, the first subnet slot with this index. -/
def subnetGet (m : Mesh) (netIdx : UInt16) : Option Subnet :=
  m.sub.find? (·.netIdx = netIdx)

/--
Modelled from the spec: `bt_mesh_app_key_find`, the first application key in
use (its NetKey index is not `BT_MESH_KEY_UNUSED`) with this index.
-/
def appKeyFind (m : Mesh) (appIdx : UInt16) : Option AppKey :=
  m.appKeys.find? fun key => key.netIdx ≠ keyUnused ∧ key.appIdx = appIdx

/-- Modelled from the spec: `bt_mesh_node_find`, the first node with this address. -/
def nodeFind (m : Mesh) (addr : UInt16) : Option Node :=
  m.nodes.find? (·.addr = addr)

/-- Modelled from the spec: `get_label`, the label at this index of the label table. -/
def getLabel (m : Mesh) (index : Nat) : Option Label := m.labels.get? index

end MeshSettings
