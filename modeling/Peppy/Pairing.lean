-- The pairs between pairing slots and the registry that keeps them. A slot
-- is named by its daemon, its instance and its link, and a pair holds two
-- slots in either order.
import Peppy.NodeConfig

open peppy.node_config

namespace peppy.pairing

structure SlotAddr where
  core_node : String
  instance_id : String
  link_id : String
  deriving DecidableEq

def SlotAddr.is_on (slot : SlotAddr) (core_node : String) : Bool := slot.core_node == core_node

def SlotAddr.to_string (slot : SlotAddr) : String :=
  slot.core_node ++ "/" ++ slot.instance_id ++ ":" ++ slot.link_id

structure RemoteSlotMeta where
  pairing_name : String
  pairing_tag : String
  role : String
  cardinality : Cardinality
  copy : Option Name
  deriving DecidableEq

structure PlannedPair where
  own : SlotAddr
  peer : SlotAddr
  peer_remote_meta : Option RemoteSlotMeta
  deriving DecidableEq

structure PairEndpoint where
  slot : SlotAddr
  role : String
  copy : Option Name

structure Pairing where
  pairing_name : String
  pairing_tag : String
  a : PairEndpoint
  b : PairEndpoint

variable (p : Pairing)

def Pairing.endpoint (slot : SlotAddr) : Option PairEndpoint :=
  if p.a.slot = slot then some p.a
  else if p.b.slot = slot then some p.b
  else none

def Pairing.is_between (a b : SlotAddr) : Bool :=
  (p.endpoint a).isSome && (p.endpoint b).isSome

def Pairing.peer_of (slot : SlotAddr) : Option PairEndpoint :=
  if p.a.slot = slot then some p.b
  else if p.b.slot = slot then some p.a
  else none

def Pairing.involves (core_node instance_id : String) : Bool :=
  [p.a, p.b].any fun endpoint =>
    endpoint.slot.core_node == core_node && endpoint.slot.instance_id == instance_id

/-- The pair is live as far as this daemon can see: only its own endpoints
are judged. -/
def Pairing.has_live_local_endpoints (local_core_node : String) (is_live : String → Bool) : Bool :=
  [p.a, p.b].all fun endpoint =>
    !endpoint.slot.is_on local_core_node || is_live endpoint.slot.instance_id

/-! ## The registry -/

structure PairingRegistry where
  pairs : List Pairing := []

namespace PairingRegistry

variable (r : PairingRegistry)

def find_by_slot (slot : SlotAddr) : Option Pairing :=
  r.pairs.find? fun pair => (pair.endpoint slot).isSome

def find_pair (a b : SlotAddr) : Option Pairing :=
  r.pairs.find? fun pair => pair.is_between a b

def insert (pairing : Pairing) : PairingRegistry :=
  ⟨r.pairs ++ [pairing]⟩

def remove_pair (a b : SlotAddr) : Option Pairing × PairingRegistry :=
  (r.find_pair a b, ⟨r.pairs.eraseP fun pair => pair.is_between a b⟩)

def remove_for_instance (core_node instance_id : String) : List Pairing × PairingRegistry :=
  let (dissolved, kept) := r.pairs.partition fun pair => pair.involves core_node instance_id
  (dissolved, ⟨kept⟩)

def prune_dead (local_core_node : String) (is_live : String → Bool) : PairingRegistry :=
  ⟨r.pairs.filter fun pair => pair.has_live_local_endpoints local_core_node is_live⟩

end PairingRegistry

end peppy.pairing
