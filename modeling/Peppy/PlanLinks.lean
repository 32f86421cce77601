-- The links of the instances of a launch plan: what a slot of an instance is
-- linked to, and the errors of the validators that resolve the links.
import Peppy.NodeConfig

open peppy.node_config

namespace peppy.launcher

/-- The targets of a slot, in the shape that they arrived in. -/
inductive Selection where
  | Scalar (target : String)
  | Array (targets : List String)
  | Flags (targets : List String)
  deriving DecidableEq

def Selection.targets : Selection → List String
  | .Scalar target => [target]
  | .Array targets | .Flags targets => targets

inductive LinkValue where
  | Bound (selection : Selection)
  | Vacant (reason : String)
  deriving DecidableEq

def LinkValue.selection : LinkValue → Option Selection
  | .Bound selection => some selection
  | .Vacant _ => none

def LinkValue.vacancy : LinkValue → Option String
  | .Vacant reason => some reason
  | .Bound _ => none

/-- The instance of a target, and the link id after its first slash. -/
def split_link_target (value : String) : String × Option String :=
  match value.toList.span (· ≠ '/') with
  | (_, []) => (value, none)
  | (before, _ :: after) => (String.ofList before, some (String.ofList after))

inductive CardinalityShapeViolation where
  | ArrayOnScalarSlot (cardinality : Cardinality)
  | ScalarOnMultiSlot (cardinality : Cardinality)
  | Unmet
  | SingleSlotMultipleTargets (cardinality : Cardinality) (target_count : Nat)

def check_cardinality_shape : Cardinality → Selection → Except CardinalityShapeViolation Unit
  | .One, .Scalar _ | .ZeroOrOne, .Scalar _ => .ok ()
  | .One, .Array _ => .error (.ArrayOnScalarSlot .One)
  | .ZeroOrOne, .Array _ => .error (.ArrayOnScalarSlot .ZeroOrOne)
  | .One, .Flags targets =>
    if targets.length = 1 then .ok ()
    else .error (.SingleSlotMultipleTargets .One targets.length)
  | .ZeroOrOne, .Flags targets =>
    if targets.length = 1 then .ok ()
    else .error (.SingleSlotMultipleTargets .ZeroOrOne targets.length)
  | .OneOrMore, .Scalar _ => .error (.ScalarOnMultiSlot .OneOrMore)
  | .ZeroOrMore, .Scalar _ => .error (.ScalarOnMultiSlot .ZeroOrMore)
  | .OneOrMore, .Array targets | .OneOrMore, .Flags targets =>
    if targets.isEmpty then .error .Unmet else .ok ()
  | .ZeroOrMore, .Array _ | .ZeroOrMore, .Flags _ => .ok ()

def allows_empty : Cardinality → Bool
  | .ZeroOrMore => true
  | _ => false

/-- An instance of the plan, with the links of its slots in the order of their
keys. -/
structure DeploymentInstance where
  instance_id : String
  links : List (String × LinkValue)
  keys_nodup : (links.map Prod.fst).Nodup := by decide

abbrev Slot := String × String

inductive ParsingError where
  | UnknownInstanceId (owner_instance_id link instance_id : String)
  | LinkTargetNotScalar (owner_instance_id link : String)
  | PairingScalarOnMultiSlot (owner_instance_id link : String) (cardinality : Cardinality)
  | PairingCardinalityUnmet (owner_instance_id link : String)
  | PairingTargetNotComplementary (owner_instance_id key target_instance_id producer_name
      producer_tag pairing_name pairing_tag role : String)
  | PairingTargetAmbiguous (owner_instance_id key target_instance_id pairing_name pairing_tag
      candidate_link_ids : String)
  | PairingSlotAlreadyPaired (instance_id link_id existing_peer : String)
  | PairAlreadyHeld (instance_id link_id peer : String)
  | PairingConflict (instance_a link_a target_a instance_b link_b target_b : String)
  | PairingSha256Mismatch (instance_a sha_a instance_b sha_b pairing_name pairing_tag : String)
  | PairingSlotUncovered (instance_id link_id pairing_name pairing_tag role : String)
      (cardinality : Cardinality)

end peppy.launcher
