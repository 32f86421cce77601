-- The pairs of a launch plan, as `validate_pairings` resolves them from the
-- links of the participant slots.
import Mathlib.Data.Prod.Lex
import Mathlib.Data.String.Basic
import Peppy.PlanLinks
import Peppy.Lib.StableSort

open peppy.node_config stable_sort

namespace peppy.launcher

/-- The instances of one node, of the plan or already running. -/
structure PairingValidationItem where
  node_name : String
  node_tag : String
  instances : List DeploymentInstance
  pairing_deps : List PairingParticipantDependency
  /-- A manifest with a link id twice does not parse. -/
  link_ids_nodup : (pairing_deps.map (·.link_id)).Nodup := by decide
  preexisting : Bool

structure PlannedPairEndpoint where
  instance_id : String
  link_id : String
  role : String
  cardinality : Cardinality

def PlannedPairEndpoint.slot (endpoint : PlannedPairEndpoint) : Slot :=
  (endpoint.instance_id, endpoint.link_id)

/-- A pair of the plan. `a` is the side that declared it. -/
structure PlannedPairing where
  pairing_name : String
  pairing_tag : String
  a : PlannedPairEndpoint
  b : PlannedPairEndpoint

abbrev AlreadyPairedSlots := Slot → List Slot

abbrev ExternallyCoveredSlots := List Slot

abbrev Claims := List (Slot × Slot)

def Claims.get (claims : Claims) (slot : Slot) : List Slot :=
  (claims.filter fun claim => claim.1 = slot).map Prod.snd

def shape_error (violation : CardinalityShapeViolation) (owner_id key : String) : ParsingError :=
  match violation with
  | .ArrayOnScalarSlot _ | .SingleSlotMultipleTargets .. => .LinkTargetNotScalar owner_id key
  | .ScalarOnMultiSlot cardinality => .PairingScalarOnMultiSlot owner_id key cardinality
  | .Unmet => .PairingCardinalityUnmet owner_id key

structure PairDeclaration where
  owner_id : String
  own_dep : PairingParticipantDependency
  key : String
  target : String

variable (items : List PairingValidationItem)

def build_instance_lookup (instance_id : String) : Option PairingValidationItem :=
  items.find? fun item => item.instances.any fun entry => entry.instance_id = instance_id

def peer_label (instance_id link_id : String) : String := instance_id ++ ":" ++ link_id

def peers_of (slot : Slot) (claims : Claims) (already_paired : AlreadyPairedSlots) : List Slot :=
  claims.get slot ++ already_paired slot

def link_declarations (owner_id : String) (pairing_deps : List PairingParticipantDependency)
    (link : String × LinkValue) : Except ParsingError (List PairDeclaration) :=
  match pairing_deps.find? fun dep => dep.link_id = link.1 with
  | none => .ok []
  | some own_dep =>
    match link.2.selection with
    | none => .ok []
    | some selection =>
      match check_cardinality_shape own_dep.cardinality selection with
      | .error violation => .error (shape_error violation owner_id link.1)
      | .ok () => .ok (selection.targets.map fun target =>
          { owner_id, own_dep, key := link.1, target })

structure PlanLink where
  item : PairingValidationItem
  entry : DeploymentInstance
  link : String × LinkValue

def plan_links : List PlanLink :=
  (items.filter fun item => !item.preexisting).flatMap fun item =>
    item.instances.flatMap fun entry => entry.links.map fun link => ⟨item, entry, link⟩

def plan_declarations : List (Except ParsingError (List PairDeclaration)) :=
  (plan_links items).map fun planned =>
    link_declarations planned.entry.instance_id planned.item.pairing_deps planned.link

def errorOf {α : Type} : Except ParsingError α → Option ParsingError
  | .error e => some e
  | .ok _ => none

def declarationsOf : Except ParsingError (List PairDeclaration) → List PairDeclaration
  | .error _ => []
  | .ok declarations => declarations

def PairDeclaration.order (declaration : PairDeclaration) : String ×ₗ String :=
  toLex (declaration.owner_id, declaration.key)

def declarations : List PairDeclaration :=
  sortByKey PairDeclaration.order ((plan_declarations items).flatMap declarationsOf)

def agrees (target_instance : String) (requested_peer_link : Option String) (peer : Slot) : Bool :=
  peer.1 = target_instance && requested_peer_link.all fun link => link = peer.2

/-- The slots of the same pairing and another role. -/
def complementary (own_dep : PairingParticipantDependency) (target_item : PairingValidationItem) :
    List PairingParticipantDependency :=
  target_item.pairing_deps.filter fun dep =>
    dep.name = own_dep.name && dep.tag = own_dep.tag && dep.role ≠ own_dep.role

/-- A scalar slot is open while it has no peer, a multi slot always is. -/
def slot_open (target_instance : String) (claims : Claims) (already_paired : AlreadyPairedSlots)
    (dep : PairingParticipantDependency) : Bool :=
  !dep.cardinality.is_scalar ||
    (peers_of (target_instance, dep.link_id) claims already_paired).isEmpty

section
variable (declaration : PairDeclaration) (claims : Claims) (already_paired : AlreadyPairedSlots)

variable (target_instance : String) (target_item : PairingValidationItem)

def not_complementary : ParsingError :=
  .PairingTargetNotComplementary declaration.owner_id declaration.key target_instance
    target_item.node_name target_item.node_tag declaration.own_dep.name.as_str
    declaration.own_dep.tag declaration.own_dep.role

def none_open : ParsingError :=
  let slots := complementary declaration.own_dep target_item
  match slots.findSome? fun dep =>
      (claims.get (target_instance, dep.link_id)).head?.map fun peer => (dep.link_id, peer) with
  | some (taken_link, peer) =>
    .PairingConflict target_instance taken_link (peer.1 ++ "/" ++ peer.2) declaration.owner_id
      declaration.key declaration.target
  | none =>
    match slots.findSome? fun dep =>
        (already_paired (target_instance, dep.link_id)).head?.map fun peer =>
          (dep.link_id, peer_label peer.1 peer.2) with
    | some (taken_link, existing_peer) =>
      .PairingSlotAlreadyPaired target_instance taken_link existing_peer
    | none => not_complementary declaration target_instance target_item

/-- The slot of the target that the declaration names, or the one that is
open. -/
def resolve_peer_link (requested_peer_link : Option String)
    (target_item : PairingValidationItem) : Except ParsingError String :=
  let slots := complementary declaration.own_dep target_item
  match requested_peer_link with
  | some peer_link =>
    match slots.find? fun dep => dep.link_id = peer_link with
    | none => .error (not_complementary declaration target_instance target_item)
    | some dep => .ok dep.link_id
  | none =>
    match slots.filter (slot_open target_instance claims already_paired) with
    | [] => .error (none_open declaration claims already_paired target_instance target_item)
    | [single] => .ok single.link_id
    | several => .error (.PairingTargetAmbiguous declaration.owner_id declaration.key
        target_instance declaration.own_dep.name.as_str declaration.own_dep.tag
        (", ".intercalate (several.map (·.link_id))))

def check_exclusive (target_instance resolved_peer_link : String)
    (peer_dep : PairingParticipantDependency) : Except ParsingError Unit :=
  let own_slot : Slot := (declaration.owner_id, declaration.key)
  let peer_slot : Slot := (target_instance, resolved_peer_link)
  let held := peers_of peer_slot claims already_paired
  match (if peer_dep.cardinality.is_scalar then held.head? else none) with
  | some peer =>
    .error (.PairingSlotAlreadyPaired target_instance resolved_peer_link
      (peer_label peer.1 peer.2))
  | none =>
    if !peer_dep.cardinality.is_scalar && held.contains own_slot then
      .error (.PairAlreadyHeld target_instance resolved_peer_link
        (peer_label declaration.owner_id declaration.key))
    else if (peers_of own_slot claims already_paired).contains peer_slot then
      .error (.PairAlreadyHeld declaration.owner_id declaration.key
        (peer_label target_instance resolved_peer_link))
    else .ok ()

def check_pins (peer_dep : PairingParticipantDependency) : Except ParsingError Unit :=
  match declaration.own_dep.sha256, peer_dep.sha256 with
  | some sha_own, some sha_peer =>
    if sha_own ≠ sha_peer then
      .error (.PairingSha256Mismatch declaration.owner_id sha_own target_instance sha_peer
        declaration.own_dep.name.as_str declaration.own_dep.tag)
    else .ok ()
  | _, _ => .ok ()

/-- A new pair, `none` where one agrees, or the rule that is broken. -/
def resolve_pair_declaration (items : List PairingValidationItem) :
    Except ParsingError (Option PlannedPairing) := do
  let (target_instance, requested_peer_link) := split_link_target declaration.target
  let own_dep := declaration.own_dep
  let own_slot : Slot := (declaration.owner_id, declaration.key)
  match build_instance_lookup items target_instance with
  | none => .error (.UnknownInstanceId declaration.owner_id declaration.key target_instance)
  | some target_item =>
    if (claims.get own_slot).any (agrees target_instance requested_peer_link) then .ok none
    else
      match (if own_dep.cardinality.is_scalar then (claims.get own_slot).head? else none) with
      | some claimed => .error (.PairingConflict claimed.1 claimed.2
          (declaration.owner_id ++ "/" ++ declaration.key) declaration.owner_id declaration.key
          declaration.target)
      | none =>
        match (if own_dep.cardinality.is_scalar then (already_paired own_slot).head? else none) with
        | some peer => .error (.PairingSlotAlreadyPaired declaration.owner_id declaration.key
            (peer_label peer.1 peer.2))
        | none => do
          let resolved_peer_link ← resolve_peer_link declaration claims already_paired
            target_instance requested_peer_link target_item
          match target_item.pairing_deps.find? fun dep => dep.link_id = resolved_peer_link with
          -- The resolved slot is one of the target.
          | none => .error (not_complementary declaration target_instance target_item)
          | some peer_dep => do
            check_exclusive declaration claims already_paired target_instance resolved_peer_link
              peer_dep
            check_pins declaration target_instance peer_dep
            .ok (some {
              pairing_name := own_dep.name.as_str
              pairing_tag := own_dep.tag
              a := { instance_id := declaration.owner_id, link_id := declaration.key,
                     role := own_dep.role, cardinality := own_dep.cardinality }
              b := { instance_id := target_instance, link_id := resolved_peer_link,
                     role := peer_dep.role, cardinality := peer_dep.cardinality } })

end

structure PairPlan where
  claims : Claims := []
  errors : List ParsingError := []
  planned : List PlannedPairing := []

variable (items : List PairingValidationItem) (already_paired : AlreadyPairedSlots)

def PairPlan.declare (plan : PairPlan) (declaration : PairDeclaration) : PairPlan :=
  match resolve_pair_declaration declaration plan.claims already_paired items with
  | .ok (some pair) =>
    { plan with
      claims := plan.claims ++ [(pair.a.slot, pair.b.slot), (pair.b.slot, pair.a.slot)]
      planned := plan.planned ++ [pair] }
  | .ok none => plan
  | .error e => { plan with errors := plan.errors ++ [e] }

def validate_coverage (claims : Claims)
    (externally_covered : ExternallyCoveredSlots) : List ParsingError :=
  (items.filter fun item => !item.preexisting).flatMap fun item =>
    item.instances.flatMap fun entry =>
      item.pairing_deps.filterMap fun dep =>
        let slot : Slot := (entry.instance_id, dep.link_id)
        if allows_empty dep.cardinality || !(claims.get slot).isEmpty ||
            externally_covered.contains slot ||
            (entry.links.lookup dep.link_id).any (·.vacancy.isSome) then none
        else some (.PairingSlotUncovered entry.instance_id dep.link_id dep.name.as_str dep.tag
          dep.role dep.cardinality)

structure ValidatedPairings where
  errors : List ParsingError
  planned : List PlannedPairing

def pairPlan : PairPlan :=
  (declarations items).foldl (PairPlan.declare items already_paired) {}

def validate_pairings (externally_covered : ExternallyCoveredSlots) : ValidatedPairings :=
  let plan := pairPlan items already_paired
  { errors := (plan_declarations items).filterMap errorOf ++ plan.errors ++
      validate_coverage items plan.claims externally_covered
    planned := plan.planned }

end peppy.launcher
