-- The node stack: the nodes with their dependency edges, the requirements that wait,
-- and the pairs. Every function here is one section under the lock of the stack.
import Peppy.Lib.StableDiGraph
import Peppy.NodeEntity
import Peppy.ServiceActionCycle

open digraph stable_graph
open peppy.node_config peppy.pairing peppy.supervision peppy.entity peppy.service_action_cycle

namespace peppy.node_stack

structure NodeKey where
  name : String
  tag : String
  deriving DecidableEq

def NodeKey.new (name tag : String) : NodeKey := ⟨trim name, trim tag⟩

def key_from_entity (entity : NodeEntity) : NodeKey :=
  NodeKey.new entity.config.manifest.name.as_str entity.config.manifest.tag

def dependency_keys (node : NodeConfig) : List NodeKey :=
  (collect_dependency_specs node).map fun spec => NodeKey.new spec.node_name spec.node_tag

/-- A node behind its lock, with the identity of its `Arc`. -/
structure EntityHandle where
  arc : Nat
  entity : NodeEntity

structure NodeStackInner where
  graph : StableDiGraph EntityHandle
  key_to_index : NodeKey → Option Nat
  pending_requirements : NodeKey → Option (List Nat)
  root_key : NodeKey
  pairing_registry : PairingRegistry

/-- What an insert draws: an index of the graph and a new `Arc`. -/
structure Fresh where
  index : Nat
  arc : Nat

namespace NodeStackInner

def is_root (s : NodeStackInner) (key : NodeKey) : Bool := s.root_key = key

def find (s : NodeStackInner) (key : NodeKey) : Option EntityHandle :=
  (s.key_to_index key).bind s.graph.node_weight

/-! ## The wiring -/

/-- The dependant leaves its entry, which is dropped when empty. -/
def clear_pending_requirements_for (s : NodeStackInner) (dependant : Nat) : NodeStackInner :=
  { s with
    pending_requirements := fun key =>
      match s.pending_requirements key with
      | none => none
      | some pending =>
        let pending := pending.filter (· ≠ dependant)
        if pending.isEmpty then none else some pending }

def register_pending_requirement (s : NodeStackInner) (dep_key : NodeKey) (dependant : Nat) :
    NodeStackInner :=
  let entry := (s.pending_requirements dep_key).getD []
  { s with
    pending_requirements :=
      Function.update s.pending_requirements dep_key
        (some (if dependant ∈ entry then entry else entry ++ [dependant])) }

def try_attach_edge (s : NodeStackInner) (dependant_index : Nat) (dep_key : NodeKey) :
    Bool × NodeStackInner :=
  match s.key_to_index dep_key with
  | none => (false, s)
  | some dependency_index =>
    if s.graph.find_edge dependant_index dependency_index then (true, s)
    else (true, { s with graph := s.graph.add_edge dependant_index dependency_index })

def attach_dependency (index : Nat) (s : NodeStackInner) (dep_key : NodeKey) : NodeStackInner :=
  match s.try_attach_edge index dep_key with
  | (true, s) => s
  | (false, s) => s.register_pending_requirement dep_key index

def attach_dependencies (s : NodeStackInner) (index : Nat) : NodeStackInner :=
  match s.graph.node_weight index with
  | none => s
  | some handle =>
    (dependency_keys handle.entity.config).foldl (attach_dependency index)
      (s.clear_pending_requirements_for index)

def rewire_dependencies (s : NodeStackInner) (index : Nat) : NodeStackInner :=
  attach_dependencies { s with graph := s.graph.remove_outgoing_edges index } index

/-- The edges that attach, and the dependants that stay. -/
def attach_pending (key : NodeKey) :
    List Nat → NodeStackInner → List Nat → NodeStackInner × List Nat
  | [], s, remaining => (s, remaining)
  | dependant_index :: rest, s, remaining =>
    match s.try_attach_edge dependant_index key with
    | (true, s) => attach_pending key rest s remaining
    | (false, s) => attach_pending key rest s (remaining ++ [dependant_index])

def resolve_pending_requirements (s : NodeStackInner) (key : NodeKey) : NodeStackInner :=
  match s.key_to_index key with
  | none => s
  | some _ =>
    match s.pending_requirements key with
    | none => s
    | some pending =>
      let s := { s with pending_requirements := Function.update s.pending_requirements key none }
      let (s, remaining) := attach_pending key pending s []
      if remaining.isEmpty then s
      else
        { s with
          pending_requirements := Function.update s.pending_requirements key (some remaining) }

def insert_new_entity (s : NodeStackInner) (entity : NodeEntity) (fresh : Fresh) : NodeStackInner :=
  let key := key_from_entity entity
  let s :=
    { s with
      graph := s.graph.add_node fresh.index ⟨fresh.arc, entity⟩
      key_to_index := Function.update s.key_to_index key (some fresh.index) }
  (s.rewire_dependencies fresh.index).resolve_pending_requirements key

/-! ## The checks of a candidate -/

/-- Every node but the one of the candidate's key, then the candidate. -/
def cycle_view (s : NodeStackInner) (entity : NodeEntity) : List CycleCheckNode :=
  let candidate_key := key_from_entity entity
  let candidate_index := s.key_to_index candidate_key
  (s.graph.node_indices.filterMap fun index =>
    if some index = candidate_index then none
    else
      (s.graph.node_weight index).map fun handle =>
        let key := key_from_entity handle.entity
        ⟨key.name, key.tag, handle.entity.config⟩) ++
    [⟨candidate_key.name, candidate_key.tag, entity.config⟩]

variable (tarjan_scc : SccAlgorithm Nat)

variable (s : NodeStackInner)

def validate_no_service_action_cycle (entity : NodeEntity) : Except Error Unit :=
  match find_service_action_cycle tarjan_scc (s.cycle_view entity) with
  | some cycle =>
    .error (.ServiceActionContractCycle cycle.nodes cycle.closing_dependency
      cycle.kind.to_string)
  | none => .ok ()

def validate_dependencies (entity : NodeEntity) : Except Error Unit :=
  let errors := validate_dependency_specs entity.config.manifest entity.config.interfaces
    entity.config.manifest.name.as_str entity.config.manifest.tag
    .AllowAbsentWhenSlotAdmitsEmpty fun name tag =>
      (s.find (NodeKey.new name tag)).map (·.entity.config)
  match errors with
  | err :: _ => .error (.Parsing err)
  | [] => s.validate_no_service_action_cycle tarjan_scc entity

def validate_candidate (entity : NodeEntity)
    (allow_missing_dependencies : Bool) : Except Error Unit :=
  if allow_missing_dependencies then s.validate_no_service_action_cycle tarjan_scc entity
  else s.validate_dependencies tarjan_scc entity

/-! ## Push, remove and clear -/

def has_dependents (index : Nat) (key : NodeKey) : Bool :=
  !(s.graph.incoming_neighbors index).isEmpty ||
    (s.pending_requirements key).any fun requirements => !requirements.isEmpty

def replace_entity (index : Nat) (handle : EntityHandle) (entity : NodeEntity) : NodeStackInner :=
  { s with graph := s.graph.set_weight index { handle with entity } }

/-- `none` never returns: a node that depends on itself is read under its own lock. -/
def push_entity (entity : NodeEntity) (allow_missing_dependencies : Bool)
    (fresh : Fresh) : Option (Except Error Unit × NodeStackInner) :=
  let key := key_from_entity entity
  if s.is_root key then some (.error .CannotModifyRootNode, s)
  else
    match s.key_to_index key with
    | none =>
      match s.validate_candidate tarjan_scc entity allow_missing_dependencies with
      | .error err => some (.error err, s)
      | .ok () => some (.ok (), s.insert_new_entity entity fresh)
    | some index =>
      match s.graph.node_weight index with
      | none => some (.ok (), s)
      | some handle =>
        if handle.entity.instances ≠ [] then
          some (.error (.CannotOverwriteNodeWithLiveInstances key.name key.tag), s)
        else
          let stored := handle.entity.config
          let interfaces_changed := stored.interfaces ≠ entity.config.interfaces
          let dependencies_changed := dependency_keys stored ≠ dependency_keys entity.config
          if interfaces_changed ∧ s.has_dependents index key = true then
            some (.error (.CannotOverwriteNodeWithDependents key.name key.tag), s)
          else if interfaces_changed ∨ dependencies_changed then
            if allow_missing_dependencies = false ∧ key ∈ dependency_keys entity.config then none
            else
              match s.validate_candidate tarjan_scc entity allow_missing_dependencies with
              | .error err => some (.error err, s)
              | .ok () =>
                some (.ok (), (s.replace_entity index handle entity).rewire_dependencies index)
          else some (.ok (), s.replace_entity index handle entity)

def remove_entity (key : NodeKey) : NodeStackInner :=
  match s.key_to_index key with
  | none => s
  | some index =>
    let dependants := (s.graph.incoming_neighbors index).filter (· ≠ index)
    let s :=
      { s with
        key_to_index := Function.update s.key_to_index key none
        graph := s.graph.remove_node index }
    dependants.foldl (fun s dependant => s.register_pending_requirement key dependant)
      (s.clear_pending_requirements_for index)

/-- `none` is the panic of a stack without its root. -/
def clear (index : Nat) : Option NodeStackInner :=
  match s.find s.root_key with
  | none => none
  | some root_handle =>
    some
      { s with
        graph := StableDiGraph.empty.add_node index root_handle
        key_to_index := Function.update (fun _ => none) s.root_key (some index)
        pending_requirements := fun _ => none
        pairing_registry := {} }

end NodeStackInner

/-- The node that stands for the daemon itself. It has no dependencies. -/
structure RootNode where
  config : NodeConfig
  root : TrackedNodeInstance
  generation : Nat
  no_dependencies : config.manifest.depends_on = none

def RootNode.entity (r : RootNode) : NodeEntity := .root r.config r.root r.generation

def NodeStackInner.empty (root_key : NodeKey) : NodeStackInner where
  graph := StableDiGraph.empty
  key_to_index := fun _ => none
  pending_requirements := fun _ => none
  root_key
  pairing_registry := {}

/-- A fresh stack. `none` is the panic of a root that the dependency check
refuses. -/
def NodeStackInner.new (tarjan_scc : SccAlgorithm Nat) (r : RootNode) (fresh : Fresh) :
    Option NodeStackInner :=
  let s := NodeStackInner.empty (key_from_entity r.entity)
  match s.validate_dependencies tarjan_scc r.entity with
  | .error _ => none
  | .ok () => some (s.insert_new_entity r.entity fresh)

end peppy.node_stack
