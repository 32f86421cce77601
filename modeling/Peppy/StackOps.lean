-- The operations that the stack offers: adding and removing nodes, and making,
-- listing and dissolving pairs, with the changes of single nodes between them.
import Peppy.StackWiring

open digraph stable_graph runs
open peppy.node_config peppy.pairing peppy.supervision peppy.entity peppy.service_action_cycle

namespace peppy.node_stack

namespace NodeStackInner

/-! ## The pairs -/

structure EndpointMeta where
  name : String
  tag : String
  role : String
  sha256 : Option String
  cardinality : Cardinality
  copy : Option Name

variable (s : NodeStackInner)

/-- The name of the daemon, from the root node, which always stays. -/
def root_core_node_name : String :=
  match s.find s.root_key with
  | none => ""
  | some handle => handle.entity.config.manifest.name.as_str

def tracked (instance_id : String) : Option (TrackedNodeInstance × NodeEntity) :=
  s.graph.node_weights.findSome? fun handle =>
    (handle.entity.instances.find? fun inst => inst.instance_id.as_str == instance_id).map
      fun inst => (inst, handle.entity)

def live_instance_ids_for_pairing : List String :=
  s.graph.node_weights.flatMap fun handle =>
    (handle.entity.instances.filter fun inst => inst.state.has_process).map
      fun inst => inst.instance_id.as_str

def pairing_slot_meta (slot : SlotAddr) : Except Error PairingParticipantDependency :=
  match s.tracked slot.instance_id with
  | none => .error (.PairingInstanceNotInStack slot.instance_id)
  | some (inst, entity) =>
    if inst.state.has_process then
      match entity.config.manifest.depends_on.bind fun depends_on =>
          depends_on.pairings.find? fun participant => participant.link_id == slot.link_id with
      | none => .error (.PairingSlotNotFound slot.instance_id slot.link_id)
      | some dep => .ok dep
    else .error (.PairingInstanceWithoutProcess slot.instance_id inst.state)

def instance_copy (instance_id : String) : Option Name :=
  (s.tracked instance_id).bind fun found => found.1.copy

def resolve_endpoint_meta (slot : SlotAddr)
    (remote_meta : Option RemoteSlotMeta) : Except Error EndpointMeta :=
  match remote_meta with
  | some m => .ok ⟨m.pairing_name, m.pairing_tag, m.role, none, m.cardinality, m.copy⟩
  | none =>
    if slot.is_on s.root_core_node_name then
      match s.pairing_slot_meta slot with
      | .error err => .error err
      | .ok dep =>
        .ok ⟨dep.name.as_str, dep.tag, dep.role, dep.sha256, dep.cardinality,
          s.instance_copy slot.instance_id⟩
    else .error (.PairingInstanceNotInStack slot.instance_id)

def prune_dead_pairs : NodeStackInner :=
  if s.pairing_registry.pairs.isEmpty then s
  else
    let liveness := s.live_instance_ids_for_pairing
    { s with
      pairing_registry :=
        s.pairing_registry.prune_dead s.root_core_node_name fun id => id ∈ liveness }

def scalar_slot_taken (r : PairingRegistry) (slot : SlotAddr) (m : EndpointMeta) : Option Error :=
  if m.cardinality.is_scalar then
    match r.find_by_slot slot with
    | none => none
    | some existing =>
      some (.PairingSlotAlreadyPaired slot.to_string
        (((existing.peer_of slot).map fun peer => peer.slot.to_string).getD ""))
  else none

def pair_slots_impl (a : SlotAddr) (a_remote_meta : Option RemoteSlotMeta)
    (b : SlotAddr) (b_remote_meta : Option RemoteSlotMeta) :
    Except Error Pairing × NodeStackInner :=
  match s.resolve_endpoint_meta a a_remote_meta with
  | .error err => (.error err, s)
  | .ok dep_a =>
    match s.resolve_endpoint_meta b b_remote_meta with
    | .error err => (.error err, s)
    | .ok dep_b =>
      if dep_a.name ≠ dep_b.name ∨ dep_a.tag ≠ dep_b.tag then
        (.error (.PairingMismatch a.to_string dep_a.name dep_a.tag b.to_string dep_b.name
          dep_b.tag), s)
      else if dep_a.role = dep_b.role then
        (.error (.PairingRolesNotComplementary a.to_string b.to_string dep_a.role dep_a.name
          dep_a.tag), s)
      else
        match dep_a.sha256, dep_b.sha256 with
        | some sha_a, some sha_b =>
          if sha_a ≠ sha_b then
            (.error (.PairingShaMismatch a.to_string sha_a b.to_string sha_b dep_a.name dep_a.tag),
              s)
          else record_pair s a dep_a b dep_b
        | _, _ => record_pair s a dep_a b dep_b
where
  /-- The end of the function: the pair is recorded if its slots are free. -/
  record_pair (s : NodeStackInner) (a : SlotAddr) (dep_a : EndpointMeta) (b : SlotAddr)
      (dep_b : EndpointMeta) : Except Error Pairing × NodeStackInner :=
    let s := s.prune_dead_pairs
    match s.pairing_registry.find_pair a b with
    | some _ => (.error (.PairAlreadyHeld a.to_string b.to_string), s)
    | none =>
      match scalar_slot_taken s.pairing_registry a dep_a with
      | some err => (.error err, s)
      | none =>
        match scalar_slot_taken s.pairing_registry b dep_b with
        | some err => (.error err, s)
        | none =>
          let pairing : Pairing :=
            ⟨dep_a.name, dep_a.tag, ⟨a, dep_a.role, dep_a.copy⟩, ⟨b, dep_b.role, dep_b.copy⟩⟩
          (.ok pairing, { s with pairing_registry := s.pairing_registry.insert pairing })

/-! ## The operations -/

section
variable (tarjan_scc : SccAlgorithm Nat)

def push_config (s : NodeStackInner) (config : NodeConfig) (allow_missing_dependencies : Bool)
    (generation : Nat) (fresh : Fresh) : Option (Except Error Unit × NodeStackInner) :=
  s.push_entity tarjan_scc (.new config generation) allow_missing_dependencies fresh

def push_built_in (s : NodeStackInner) (config : NodeConfig) (generation : Nat) (fresh : Fresh) :
    Option (Except Error Unit × NodeStackInner) :=
  s.push_entity tarjan_scc (.built_in config generation) false fresh

end

variable (s : NodeStackInner)

def remove_config (name tag : String) : Except Error Bool × NodeStackInner :=
  let key := NodeKey.new name tag
  if s.is_root key then (.error .CannotModifyRootNode, s)
  else
    match s.find key with
    | none => (.ok false, s)
    | some handle =>
      if handle.entity.instances ≠ [] then
        (.error (.CannotRemoveNodeWithInstances name tag), s)
      else (.ok true, s.remove_entity key)

/-- The node of the key, if it is the one of the handle and not the root. -/
def resolve_matching_slot (key : NodeKey) (expected_handle : Nat) : Option EntityHandle :=
  if s.is_root key then none
  else
    match s.find key with
    | none => none
    | some current => if current.arc = expected_handle then some current else none

def remove_config_if_matches (name tag : String)
    (expected_handle expected_generation : Nat) : Bool × NodeStackInner :=
  let key := NodeKey.new name tag
  match s.resolve_matching_slot key expected_handle with
  | none => (false, s)
  | some current =>
    if current.entity.generation = expected_generation ∧ current.entity.stage = .Building then
      (true, s.remove_entity key)
    else (false, s)

def reset (index : Nat) : Option NodeStackInner := s.clear index

def pair_slots (a b : SlotAddr) : Except Error Pairing × NodeStackInner :=
  s.pair_slots_impl a none b none

def pair_slot_with_remote (own remote : SlotAddr)
    (remote_meta : RemoteSlotMeta) : Except Error Pairing × NodeStackInner :=
  s.pair_slots_impl own none remote (some remote_meta)

def clear_pair (a b : SlotAddr) : Option Pairing × NodeStackInner :=
  let (pair, registry) := s.pairing_registry.remove_pair a b
  (pair, { s with pairing_registry := registry })

def pairs (s : NodeStackInner) : List Pairing × NodeStackInner :=
  let s := s.prune_dead_pairs
  (s.pairing_registry.pairs, s)

def dissolve_pairs_for_remote_instance (core_node instance_id : String) :
    List Pairing × NodeStackInner :=
  let (dissolved, registry) := s.pairing_registry.remove_for_instance core_node instance_id
  (dissolved, { s with pairing_registry := registry })

def dissolve_pairs_for_instance (instance_id : String) : List Pairing × NodeStackInner :=
  s.dissolve_pairs_for_remote_instance s.root_core_node_name instance_id

end NodeStackInner

open NodeStackInner

/-- One operation of a run. `set_stage` is what happens to a node under its
own lock. -/
inductive Op where
  | push_config (config : NodeConfig) (allow_missing_dependencies : Bool) (generation : Nat)
      (fresh : Fresh)
  | push_built_in (config : NodeConfig) (generation : Nat) (fresh : Fresh)
  | remove_config (name tag : String)
  | remove_config_if_matches (name tag : String) (expected_handle expected_generation : Nat)
  | reset (index : Nat)
  | set_stage (index : Nat) (stage : NodeStage)
  | pair_slots (a b : SlotAddr)
  | pair_slot_with_remote (own remote : SlotAddr) (remote_meta : RemoteSlotMeta)
  | clear_pair (a b : SlotAddr)
  | pairs
  | dissolve_pairs_for_instance (instance_id : String)
  | dissolve_pairs_for_remote_instance (core_node instance_id : String)

def step (tarjan_scc : SccAlgorithm Nat) (s : NodeStackInner) : Op → Option NodeStackInner
  | .push_config config allow generation fresh =>
    match s.graph.node_weight fresh.index with
    | some _ => none
    | none => (s.push_config tarjan_scc config allow generation fresh).map (·.2)
  | .push_built_in config generation fresh =>
    match s.graph.node_weight fresh.index with
    | some _ => none
    | none => (s.push_built_in tarjan_scc config generation fresh).map (·.2)
  | .remove_config name tag => some (s.remove_config name tag).2
  | .remove_config_if_matches name tag handle generation =>
    some (s.remove_config_if_matches name tag handle generation).2
  | .reset index => s.reset index
  | .set_stage index stage => some (s.set_stage index stage)
  | .pair_slots a b => some (s.pair_slots a b).2
  | .pair_slot_with_remote own remote remote_meta =>
    some (s.pair_slot_with_remote own remote remote_meta).2
  | .clear_pair a b => some (s.clear_pair a b).2
  | .pairs => some s.pairs.2
  | .dissolve_pairs_for_instance instance_id =>
    some (s.dissolve_pairs_for_instance instance_id).2
  | .dissolve_pairs_for_remote_instance core_node instance_id =>
    some (s.dissolve_pairs_for_remote_instance core_node instance_id).2

/-! ## What an operation can change -/

variable (s : NodeStackInner)

theorem prune_dead_pairs_eq : ∃ r, s.prune_dead_pairs = { s with pairing_registry := r } := by
  unfold prune_dead_pairs
  split
  · exact ⟨s.pairing_registry, rfl⟩
  · exact ⟨_, rfl⟩

theorem record_pair_eq (a : SlotAddr) (dep_a : EndpointMeta) (b : SlotAddr) (dep_b : EndpointMeta) :
    ∃ r, (pair_slots_impl.record_pair s a dep_a b dep_b).2 = { s with pairing_registry := r } := by
  obtain ⟨r, hr⟩ := prune_dead_pairs_eq s
  unfold pair_slots_impl.record_pair
  simp only [hr]
  split
  · exact ⟨r, rfl⟩
  split
  · exact ⟨r, rfl⟩
  · split
    · exact ⟨r, rfl⟩
    · exact ⟨_, rfl⟩

theorem pair_slots_impl_eq (a : SlotAddr) (am : Option RemoteSlotMeta)
    (b : SlotAddr) (bm : Option RemoteSlotMeta) :
    ∃ r, (s.pair_slots_impl a am b bm).2 = { s with pairing_registry := r } := by
  have hsame : ∃ r, s = { s with pairing_registry := r } := ⟨s.pairing_registry, rfl⟩
  unfold pair_slots_impl
  split
  · exact hsame
  split
  · exact hsame
  split
  · exact hsame
  split
  · exact hsame
  split
  · split
    · exact hsame
    · exact record_pair_eq ..
  · exact record_pair_eq ..

theorem remove_config_eq (name tag : String) : (s.remove_config name tag).2 = s ∨
    (NodeKey.new name tag ≠ s.root_key ∧
        (s.remove_config name tag).2 = s.remove_entity (NodeKey.new name tag)) := by
  unfold remove_config
  simp only
  split
  · exact .inl rfl
  rename_i hroot
  split
  · exact .inl rfl
  · split
    · exact .inl rfl
    · exact .inr ⟨fun h => hroot (by simp [is_root, h]), rfl⟩

theorem remove_config_if_matches_eq (name tag : String) (handle generation : Nat) :
    (s.remove_config_if_matches name tag handle generation).2 = s ∨
    (NodeKey.new name tag ≠ s.root_key ∧ (s.remove_config_if_matches name tag handle generation).2 =
          s.remove_entity (NodeKey.new name tag)) := by
  unfold remove_config_if_matches
  simp only
  split
  · exact .inl rfl
  rename_i current hm
  split
  · refine Or.inr ⟨fun h => ?_, rfl⟩
    simp [resolve_matching_slot, is_root, h] at hm
  · exact .inl rfl

theorem step_cases {tarjan_scc : SccAlgorithm Nat} {s s' : NodeStackInner} {op : Op}
    (h : step tarjan_scc s op = some s') :
    (∃ entity allow fresh res, s.graph.node_weight fresh.index = none ∧
      s.push_entity tarjan_scc entity allow fresh = some (res, s') ∧
      ((∃ generation, op = .push_config entity.config allow generation fresh) ∨
        ∃ generation, op = .push_built_in entity.config generation fresh)) ∨
    (∃ key, key ≠ s.root_key ∧ s' = s.remove_entity key) ∨
    (∃ index, op = .reset index ∧ s.clear index = some s') ∨
    (∃ index stage, s' = s.set_stage index stage) ∨
    ∃ r, s' = { s with pairing_registry := r } := by
  cases op with
  | push_config config allow generation fresh =>
    simp only [step] at h
    split at h
    · cases h
    · rename_i hfresh
      obtain ⟨⟨res, t⟩, ht, rfl⟩ := Option.map_eq_some_iff.mp h
      exact .inl ⟨_, allow, fresh, res, hfresh, ht, .inl ⟨generation, rfl⟩⟩
  | push_built_in config generation fresh =>
    simp only [step] at h
    split at h
    · cases h
    · rename_i hfresh
      obtain ⟨⟨res, t⟩, ht, rfl⟩ := Option.map_eq_some_iff.mp h
      exact .inl ⟨_, false, fresh, res, hfresh, ht, .inr ⟨generation, rfl⟩⟩
  | remove_config name tag =>
    cases h
    rcases remove_config_eq s name tag with h | ⟨hr, h⟩
    · exact .inr (.inr (.inr (.inr ⟨s.pairing_registry, h⟩)))
    · exact .inr (.inl ⟨_, hr, h⟩)
  | remove_config_if_matches name tag handle generation =>
    cases h
    rcases remove_config_if_matches_eq s name tag handle generation with h | ⟨hr, h⟩
    · exact .inr (.inr (.inr (.inr ⟨s.pairing_registry, h⟩)))
    · exact .inr (.inl ⟨_, hr, h⟩)
  | reset index => exact .inr (.inr (.inl ⟨index, rfl, h⟩))
  | set_stage index stage =>
    cases h
    exact .inr (.inr (.inr (.inl ⟨index, stage, rfl⟩)))
  | pair_slots a b =>
    cases h
    exact .inr (.inr (.inr (.inr (pair_slots_impl_eq s a none b none))))
  | pair_slot_with_remote own remote m =>
    cases h
    exact .inr (.inr (.inr (.inr (pair_slots_impl_eq s own none remote (some m)))))
  | pairs =>
    cases h
    exact .inr (.inr (.inr (.inr (prune_dead_pairs_eq s))))
  | clear_pair a b | dissolve_pairs_for_instance id | dissolve_pairs_for_remote_instance core id =>
    cases h
    exact .inr (.inr (.inr (.inr ⟨_, rfl⟩)))

theorem wired_pairs {s : NodeStackInner} (h : Wired s) (r : PairingRegistry) :
    Wired { s with pairing_registry := r } :=
  ⟨h.keys, h.edges, h.edges_nodup, h.pending, h.pending_ok, h.root_free⟩

theorem wired_op {tarjan_scc : SccAlgorithm Nat} (s : NodeStackInner) (op : Op)
    (s' : NodeStackInner) (h : Wired s) (hs : step tarjan_scc s op = some s') : Wired s' := by
  rcases step_cases hs with ⟨entity, allow, fresh, res, hfresh, hp, _⟩ | ⟨key, _, rfl⟩ |
    ⟨index, _, hc⟩ | ⟨index, stage, rfl⟩ | ⟨r, rfl⟩
  · exact wired_push h hfresh hp
  · exact wired_remove h key
  · exact wired_clear h hc
  · exact wired_set_stage h index stage
  · exact wired_pairs h r

end peppy.node_stack
