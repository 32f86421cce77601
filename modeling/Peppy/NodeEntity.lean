-- A node of the stack with its stage and its slots, and the operations on
-- it. Each operation is one section under the lock of the node.
import Peppy.InstanceSlot
import Peppy.Lib.Changes

open changes peppy.node_config peppy.pairing peppy.supervision

namespace peppy.entity

inductive Error where
  | PairingSlotNotFound (instance_id link_id : String)
  | PairingInstanceNotInStack (instance_id : String)
  | PairingInstanceWithoutProcess (instance_id : String) (state : InstanceState)
  | PairingSlotAlreadyPaired (slot peer : String)
  | PairAlreadyHeld (slot peer : String)
  | PairingRolesNotComplementary (a b role name tag : String)
  | PairingMismatch (a name_a tag_a b name_b tag_b : String)
  | PairingShaMismatch (a sha_a b sha_b name tag : String)
  | CannotModifyRootNode
  | CannotOverwriteNodeWithDependents (node_name node_tag : String)
  | CannotOverwriteNodeWithLiveInstances (node_name node_tag : String)
  | DuplicateInstanceId
      (instance_id node_name node_tag core_node : String) (state : InstanceState)
  | RespawnTargetMissing (instance_id : String)
  | StartClaimed (instance_id : String)
  | CannotRemoveNodeWithInstances (node_name node_tag : String)
  | InvalidStageTransition (node_name node_tag from_stage to_stage : String)
  | StartFailed (node_name node_tag reason : String)
  | ServiceActionContractCycle (nodes : List String) (closing_dependency kind : String)
  | Parsing (error : ParsingError)

inductive NodeStage where
  | Added
  | Building
  | Ready (instances : List TrackedNodeInstance)
  | Root (root : TrackedNodeInstance)
  deriving DecidableEq

def NodeStage.name : NodeStage → String
  | .Added => "Added"
  | .Building => "Building"
  | .Ready _ => "Ready"
  | .Root _ => "Root"

structure NodeEntity where
  config : NodeConfig
  stage : NodeStage
  generation : Nat

namespace NodeEntity

/-- A node as `push_config` makes it. -/
def new (config : NodeConfig) (generation : Nat) : NodeEntity := ⟨config, .Added, generation⟩

def built_in (config : NodeConfig) (generation : Nat) : NodeEntity :=
  ⟨config, .Ready [], generation⟩

def root (config : NodeConfig) (root : TrackedNodeInstance) (generation : Nat) : NodeEntity :=
  ⟨config, .Root root, generation⟩

/-! ## The slots -/

def instances (e : NodeEntity) : List TrackedNodeInstance :=
  match e.stage with
  | .Ready instances => instances
  | .Root root => [root]
  | .Added | .Building => []

variable (e : NodeEntity) (id : Name) (pid : Nat)

def instances_mut : List TrackedNodeInstance :=
  match e.stage with
  | .Ready instances => instances
  | _ => []

def with_instances (instances : List TrackedNodeInstance) : NodeEntity :=
  match e.stage with
  | .Ready _ => { e with stage := .Ready instances }
  | _ => e

def has_id (inst : TrackedNodeInstance) : Bool := inst.instance_id = id

def instance_slot : Option TrackedNodeInstance :=
  e.instances.find? (has_id id)

def instance_mut : Option TrackedNodeInstance :=
  e.instances_mut.find? (has_id id)

def set_instance (inst : TrackedNodeInstance) : NodeEntity :=
  e.with_instances (editFirst (has_id id) (fun _ => inst) e.instances_mut)

/-! ## The start of a process -/

structure StartContext where
  instance_id : Name
  spawn : SpawnTarget
  core_node : String
  copy : Option Name
  run_log_path : String
  /-- A new incarnation and a new cell, each drawn once. -/
  incarnation : Nat
  cell : Nat

def new_slot (ctx : StartContext) (first_start : FirstStart) : TrackedNodeInstance where
  instance_id := ctx.instance_id
  cell := ctx.cell
  state := .Starting
  incarnation := ctx.incarnation
  run_log_path := some ctx.run_log_path
  copy := ctx.copy
  supervision := { first_start := some first_start }

/-- Phase 1 of `prepare_and_spawn`: the slot is new or starts again. -/
def register_start (ctx : StartContext) : Except Error Nat × NodeEntity :=
  match e.stage with
  | .Ready instances =>
    match ctx.spawn with
    | .New first_start =>
      match instances.find? (has_id ctx.instance_id) with
      | some tracked =>
        (.error (.DuplicateInstanceId ctx.instance_id.as_str e.config.manifest.name.as_str
          e.config.manifest.tag ctx.core_node tracked.state), e)
      | none => (.ok e.generation, e.with_instances (instances ++ [new_slot ctx first_start]))
    | .Respawn =>
      if instances.any fun inst => has_id ctx.instance_id inst && inst.awaits_restart then
        (.ok e.generation, e.with_instances
          (editFirst (fun inst => has_id ctx.instance_id inst && inst.awaits_restart)
            (·.begin_respawn ctx.incarnation) instances))
      else (.error (.RespawnTargetMissing ctx.instance_id.as_str), e)
  | stage =>
    (.error (.InvalidStageTransition e.config.manifest.name.as_str e.config.manifest.tag stage.name
      "spawn instance"), e)

def record_starting_process (spawn_files : SpawnFiles) : NodeEntity :=
  match e.instance_mut id with
  | some inst =>
    if inst.state = .Starting then e.set_instance id (inst.set_starting_process pid spawn_files)
    else e
  | none => e

/-- Phase 3b: forks, unless the slot is claimed. `spawned` is the fork's answer. -/
def fork_start (spawned : Except String Nat)
    (spawn_files : SpawnFiles) : Except Error Nat × NodeEntity :=
  if (e.instance_slot id).any (·.is_stopping) then (.error (.StartClaimed id.as_str), e)
  else
    match spawned with
    | .ok pid => (.ok pid, e.record_starting_process id pid spawn_files)
    | .error reason =>
      (.error (.StartFailed e.config.manifest.name.as_str e.config.manifest.tag reason), e)

/-- A failed start: a new instance leaves, a restart waits again unless claimed. -/
def undo_start : NodeEntity :=
  let starting := fun inst : TrackedNodeInstance => has_id id inst && inst.state = .Starting
  match e.instances_mut.find? starting with
  | none => e
  | some inst =>
    if inst.starts_a_restart && !inst.is_stopping then
      e.with_instances (editFirst starting (·.revert_respawn) e.instances_mut)
    else e.with_instances (e.instances_mut.eraseP starting)

/-- Whether the start in flight is the run's, or its restart did not begin. -/
def abandoned_start (run : StartRun) : Bool × Bool :=
  match e.instance_slot id with
  | none => (false, false)
  | some inst => (inst.starts_for run, inst.awaits_restart_of run)

def undo_abandoned_start (run : StartRun) : Bool × NodeEntity :=
  let (starts_for_run, awaits_its_restart) := e.abandoned_start id run
  (starts_for_run || awaits_its_restart, if starts_for_run then e.undo_start id else e)

/-- The lock sections of `abort_started`. -/
def abort_started (start_generation : Nat) (id : Name) : NodeEntity :=
  if e.generation = start_generation then e.undo_start id else e

def commit_starting_instance (start_generation : Nat) (id : Name)
    (instance_dir : String) (endpoints : List InstanceEndpoint) (now system_now : Nat) :
    Except Error Unit × NodeEntity :=
  let refuse := fun from_stage to_stage => (Except.error
    (Error.InvalidStageTransition e.config.manifest.name.as_str e.config.manifest.tag from_stage
      to_stage), e)
  if e.generation ≠ start_generation then refuse "stale-generation" "Running"
  else
    match e.stage with
    | .Ready instances =>
      match instances.find? (has_id id) with
      | none => refuse "missing" "Running"
      | some inst =>
        if inst.state ≠ .Starting then refuse "Running" "Running"
        else
          (.ok (), e.set_instance id
            (((inst.set_running instance_dir).set_endpoints endpoints).record_running now
              system_now))
    | stage => refuse stage.name "Ready"

/-! ## The end of a process -/

def mark_instance_exited (cause : ExitCause)
    (backoff : RestartBackoff) (now system_now : Nat) (registrations : Registrations) :
    Option ExitRecord × NodeEntity :=
  match e.instance_mut id with
  | none => (none, e)
  | some inst =>
    if inst.runs_unclaimed_process pid then
      let (record, inst') := inst.record_exit cause backoff now system_now registrations
      (some record, e.set_instance id inst')
    else (none, e)

/-- The slot is edited while it waits unclaimed for its restart. -/
def edit_awaiting_restart {α : Type} (e : NodeEntity) (id : Name)
    (edit : TrackedNodeInstance → α × TrackedNodeInstance) : Option α × NodeEntity :=
  match e.instance_mut id with
  | none => (none, e)
  | some inst =>
    if inst.awaits_restart then
      let (answer, inst') := edit inst
      (some answer, e.set_instance id inst')
    else (none, e)

def mark_start_failed (exit : ExitCause) (backoff : RestartBackoff)
    (now system_now : Nat) : Option Attempt × NodeEntity :=
  e.edit_awaiting_restart id fun inst =>
    TrackedNodeInstance.take_next_attempt
      { inst with supervision := { inst.supervision with last_exit := some exit } }
      backoff none now system_now

def mark_restart_refused : Option Unit × NodeEntity :=
  e.edit_awaiting_restart id fun inst =>
    ((), { inst with
      state := .Failed
      supervision := { inst.supervision with next_start := none } })

def record_respawn_log (path : String) : Option Unit × NodeEntity :=
  e.edit_awaiting_restart id fun inst => ((), { inst with run_log_path := some path })

/-! ## The claims of the stop paths -/

def claim_instance : NodeEntity :=
  match e.stage with
  | .Root root => if has_id id root then { e with stage := .Root root.mark_stopping } else e
  | _ =>
    match e.instance_mut id with
    | none => e
    | some inst => e.set_instance id inst.mark_stopping

def stop_instance : Option KeptRelations × NodeEntity :=
  let stopped := fun inst : TrackedNodeInstance => has_id id inst && inst.state ≠ .Starting
  match e.instances_mut.find? stopped with
  | none => (none, e)
  | some inst =>
    (some (KeptRelations.of inst.supervision),
      e.with_instances (e.instances_mut.eraseP stopped))

def claim_and_remove_slot : Option KeptRelations × NodeEntity :=
  match e.instance_slot id with
  | none => (none, e)
  | some _ => (e.claim_instance id).stop_instance id

def claim_and_remove (stopped_pid : Option Nat) : SlotRemoval × NodeEntity :=
  match e.instance_slot id with
  | none => (.Untracked, e)
  | some inst =>
    if inst.state = .Starting then (.Left (.Starting inst.starts_a_restart), e)
    else if inst.state = .Running ∧ inst.pid ≠ stopped_pid then (.Left .RunsAnotherProcess, e)
    else
      match e.claim_and_remove_slot id with
      | (none, e') => (.Untracked, e')
      | (some kept, e') => (.Removed kept, e')

def claim_process : ProcessClaim × NodeEntity :=
  match e.instance_slot id with
  | none => (.Gone, e)
  | some inst =>
    if inst.runs_process pid then
      (if inst.claim_once.1 then .Claimed else .ClaimedElsewhere, e.claim_instance id)
    else (.Gone, e)

def claim_starting : StartingClaim × NodeEntity :=
  match e.instance_slot id with
  | none => (.NotStarting, e)
  | some inst =>
    if inst.state = .Starting then
      if !inst.is_stopping && !inst.starts_a_restart then (.FirstStart, e)
      else
        (if inst.claim_once.1 then .Claimed (KeptRelations.of inst.supervision)
          else .ClaimedElsewhere, e.claim_instance id)
    else (.NotStarting, e)

/-! ## The health monitor and the removals -/

/-- Notes the kill of the health monitor and answers the process to
signal. -/
def arm_health_kill (kill : HealthKill) : Option Nat × NodeEntity :=
  match e.instance_mut id with
  | none => (none, e)
  | some inst =>
    if inst.runs_unclaimed then
      match inst.pid with
      | none => (none, e)
      | some pid =>
        (some pid, e.set_instance id
          { inst with supervision := { inst.supervision with health_kill := some kill } })
    else (none, e)

def edit_process (edit : TrackedNodeInstance → TrackedNodeInstance) : NodeEntity :=
  match e.instance_mut id with
  | none => e
  | some inst => if inst.runs_process pid then e.set_instance id (edit inst) else e

def note_shutdown_request : NodeEntity :=
  e.edit_process id pid fun inst =>
    { inst with shutdown_requests := (inst.shutdown_requests + 1) % 2 ^ 32 }

def withdraw_shutdown_request : NodeEntity :=
  e.edit_process id pid fun inst => { inst with shutdown_requests := inst.shutdown_requests - 1 }

end NodeEntity

end peppy.entity
