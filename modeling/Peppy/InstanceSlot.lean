-- One instance that a node tracks, its slot, and the changes of it. The
-- slot stays while the processes of the instance come and go.
import Peppy.Supervision

open peppy.node_config peppy.pairing peppy.supervision

namespace peppy.entity

inductive EndpointKind where
  | Page
  | Mcp
  deriving DecidableEq

structure InstanceEndpoint where
  label : String
  kind : EndpointKind
  urls : List String
  deriving DecidableEq

structure SpawnFiles where
  runtime_config : String
  credential : String
  deriving DecidableEq

/-- A slot. Its clones share `stopping` and the restart token, named by `cell`. -/
structure TrackedNodeInstance where
  instance_id : Name
  cell : Nat
  pid : Option Nat := none
  state : InstanceState
  incarnation : Nat
  instance_dir : Option String := none
  spawn_files : Option SpawnFiles := none
  run_log_path : Option String := none
  copy : Option Name := none
  healthy : Bool := true
  stopping : Bool := false
  shutdown_requests : Nat := 0
  endpoints : List InstanceEndpoint := []
  supervision : Supervision := {}
  deriving DecidableEq

namespace TrackedNodeInstance

/-! ## What a slot is in -/

variable (inst : TrackedNodeInstance) (cause : ExitCause) (backoff : RestartBackoff)

def is_stopping : Bool := inst.stopping

def awaits_restart : Bool :=
  inst.state = .Restarting && !inst.is_stopping

def runs_unclaimed : Bool :=
  inst.state = .Running && !inst.is_stopping

def runs_process (pid : Nat) : Bool :=
  inst.state = .Running && inst.pid = some pid

def runs_unclaimed_process (pid : Nat) : Bool :=
  inst.runs_process pid && !inst.is_stopping

def starts_a_restart : Bool :=
  inst.state = .Starting && 0 < inst.supervision.attempt

def first_started_from (goal : Nat) : Bool :=
  match inst.supervision.first_start with
  | none => false
  | some first => first.goal == goal

def is_restart_of (goal restart_count : Nat) : Bool :=
  inst.first_started_from goal && inst.supervision.restart_count == restart_count

def starts_for : StartRun → Bool
  | .New goal =>
    inst.state = .Starting && !inst.starts_a_restart && inst.first_started_from goal
  | .Respawn goal restart_count =>
    inst.starts_a_restart && inst.is_restart_of goal restart_count

/-- The restart that the run was to start did not begin. -/
def awaits_restart_of : StartRun → Bool
  | .New _ => false
  | .Respawn goal restart_count =>
    inst.awaits_restart && inst.is_restart_of goal restart_count

/-! ## The changes of a slot -/

/-- Sets the flag and cancels the restart token; true if this call set it. -/
def claim_once : Bool × TrackedNodeInstance :=
  (!inst.stopping,
    { inst with
      stopping := true
      supervision := { inst.supervision with restart_token := true } })

def mark_stopping : TrackedNodeInstance := inst.claim_once.2

def set_running (instance_dir : String) : TrackedNodeInstance :=
  { inst with state := .Running, instance_dir := some instance_dir }

def set_endpoints (endpoints : List InstanceEndpoint) : TrackedNodeInstance :=
  { inst with endpoints }

def set_starting_process (pid : Nat) (spawn_files : SpawnFiles) : TrackedNodeInstance :=
  { inst with pid := some pid, spawn_files := some spawn_files }

/-- The next attempt. The slot is failed at the one that the cap refuses. -/
def take_next_attempt (ran_for : Option Nat) (now system_now : Nat) : Attempt × TrackedNodeInstance :=
  let (next, supervision) := inst.supervision.advance_backoff backoff ran_for now system_now
  let inst := { inst with supervision }
  match next with
  | .Capped _ => (next, { inst with state := .Failed })
  | .Scheduled .. => (next, inst)

/-- How long the process ran. One killed for its health ran until it last answered. -/
def ran_for (s : Supervision) (now : Nat) : Option Nat :=
  s.run_started.map fun since =>
    match s.health_kill with
    | some kill =>
      match kill.last_answer with
      | none => 0
      | some answer => answer - since
    | none => now - since

def recorded_exit (s : Supervision) (cause : ExitCause) : ExitCause :=
  match s.health_kill with
  | some kill => .HealthKill (kill.unanswered_for / 10 ^ 9)
  | none => cause

def policy_restarts (policy : RestartPolicy) (exit : ExitCause) : Bool :=
  if exit.is_clean then policy.restarts_after_clean_exit else policy.restarts_after_failure

def record_exit (now system_now : Nat) (registrations : Registrations) :
    ExitRecord × TrackedNodeInstance :=
  let s := inst.supervision
  let exit := recorded_exit s cause
  let shutdown_requested := 0 < inst.shutdown_requests
  let restarts_again := policy_restarts s.restart.policy exit && !shutdown_requested
  let inst' : TrackedNodeInstance :=
    { inst with
      pid := none
      endpoints := []
      state := if restarts_again then .Restarting else if exit.is_clean then .Finished else .Failed
      supervision :=
        { s with
          health_kill := none
          run_started := none
          last_exit := some exit
          attempt := if shutdown_requested then 0 else s.attempt
          registrations := if restarts_again then registrations else s.registrations } }
  if restarts_again then
    let (next, inst') := inst'.take_next_attempt backoff (ran_for s now) now system_now
    (⟨exit, registrations, some next⟩, inst')
  else (⟨exit, registrations, none⟩, inst')

def begin_respawn (incarnation : Nat) : TrackedNodeInstance :=
  { inst with
    state := .Starting
    incarnation
    pid := none
    endpoints := []
    healthy := true
    spawn_files := none
    supervision := { inst.supervision with next_start := none } }

def revert_respawn : TrackedNodeInstance :=
  { inst with state := .Restarting, pid := none, spawn_files := none }

/-- The process runs. A slot past its first attempt counts the restart. -/
def record_running (now system_now : Nat) : TrackedNodeInstance :=
  let s := { inst.supervision with run_started := some now, running_since := some system_now }
  { inst with
    supervision :=
      if 0 < s.attempt then
        { s with restart_count := saturating_add s.restart_count 1, registrations := {} }
      else s }

/-! ## What an exit and an attempt leave -/

/-- The next attempt is past the cap and fails the slot, or keeps its state. -/
theorem take_next_attempt_cases (ran_for : Option Nat) (now system_now : Nat) :
    let next := backoff.next inst.supervision.attempt ran_for
    (∃ m, inst.supervision.restart.max_restarts = some m ∧ m < next.attempt ∧
      inst.take_next_attempt backoff ran_for now system_now = (.Capped m, { inst with
            state := .Failed, supervision :=
              { inst.supervision with attempt := next.attempt, next_start := none } })) ∨
    ((∀ m, inst.supervision.restart.max_restarts = some m → next.attempt ≤ m) ∧
      inst.take_next_attempt backoff ran_for now system_now =
        (.Scheduled next.attempt next.delay now,
          { inst with
            supervision :=
              { inst.supervision with
                attempt := next.attempt
                next_start := checked_add system_now next.delay } })) := by
  intro next
  cases hcap : inst.supervision.restart.max_restarts with
  | none =>
    refine Or.inr ⟨by simp, ?_⟩
    simp only [take_next_attempt, Supervision.advance_backoff, RestartDeclaration.caps, hcap]
    rfl
  | some m =>
    by_cases hm : m < next.attempt
    · refine Or.inl ⟨m, rfl, hm, ?_⟩
      simp only [take_next_attempt, Supervision.advance_backoff, RestartDeclaration.caps, hcap]
      rw [if_pos hm]
    · refine Or.inr ⟨fun m' hm' => by cases hm'; omega, ?_⟩
      simp only [take_next_attempt, Supervision.advance_backoff, RestartDeclaration.caps, hcap]
      rw [if_neg hm]

def ended (state : InstanceState) (exit : ExitCause) (attempt : Nat)
    (registrations : Registrations) : TrackedNodeInstance :=
  { inst with
    pid := none
    endpoints := []
    state
    supervision :=
      { inst.supervision with
        health_kill := none
        run_started := none
        last_exit := some exit
        attempt
        registrations } }

/-- The policy restarts the instance after the exit, and no removal stops
it. -/
def restartsAgain : Prop :=
  policy_restarts inst.supervision.restart.policy (recorded_exit inst.supervision cause) ∧
    inst.shutdown_requests = 0

theorem record_exit_restarts {inst : TrackedNodeInstance} {cause : ExitCause}
    (h : inst.restartsAgain cause) (backoff : RestartBackoff) (now system_now : Nat)
    (registrations : Registrations) : let exit := recorded_exit inst.supervision cause
    let next := (inst.ended .Restarting exit inst.supervision.attempt
      registrations).take_next_attempt backoff (ran_for inst.supervision now) now system_now
    inst.record_exit cause backoff now system_now registrations =
      (⟨exit, registrations, some next.1⟩, next.2) := by
  obtain ⟨hpolicy, hrequests⟩ := h
  simp [record_exit, hpolicy, hrequests, ended]

theorem record_exit_ends {inst : TrackedNodeInstance} {cause : ExitCause}
    (h : ¬ inst.restartsAgain cause) (backoff : RestartBackoff) (now system_now : Nat)
    (registrations : Registrations) : let exit := recorded_exit inst.supervision cause
    inst.record_exit cause backoff now system_now registrations = (⟨exit, registrations, none⟩,
        inst.ended (if exit.is_clean then .Finished else .Failed) exit
          (if 0 < inst.shutdown_requests then 0 else inst.supervision.attempt)
          inst.supervision.registrations) := by
  have hnot : (policy_restarts inst.supervision.restart.policy
      (recorded_exit inst.supervision cause) && !decide (0 < inst.shutdown_requests)) = false := by
    rw [Bool.and_eq_false_iff]
    by_cases hrequests : inst.shutdown_requests = 0
    · left
      by_contra hpolicy
      exact h ⟨by simpa using hpolicy, hrequests⟩
    · right
      simpa using Nat.pos_of_ne_zero hrequests
  simp [record_exit, hnot, ended]

end TrackedNodeInstance

end peppy.entity
