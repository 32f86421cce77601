-- What the stack keeps of an instance between its processes: the restart
-- policy, the attempts in a row, and the backoff that paces the restarts.
import Mathlib.Algebra.Ring.Nat
import Mathlib.Data.List.Dedup
import Mathlib.Data.List.Sort
import Peppy.Pairing

open peppy.node_config peppy.pairing

namespace peppy.supervision

/-! ## Numbers and times -/

def U32_MAX : Nat := 2 ^ 32 - 1

def saturating_add (a b : Nat) : Nat := min (a + b) U32_MAX

def DURATION_MAX : Nat := 2 ^ 64 * 10 ^ 9 - 1

/-- `i64::MAX` seconds and a second less one nanosecond. -/
def SYSTEM_TIME_MAX : Nat := 2 ^ 63 * 10 ^ 9 - 1

def saturating_mul (d m : Nat) : Nat := min (d * m) DURATION_MAX

def checked_add (t d : Nat) : Option Nat :=
  if t + d ≤ SYSTEM_TIME_MAX then some (t + d) else none

def checked_pow_two (n : Nat) : Option Nat := if 2 ^ n ≤ U32_MAX then some (2 ^ n) else none

/-! ## States, exits and policies -/

inductive InstanceState where
  | Starting
  | Running
  | Restarting
  | Finished
  | Failed
  deriving DecidableEq

def InstanceState.has_process : InstanceState → Bool
  | .Starting | .Running => true
  | .Restarting | .Finished | .Failed => false

inductive ExitCause where
  | Code (code : Int)
  | Signal (number : Int) (name : Option String) (core_dumped : Bool)
  | HealthKill (unanswered_secs : Nat)
  | Message (text : String)
  deriving DecidableEq

def ExitCause.is_clean : ExitCause → Bool
  | .Code code => code == 0
  | _ => false

inductive RestartPolicy where
  | Never
  | OnFailure
  | Always
  deriving DecidableEq

def RestartPolicy.restarts_after_failure : RestartPolicy → Bool
  | .OnFailure | .Always => true
  | .Never => false

def RestartPolicy.restarts_after_clean_exit : RestartPolicy → Bool
  | .Always => true
  | .Never | .OnFailure => false

/-- A policy with its cap. The cap is a `NonZeroU32`, and `never` takes
none. -/
structure RestartDeclaration where
  policy : RestartPolicy
  max_restarts : Option Nat := none
  cap_range : ∀ m, max_restarts = some m → 1 ≤ m ∧ m ≤ U32_MAX := by simp
  cap_restarts : max_restarts ≠ none → policy ≠ .Never := by simp
  deriving DecidableEq

/-- The policy and the goal of the first start. The goal is the identity of
its `Arc`. -/
structure FirstStart where
  restart : RestartDeclaration
  goal : Nat
  deriving DecidableEq

structure HealthKill where
  unanswered_for : Nat
  last_answer : Option Nat
  deriving DecidableEq

/-- The observations, each slot with its targets as a text, and the
watchers. -/
structure Registrations where
  observations : List (String × String) := []
  watchers : List String := []
  deriving DecidableEq

structure Supervision where
  first_start : Option FirstStart := none
  health_kill : Option HealthKill := none
  restart_count : Nat := 0
  attempt : Nat := 0
  last_exit : Option ExitCause := none
  run_started : Option Nat := none
  running_since : Option Nat := none
  next_start : Option Nat := none
  /-- The restart token is cancelled. -/
  restart_token : Bool := false
  held_pairs : List PlannedPair := []
  registrations : Registrations := {}
  deriving DecidableEq

def Supervision.restart (s : Supervision) : RestartDeclaration :=
  match s.first_start with
  | none => { policy := .Never }
  | some first => first.restart

/-! ## The backoff -/

structure RestartBackoff where
  first_delay : Nat
  max_delay : Nat
  reset_after : Nat

structure NextAttempt where
  attempt : Nat
  delay : Nat

variable (b : RestartBackoff)

def RestartBackoff.resets (ran_for : Option Nat) : Bool :=
  match ran_for with
  | none => false
  | some d => b.reset_after ≤ d

def RestartBackoff.next (previous_attempt : Nat) (ran_for : Option Nat) : NextAttempt :=
  let attempt := if b.resets ran_for then 1 else saturating_add 1 previous_attempt
  let delay :=
    min
      (match checked_pow_two (attempt - 1) with
        | none => b.max_delay
        | some multiplier => saturating_mul b.first_delay multiplier)
      b.max_delay
  ⟨attempt, delay⟩

inductive Attempt where
  | Scheduled (attempt delay scheduled_at : Nat)
  | Capped (max_restarts : Nat)

/-- `attempt` is past the cap. -/
def RestartDeclaration.caps (d : RestartDeclaration) (attempt : Nat) : Option Nat :=
  match d.max_restarts with
  | none => none
  | some max_restarts => if max_restarts < attempt then some max_restarts else none

/-- The slot after an exit or a failed start, with the next attempt. -/
def Supervision.advance_backoff (s : Supervision) (backoff : RestartBackoff)
    (ran_for : Option Nat) (now system_now : Nat) : Attempt × Supervision :=
  let next := backoff.next s.attempt ran_for
  match s.restart.caps next.attempt with
  | some max_restarts =>
    (.Capped max_restarts, { s with attempt := next.attempt, next_start := none })
  | none =>
    (.Scheduled next.attempt next.delay now,
      { s with attempt := next.attempt, next_start := checked_add system_now next.delay })

theorem next_attempt_range (previous : Nat) (ran_for : Option Nat) :
    1 ≤ (b.next previous ran_for).attempt ∧ (b.next previous ran_for).attempt ≤ U32_MAX := by
  unfold RestartBackoff.next
  simp only
  split
  · simp [U32_MAX]
  · simp only [saturating_add, U32_MAX]
    omega

/-! ## Results -/

structure KeptRelations where
  pair_daemons : List String := []
  watchers : List String := []

/-- What a slot keeps of the relations of its instance. The daemons are a
sorted set. -/
def KeptRelations.of (s : Supervision) : KeptRelations where
  pair_daemons :=
    ((s.held_pairs.filter fun held => held.peer.core_node ≠ held.own.core_node).map
      (·.peer.core_node)).dedup.insertionSort (· ≤ ·)
  watchers := s.registrations.watchers

inductive SlotLeft where
  | Starting (restart : Bool)
  | RunsAnotherProcess

inductive SlotRemoval where
  | Removed (kept : KeptRelations)
  | Left (left : SlotLeft)
  | Untracked

inductive ProcessClaim where
  | Claimed
  | ClaimedElsewhere
  | Gone

inductive StartingClaim where
  | Claimed (kept : KeptRelations)
  | FirstStart
  | ClaimedElsewhere
  | NotStarting

inductive SpawnTarget where
  | New (first_start : FirstStart)
  | Respawn

inductive StartRun where
  | New (goal : Nat)
  | Respawn (goal restart_count : Nat)

structure ExitRecord where
  exit : ExitCause
  registrations : Registrations
  next : Option Attempt

end peppy.supervision
