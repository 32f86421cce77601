-- What the engine of an action keeps of one goal: its owner, its cancel
-- signal and its result, and the record of the goals that were evicted.
import Mathlib.Data.List.Basic

namespace peppy.actions

/-! ## Callers and endings -/

inductive CallerKind where
  | CommandLine
  | Daemon
  | Instance
  deriving DecidableEq

structure VerifiedCaller where
  core_node : String
  instance_id : String
  kind : CallerKind
  deriving DecidableEq

inductive PeppyFailureKind where
  | AttemptFailed
  | Timeout
  | PreconditionFailed
  | ResourceUnavailable
  | Rejected

structure Failure where
  kind : PeppyFailureKind
  message : String

/-- How a goal ended. `Expired` answers a poll and is never stored. -/
inductive GoalOutcome where
  | Completed (result : String)
  | Cancelled (reason result : String)
  | Failed (failure : Failure)
  | Abandoned
  | Expired

inductive CancelCause where
  | Caller
  | SenderGone

inductive CancelState where
  | Signalled
  | AlreadyTerminal
  | Unknown

abbrev CancelAnswer := Except Failure CancelState

/-! ## The slot of a goal -/

/-- The result of a goal. A waiter is the identity of the responder of a
result poll. -/
inductive GoalState where
  | Pending (waiters : List Nat)
  | Terminal (outcome : GoalOutcome) (evict_at : Nat)

def GoalState.waiters : GoalState → List Nat
  | .Pending waiters => waiters
  | .Terminal .. => []

def GoalState.isTerminal : GoalState → Bool
  | .Pending _ => false
  | .Terminal .. => true

structure LinkedTokens where
  next_id : Nat := 0
  tokens : List (Nat × Nat) := []

/-- The slot of a goal. `goal_id` is the id that the goal was accepted
under. -/
structure GoalSlot where
  goal_id : String
  owner : Option VerifiedCaller
  cancel : Bool := false
  cancel_cause : Option CancelCause := none
  linked : LinkedTokens := {}
  state : GoalState := .Pending []
  terminal : Bool := false

def GoalSlot.new (goal_id : String) (owner : Option VerifiedCaller) : GoalSlot :=
  { goal_id, owner }

variable (slot : GoalSlot)

def GoalSlot.is_terminal : Bool := slot.terminal

def may_cancel (canceller : Option VerifiedCaller) : Bool :=
  slot.owner = canceller

def cancel_of_another_client (goal_id : String) : Failure where
  kind := .Rejected
  message := "the goal `" ++ goal_id ++
    "` is a goal of another client: a client cancels its own goals alone"

/-! ## The cancel signal -/

/-- The sections of `signal_cancel`: the cause, the goal's token, the linked tokens. -/
inductive SignalPhase where
  | Cause
  | Cancel
  | Take
  | Tokens (tokens : List Nat)

/-- One step of `signal_cancel`: the slot, the linked token cancelled, what is next. -/
def GoalSlot.signal_cancel (cause : CancelCause) :
    SignalPhase → GoalSlot × List Nat × Option SignalPhase
  | .Cause =>
    ({ slot with cancel_cause := slot.cancel_cause.or (some cause) }, [], some .Cancel)
  | .Cancel => ({ slot with cancel := true }, [], some .Take)
  | .Take =>
    ({ slot with linked := { slot.linked with tokens := [] } }, [],
      some (.Tokens (slot.linked.tokens.map Prod.snd)))
  | .Tokens (token :: tokens) => (slot, [token], some (.Tokens tokens))
  | .Tokens [] => (slot, [], none)

/-- The slot with the token linked, and the token if it is cancelled at
once. -/
def GoalSlot.link (token : Nat) : GoalSlot × List Nat :=
  let id := slot.linked.next_id
  if slot.cancel then ({ slot with linked := { slot.linked with next_id := id + 1 } }, [token])
  else
    ({ slot with
      linked := { next_id := id + 1, tokens := slot.linked.tokens ++ [(id, token)] } }, [])

def GoalSlot.unlink (id : Nat) : GoalSlot :=
  { slot with
    linked := { slot.linked with tokens := slot.linked.tokens.filter fun t => t.1 ≠ id } }

/-! ## The evicted goals -/

def EXPIRED_TOMBSTONE_CAP : Nat := 4096

structure ExpiredTombstones where
  order : List String := []
  set : List String := []
  cap : Nat := EXPIRED_TOMBSTONE_CAP

namespace ExpiredTombstones

/-- The loop of `insert`: the oldest entries leave until there is room. -/
def make_room (cap : Nat) : List String → List String → List String × List String
  | [], set => ([], set)
  | old :: order, set =>
    if cap ≤ (old :: order).length then make_room cap order (set.erase old)
    else (old :: order, set)

def contains (t : ExpiredTombstones) (goal_id : String) : Bool := goal_id ∈ t.set

def insert (t : ExpiredTombstones) (goal_id : String) : ExpiredTombstones :=
  if t.contains goal_id then t
  else
    let (order, set) := make_room t.cap t.order t.set
    { t with order := order ++ [goal_id], set := goal_id :: set }

end ExpiredTombstones

end peppy.actions
