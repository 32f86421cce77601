-- The engine of a concurrent action: the accepts, the result polls, the cancel
-- requests, the endings and the sweeper, as tasks that run side by side. Each action
-- is one section under one lock, or one atomic read or write.
import Mathlib.Algebra.Ring.Nat
import Peppy.GoalSlot
import Peppy.Lib.Runs
import Peppy.Lib.Tasks

open tasks runs

namespace peppy.actions

/-! ## The tasks -/

/-- How far a call of `PendingGoal::accept` is. -/
inductive AcceptPhase where
  | Register
  | TakeEarly (k : Nat)
  | Signal (k : Nat) (phase : SignalPhase)
  | Adopt (k : Nat)
  | Extend (k : Nat) (adopted : List Nat)
  | Respond (k : Nat)

structure AcceptCall where
  goal_id : String
  verified_caller : Option VerifiedCaller
  phase : AcceptPhase

/-- How far a result poll is, in `route_result_poll` and `act_on_slot`. -/
inductive PollPhase where
  | Look
  /-- The poll waits for the lock of the parked polls. -/
  | Lock
  /-- The poll holds that lock, and reads the registry again. -/
  | LookAgain
  | Tombstone
  | Park
  | Slot (k : Nat)
  /-- The reply on its way: where it was read, the outcome and when. -/
  | Reply (slot : Option Nat) (outcome : GoalOutcome) (read_at : Nat)

structure PollCall where
  goal_id : String
  responder : Nat
  phase : PollPhase

/-- How far a cancel request is, in `run_cancel_loop`. -/
inductive CancelPhase where
  | Look
  | Tombstone
  | Lock
  | LookAgain
  | Remember
  /-- `cancel_slot` on the slot that was found. -/
  | Check (k : Nat)
  | Signal (k : Nat) (phase : SignalPhase)

structure CancelCall where
  request : Nat
  goal_id : String
  verified_caller : Option VerifiedCaller
  phase : CancelPhase

/-- How far `transition_terminal` is. -/
inductive TransitionPhase where
  | Swap
  /-- The call won the flag and waits for the state of the slot. -/
  | Lock
  | Respond (waiters : List Nat)

/-- A call that ends the goal, or the task that a dropped context leaves. -/
structure Transition where
  slot : Nat
  outcome : GoalOutcome
  abandon : Bool
  phase : TransitionPhase

inductive WatchPhase where
  | Check
  | Signal (phase : SignalPhase)

/-- The sender of the goal is gone, and the goal gets its signal. -/
structure Watch where
  slot : Nat
  phase : WatchPhase

inductive SweepPhase where
  | Idle
  | Registry (now : Nat)
  | Tombstones (now : Nat) (expired_ids : List String)
  | Pending (now : Nat)
  | Early (now : Nat)

/-! ## The engine -/

structure PendingWaiter where
  goal_id : String
  responder : Nat
  deadline : Nat

def PENDING_WAITERS_CAP : Nat := 1024

/-- Times are in nanoseconds. -/
def PENDING_WAITER_MAX_PARK : Nat := 30 * 10 ^ 9

def EARLY_CANCELS_CAP : Nat := 1024

def RESULT_RETENTION_GRACE : Nat := 30 * 10 ^ 9

structure Answer where
  responder : Nat
  slot : Option Nat
  outcome : GoalOutcome
  read_at : Nat

structure CancelReply where
  request : Nat
  answer : CancelAnswer

/-- The engine with its tasks. A slot keeps its place in `slots`. The fields after
`sweeper` record the run. -/
structure Engine where
  now : Nat := 0
  result_retention_grace : Nat := RESULT_RETENTION_GRACE
  slots : List GoalSlot := []
  registry : String → Option Nat := fun _ => none
  pending_waiters : List PendingWaiter := []
  early_cancels : List ((String × Option VerifiedCaller) × Nat) := []
  tombstones : ExpiredTombstones := {}
  cancelled_tokens : List Nat := []
  contexts : List Nat := []
  accepts : List AcceptCall := []
  polls : List PollCall := []
  cancels : List CancelCall := []
  transitions : List Transition := []
  watches : List Watch := []
  sweeper : SweepPhase := .Idle
  polled : List (Nat × String) := []
  answers : List Answer := []
  dropped : List Nat := []
  /-- The polls that a slot took in, each with its slot. -/
  parked : List (Nat × Nat) := []
  accepted : List Nat := []
  /-- The slots whose accept failed or was dropped. -/
  unaccepted : List Nat := []
  wins : List (Nat × GoalOutcome) := []
  completed : List Nat := []
  /-- The slots whose transition was dropped after it won the flag. -/
  broken : List Nat := []
  requests : List (Nat × String × Option VerifiedCaller) := []
  replies : List CancelReply := []
  evicted : List String := []

def PollCall.holdsPending (poll : PollCall) : Bool :=
  match poll.phase with
  | .LookAgain | .Tombstone | .Park => true
  | _ => false

def CancelCall.holdsEarly (call : CancelCall) : Bool :=
  match call.phase with
  | .LookAgain | .Remember => true
  | _ => false

namespace Engine

def start (result_retention_grace : Nat) : Engine :=
  { result_retention_grace }

variable (e : Engine) (k : Nat) (goal_id : String) (key : String × Option VerifiedCaller) (i : Nat)
  (poll : PollCall) (call : AcceptCall) (t : Transition) (slot : GoalSlot)

def pendingFree : Bool := e.polls.all fun poll => !poll.holdsPending

def earlyFree : Bool := e.cancels.all fun call => !call.holdsEarly

def setSlot : Engine :=
  { e with slots := e.slots.set k slot }

def drop (responders : List Nat) : Engine :=
  { e with dropped := responders ++ e.dropped }

/-- One step of `signal_cancel` on the slot. -/
def signal (cause : CancelCause) (phase : SignalPhase) : Engine :=
  { e with
    slots := e.slots.set k (slot.signal_cancel cause phase).1
    cancelled_tokens := (slot.signal_cancel cause phase).2.1 ++ e.cancelled_tokens }

/-! ## `PendingGoal::accept` -/

def setAccept (phase : Option AcceptPhase) : Engine :=
  { e with accepts := put e.accepts i (phase.map fun phase => { call with phase }) }

/-- The new slot joins the registry under the id of the goal alone. -/
def register : Engine :=
  { e with
    slots := e.slots ++ [GoalSlot.new call.goal_id call.verified_caller]
    registry := Function.update e.registry call.goal_id (some e.slots.length) }

def early_cancel : Option Nat :=
  (e.early_cancels.find? fun entry => entry.1 = key).map Prod.snd

def forget_early_cancel : Engine :=
  { e with early_cancels := e.early_cancels.filter fun entry => entry.1 ≠ key }

def parked_for : List Nat :=
  (e.pending_waiters.filter fun waiter => waiter.goal_id = goal_id).map (·.responder)

def adopt : Engine :=
  { e with
    pending_waiters := e.pending_waiters.filter fun waiter => waiter.goal_id ≠ goal_id
    parked := (e.parked_for goal_id).map (fun r => (r, k)) ++ e.parked }

/-- The adopted polls join the slot, or are dropped when it is terminal. -/
def extend (adopted : List Nat) : Engine :=
  match slot.state with
  | .Pending waiters => e.setSlot k { slot with state := .Pending (waiters ++ adopted) }
  | .Terminal .. => e.drop adopted

def takeOn : Engine :=
  { e with contexts := e.contexts ++ [k], accepted := k :: e.accepted }

def unaccept : Engine := { e with unaccepted := k :: e.unaccepted }

def forget : Engine :=
  { e with registry := Function.update e.registry goal_id none }

/-- One section of an accept. `replied` is that the reply reached the
client. -/
def acceptStep (replied : Bool) : Option Engine :=
  match call.phase with
  | .Register => some ((e.register call).setAccept i call (some (.TakeEarly e.slots.length)))
  | .TakeEarly k =>
    if e.earlyFree then
      match e.early_cancel (call.goal_id, call.verified_caller) with
      | some _ =>
        some ((e.forget_early_cancel (call.goal_id, call.verified_caller)).setAccept i call
          (some (.Signal k .Cause)))
      | none => some (e.setAccept i call (some (.Adopt k)))
    else none
  | .Signal k phase =>
    (e.slots[k]?).map fun slot =>
      (e.signal k slot .Caller phase).setAccept i call
        (some (((slot.signal_cancel .Caller phase).2.2.map (AcceptPhase.Signal k)).getD (.Adopt k)))
  | .Adopt k =>
    if e.pendingFree then
      some ((e.adopt k call.goal_id).setAccept i call
        (some (if e.parked_for call.goal_id = [] then .Respond k
          else .Extend k (e.parked_for call.goal_id))))
    else none
  | .Extend k adopted =>
    (e.slots[k]?).map fun slot => (e.extend k slot adopted).setAccept i call (some (.Respond k))
  | .Respond k =>
    if replied then some ((e.takeOn k).setAccept i call none)
    else some (((e.forget call.goal_id).unaccept k).setAccept i call none)

/-- The caller drops an accept that waits for the slot or for the reply. -/
def dropAccept : Option Engine :=
  match call.phase with
  | .Extend k adopted =>
    some (((e.drop adopted).unaccept k).setAccept i call none)
  | .Respond k => some ((e.unaccept k).setAccept i call none)
  | _ => none

/-! ## The result polls -/

def setPoll (phase : Option PollPhase) : Engine :=
  { e with polls := put e.polls i (phase.map fun phase => { poll with phase }) }

def enqueue : Engine :=
  { e with
    pending_waiters := e.pending_waiters ++
      [⟨poll.goal_id, poll.responder, e.now + PENDING_WAITER_MAX_PARK⟩] }

def park : Engine :=
  if PENDING_WAITERS_CAP ≤ e.pending_waiters.length then e.drop [poll.responder]
  else e.enqueue poll

def wait (waiters : List Nat) (responder : Nat) : Engine :=
  { e with
    slots := e.slots.set k { slot with state := .Pending (waiters ++ [responder]) }
    parked := (responder, k) :: e.parked }

def answer (a : Answer) : Engine := { e with answers := a :: e.answers }

def pollStep : Option Engine :=
  match poll.phase with
  | .Look =>
    match e.registry poll.goal_id with
    | some k => some (e.setPoll i poll (some (.Slot k)))
    | none => some (e.setPoll i poll (some .Lock))
  | .Lock => if e.pendingFree then some (e.setPoll i poll (some .LookAgain)) else none
  | .LookAgain =>
    match e.registry poll.goal_id with
    | some k => some (e.setPoll i poll (some (.Slot k)))
    | none => some (e.setPoll i poll (some .Tombstone))
  | .Tombstone =>
    if e.tombstones.contains poll.goal_id then
      some (e.setPoll i poll (some (.Reply none .Expired e.now)))
    else some (e.setPoll i poll (some .Park))
  | .Park => some ((e.park poll).setPoll i poll none)
  | .Slot k =>
    (e.slots[k]?).map fun slot =>
      match slot.state with
      | .Terminal outcome evict_at =>
        e.setPoll i poll
          (some (.Reply (some k) (if e.now < evict_at then outcome else .Expired) e.now))
      | .Pending waiters => (e.wait k slot waiters poll.responder).setPoll i poll none
  | .Reply slot outcome read_at =>
    some ((e.answer ⟨poll.responder, slot, outcome, read_at⟩).setPoll i poll none)

/-! ## The cancel requests -/

def setCancel (call : CancelCall) (phase : Option CancelPhase) : Engine :=
  { e with cancels := put e.cancels i (phase.map fun phase => { call with phase }) }

def replyCancel (call : CancelCall) (a : CancelAnswer) : Engine :=
  { e with replies := ⟨call.request, a⟩ :: e.replies }.setCancel i call none

def insert_early_cancel : Engine :=
  { e with
    early_cancels := (e.early_cancels.filter fun entry => entry.1 ≠ key) ++
      [(key, e.now + PENDING_WAITER_MAX_PARK)] }

def remember_early_cancel : Engine :=
  if e.early_cancels.length < EARLY_CANCELS_CAP then e.insert_early_cancel key else e

def cancelStep (call : CancelCall) : Option Engine :=
  match call.phase with
  | .Look =>
    match e.registry call.goal_id with
    | some k => some (e.setCancel i call (some (.Check k)))
    | none => some (e.setCancel i call (some .Tombstone))
  | .Tombstone =>
    if e.tombstones.contains call.goal_id then
      some (e.replyCancel i call (.ok .AlreadyTerminal))
    else some (e.setCancel i call (some .Lock))
  | .Lock => if e.earlyFree then some (e.setCancel i call (some .LookAgain)) else none
  | .LookAgain =>
    match e.registry call.goal_id with
    | some k => some (e.setCancel i call (some (.Check k)))
    | none => some (e.setCancel i call (some .Remember))
  | .Remember =>
    some ((e.remember_early_cancel (call.goal_id, call.verified_caller)).replyCancel i call
      (.ok .Unknown))
  | .Check k =>
    (e.slots[k]?).map fun slot =>
      if !may_cancel slot call.verified_caller then
        e.replyCancel i call (.error (cancel_of_another_client call.goal_id))
      else if slot.is_terminal then e.replyCancel i call (.ok .AlreadyTerminal)
      else e.setCancel i call (some (.Signal k .Cause))
  | .Signal k phase =>
    (e.slots[k]?).map fun slot =>
      match (slot.signal_cancel .Caller phase).2.2 with
      | some phase' => (e.signal k slot .Caller phase).setCancel i call (some (.Signal k phase'))
      | none => (e.signal k slot .Caller phase).replyCancel i call (.ok .Signalled)

/-! ## The endings -/

/-- The calls of the worker that end the goal. -/
inductive Ending where
  | Complete (result : String)
  | Fail (failure : Failure)
  | CompleteCancelled (reason result : String)

def Ending.outcome : Ending → GoalOutcome
  | .Complete result => .Completed result
  | .Fail failure => .Failed failure
  | .CompleteCancelled reason result => .Cancelled reason result

def setTransition (phase : Option TransitionPhase) : Engine :=
  { e with transitions := put e.transitions i (phase.map fun phase => { t with phase }) }

def win : Engine :=
  { e with
    slots := e.slots.set t.slot { slot with terminal := true }
    wins := (t.slot, t.outcome) :: e.wins }

def finish : Engine :=
  e.setSlot t.slot
    { slot with state := .Terminal t.outcome (e.now + e.result_retention_grace) }

def complete : Engine := { e with completed := k :: e.completed }

/-- One section of `transition_terminal`. -/
def transitionStep : Option Engine :=
  match t.phase with
  | .Swap =>
    (e.slots[t.slot]?).map fun slot =>
      if slot.terminal then e.setTransition i t none
      else (e.win t slot).setTransition i t (some .Lock)
  | .Lock =>
    (e.slots[t.slot]?).map fun slot =>
      (e.finish t slot).setTransition i t (some (.Respond slot.state.waiters))
  | .Respond (r :: waiters) =>
    some ((e.answer ⟨r, some t.slot, t.outcome, e.now⟩).setTransition i t
      (some (.Respond waiters)))
  | .Respond [] => some ((e.complete t.slot).setTransition i t none)

/-- A call that won the flag of the slot ends before its work is done. -/
def breakOff : Engine := { e with broken := k :: e.broken }

def dropTransition : Option Engine :=
  if t.abandon then none
  else
    match t.phase with
    | .Swap => some (e.setTransition i t none)
    | .Lock => some ((e.breakOff t.slot).setTransition i t none)
    | .Respond waiters => some (((e.drop waiters).breakOff t.slot).setTransition i t none)

def dropContext : Option Engine :=
  if k ∈ e.contexts then
    (e.slots[k]?).map fun slot =>
      let e := { e with contexts := e.contexts.erase k }
      if slot.terminal then e
      else { e with transitions := e.transitions ++ [⟨k, .Abandoned, true, .Swap⟩] }
  else none

/-! ## The watches of the senders -/

def setWatch (w : Watch) (phase : Option WatchPhase) : Engine :=
  { e with watches := put e.watches i (phase.map fun phase => { w with phase }) }

def watchStep (w : Watch) : Option Engine :=
  (e.slots[w.slot]?).map fun slot =>
    match w.phase with
    | .Check =>
      e.setWatch i w (if slot.is_terminal then none else some (.Signal .Cause))
    | .Signal phase =>
      (e.signal w.slot slot .SenderGone phase).setWatch i w
        ((slot.signal_cancel .SenderGone phase).2.2.map .Signal)

/-! ## The sweeper -/

def expires (now : Nat) (goal_id : String) : Bool :=
  match (e.registry goal_id).bind fun k => e.slots[k]? with
  | some slot =>
    match slot.state with
    | .Terminal _ evict_at => evict_at ≤ now
    | .Pending _ => false
  | none => false

/-- One section of a sweep. `evicted` are any entries past their window. -/
def sweepStep (evicted : List String) : Option Engine :=
  match e.sweeper with
  | .Idle => some { e with sweeper := .Registry e.now }
  | .Registry now =>
    if evicted.Nodup ∧ ∀ goal_id ∈ evicted, e.expires now goal_id = true then
      some { e with
        registry := fun goal_id => if goal_id ∈ evicted then none else e.registry goal_id
        sweeper := .Tombstones now evicted }
    else none
  | .Tombstones now expired_ids =>
    some { e with
      tombstones := expired_ids.foldl ExpiredTombstones.insert e.tombstones
      evicted := e.evicted ++ expired_ids
      sweeper := .Pending now }
  | .Pending now =>
    if e.pendingFree then
      some { e.drop ((e.pending_waiters.filter fun waiter => !(now < waiter.deadline)).map
          (·.responder)) with
        pending_waiters := e.pending_waiters.filter fun waiter => now < waiter.deadline
        sweeper := .Early now }
    else none
  | .Early now =>
    if e.earlyFree then
      some { e with
        early_cancels := e.early_cancels.filter fun entry => now < entry.2
        sweeper := .Idle }
    else none

/-! ## The steps -/

inductive Act where
  | Tick (d : Nat)
  | Accept (goal_id : String) (verified_caller : Option VerifiedCaller)
  | AcceptStep (i : Nat) (replied : Bool)
  | DropAccept (i : Nat)
  | Poll (goal_id : String) (responder : Nat)
  | PollStep (i : Nat)
  | Cancel (request : Nat) (goal_id : String) (verified_caller : Option VerifiedCaller)
  | CancelStep (i : Nat)
  | Deliver (k : Nat) (ending : Ending)
  | DropContext (k : Nat)
  | TransitionStep (i : Nat)
  | DropTransition (i : Nat)
  | Watch (k : Nat)
  | WatchStep (i : Nat)
  | Link (k token : Nat)
  | Unlink (k id : Nat)
  | Sweep (evicted : List String)

def step : Act → Option Engine
  | .Tick d => some { e with now := e.now + d }
  | .Accept goal_id verified_caller =>
    some { e with accepts := e.accepts ++ [⟨goal_id, verified_caller, .Register⟩] }
  | .AcceptStep i replied => (e.accepts[i]?).bind fun call => e.acceptStep i call replied
  | .DropAccept i => (e.accepts[i]?).bind fun call => e.dropAccept i call
  | .Poll goal_id responder =>
    if responder ∈ e.polled.map Prod.fst then none
    else
      some { e with
        polls := e.polls ++ [⟨goal_id, responder, .Look⟩]
        polled := (responder, goal_id) :: e.polled }
  | .PollStep i => (e.polls[i]?).bind fun poll => e.pollStep i poll
  | .Cancel request goal_id verified_caller =>
    if request ∈ e.requests.map Prod.fst then none
    else
      some { e with
        cancels := e.cancels ++ [⟨request, goal_id, verified_caller, .Look⟩]
        requests := (request, goal_id, verified_caller) :: e.requests }
  | .CancelStep i => (e.cancels[i]?).bind fun call => e.cancelStep i call
  | .Deliver k ending =>
    if k ∈ e.contexts then
      some { e with transitions := e.transitions ++ [⟨k, ending.outcome, false, .Swap⟩] }
    else none
  | .DropContext k => e.dropContext k
  | .TransitionStep i => (e.transitions[i]?).bind fun t => e.transitionStep i t
  | .DropTransition i => (e.transitions[i]?).bind fun t => e.dropTransition i t
  | .Watch k => some { e with watches := e.watches ++ [⟨k, .Check⟩] }
  | .WatchStep i => (e.watches[i]?).bind fun w => e.watchStep i w
  | .Link k token =>
    (e.slots[k]?).map fun slot =>
      { e with
        slots := e.slots.set k (slot.link token).1
        cancelled_tokens := (slot.link token).2 ++ e.cancelled_tokens }
  | .Unlink k id => (e.slots[k]?).map fun slot => e.setSlot k (slot.unlink id)
  | .Sweep evicted => e.sweepStep evicted

end Engine

end peppy.actions
