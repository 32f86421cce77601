-- The goals of the stack actions, each with the holds that it takes one after the
-- other: the stack, the robot that it removes, and the slot of its gate.
import Peppy.FleetLaws
import Peppy.GoalSlot
import Peppy.Lib.Tasks

open keymap runs tasks List
open peppy.fleet

namespace peppy.stack_action

/-! ## Requests -/

inductive StackAction where
  | Launch
  | Build
  | Join
  | Remove
  deriving DecidableEq

/-- The goal of a caller: its robot, and the client it is sent for. -/
inductive StackRequest where
  | Launch
  | Build
  | Join (name : String) (client : Option ClientRef)
  | Remove (name : String) (client : Option ClientRef)
  deriving DecidableEq

namespace StackRequest

def action : StackRequest → StackAction
  | .Launch => .Launch
  | .Build => .Build
  | .Join .. => .Join
  | .Remove .. => .Remove

def sent_for : StackRequest → Option ClientRef
  | .Launch => none
  | .Build => none
  | .Join _ client => client
  | .Remove _ client => client

def client (request : StackRequest) (sender daemon : ClientRef) :
    Except actions.Failure ClientRef :=
  match request.sent_for with
  | none => .ok sender
  | some client =>
    if sender ≠ daemon then
      .error
        { kind := .Rejected
          message := sender.display ++ " names the client `" ++ client.instance_id ++ "` on `" ++
            client.core_node ++ "` of its stack goal; only the daemon names the client of a " ++
            "stack goal, and a goal of any other sender acts for its sender" }
    else .ok client

def removes : StackRequest → Option String
  | .Remove name _ => some name
  | _ => none

end StackRequest

/-! ## The gate of an action and the hold of the stack -/

/-- The gate of one action, which admits one goal at a time. -/
structure ConcurrencyGate where
  running : Bool := false
  generation : Nat := 0

namespace ConcurrencyGate

variable (gate : ConcurrencyGate)

/-- The generation of the goal that is admitted. A stack action never
forces. -/
def try_admit : ConcurrencyGate × Option Nat :=
  if gate.running then (gate, none)
  else ({ running := true, generation := gate.generation + 1 }, some (gate.generation + 1))

def clear_running : ConcurrencyGate := { gate with running := false }

def release (generation : Nat) : ConcurrencyGate :=
  if gate.generation = generation then gate.clear_running else gate

end ConcurrencyGate

inductive StackBusy where
  | Change
  | NodeGoals

/-- The lock of the stack: one change, or any number of node goals. -/
structure StackState where
  change : Bool := false
  node_goals : Nat := 0

namespace StackState

variable (stack : StackState)

def try_begin_change : Except StackBusy StackState :=
  if stack.change then .error .Change
  else if stack.node_goals ≠ 0 then .error .NodeGoals
  else .ok { stack with change := true }

def end_change : StackState := { stack with change := false }

def try_admit_node_goal : Except StackBusy StackState :=
  if stack.change then .error .Change
  else .ok { stack with node_goals := stack.node_goals + 1 }

def end_node_goal : StackState :=
  { stack with node_goals := stack.node_goals - 1 }

end StackState

/-! ## Goals and the daemon -/

/-- How far a goal is, and the task of its change after it. A refused goal drops its
hold of the robot, then of the stack; a change that ended drops them the other way
round, and then its slot. -/
inductive GoalPhase where
  | Begin
  | Reservation
  | Admit
  | Gate
  | Log (generation : Nat)
  | DropRemoval
  | DropHold
  | Change (generation : Nat)
  | EndHold (generation : Nat)
  | EndRemoval (generation : Nat)
  | Release (generation : Nat)
  deriving DecidableEq

namespace GoalPhase

/-- The change has the goal, and the action takes its next one. -/
def spawned : GoalPhase → Bool
  | .Change _ => true
  | .EndHold _ => true
  | .EndRemoval _ => true
  | .Release _ => true
  | _ => false

/-- The goal is admitted by the leases, and its change has not ended. -/
def admitted : GoalPhase → Bool
  | .Gate => true
  | .Log _ => true
  | .Change _ => true
  | _ => false

def dropsRemoval : GoalPhase → Bool
  | .DropRemoval => true
  | .EndRemoval _ => true
  | _ => false

end GoalPhase

structure StackGoal where
  request : StackRequest
  client : ClientRef
  phase : GoalPhase := .Begin
  deriving DecidableEq

/-- An admitted removal of the robot, whose change has not ended. -/
def StackGoal.Removes (goal : StackGoal) (robot : String) : Prop :=
  goal.request.removes = some robot ∧ goal.phase.admitted = true

instance (goal : StackGoal) (robot : String) : Decidable (goal.Removes robot) :=
  inferInstanceAs (Decidable (_ ∧ _))

inductive GoalRefusal where
  | Client (failure : actions.Failure)
  | Busy (busy : StackBusy)
  | Reserved (launch_id coordinator : String)
  | Leases (refusal : Refusal)
  | AlreadyRunning
  /-- The log of the change could not be made, or the reply not sent. -/
  | NotStarted

structure Daemon where
  identity : ClientRef
  book : FleetBook
  stack : StackState := {}
  /-- Other work holds the stack: a coordinator's change, or a reset. -/
  other_change : Bool := false
  reservation : Option (String × String) := none
  gates : StackAction → ConcurrencyGate := fun _ => {}
  goals : List StackGoal := []
  refused : List GoalRefusal := []

namespace Daemon

variable (d : Daemon) (robot : String)

def refuse (refusal : GoalRefusal) : Daemon :=
  { d with refused := d.refused ++ [refusal] }

def setGate (action : StackAction) (gate : ConcurrencyGate) : Daemon :=
  { d with gates := Function.update d.gates action gate }

def drop_removal (request : StackRequest) : Daemon :=
  match request.removes with
  | none => d
  | some robot => { d with book := d.book.end_removal robot }

def admit_by_leases (request : StackRequest) (client : ClientRef) :
    FleetBook × Except Refusal Unit :=
  match request with
  | .Join name _ => (d.book, d.book.check_join (some client) name)
  | .Remove name _ => d.book.begin_removal (some client) name
  | .Launch => (d.book, .ok ())
  | .Build => (d.book, .ok ())

/-- One turn of a goal. `started`: the log is made and the reply sent. -/
def turn (goal : StackGoal) (started : Bool) : Daemon × Option GoalPhase :=
  match goal.phase with
  | .Begin =>
    match d.stack.try_begin_change with
    | .error busy => (d.refuse (.Busy busy), none)
    | .ok stack => ({ d with stack }, some .Reservation)
  | .Reservation =>
    match d.reservation with
    | some (launch_id, coordinator) => (d.refuse (.Reserved launch_id coordinator), some .DropHold)
    | none => (d, some .Admit)
  | .Admit =>
    match d.admit_by_leases goal.request goal.client with
    | (book, .error refusal) => ({ d with book }.refuse (.Leases refusal), some .DropHold)
    | (book, .ok ()) => ({ d with book }, some .Gate)
  | .Gate =>
    match ConcurrencyGate.try_admit (d.gates goal.request.action) with
    | (_, none) => (d.refuse .AlreadyRunning, some .DropRemoval)
    | (gate, some generation) => (d.setGate goal.request.action gate, some (.Log generation))
  | .Log generation =>
    if started then (d, some (.Change generation))
    else
      ((d.setGate goal.request.action (d.gates goal.request.action).clear_running).refuse
        .NotStarted, some .DropRemoval)
  | .DropRemoval => (d.drop_removal goal.request, some .DropHold)
  | .DropHold => ({ d with stack := d.stack.end_change }, none)
  | .Change generation => (d, some (.EndHold generation))
  | .EndHold generation => ({ d with stack := d.stack.end_change }, some (.EndRemoval generation))
  | .EndRemoval generation => (d.drop_removal goal.request, some (.Release generation))
  | .Release generation =>
    (d.setGate goal.request.action ((d.gates goal.request.action).release generation), none)

inductive StackAct where
  | Receive (request : StackRequest) (sender : ClientRef)
  | Turn (index : Nat) (started : Bool)
  | Call (act : FleetBook.FleetCall)
  | NodeGoal
  | EndNodeGoal
  | OtherChange
  | EndOtherChange
  | Reserve (reservation : Option (String × String))

def step : StackAct → Option Daemon
  | .Receive request sender =>
    -- the loop of an action handles one goal at a time
    if d.goals.all fun goal => goal.request.action ≠ request.action || goal.phase.spawned then
      match request.client sender d.identity with
      | .error failure => some (d.refuse (.Client failure))
      | .ok client => some { d with goals := d.goals ++ [{ request, client }] }
    else none
  | .Turn index started =>
    match d.goals[index]? with
    | none => none
    | some goal =>
      let (d, phase) := d.turn goal started
      some { d with
        goals := put d.goals index (phase.map fun phase => { goal with phase }) }
  | .Call act => if act.isRemoval then none else some { d with book := (d.book.call act).1 }
  | .NodeGoal =>
    match d.stack.try_admit_node_goal with
    | .error _ => none
    | .ok stack => some { d with stack }
  | .EndNodeGoal =>
    if d.stack.node_goals = 0 then none else some { d with stack := d.stack.end_node_goal }
  | .OtherChange =>
    match d.stack.try_begin_change with
    | .error _ => none
    | .ok stack => some { d with stack, other_change := true }
  | .EndOtherChange =>
    if d.other_change then some { d with stack := d.stack.end_change, other_change := false }
    else none
  | .Reserve reservation => some { d with reservation }

def new (identity : ClientRef) (book : FleetBook) : Daemon := { identity, book }

/-! ## The hold of a removal -/

/-- A goal removes the robot. -/
def Removing : Prop := ∃ goal ∈ d.goals, goal.Removes robot

instance (d : Daemon) (robot : String) : Decidable (d.Removing robot) :=
  inferInstanceAs (Decidable (∃ goal ∈ d.goals, goal.Removes robot))

/-- A client that does not hold the lease of the robot does not take it. -/
def NotTaken : Prop :=
  ∀ client name, (∀ lease, d.book.leases.get robot = some lease → lease.holder ≠ client) →
    (d.book.take client robot name).2 ≠ .ok ()

/-- The action drops no hold of the robot while another removal of it runs. -/
def drops_alone (d : Daemon) : StackAct → Prop
  | .Turn index _ =>
    ∀ goal ∈ d.goals[index]?, goal.request.removes = some robot →
      goal.phase.dropsRemoval = true → ¬ d.Removing robot
  | _ => True

instance (robot : String) (d : Daemon) (act : StackAct) : Decidable (drops_alone robot d act) := by
  cases act <;> unfold drops_alone <;> infer_instance

section
variable {d d' : Daemon} {goal : StackGoal} {robot : String} {started : Bool}

/-- A robot that is being removed leaves. -/
def Held (robot : String) (d : Daemon) : Prop :=
  d.Removing robot → d.book.leaving.contains robot = true

theorem notTaken_of_leaving (h : d.book.leaving.contains robot = true) : d.NotTaken robot := by
  intro client name hother
  have hany : (d.book.leases.get robot).any (fun lease => lease.holder = client) = false := by
    cases hget : d.book.leases.get robot with
    | none => rfl
    | some lease => simpa using hother lease hget
  rw [FleetBook.take]
  split
  · rintro ⟨⟩
  · split
    · rintro ⟨⟩
    · rw [hany, h, if_neg (by simp), if_pos rfl]
      rintro ⟨⟩

theorem turn_goals : (d.turn goal started).1.goals = d.goals := by
  have hdrop : ∀ request, (d.drop_removal request).goals = d.goals := by
    intro request
    rw [drop_removal]
    split <;> rfl
  rw [turn]
  split
  · split <;> rfl
  · split <;> rfl
  · split <;> rfl
  · split <;> rfl
  · split <;> rfl
  · exact hdrop goal.request
  · rfl
  · rfl
  · rfl
  · exact hdrop goal.request
  · rfl

theorem step_turn {index : Nat} (hget : d.goals[index]? = some goal) :
    d.step (.Turn index started) = some { (d.turn goal started).1 with
      goals := put d.goals index
        ((d.turn goal started).2.map fun phase => { goal with phase }) } := by
  rw [step, hget, ← turn_goals]

theorem leaving_admit_by_leases (h : d.book.leaving.contains robot = true)
    (request : StackRequest) (client : ClientRef) :
    (d.admit_by_leases request client).1.leaving.contains robot = true := by
  cases request with
  | Remove name sent_for =>
    rw [admit_by_leases, FleetBook.begin_removal]
    split
    · exact h
    · dsimp only
      rw [KeyMap.contains_insert, h, Bool.or_true]
  | _ => exact h

theorem leaving_of_admitted {request : StackRequest} {client : ClientRef}
    (h : (d.admit_by_leases request client).2 = .ok ()) (hrobot : request.removes = some robot) :
    (d.admit_by_leases request client).1.leaving.contains robot = true := by
  cases request with
  | Remove name sent_for =>
    cases hrobot
    rw [admit_by_leases, FleetBook.begin_removal] at h ⊢
    split at h
    · cases h
    · dsimp only
      rw [KeyMap.contains_insert]
      simp
  | _ => cases hrobot

theorem leaving_drop_removal (h : d.book.leaving.contains robot = true) {request : StackRequest}
    (hother : request.removes ≠ some robot) :
    (d.drop_removal request).book.leaving.contains robot = true := by
  rw [drop_removal]
  split
  · exact h
  rename_i name hname
  have hne : robot ≠ name := fun heq => hother (heq ▸ hname)
  rw [FleetBook.end_removal]
  dsimp only
  rw [KeyMap.contains_remove, h]
  simp [hne]

theorem leaving_turn (h : d.book.leaving.contains robot = true)
    (hdrop : goal.phase.dropsRemoval = true → goal.request.removes ≠ some robot) :
    (d.turn goal started).1.book.leaving.contains robot = true := by
  rw [turn]
  cases hphase : goal.phase with
  | Begin | Reservation | Gate | Log generation =>
    dsimp only
    split <;> exact h
  | Admit =>
    have hadmit := leaving_admit_by_leases h goal.request goal.client
    dsimp only
    split <;> rename_i heq <;> rw [heq] at hadmit <;> exact hadmit
  | DropRemoval | EndRemoval generation =>
    exact leaving_drop_removal h (hdrop (by rw [hphase]; rfl))
  | DropHold => exact h
  | Change generation => exact h
  | EndHold generation => exact h
  | Release generation => exact h

theorem admitted_of_turn {phase : GoalPhase} (h : (d.turn goal started).2 = some phase)
    (hphase : phase.admitted = true) (hrobot : goal.request.removes = some robot) :
    goal.phase.admitted = true ∨ (d.turn goal started).1.book.leaving.contains robot = true := by
  rw [turn] at h ⊢
  cases hold : goal.phase with
  | Gate | Log generation | Change generation => exact .inl rfl
  | Admit =>
    refine Or.inr ?_
    rw [hold] at h
    dsimp only at h ⊢
    split at h
    · cases h
      cases hphase
    · rename_i book heq
      have hadmit := leaving_of_admitted (by rw [heq]) hrobot
      rw [heq] at hadmit
      exact hadmit
  | Begin =>
    rw [hold] at h
    dsimp only at h
    split at h <;> cases h
    cases hphase
  | Reservation =>
    rw [hold] at h
    dsimp only at h
    split at h <;> cases h <;> cases hphase
  | _ =>
    rw [hold] at h
    cases h <;> cases hphase

theorem Held.step (h : Held robot d) {act : StackAct} (hact : drops_alone robot d act)
    (hstep : d.step act = some d') : Held robot d' := by
  cases act with
  | Receive request sender =>
    rw [Daemon.step] at hstep
    split_ifs at hstep
    split at hstep
    · cases hstep
      exact h
    cases hstep
    rintro ⟨goal, hgoal, hremoves⟩
    rcases changes.mem_push hgoal with hgoal | rfl
    · exact h ⟨goal, hgoal, hremoves⟩
    · cases hremoves.2
  | Turn index started =>
    cases hget : d.goals[index]? with
    | none =>
      rw [Daemon.step, hget] at hstep
      cases hstep
    | some goal =>
      rw [step_turn hget] at hstep
      cases hstep
      -- a removal that ran before the turn keeps its robot
      have hkept : d.Removing robot →
          (d.turn goal started).1.book.leaving.contains robot = true := by
        intro hrun
        exact leaving_turn (h hrun) fun hdrops hrobot => hact goal hget hrobot hdrops hrun
      rintro ⟨goal', hgoal', hremoves⟩
      rcases mem_put_map hgoal' with hin | ⟨phase, hphase, rfl⟩
      · exact hkept ⟨goal', hin, hremoves⟩
      · rcases admitted_of_turn hphase hremoves.2 hremoves.1 with hbefore | hafter
        · exact hkept ⟨goal, mem_of_getElem? hget, hremoves.1, hbefore⟩
        · exact hafter
  | Call act =>
    rw [Daemon.step] at hstep
    split_ifs at hstep with hremoval
    cases hstep
    intro hrun
    rw [(FleetBook.call_keeps d.book (Bool.eq_false_iff.mpr hremoval)).leaving]
    exact h hrun
  | NodeGoal | OtherChange =>
    rw [Daemon.step] at hstep
    split at hstep <;> cases hstep
    exact h
  | EndNodeGoal | EndOtherChange =>
    rw [Daemon.step] at hstep
    split_ifs at hstep
    cases hstep
    exact h
  | Reserve reservation =>
    cases hstep
    exact h

/-- Where no removal drops its hold while another one runs, only the holder of its lease
takes the robot from the admission of a removal until its change ended. -/
theorem no_client_takes_a_robot_that_leaves (identity : ClientRef) (book : FleetBook)
    (robot : String) {acts : List StackAct} {d : Daemon}
    (hrun : run step (new identity book) acts = some d)
    (hacts : Meets step (drops_alone robot) (new identity book) acts)
    (hremoving : d.Removing robot) : d.NotTaken robot := by
  have hheld : Held robot d := by
    refine run_keeps_where (fun d act d' h hact hstep => h.step hact hstep) ?_ hacts hrun
    rintro ⟨goal, hgoal, -⟩
    cases hgoal
  exact notTaken_of_leaving (hheld hremoving)

/-! ## A removal and the next one -/

def pilot : ClientRef := ⟨"cn-desk", "pilot"⟩

def operator : ClientRef := ⟨"cn-desk", "operator"⟩

def startRemoval : List StackAct :=
  [.Call (.BeginHolding pilot "one"), .Receive (.Remove "arm" none) operator, .Turn 0 true,
    .Turn 0 true, .Turn 0 true, .Turn 0 true, .Turn 0 true]

theorem the_pilot_does_not_take_the_arm :
    ∃ d, run step (new ⟨"cn-desk", "core"⟩ (.new "v1" "cn-desk")) startRemoval = some d ∧
      d.Removing "arm" ∧ d.NotTaken "arm" := by
  have hlast : (run step (new ⟨"cn-desk", "core"⟩ (.new "v1" "cn-desk")) startRemoval).map
      (fun d => decide (d.Removing "arm")) = some true := by
    decide +kernel
  obtain ⟨d, hrun, hremoving⟩ := Option.map_eq_some_iff.mp hlast
  have hremoving := of_decide_eq_true hremoving
  refine ⟨d, hrun, hremoving, no_client_takes_a_robot_that_leaves _ _ _ hrun ?_ hremoving⟩
  decide +kernel

/-- The next removal comes between the two drops of the first one. -/
def overtakenRemoval : List StackAct :=
  startRemoval ++ [.Turn 0 true, .Turn 0 true, .Receive (.Remove "arm" none) operator,
    .Turn 1 true, .Turn 1 true, .Turn 1 true, .Turn 0 true, .Turn 0 true, .Turn 0 true,
    .Turn 0 true]

/-- The end of the first removal drops the hold of the second one, whose
change runs: the pilot takes the arm. -/
theorem an_arm_that_is_taken_while_it_is_removed :
    ∃ d, run step (new ⟨"cn-desk", "core"⟩ (.new "v1" "cn-desk")) overtakenRemoval = some d ∧
      (∃ goal ∈ d.goals, goal.Removes "arm" ∧ goal.phase = .Change 2) ∧
      d.book.leases.get "arm" = none ∧ (d.book.take pilot "arm" "teleop").2 = .ok () := by
  have hlast : (run step (new ⟨"cn-desk", "core"⟩ (.new "v1" "cn-desk")) overtakenRemoval).map
      (fun d => (d.goals, d.book.leases.get "arm", (d.book.take pilot "arm" "teleop").2.toBool)) =
        some ([{ request := .Remove "arm" none, client := operator, phase := .Change 2 }], none,
          true) := by
    decide +kernel
  obtain ⟨d, hrun, heq⟩ := Option.map_eq_some_iff.mp hlast
  obtain ⟨hgoals, heq⟩ := Prod.mk.inj heq
  obtain ⟨hlease, htake⟩ := Prod.mk.inj heq
  refine ⟨d, hrun, ⟨_, by rw [hgoals]; exact mem_singleton_self _, by decide, rfl⟩, hlease, ?_⟩
  cases h : (d.book.take pilot "arm" "teleop").2 with
  | error refusal =>
    rw [h] at htake
    cases htake
  | ok _ => rfl

end

end Daemon

end peppy.stack_action
