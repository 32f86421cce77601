-- The holds of the stack goals. The stack and the slot of each gate are with one goal
-- at a time, which gives them back before it is over.
import Peppy.StackGoals

open List runs tasks

namespace peppy.stack_action

/-- The stack, and the slot that the gate of an action gave with a generation. -/
inductive Hold where
  | Stack
  | Slot (action : StackAction) (generation : Nat)
  deriving DecidableEq

def GoalPhase.holds (action : StackAction) : GoalPhase → List Hold
  | .Begin => []
  | .Reservation | .Admit | .Gate | .DropRemoval | .DropHold => [.Stack]
  | .Log generation | .Change generation | .EndHold generation =>
    [.Stack, .Slot action generation]
  | .EndRemoval generation | .Release generation => [.Slot action generation]

def StackGoal.holds (goal : StackGoal) : List Hold := goal.phase.holds goal.request.action

namespace Daemon

/-- How often the daemon has given the hold away. -/
def given (d : Daemon) : Hold → Nat
  | .Stack => d.stack.change.toNat
  | .Slot action generation =>
    if (d.gates action).running ∧ (d.gates action).generation = generation then 1 else 0

/-- How often work other than the goals has it. -/
def elsewhere (d : Daemon) : Hold → Nat
  | .Stack => d.other_change.toNat
  | .Slot _ _ => 0

/-- Every hold that was given is with a goal, or elsewhere. -/
structure Accounted (d : Daemon) : Prop where
  held : ∀ hold, (d.goals.flatMap StackGoal.holds).count hold + d.elsewhere hold = d.given hold
  alone : d.stack.change → d.stack.node_goals = 0

open peppy.fleet

variable {d d' : Daemon} {goal : StackGoal} {hold : Hold}

theorem given_setGate (action : StackAction) (gate : ConcurrencyGate) :
    (d.setGate action gate).given hold = match hold with
      | .Stack => d.given .Stack
      | .Slot other generation => if other = action then
          if gate.running ∧ gate.generation = generation then 1 else 0
        else d.given (.Slot other generation) := by
  cases hold with
  | Stack => rfl
  | Slot other =>
    simp only [given, setGate, Function.update_apply]
    split <;> rfl

theorem Accounted.given_of_mem (h : Accounted d) (hgoal : goal ∈ d.goals)
    (hhold : hold ∈ goal.holds) : d.given hold = 1 := by
  have hcount := count_pos_iff.mpr (mem_flatMap.mpr ⟨goal, hgoal, hhold⟩)
  have hle : d.given hold ≤ 1 := by
    cases hold with
    | Stack => exact Bool.toNat_le _
    | Slot => grind [given]
  have hheld := h.held hold
  omega

theorem begin_change_ok {stack stack' : StackState} (h : stack.try_begin_change = .ok stack') :
    stack.change = false ∧ stack.node_goals = 0 ∧ stack' = { stack with change := true } := by
  rw [StackState.try_begin_change] at h
  split_ifs at h with hchange hgoals
  cases h
  exact ⟨Bool.eq_false_iff.mpr hchange, not_not.mp hgoals, rfl⟩

/-- A turn gives the goal what it takes from the daemon, and the daemon what it drops. -/
theorem Accounted.turn (h : Accounted d) (hgoal : goal ∈ d.goals) (started : Bool) (hold : Hold) :
    ((d.turn goal started).2.toList.flatMap (GoalPhase.holds goal.request.action)).count hold +
      d.given hold = goal.holds.count hold + (d.turn goal started).1.given hold := by
  have hdrop : (d.drop_removal goal.request).given hold = d.given hold := by
    rw [drop_removal]
    split <;> rfl
  have hgiven : ∀ hold ∈ goal.holds, d.given hold = 1 := fun hold => h.given_of_mem hgoal
  rw [StackGoal.holds] at hgiven ⊢
  rw [Daemon.turn]
  cases hphase : goal.phase with
  | Begin =>
    dsimp only
    split
    · rfl
    · rename_i heq
      obtain ⟨hfree, -, rfl⟩ := begin_change_ok heq
      cases hold <;> simp [GoalPhase.holds, given, hfree]
  | Reservation | Admit =>
    dsimp only
    split <;> rfl
  | Gate =>
    dsimp only
    split <;> rename_i heq <;> rw [ConcurrencyGate.try_admit] at heq <;> split_ifs at heq <;>
      cases heq
    · rfl
    · rw [given_setGate]
      cases hold <;> simp [GoalPhase.holds, given, count_cons]
      grind
  | Log generation =>
    dsimp only
    split_ifs
    · rfl
    · have hslot := hgiven (.Slot goal.request.action generation) (by simp [hphase, GoalPhase.holds])
      change _ + _ = _ + (d.setGate _ _).given hold
      rw [given_setGate]
      cases hold <;>
        simp [GoalPhase.holds, given, count_cons, ConcurrencyGate.clear_running] at hslot ⊢
      grind
  | DropRemoval | EndRemoval generation => simp [GoalPhase.holds, hdrop]
  | DropHold | EndHold generation =>
    have hstack := hgiven .Stack (by simp [hphase, GoalPhase.holds])
    cases hold <;> simp [GoalPhase.holds, StackState.end_change, given] at hstack ⊢
    · exact hstack
  | Change generation => rfl
  | Release generation =>
    have hslot := hgiven (.Slot goal.request.action generation) (by simp [hphase, GoalPhase.holds])
    dsimp only
    rw [given_setGate]
    cases hold <;> simp [GoalPhase.holds, given, count_cons, ConcurrencyGate.release,
      ConcurrencyGate.clear_running] at hslot ⊢
    grind

theorem turn_rest (goal : StackGoal) (started : Bool) :
    (d.turn goal started).1.other_change = d.other_change ∧
      ((d.turn goal started).1.stack = d.stack ∨ (d.turn goal started).1.stack.node_goals = 0 ∨
        (d.turn goal started).1.stack.change = false) := by
  unfold Daemon.turn
  split <;>
    grind [drop_removal, StackState.try_begin_change, StackState.end_change, setGate, refuse]

theorem Accounted.step (h : Accounted d) {act : StackAct} (hstep : d.step act = some d') :
    Accounted d' := by
  cases act with
  | Receive request sender =>
    rw [Daemon.step] at hstep
    split_ifs at hstep
    split at hstep <;> cases hstep
    · exact ⟨h.held, h.alone⟩
    · refine ⟨fun hold => ?_, h.alone⟩
      rw [flatMap_append]
      exact (congrArg (count hold · + _) (append_nil _)).trans (h.held hold)
  | Turn index started =>
    cases hget : d.goals[index]? with
    | none =>
      rw [Daemon.step, hget] at hstep
      cases hstep
    | some goal =>
      rw [step_turn hget] at hstep
      cases hstep
      obtain ⟨hother, hstack⟩ := turn_rest (d := d) goal started
      refine ⟨fun hold => ?_, fun hchange => ?_⟩
      · have hput := count_flatMap_put_map (f := StackGoal.holds)
          (g := fun phase => { goal with phase })
          (w := GoalPhase.holds goal.request.action) hget (fun _ => rfl) (d.turn goal started).2 hold
        have hturn := h.turn (mem_of_getElem? hget) started hold
        have hheld := h.held hold
        have helse : (d.turn goal started).1.elsewhere hold = d.elsewhere hold := by
          cases hold with
          | Stack => rw [elsewhere, hother, elsewhere]
          | Slot => rfl
        change ((put _ _ _).flatMap _).count hold + (d.turn goal started).1.elsewhere hold =
          (d.turn goal started).1.given hold
        omega
      · rcases hstack with hsame | hgoals | hfree
        · exact (congrArg _ hsame).trans (h.alone (hsame ▸ hchange))
        · exact hgoals
        · exact absurd hchange (hfree ▸ Bool.false_ne_true)
  | Call act =>
    rw [Daemon.step] at hstep
    split_ifs at hstep
    cases hstep
    exact ⟨h.held, h.alone⟩
  | NodeGoal =>
    rw [Daemon.step, StackState.try_admit_node_goal] at hstep
    split_ifs at hstep with hchange
    cases hstep
    exact ⟨fun hold => (h.held hold).trans (by cases hold <;> rfl), fun h => absurd h hchange⟩
  | EndNodeGoal =>
    rw [Daemon.step] at hstep
    split_ifs at hstep
    cases hstep
    exact ⟨fun hold => (h.held hold).trans (by cases hold <;> rfl),
      fun hchange => congrArg (· - 1) (h.alone hchange)⟩
  | OtherChange =>
    rw [Daemon.step] at hstep
    split at hstep <;> cases hstep
    rename_i heq
    obtain ⟨hfree, hgoals, rfl⟩ := begin_change_ok heq
    refine ⟨fun hold => ?_, fun _ => hgoals⟩
    have hheld := h.held hold
    cases hold <;> simp_all [elsewhere, given]
  | EndOtherChange =>
    rw [Daemon.step] at hstep
    split_ifs at hstep with hother
    cases hstep
    refine ⟨fun hold => ?_, fun h => absurd h Bool.false_ne_true⟩
    have hheld := h.held hold
    cases hold with
    | Stack =>
      have := Bool.toNat_le d.stack.change
      simp only [elsewhere, given, hother, Bool.toNat_true] at hheld
      simp only [elsewhere, given, StackState.end_change, Bool.toNat_false]
      omega
    | Slot => exact hheld
  | Reserve reservation =>
    cases hstep
    exact ⟨h.held, h.alone⟩

/-- In every run, the stack is with one goal or other work, and then with no node goal, and
the slot of each gate with the goal that was given it. What is given away is held: without
goals and other work, the stack and the gates are free. -/
theorem every_hold_has_one_holder (identity : ClientRef) (book : FleetBook) {acts : List StackAct}
    (hrun : run step (new identity book) acts = some d) : Accounted d := by
  have hstart : Accounted (new identity book) := ⟨fun hold => by cases hold <;> rfl, nofun⟩
  exact run_keeps (fun _ _ _ h => h.step) hstart hrun

theorem a_removal_holds_the_stack_and_its_slot :
    ∃ d, run step (new ⟨"cn-desk", "core"⟩ (.new "v1" "cn-desk")) startRemoval = some d ∧
      d.given .Stack = 1 ∧ d.given (.Slot .Remove 1) = 1 ∧ Accounted d := by
  have hlast : (run step (new ⟨"cn-desk", "core"⟩ (.new "v1" "cn-desk")) startRemoval).map
      (fun d => (d.given .Stack, d.given (.Slot .Remove 1))) = some (1, 1) := by
    decide +kernel
  obtain ⟨d, hrun, heq⟩ := Option.map_eq_some_iff.mp hlast
  obtain ⟨hstack, hslot⟩ := Prod.mk.inj heq
  exact ⟨d, hrun, hstack, hslot, every_hold_has_one_holder _ _ hrun⟩

end Daemon

end peppy.stack_action
