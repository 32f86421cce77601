-- The fleet rules of the MCP server, which cancels a goal that moves a robot at a
-- halt and when it loses the follow of the fleet.
import Peppy.Lib.Changes
import Peppy.Lib.Runs

open runs List Function

namespace peppy.moves

/-! ## The view of the fleet -/

inductive FleetStop where
  | Halted (by_ : String)
  | FollowLost (reason : String)

inductive ViewState where
  | Waiting
  | Seen (revision : Nat) (halted_by : Option String)
  | Lost (reason : String)

/-- What the follow of one generation sees: the last value, which every goal reads. -/
structure FleetView where
  generation : Nat
  state : ViewState

def FleetView.stop_of (view : FleetView) (generation clearance : Nat) : Option FleetStop :=
  if view.generation = generation then
    match view.state with
    | .Waiting => none
    | .Seen revision (some by_) => if clearance < revision then some (.Halted by_) else none
    | .Seen _ none => none
    | .Lost reason => some (.FollowLost reason)
  else some (.FollowLost "the server follows the changes again for later goals")

structure Follow where
  goals : Nat
  generation : Nat
  /-- The generation of the follow that the token stops. -/
  stop : Option Nat

inductive Phase where
  | Absent
  | Firing
  | Following
  | Ended
  deriving DecidableEq

/-- A `follow_changes`, with its token and the last revision given. -/
structure FollowTask where
  phase : Phase := .Absent
  stopped : Bool := false
  revision : Nat := 0

/-- The task is there to follow. -/
def FollowTask.Runs (task : FollowTask) : Prop := task.phase = .Firing ∨ task.phase = .Following

instance (task : FollowTask) : Decidable task.Runs := by
  unfold FollowTask.Runs
  infer_instance

structure MarkedGoal where
  generation : Nat
  clearance : Nat
  /-- Its follow was given a halt after the move check while the goal lived. -/
  halted : Bool := false
  lost : Bool := false
  deriving DecidableEq

structure Server where
  view : FleetView
  follow : Follow
  tasks : Nat → FollowTask
  goals : List MarkedGoal

def Server.new : Server where
  view := { generation := 0, state := .Waiting }
  follow := { goals := 0, generation := 0, stop := none }
  tasks := fun _ => {}
  goals := []

/-- What a poll of `must_stop` gives, `none` while it waits. -/
def Server.must_stop (server : Server) (goal : MarkedGoal) : Option FleetStop :=
  server.view.stop_of goal.generation goal.clearance

/-! ## The steps -/

/-- A change of the fleet, with the client that halted the stack while it is
halted. -/
structure FleetChange where
  revision : Nat
  halted_by : Option String

def Server.start_follow (server : Server) : Server :=
  let generation := server.follow.generation + 1
  { server with
    follow := { server.follow with generation, stop := some generation }
    view := { generation, state := .Waiting }
    tasks := update server.tasks generation { phase := .Firing } }

def Server.follow_marked_goal (server : Server) (clearance : Nat) : Server :=
  let server := if server.follow.stop.isNone then server.start_follow else server
  { server with
    follow := { server.follow with goals := server.follow.goals + 1 }
    goals := server.goals ++
      [{ generation := server.follow.generation, clearance }] }

def Server.note_view (server : Server) (generation : Nat) (state : ViewState) : Server :=
  if server.follow.generation = generation ∧ 0 < server.follow.goals then
    { server with view := { generation, state } }
  else server

def Server.lose_follow (server : Server) (generation : Nat) (reason : String) : Server :=
  if server.follow.generation = generation then
    { server with
      follow := { server.follow with stop := none }
      view := { generation, state := .Lost reason } }
  else server

def FleetChange.stops (change : FleetChange) (goal : MarkedGoal) : Bool :=
  change.halted_by.isSome && decide (goal.clearance < change.revision)

def Server.deliver (server : Server) (generation : Nat) (change : FleetChange) : Server :=
  let server := server.note_view generation (.Seen change.revision change.halted_by)
  { server with
    tasks := update server.tasks generation
      { server.tasks generation with revision := change.revision }
    goals := server.goals.map fun goal =>
      if goal.generation = generation then
        { goal with halted := goal.halted || change.stops goal }
      else goal }

def Server.lose (server : Server) (generation : Nat) (reason : String) : Server :=
  let server := server.lose_follow generation reason
  { server with
    tasks := update server.tasks generation
      { server.tasks generation with phase := .Ended }
    goals := server.goals.map fun goal =>
      if goal.generation = generation then { goal with lost := true } else goal }

/-- The drop of the guard of a goal. The last one stops the follow. -/
def Server.drop_goal (server : Server) (i : Nat) : Server :=
  let server := { server with
    follow := { server.follow with goals := server.follow.goals - 1 }
    goals := server.goals.eraseIdx i }
  match server.follow.stop with
  | some stop =>
    if server.follow.goals = 0 then
      { server with
        follow := { server.follow with stop := none }
        tasks := update server.tasks stop { server.tasks stop with stopped := true } }
    else server
  | none => server

inductive Act where
  | Start (clearance : Nat)
  | Clone (i : Nat)
  | Drop (i : Nat)
  /-- The daemon accepts the `changes` goal of the follow. -/
  | Fire (generation : Nat)
  | Deliver (generation : Nat) (change : FleetChange)
  | Lose (generation : Nat) (reason : String)
  | Return (generation : Nat)

def step (server : Server) : Act → Option Server
  | .Start clearance => some (server.follow_marked_goal clearance)
  | .Clone i =>
    (server.goals[i]?).map fun goal =>
      { server with
        follow := { server.follow with goals := server.follow.goals + 1 }
        goals := server.goals ++ [goal] }
  | .Drop i => if i < server.goals.length then some (server.drop_goal i) else none
  | .Fire generation =>
    if (server.tasks generation).phase = .Firing then
      some { server with
        tasks := update server.tasks generation
          { server.tasks generation with phase := .Following } }
    else none
  | .Deliver generation change =>
    if (server.tasks generation).phase = .Following ∧
        (server.tasks generation).revision ≤ change.revision then
      some (server.deliver generation change)
    else none
  | .Lose generation reason =>
    if (server.tasks generation).Runs then some (server.lose generation reason) else none
  | .Return generation =>
    if (server.tasks generation).Runs ∧ (server.tasks generation).stopped then
      some { server with
        tasks := update server.tasks generation
          { server.tasks generation with phase := .Ended } }
    else none

/-- What each act does, with its guard. -/
inductive Stepped (server : Server) : Act → Server → Prop where
  | start (clearance : Nat) : Stepped server (.Start clearance) (server.follow_marked_goal clearance)
  | clone {i : Nat} {goal : MarkedGoal} (hgoal : server.goals[i]? = some goal) :
    Stepped server (.Clone i) { server with
      follow := { server.follow with goals := server.follow.goals + 1 }
      goals := server.goals ++ [goal] }
  | drop {i : Nat} (hi : i < server.goals.length) : Stepped server (.Drop i) (server.drop_goal i)
  | fire {generation : Nat} (hphase : (server.tasks generation).phase = .Firing) :
    Stepped server (.Fire generation) { server with
      tasks := update server.tasks generation
        { server.tasks generation with phase := .Following } }
  | deliver {generation : Nat} {change : FleetChange}
    (hphase : (server.tasks generation).phase = .Following)
    (hrevision : (server.tasks generation).revision ≤ change.revision) :
    Stepped server (.Deliver generation change) (server.deliver generation change)
  | lose {generation : Nat} (reason : String) :
    Stepped server (.Lose generation reason) (server.lose generation reason)
  | ret {generation : Nat} (hruns : (server.tasks generation).Runs)
    (hstopped : (server.tasks generation).stopped = true) :
    Stepped server (.Return generation) { server with
      tasks := update server.tasks generation
        { server.tasks generation with phase := .Ended } }

variable {act : Act} {server server' : Server} {goal : MarkedGoal} {generation : Nat}
  {change : FleetChange}

theorem step_cases (h : step server act = some server') : Stepped server act server' := by
  cases act with
  | Start clearance =>
    cases h
    exact .start clearance
  | Clone i =>
    obtain ⟨goal, hgoal, rfl⟩ := Option.map_eq_some_iff.mp h
    exact .clone hgoal
  | Drop i =>
    simp only [step] at h
    split at h <;> cases h
    exact .drop ‹_›
  | Fire generation =>
    simp only [step] at h
    split at h <;> cases h
    exact .fire ‹_›
  | Deliver generation change =>
    simp only [step] at h
    split at h <;> cases h
    exact .deliver (And.left ‹_›) (And.right ‹_›)
  | Lose generation reason =>
    simp only [step] at h
    split at h <;> cases h
    exact .lose reason
  | Return generation =>
    simp only [step] at h
    split at h <;> cases h
    exact .ret (And.left ‹_›) (And.right ‹_›)

/-! ## The follow of the goals -/

/-- The follow that runs is that of the goals which live. -/
structure Followed (server : Server) : Prop where
  goals : server.follow.goals = server.goals.length
  view : server.view.generation = server.follow.generation
  runs : ∀ generation, server.follow.stop = some generation →
    generation = server.follow.generation ∧ (server.tasks generation).Runs ∧
      (server.tasks generation).stopped = false ∧ ∀ reason, server.view.state ≠ .Lost reason
  live : ∀ goal ∈ server.goals, goal.lost = false →
    goal.generation = server.follow.generation ∧ server.follow.stop.isSome
  lost : ∀ goal ∈ server.goals, goal.lost = true →
    goal.generation < server.follow.generation ∨
      goal.generation = server.follow.generation ∧ server.follow.stop = none ∧
        (server.tasks goal.generation).phase = .Ended ∧
          ∃ reason, server.view.state = .Lost reason

theorem Followed.new : Followed Server.new where
  goals := rfl
  view := rfl
  runs := by simp [Server.new]
  live := by simp [Server.new]
  lost := by simp [Server.new]

section
variable (h : Followed server)
include h

/-- A follow starts when none is to be stopped: every goal that lives lost its own. -/
theorem Followed.start_follow
    (hnone : server.follow.stop = none) : Followed server.start_follow where
  goals := h.goals
  view := rfl
  runs := by
    rintro generation hstop
    cases hstop
    simp [Server.start_follow, FollowTask.Runs]
  live := by
    intro goal hgoal hlost
    have := (h.live goal hgoal hlost).2
    simp [hnone] at this
  lost := by
    intro goal hgoal hlost
    refine .inl ?_
    rcases h.lost goal hgoal hlost with hlt | ⟨heq, -⟩
    · exact Nat.lt_succ_of_lt hlt
    · exact Nat.lt_succ_of_le (Nat.le_of_eq heq)

theorem Followed.follow_marked_goal (clearance : Nat) :
    Followed (server.follow_marked_goal clearance) := by
  -- The follow that runs once the goal is noted.
  obtain ⟨next, hnext, hfollowed, hstop⟩ : ∃ next,
      (if server.follow.stop.isNone then server.start_follow else server) = next ∧
        Followed next ∧ next.follow.stop.isSome := by
    split
    · next hnone =>
      exact ⟨_, rfl, h.start_follow (Option.isNone_iff_eq_none.mp hnone), rfl⟩
    · next hsome => exact ⟨_, rfl, h, by simpa [Option.isSome_iff_ne_none] using hsome⟩
  unfold Server.follow_marked_goal
  rw [hnext]
  exact {
    goals := by simp [hfollowed.goals]
    view := hfollowed.view
    runs := hfollowed.runs
    live := by
      intro goal hgoal hlost
      rcases changes.mem_push hgoal with hgoal | rfl
      · exact hfollowed.live goal hgoal hlost
      · exact ⟨rfl, hstop⟩
    lost := by
      intro goal hgoal hlost
      rcases changes.mem_push hgoal with hgoal | rfl
      · exact hfollowed.lost goal hgoal hlost
      · cases hlost }

theorem Followed.clone {i : Nat} (hgoal : server.goals[i]? = some goal) : Followed { server with
      follow := { server.follow with goals := server.follow.goals + 1 }
      goals := server.goals ++ [goal] } := by
  have hmem : ∀ other ∈ server.goals ++ [goal], other ∈ server.goals := by
    intro other hother
    rcases mem_append.mp hother with hother | hother
    · exact hother
    · exact mem_singleton.mp hother ▸ mem_of_getElem? hgoal
  exact {
    goals := by simp [h.goals]
    view := h.view
    runs := h.runs
    live := fun other hother => h.live other (hmem other hother)
    lost := fun other hother => h.lost other (hmem other hother) }

theorem Followed.drop_goal {i : Nat}
    (hi : i < server.goals.length) : Followed (server.drop_goal i) := by
  have hgoals : server.follow.goals - 1 = (server.goals.eraseIdx i).length := by
    rw [h.goals, length_eraseIdx_of_lt hi]
  have hmem : ∀ goal ∈ server.goals.eraseIdx i, goal ∈ server.goals := fun _ =>
    mem_of_mem_eraseIdx
  have hdropped : Followed { server with
      follow := { server.follow with goals := server.follow.goals - 1 }
      goals := server.goals.eraseIdx i } := {
    goals := hgoals
    view := h.view
    runs := h.runs
    live := fun goal hgoal => h.live goal (hmem goal hgoal)
    lost := fun goal hgoal => h.lost goal (hmem goal hgoal) }
  unfold Server.drop_goal
  cases hstop : server.follow.stop with
  | none => simpa [hstop] using hdropped
  | some stop =>
    dsimp only
    rw [hstop]
    dsimp only
    split
    · next hlast =>
      -- The last goal is gone, so there is none left to follow.
      have hnil : server.goals.eraseIdx i = [] := by
        rw [← length_eq_zero_iff, ← hgoals]
        exact hlast
      exact {
        goals := hgoals
        view := h.view
        runs := by simp
        live := by simp [hnil]
        lost := by simp [hnil] }
    · simpa [hstop] using hdropped

theorem Followed.task {task : FollowTask}
    (hruns : (server.tasks generation).stopped = false → task.Runs ∧ task.stopped = false)
    (hended : (server.tasks generation).phase ≠ .Ended) :
    Followed { server with tasks := update server.tasks generation task } where
  goals := h.goals
  view := h.view
  runs := by
    intro current hstop
    obtain ⟨hcurrent, hrun, hstopped, hview⟩ := h.runs current hstop
    by_cases heq : current = generation
    · subst heq
      simpa [hview] using ⟨hcurrent, hruns hstopped⟩
    · simpa [update_of_ne heq] using ⟨hcurrent, hrun, hstopped, hview⟩
  live := h.live
  lost := by
    intro goal hgoal hlost
    rcases h.lost goal hgoal hlost with hlt | ⟨hcurrent, hstop, hphase, hview⟩
    · exact .inl hlt
    · have hne : goal.generation ≠ generation := by
        rintro rfl
        exact hended hphase
      exact .inr ⟨hcurrent, hstop, by simpa [update_of_ne hne] using hphase, hview⟩

theorem Followed.goals_map {f : MarkedGoal → MarkedGoal}
    (hgeneration : ∀ goal, (f goal).generation = goal.generation)
    (hlost : ∀ goal, (f goal).lost = goal.lost) :
    Followed { server with goals := server.goals.map f } where
  goals := by simp [h.goals]
  view := h.view
  runs := h.runs
  live := by simpa [hgeneration, hlost] using h.live
  lost := by simpa [hgeneration, hlost] using h.lost

end

theorem note_view_frame {state : ViewState} :
    (server.note_view generation state).goals = server.goals ∧
      (server.note_view generation state).tasks = server.tasks := by
  unfold Server.note_view
  split
  · exact ⟨rfl, rfl⟩
  · exact ⟨rfl, rfl⟩

theorem Followed.note_view (h : Followed server)
    (hended : (server.tasks generation).phase ≠ .Ended) (revision : Nat)
    (halted_by : Option String) :
    Followed (server.note_view generation (.Seen revision halted_by)) := by
  unfold Server.note_view
  split
  · next hcurrent =>
    exact {
      goals := h.goals
      view := hcurrent.1.symm
      runs := by
        intro current hstop
        obtain ⟨hgeneration, hrun, hstopped, -⟩ := h.runs current hstop
        exact ⟨hgeneration, hrun, hstopped, by simp⟩
      live := h.live
      lost := by
        intro goal hgoal hlost
        rcases h.lost goal hgoal hlost with hlt | ⟨hgeneration, -, hphase, -⟩
        · exact .inl hlt
        · rw [hgeneration, hcurrent.1] at hphase
          exact absurd hphase hended }
  · exact h

theorem Followed.deliver (h : Followed server)
    (hphase : (server.tasks generation).phase = .Following) (change : FleetChange) :
    Followed (server.deliver generation change) := by
  have hended : (server.tasks generation).phase ≠ .Ended := by simp [hphase]
  have hseen := h.note_view hended change.revision change.halted_by
  have htasks : (server.note_view generation (.Seen change.revision change.halted_by)).tasks =
      server.tasks := (note_view_frame).2
  have hrevision : Followed
      { server.note_view generation (.Seen change.revision change.halted_by) with
        tasks := update
          (server.note_view generation (.Seen change.revision change.halted_by)).tasks generation
          { (server.note_view generation (.Seen change.revision change.halted_by)).tasks generation
            with revision := change.revision } } :=
    hseen.task (fun hstopped => ⟨by simp [FollowTask.Runs, htasks, hphase], hstopped⟩)
      (by rwa [htasks])
  exact hrevision.goals_map (fun goal => by split <;> rfl) (fun goal => by split <;> rfl)

theorem Followed.lose (h : Followed server) (generation : Nat) (reason : String) :
    Followed (server.lose generation reason) := by
  unfold Server.lose Server.lose_follow
  split
  · next hcurrent =>
    exact {
      goals := by simp [h.goals]
      view := hcurrent.symm
      runs := by simp
      live := by
        intro goal hgoal hlost
        obtain ⟨before, hbefore, rfl⟩ := mem_map.mp hgoal
        split at hlost
        · cases hlost
        · next hne => exact absurd ((h.live before hbefore hlost).1.trans hcurrent) hne
      lost := by
        intro goal hgoal hlost
        obtain ⟨before, hbefore, rfl⟩ := mem_map.mp hgoal
        by_cases heq : before.generation = generation
        · simp only [heq, if_true]
          exact .inr ⟨hcurrent.symm, trivial, by simp, reason, rfl⟩
        · simp only [heq, if_false] at hlost ⊢
          rcases h.lost before hbefore hlost with hlt | ⟨hgeneration, -⟩
          · exact .inl hlt
          · exact absurd (hgeneration.trans hcurrent) heq }
  · next hold =>
    -- A follow that is not the current one has no goal that did not lose it.
    have hne : ∀ current, server.follow.stop = some current → current ≠ generation := by
      rintro current hstop rfl
      exact hold (h.runs current hstop).1.symm
    exact {
      goals := by simp [h.goals]
      view := h.view
      runs := by
        intro current hstop
        simpa [update_of_ne (hne current hstop)] using h.runs current hstop
      live := by
        intro goal hgoal hlost
        obtain ⟨before, hbefore, rfl⟩ := mem_map.mp hgoal
        split at hlost
        · cases hlost
        · next heq =>
          simp only [heq, if_false]
          exact h.live before hbefore hlost
      lost := by
        intro goal hgoal hlost
        obtain ⟨before, hbefore, rfl⟩ := mem_map.mp hgoal
        by_cases hbeforeLost : before.lost = true
        · rcases h.lost before hbefore hbeforeLost with hlt | ⟨hgeneration, hstop, hphase, hview⟩
          · left
            split <;> exact hlt
          · have heq : before.generation ≠ generation := fun heq => hold (hgeneration ▸ heq)
            simp only [heq, if_false]
            exact .inr ⟨hgeneration, hstop, by simpa [update_of_ne heq] using hphase, hview⟩
        · have hlive := (h.live before hbefore (by simpa using hbeforeLost)).1
          have heq : before.generation ≠ generation := fun heq => hold (hlive ▸ heq)
          simp only [heq, if_false] at hlost
          exact absurd hlost hbeforeLost }

theorem Followed.step (h : Followed server)
    (hstep : step server act = some server') : Followed server' := by
  cases step_cases hstep with
  | start clearance => exact h.follow_marked_goal clearance
  | clone hgoal => exact h.clone hgoal
  | drop hi => exact h.drop_goal hi
  | fire hphase =>
    exact h.task (fun hstopped => ⟨.inr rfl, hstopped⟩) (by simp [hphase])
  | deliver hphase _ => exact h.deliver hphase _
  | lose reason => exact h.lose _ reason
  | ret hruns hstopped =>
    refine h.task (fun hnot => absurd hstopped (by simp [hnot])) ?_
    rcases hruns with hphase | hphase <;> simp [hphase]

/-! ## The halts -/

/-- A goal is noted before its follow is given a halt, which no later change lifts. -/
def Timely (server : Server) : Act → Prop
  | .Start clearance =>
    server.follow.stop.isSome → server.view.stop_of server.follow.generation clearance = none
  | .Deliver generation change =>
    change.halted_by = none →
      ∀ goal ∈ server.goals, goal.generation = generation → goal.halted = false
  | _ => True

instance (server : Server) : DecidablePred (Timely server)
  | .Start _ | .Deliver .. => by unfold Timely; infer_instance
  | .Clone _ | .Drop _ | .Fire _ | .Lose .. | .Return _ => .isTrue trivial

/-- A goal that lives sees whether it must stop. -/
structure Shown (server : Server) : Prop where
  halted : ∀ goal ∈ server.goals, goal.lost = false →
    (goal.halted = true ↔ (server.must_stop goal).isSome)
  revision : ∀ goal ∈ server.goals, goal.lost = false → goal.halted = true →
    goal.clearance < (server.tasks goal.generation).revision

theorem Shown.new : Shown Server.new where
  halted := by simp [Server.new]
  revision := by simp [Server.new]

theorem Shown.of_same (h : Shown server)
    (hgoals : ∀ goal ∈ server'.goals, goal ∈ server.goals) (hview : server'.view = server.view)
    (htasks : ∀ generation,
    (server'.tasks generation).revision = (server.tasks generation).revision) : Shown server' where
  halted := by
    intro goal hgoal hlost
    unfold Server.must_stop
    rw [hview]
    exact h.halted goal (hgoals goal hgoal) hlost
  revision := by
    intro goal hgoal hlost hhalted
    rw [htasks]
    exact h.revision goal (hgoals goal hgoal) hlost hhalted

theorem update_revision {tasks : Nat → FollowTask} {task : FollowTask}
    (h : task.revision = (tasks generation).revision) (other : Nat) :
    (update tasks generation task other).revision = (tasks other).revision := by
  by_cases heq : other = generation
  · subst heq
    simpa using h
  · rw [update_of_ne heq]

theorem Shown.drop_goal (h : Shown server) (i : Nat) : Shown (server.drop_goal i) := by
  have hgoals : ∀ goal ∈ server.goals.eraseIdx i, goal ∈ server.goals := fun _ =>
    mem_of_mem_eraseIdx
  unfold Server.drop_goal
  dsimp only
  split
  · split
    · exact h.of_same hgoals rfl (update_revision rfl)
    · exact h.of_same hgoals rfl fun _ => rfl
  · exact h.of_same hgoals rfl fun _ => rfl

theorem Shown.follow_marked_goal (h : Shown server) (hfollowed : Followed server)
    {clearance : Nat} (htimely : Timely server (.Start clearance)) :
    Shown (server.follow_marked_goal clearance) := by
  unfold Server.follow_marked_goal
  cases hstop : server.follow.stop with
  | none =>
    -- Every other goal lost its follow, and the new one sees nothing yet.
    have hlost : ∀ goal ∈ server.goals, goal.lost ≠ false := fun goal hgoal hlost => by
      simpa [hstop] using (hfollowed.live goal hgoal hlost).2
    constructor
    · intro goal hgoal hnot
      rcases changes.mem_push hgoal with hgoal | rfl
      · exact absurd hnot (hlost goal hgoal)
      · simp [Server.must_stop, FleetView.stop_of, Server.start_follow]
    · intro goal hgoal hnot hhalted
      rcases changes.mem_push hgoal with hgoal | rfl
      · exact absurd hnot (hlost goal hgoal)
      · cases hhalted
  | some stop =>
    have hnone := htimely (by simp [hstop])
    constructor
    · intro goal hgoal hlost
      rcases changes.mem_push hgoal with hgoal | rfl
      · exact h.halted goal hgoal hlost
      · simp [Server.must_stop, hnone]
    · intro goal hgoal hlost hhalted
      rcases changes.mem_push hgoal with hgoal | rfl
      · exact h.revision goal hgoal hlost hhalted
      · cases hhalted

/-- What a goal sees of the change that its follow was last given. -/
theorem stop_of_seen {clearance : Nat} :
    (FleetView.stop_of ⟨generation, .Seen change.revision change.halted_by⟩ generation
      clearance).isSome = true ↔ change.halted_by.isSome = true ∧ clearance < change.revision := by
  cases hby : change.halted_by with
  | none => simp [FleetView.stop_of]
  | some by_ => simp [FleetView.stop_of, apply_ite Option.isSome]

theorem Followed.delivered (hfollowed : Followed server)
    (hgoal : goal ∈ (server.deliver generation change).goals) (hlost : goal.lost = false) :
    ∃ before ∈ server.goals, before.lost = false ∧ (generation = server.follow.generation ∧
          goal = { before with halted := before.halted || change.stops before } ∧
          (server.deliver generation change).view =
            ⟨generation, .Seen change.revision change.halted_by⟩ ∧
          before.generation = generation ∨
        before.generation ≠ generation ∧ goal = before ∧
          (server.deliver generation change).view = server.view) := by
  simp only [Server.deliver, (note_view_frame).1] at hgoal
  obtain ⟨before, hbefore, rfl⟩ := mem_map.mp hgoal
  have hbeforeLost : before.lost = false := by
    split at hlost <;> exact hlost
  have hcurrent := (hfollowed.live before hbefore hbeforeLost).1
  refine ⟨before, hbefore, hbeforeLost, ?_⟩
  by_cases heq : before.generation = generation
  · have hgeneration : server.follow.generation = generation := hcurrent.symm.trans heq
    have hpos : 0 < server.follow.goals := by
      rw [hfollowed.goals]
      exact length_pos_of_mem hbefore
    refine .inl ⟨hgeneration.symm, by simp [heq], ?_, heq⟩
    simp [Server.deliver, Server.note_view, hgeneration, hpos]
  · have hgeneration : server.follow.generation ≠ generation := fun h => heq (hcurrent.trans h)
    refine .inr ⟨heq, by simp [heq], ?_⟩
    simp [Server.deliver, Server.note_view, hgeneration]

theorem Shown.deliver (h : Shown server) (hfollowed : Followed server)
    (hrevision : (server.tasks generation).revision ≤ change.revision)
    (htimely : Timely server (.Deliver generation change)) :
    Shown (server.deliver generation change) := by
  constructor
  · intro goal hgoal hlost
    obtain ⟨before, hbefore, hbeforeLost, hcase⟩ := hfollowed.delivered hgoal hlost
    rcases hcase with ⟨-, rfl, hview, rfl⟩ | ⟨-, rfl, hview⟩
    · unfold Server.must_stop
      rw [hview, stop_of_seen]
      cases hby : change.halted_by with
      | none =>
        have hnot := htimely hby before hbefore rfl
        simp [hnot, FleetChange.stops, hby]
      | some by_ =>
        have hbound := h.revision before hbefore hbeforeLost
        simp only [FleetChange.stops, hby, Option.isSome_some, Bool.true_and, Bool.or_eq_true,
          decide_eq_true_eq, true_and]
        exact ⟨fun hor => hor.elim (fun hhalted => Nat.lt_of_lt_of_le (hbound hhalted) hrevision) id, .inr⟩
    · unfold Server.must_stop
      rw [hview]
      exact h.halted goal hbefore hbeforeLost
  · intro goal hgoal hlost hhalted
    obtain ⟨before, hbefore, hbeforeLost, hcase⟩ := hfollowed.delivered hgoal hlost
    rcases hcase with ⟨-, rfl, -, rfl⟩ | ⟨hne, rfl, -⟩
    · have hbound := h.revision before hbefore hbeforeLost
      simp only [Server.deliver, update_self]
      rcases Bool.or_eq_true_iff.mp hhalted with hbeforeHalted | hstops
      · exact Nat.lt_of_lt_of_le (hbound hbeforeHalted) hrevision
      · simp only [FleetChange.stops, Bool.and_eq_true, decide_eq_true_eq] at hstops
        exact hstops.2
    · simp only [Server.deliver, (note_view_frame).2, update_of_ne hne]
      exact h.revision goal hbefore hbeforeLost hhalted

theorem Shown.lose (h : Shown server) (hfollowed : Followed server)
    (generation : Nat) (reason : String) : Shown (server.lose generation reason) := by
  have hframe : (server.lose_follow generation reason).goals = server.goals ∧
      (server.lose_follow generation reason).tasks = server.tasks := by
    unfold Server.lose_follow
    split <;> exact ⟨rfl, rfl⟩
  -- A goal that still has its follow is not one of the lost follow.
  have hcases : ∀ goal ∈ (server.lose generation reason).goals, goal.lost = false →
      goal ∈ server.goals ∧ goal.generation ≠ generation ∧
        (server.lose generation reason).view = server.view := by
    intro goal hgoal hlost
    simp only [Server.lose, hframe.1] at hgoal
    obtain ⟨before, hbefore, rfl⟩ := mem_map.mp hgoal
    split at hlost
    · cases hlost
    next hne =>
    have hcurrent := (hfollowed.live before hbefore hlost).1
    simp only [hne, if_false]
    refine ⟨hbefore, hne, ?_⟩
    simp [Server.lose, Server.lose_follow, ← hcurrent, hne]
  constructor
  · intro goal hgoal hlost
    obtain ⟨hbefore, -, hview⟩ := hcases goal hgoal hlost
    unfold Server.must_stop
    rw [hview]
    exact h.halted goal hbefore hlost
  · intro goal hgoal hlost hhalted
    obtain ⟨hbefore, hne, -⟩ := hcases goal hgoal hlost
    simp only [Server.lose, hframe.2, update_of_ne hne]
    exact h.revision goal hbefore hlost hhalted

theorem Shown.step (h : Shown server) (hfollowed : Followed server) (htimely : Timely server act)
    (hstep : step server act = some server') : Shown server' := by
  cases step_cases hstep with
  | start clearance => exact h.follow_marked_goal hfollowed htimely
  | clone hgoal =>
    refine h.of_same (fun goal hmem => ?_) rfl fun _ => rfl
    rcases mem_append.mp hmem with hmem | hmem
    · exact hmem
    · exact mem_singleton.mp hmem ▸ mem_of_getElem? hgoal
  | drop hi => exact h.drop_goal _
  | fire hphase | ret hruns hstopped => exact h.of_same (fun _ => id) rfl (update_revision rfl)
  | deliver hphase hrevision => exact h.deliver hfollowed hrevision htimely
  | lose reason => exact h.lose hfollowed _ reason

theorem Followed.stops_lost (h : Followed server)
    (hgoal : goal ∈ server.goals) (hlost : goal.lost = true) :
    (server.must_stop goal).isSome = true := by
  unfold Server.must_stop FleetView.stop_of
  rcases h.lost goal hgoal hlost with hlt | ⟨hcurrent, -, -, reason, hview⟩
  · have hne : server.view.generation ≠ goal.generation := by
      rw [h.view]
      exact (Nat.ne_of_lt hlt).symm
    simp [hne]
  · simp [h.view, hcurrent, hview]

/-- The `must_stop` of a living goal resolves exactly when its follow was given a halt after
its move check or was lost, and a follow that was not lost runs. -/
theorem a_halt_stops_every_goal (acts : List Act) (server : Server)
    (hrun : run step Server.new acts = some server) (hmeets : Meets step Timely Server.new acts) :
    ∀ goal ∈ server.goals,
      ((server.must_stop goal).isSome = true ↔ goal.halted = true ∨ goal.lost = true) ∧
      (goal.lost = false → (server.tasks goal.generation).Runs ∧
        (server.tasks goal.generation).stopped = false) := by
  have hkept : Followed server ∧ Shown server :=
    run_keeps_where (I := fun server => Followed server ∧ Shown server)
      (fun _ _ _ h htimely hstep => ⟨h.1.step hstep, h.2.step h.1 htimely hstep⟩)
      ⟨Followed.new, Shown.new⟩ hmeets hrun
  obtain ⟨hfollowed, hshown⟩ := hkept
  intro goal hgoal
  constructor
  · cases hlost : goal.lost with
    | true => simp [hfollowed.stops_lost hgoal hlost]
    | false => simpa using (hshown.halted goal hgoal hlost).symm
  intro hlost
  obtain ⟨hcurrent, hsome⟩ := hfollowed.live goal hgoal hlost
  obtain ⟨stop, hstop⟩ := Option.isSome_iff_exists.mp hsome
  obtain ⟨rfl, hruns, hstopped, -⟩ := hfollowed.runs stop hstop
  rw [hcurrent]
  exact ⟨hruns, hstopped⟩

/-- A goal of clearance 4 runs. Its follow gets revision 4, then a halt at 5. -/
def HALTED : List Act :=
  [.Start 4, .Fire 1, .Deliver 1 ⟨4, none⟩, .Deliver 1 ⟨5, some "pilot"⟩]

theorem the_halt_stops_the_goal :
    ∃ server, run step Server.new HALTED = some server ∧ Meets step Timely Server.new HALTED ∧
      ∃ goal ∈ server.goals, (server.must_stop goal).isSome = true := by
  obtain ⟨server, hrun⟩ : ∃ server, run step Server.new HALTED = some server := ⟨_, rfl⟩
  have hmeets : Meets step Timely Server.new HALTED := by decide
  have hkept := a_halt_stops_every_goal HALTED server hrun hmeets
  refine ⟨server, hrun, hmeets, ⟨1, 4, true, false⟩, ?_, ?_⟩
  · cases hrun
    decide
  · refine (hkept ⟨1, 4, true, false⟩ ?_).1.mpr (.inl rfl)
    cases hrun
    decide

/-- The halt is cleared before the goal is polled, so the goal runs on. -/
theorem a_halt_that_is_cleared_before_the_poll :
    ∃ server, run step Server.new (HALTED ++ [.Deliver 1 ⟨6, none⟩]) = some server ∧
      server.goals = [⟨1, 4, true, false⟩] ∧ server.must_stop ⟨1, 4, true, false⟩ = none :=
  ⟨_, rfl, rfl, rfl⟩

end peppy.moves
