-- What a client knows of its leases when it replays the events of its goal and
-- the answers of its own calls, against the leases that the book has.
import Peppy.FleetEvents

open keymap List

namespace peppy.fleet.FleetBook

/-! ## The replay -/

variable (client : ClientRef) (book : FleetBook)

def own_robot : FleetCall → Option String
  | .Take c robot name =>
    if c = client ∧ (book.take c robot name).2.isOk then some robot else none
  | .LeaseJoined joined robot => if joined = some client then some robot else none
  | _ => none

/-- A robot joined while nothing is halted and no other client leases it. -/
def leased_robot : FleetCall → Option String
  | .LeaseJoined joined robot =>
    if joined = some client ∧ book.halt = none ∧
        (book.leases.get robot).all (fun lease => lease.holder = client) then some robot
    else none
  | act => own_robot client book act

def begins : FleetCall → Bool
  | .BeginHolding c generation => c = client ∧ (book.begin_holding c generation).2.isOk
  | _ => false

/-- The robots that the client knows: from its events, its takes and its joins. -/
def replay_call (counts : ClientRef → FleetBook → FleetCall → Option String) (client : ClientRef)
    (book : FleetBook) (act : FleetCall) (view : List String) : List String :=
  if begins client book act then []
  else
    (counts client book act).toList ++
      read view (((book.call act).1.goal_events client).drop (book.goal_events client).length)

/-- The books of the daemon, each with the robots that the client knows. -/
inductive Replayed (counts : ClientRef → FleetBook → FleetCall → Option String)
    (client : ClientRef) : FleetBook → List String → Prop
  | new (version core_node : String) : Replayed counts client (new version core_node) []
  | restore_halt {book : FleetBook} {view : List String} (halted_by : Option String) :
      Replayed counts client book view → Replayed counts client (book.restore_halt halted_by) view
  | call {book : FleetBook} {view : List String} (act : FleetCall) :
      Replayed counts client book view →
      Replayed counts client (book.call act).1 (replay_call counts client book act view)

section
variable {client : ClientRef} {book : FleetBook} {view : List String}

variable {counts : ClientRef → FleetBook → FleetCall → Option String}

theorem Replayed.built (h : Replayed counts client book view) : Built book := by
  induction h with
  | new version core_node => exact .new version core_node
  | restore_halt halted_by _ ih => exact ih.restore_halt halted_by
  | call act _ ih => exact ih.call act

section
variable (hview : book.holds_goal client = true → Knows client book view)
include hview

/-- The new events of the client's goal bring what it knows up to the book. -/
theorem Reads.replay {act : FleetCall}
    (h : Reads client book (book.call act).1) (hbegins : begins client book act = false)
    (hcounts : counts client book act = none) (hruns : (book.call act).1.holds_goal client = true) :
    Knows client (book.call act).1 (replay_call counts client book act view) := by
  obtain ⟨events, hheard, hreads⟩ := h
  have hbefore : book.holds_goal client = true := hheard.goal.symm.trans hruns
  unfold replay_call
  rw [if_neg (by simp [hbegins]), hcounts, hheard.events, drop_left]
  exact hreads hbefore view (hview hbefore)

theorem Takes.replay {act : FleetCall}
    {robot : String} (h : Takes client book (book.call act).1 robot)
    (hbegins : begins client book act = false) (hcounts : counts client book act = some robot)
    (hruns : (book.call act).1.holds_goal client = true) :
    Knows client (book.call act).1 (replay_call counts client book act view) := by
  obtain ⟨hheard, hholds⟩ := h
  have hbefore : book.holds_goal client = true := hheard.goal.symm.trans hruns
  intro r
  unfold replay_call
  rw [if_neg (by simp [hbegins]), hcounts, hheard.events, drop_left, hholds r,
    ← hview hbefore r]
  simp [read]

theorem lease_joined_knows {robot : String}
    (hruns : (book.call (.LeaseJoined (some client) robot)).1.holds_goal client = true) :
    Knows client (book.call (.LeaseJoined (some client) robot)).1
      (replay_call leased_robot client book (.LeaseJoined (some client) robot) view) := by
  have hsame : book.lease_joined (some client) robot = book →
      Reads client book (book.call (.LeaseJoined (some client) robot)).1 := .of_same
  by_cases hbefore : book.holds_goal client = true
  · have hjoined : book.lease_joined (some client) robot =
        if book.halt.isSome || book.leases.contains robot then book
        else book.start_lease client robot robot := by
      simp [lease_joined, Option.filter, hbefore]
    cases hhalt : book.halt with
    | some halted_by =>
      exact (hsame (by simp [hjoined, hhalt])).replay hview rfl (by simp [leased_robot, hhalt]) hruns
    | none =>
      cases hget : book.leases.get robot with
      | none =>
        have hcounts : leased_robot client book (.LeaseJoined (some client) robot) = some robot := by
          simp [leased_robot, hhalt, hget]
        refine Takes.replay hview ?_ rfl hcounts hruns
        have hstart : book.lease_joined (some client) robot =
            book.start_lease client robot robot := by
          simp [hjoined, hhalt, KeyMap.contains, hget]
        rw [show (book.call (.LeaseJoined (some client) robot)).1 = _ from hstart]
        exact start_lease_takes book client robot robot
      | some lease =>
        have hbook : book.lease_joined (some client) robot = book := by
          simp [hjoined, hhalt, KeyMap.contains, hget]
        by_cases hholder : lease.holder = client
        · have hcounts : leased_robot client book (.LeaseJoined (some client) robot) =
              some robot := by
            simp [leased_robot, hhalt, hget, hholder]
          refine Takes.replay hview ?_ rfl hcounts hruns
          rw [show (book.call (.LeaseJoined (some client) robot)).1 = book from hbook]
          refine ⟨.of_holders rfl, fun r => (or_iff_right_of_imp ?_).symm⟩
          rintro rfl
          exact ⟨lease, hget, hholder⟩
        · exact (hsame hbook).replay hview rfl (by simp [leased_robot, hhalt, hget, hholder]) hruns
  · have hbook : book.lease_joined (some client) robot = book := by
      simp [lease_joined, Option.filter, hbefore]
    exact absurd ((congrArg (·.holds_goal client) hbook).symm.trans hruns) hbefore

theorem call_knows (hrules : LeasesRuled book) (act : FleetCall)
    (hruns : (book.call act).1.holds_goal client = true) :
    Knows client (book.call act).1 (replay_call leased_robot client book act view) := by
  by_cases hown : act.isOwn client = true
  · cases act with
    | BeginHolding c generation =>
      have hc : c = client := of_decide_eq_true hown
      subst hc
      cases hok : (book.begin_holding c generation).2 with
      | error refusal =>
        have hbook : (book.call (.BeginHolding c generation)).1 = book := book_of_refused hok
        exact (Reads.of_same hbook).replay hview
          (by simp [begins, hok, Except.isOk, Except.toBool]) rfl hruns
      | ok _ =>
        unfold replay_call
        rw [if_pos (by simp [begins, hok, Except.isOk, Except.toBool])]
        exact fun r => iff_of_false not_mem_nil (begin_holding_begins hrules hok r)
    | EndHolding c generation cause =>
      have hc : c = client := of_decide_eq_true hown
      subst hc
      rcases end_holding_own book c generation cause with hbook | hgone
      · exact (Reads.of_same hbook).replay hview rfl rfl hruns
      · exact absurd (hgone.symm.trans hruns) Bool.false_ne_true
    | Take c robot name =>
      have hc : c = client := of_decide_eq_true hown
      subst hc
      cases hok : (book.take c robot name).2 with
      | error refusal =>
        have hbook : (book.call (.Take c robot name)).1 = book := book_of_refused hok
        exact (Reads.of_same hbook).replay hview rfl
          (by simp [leased_robot, own_robot, hok, Except.isOk, Except.toBool]) hruns
      | ok _ =>
        exact Takes.replay hview (take_takes hok) rfl
          (by simp [leased_robot, own_robot, hok, Except.isOk, Except.toBool]) hruns
    | LeaseJoined joined robot =>
      have hc : joined = some client := of_decide_eq_true hown
      subst hc
      exact lease_joined_knows hview hruns
    | _ => cases hown
  · have hother : act.isOwn client = false := by simpa using hown
    refine (call_reads hother).replay hview ?_ ?_ hruns
    · cases act <;> simp_all [begins, FleetCall.isOwn]
    · cases act <;> simp_all [leased_robot, own_robot, FleetCall.isOwn]

end

/-- Each client whose `lease` goal runs knows which leases it holds from the
robots that it took or joined and the events of its goal. -/
theorem the_holders_know_their_leases (h : Replayed leased_robot client book view)
    (hruns : book.holds_goal client = true) (robot : String) :
    robot ∈ view ↔ ∃ lease, book.leases.get robot = some lease ∧ lease.holder = client := by
  have hknows : book.holds_goal client = true → Knows client book view := by
    clear hruns
    induction h with
    | new version core_node => intro hruns; cases hruns
    | restore_halt halted_by _ ih => exact ih
    | call act hbefore ih => exact call_knows ih hbefore.built.leasesRuled act
  exact hknows hruns robot

end

/-- The pilot that offered its arm gets it back when the planner that took it
releases it. -/
theorem the_pilot_knows_its_arm : ∃ book view, Replayed leased_robot ⟨"core", "pilot"⟩ book view ∧
      ("arm" ∈ view ↔ ∃ lease, book.leases.get "arm" = some lease ∧
        lease.holder = ⟨"core", "pilot"⟩) ∧ view = ["arm"] := by
  have h : Replayed leased_robot ⟨"core", "pilot"⟩ _ _ :=
    ((((((Replayed.new "1" "core").call (.BeginHolding ⟨"core", "pilot"⟩ "one")).call
      (.BeginHolding ⟨"core", "planner"⟩ "one")).call
      (.Take ⟨"core", "pilot"⟩ "arm" "own")).call
      (.Offer ⟨"core", "pilot"⟩ ["arm"] ⟨"core", "planner"⟩)).call
      (.Take ⟨"core", "planner"⟩ "arm" "plan")).call (.Release ⟨"core", "planner"⟩ "arm")
  exact ⟨_, _, h, the_holders_know_their_leases h (by decide +kernel) "arm", by decide +kernel⟩

/-- A robot that a client joins during a halt is not leased to the client,
and its goal gets no event. -/
theorem the_robot_that_joins_a_halted_stack :
    ∃ book view, Replayed own_robot ⟨"core", "pilot"⟩ book view ∧
      book.holds_goal ⟨"core", "pilot"⟩ = true ∧ view = ["arm"] ∧
      book.goal_events ⟨"core", "pilot"⟩ = [] ∧ book.leases.get "arm" = none := by
  have h : Replayed own_robot ⟨"core", "pilot"⟩ _ _ :=
    (((Replayed.new "1" "core").call (.BeginHolding ⟨"core", "pilot"⟩ "one")).call
      (.Halt "operator")).call (.LeaseJoined (some ⟨"core", "pilot"⟩) "arm")
  exact ⟨_, _, h, by decide +kernel, by decide +kernel, by decide +kernel, by decide +kernel⟩

end peppy.fleet.FleetBook
