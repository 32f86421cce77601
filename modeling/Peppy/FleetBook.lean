-- The book of the fleet: who holds the lease of each robot, the offers that
-- run, the halt, the lease holders whose `lease` goal runs, and the clients
-- that follow the changes.
import Peppy.Lib.KeyMap

open keymap

namespace peppy.fleet

/-! ## Clients and refusals -/

/-- A client of the fleet: an instance, and the machine that runs it. -/
structure ClientRef where
  core_node : String
  instance_id : String
  deriving DecidableEq, Ord

def ClientRef.display (client : ClientRef) : String :=
  "`" ++ client.instance_id ++ "` on `" ++ client.core_node ++ "`"

inductive RobotLeasesFailureKind where
  | Halted
  | Leased
  | NotLeased

inductive RefusalKind where
  | RobotLeases (kind : RobotLeasesFailureKind)
  | PreconditionFailed
  | Rejected

structure Refusal where
  kind : RefusalKind
  message : String

structure MoveRefusal where
  failure_kind : RobotLeasesFailureKind
  message : String

namespace Refusal

def robot_leases (kind : RobotLeasesFailureKind) (message : String) : Refusal :=
  { kind := .RobotLeases kind, message }

def precondition (message : String) : Refusal :=
  { kind := .PreconditionFailed, message }

def rejected (message : String) : Refusal := { kind := .Rejected, message }

def of_move (refusal : MoveRefusal) : Refusal :=
  robot_leases refusal.failure_kind refusal.message

end Refusal

/-! ## Leases, listings and changes -/

/-- Who gave a lease to its holder and under what name; no client once it is gone. -/
structure Giver where
  client : Option ClientRef
  name : String
  deriving DecidableEq

structure Lease where
  holder : ClientRef
  name : String
  «open» : Bool := false
  received_from : Option Giver := none
  offer : Option ClientRef := none
  deriving DecidableEq

inductive LeaseEventKind where
  | Offer
  | OfferEnd
  | LeaseEnd
  | LeaseBack

structure LeaseEvent where
  event : LeaseEventKind
  robot : String
  giver : String
  giver_core_node : String
  cause : String

structure Holder where
  generation : String
  events : List LeaseEvent := []

inductive SoftwareState where
  | Running
  | Stopped
  deriving DecidableEq

structure FleetRobot where
  name : String
  software : SoftwareState
  deriving DecidableEq

structure FleetLease where
  robot : String
  holder : String
  holder_core_node : String
  name : String
  «open» : Bool
  giver : String
  giver_core_node : String
  receiver : String
  receiver_core_node : String
  deriving DecidableEq

structure FleetListing where
  version : String := ""
  core_node : String := ""
  launcher : String := ""
  halted : Bool := false
  halted_by : String := ""
  robots : List FleetRobot := []
  leases : List FleetLease := []
  deriving DecidableEq

inductive ChangeKind where
  | Listing
  | Join
  | Removal
  | SoftwareStop
  | SoftwareStart
  | LeaseStart
  | LeaseEnd
  | LeaseOpen
  | LeaseClose
  | OfferStart
  | OfferEnd
  | HolderChange
  | HaltStart
  | HaltEnd
  deriving DecidableEq

structure Change where
  kind : ChangeKind
  robot : String
  revision : Nat
  listing : FleetListing
  deriving DecidableEq

structure Follower where
  closed : Bool := false
  changes : List Change := []
  deriving DecidableEq

abbrev Process := ClientRef

structure RobotProcesses where
  robot : String
  processes : List Process
  deriving DecidableEq

structure EndingKey where
  client : ClientRef
  robot : String
  deriving DecidableEq, Ord

structure FleetBook where
  version : String := ""
  core_node : String := ""
  launch : FleetListing := {}
  revision : Nat := 0
  halt : Option String := none
  leases : KeyMap String Lease := .empty
  leaving : KeySet String := .empty
  holders : KeyMap ClientRef Holder := .empty
  endings : KeyMap EndingKey String := .empty
  followers : List Follower := []
  running : KeySet Process := .empty
  software : KeyMap String SoftwareState := .empty

namespace FleetBook

def new (version core_node : String) : FleetBook :=
  { version, core_node }

variable (book : FleetBook) (client : ClientRef) (robot : String) (lease : Lease) (cause : String)

def restore_halt (halted_by : Option String) : FleetBook :=
  { book with halt := halted_by }

def holds_goal : Bool := book.holders.contains client

/-! ## The listing and the followers -/

def fleet_lease : FleetLease :=
  let giver := lease.received_from.bind Giver.client
  { robot
    holder := lease.holder.instance_id
    holder_core_node := lease.holder.core_node
    name := lease.name
    «open» := lease.open
    giver := (giver.map ClientRef.instance_id).getD ""
    giver_core_node := (giver.map ClientRef.core_node).getD ""
    receiver := (lease.offer.map ClientRef.instance_id).getD ""
    receiver_core_node := (lease.offer.map ClientRef.core_node).getD "" }

def lease_listing : List FleetLease :=
  book.leases.entries.map fun (robot, lease) => fleet_lease robot lease

def listing : FleetListing :=
  { book.launch with
    version := book.version
    core_node := book.core_node
    halted := book.halt.isSome
    halted_by := book.halt.getD ""
    leases := book.lease_listing
    robots := book.launch.robots.map fun robot =>
      { robot with software := (book.software.get robot.name).getD .Stopped } }

/-- Tells the change, as the next revision, to the followers that are still there. -/
def note (kind : ChangeKind) (robot : String) : FleetBook :=
  let book := { book with
    revision := book.revision + 1
    followers := book.followers.filter fun follower => !follower.closed }
  if book.followers.isEmpty then book
  else
    let change : Change :=
      { kind, robot, revision := book.revision, listing := book.listing }
    { book with
      followers := book.followers.map fun follower =>
        { follower with changes := follower.changes ++ [change] } }

def follow : FleetBook :=
  { book with followers := book.followers ++ [{}] }

/-! ## The software of the robots -/

def software_state (robot : RobotProcesses) : SoftwareState :=
  if !robot.processes.isEmpty && robot.processes.all book.running.contains then .Running
  else .Stopped

def software_change (robot : RobotProcesses) : Option (ChangeKind × String) :=
  match book.software.get robot.robot with
  | none => none
  | some previous =>
    if previous = book.software_state robot then none
    else
      match book.software_state robot with
      | .Running => some (.SoftwareStart, robot.robot)
      | .Stopped => some (.SoftwareStop, robot.robot)

def sync_software (robots : List RobotProcesses) : FleetBook :=
  let next := robots.foldl
    (fun next robot => next.insert robot.robot (book.software_state robot)) .empty
  let changed := robots.filterMap book.software_change
  changed.foldl (fun book change => book.note change.1 change.2) { book with software := next }

def set_launch (launch : FleetListing) (robots : List RobotProcesses) : FleetBook :=
  { book with launch }.sync_software robots

def note_process (process : Process) (runs : Bool) (robots : List RobotProcesses) : FleetBook :=
  { book with
    running := if runs then book.running.insert process () else book.running.remove process
  }.sync_software robots

/-! ## The events of the holders -/

def tell_holder_from (event : LeaseEventKind)
    (robot : String) (giver : Option ClientRef) (cause : String) : FleetBook :=
  match book.holders.get client with
  | none => book
  | some holder =>
    let event : LeaseEvent :=
      { event
        robot
        giver := (giver.map ClientRef.instance_id).getD ""
        giver_core_node := (giver.map ClientRef.core_node).getD ""
        cause }
    { book with
      holders := book.holders.insert client { holder with events := holder.events ++ [event] } }

def tell_holder (event : LeaseEventKind) (robot cause : String) : FleetBook :=
  book.tell_holder_from client event robot none cause

def end_offer_of : FleetBook :=
  match lease.offer with
  | none => book
  | some receiver =>
    (book.tell_holder_from receiver .OfferEnd robot (some lease.holder) cause).note .OfferEnd robot

/-! ## The end of a lease and of a `lease` goal -/

/-- Who the lease goes back to, if it holds leases, and under what name. -/
def back_to : Option (ClientRef × String) :=
  lease.received_from.bind fun giver =>
    (giver.client.filter book.holds_goal).map fun client => (client, giver.name)

/-- The callers give a robot that is leased: the source expects it. -/
def give_back_or_end (robot cause : String) : FleetBook :=
  match book.leases.get robot with
  | none => book
  | some lease =>
    let book := { book with
      leases := book.leases.remove robot
      endings := book.endings.insert ⟨lease.holder, robot⟩ ("its lease ended: " ++ cause) }
    let book := book.end_offer_of robot lease cause
    match book.back_to lease with
    | none => (book.tell_holder lease.holder .LeaseEnd robot cause).note .LeaseEnd robot
    | some (giver, name) =>
      let book := book.tell_holder lease.holder .LeaseEnd robot cause
      let book := { book with
        leases := book.leases.insert robot { holder := giver, name } }
      (book.tell_holder_from giver .LeaseBack robot (some lease.holder) cause).note
        .HolderChange robot

def without_offer_to : Lease :=
  if lease.offer = some client then { lease with offer := none } else lease

def end_offer_to : FleetBook :=
  if lease.offer = some client then
    { book with leases := book.leases.insert robot { lease with offer := none } }.note
      .OfferEnd robot
  else book

def lose_giver : FleetBook :=
  let received_from := lease.received_from.map fun giver : Giver => { giver with client := none }
  { book with
    leases := book.leases.insert robot { lease with received_from } }.note
    .HolderChange robot

/-- One turn of the loop of `end_holding`, for a robot that is leased. -/
def end_holding_of (gone : String) (book : FleetBook) (robot : String) : FleetBook :=
  match book.leases.get robot with
  | none => book
  | some lease =>
    let book := book.end_offer_to client robot lease
    let lease := without_offer_to client lease
    if lease.holder = client then book.give_back_or_end robot gone
    else if lease.received_from.bind Giver.client = some client then book.lose_giver robot lease
    else book

def end_holding (generation cause : String) : FleetBook :=
  match book.holders.get client with
  | none => book
  | some holder =>
    if holder.generation ≠ generation then book
    else
      let book := { book with holders := book.holders.remove client }
      let gone := "its holder " ++ client.display ++ " is gone: " ++ cause
      book.leases.keys.foldl (end_holding_of client gone) book

def start_goal (generation : String) : FleetBook :=
  { book with holders := book.holders.insert client { generation } }

def begin_holding (generation : String) : FleetBook × Except Refusal Unit :=
  match book.holders.get client with
  | none => (book.start_goal client generation, .ok ())
  | some holder =>
    if holder.generation = generation then
      (book, .error (.precondition ("a `lease` goal of this process of " ++ client.display ++
        " runs; one goal holds the leases of a process")))
    else
      let book := book.end_holding client holder.generation
        "a later process of the holder started its own lease goal"
      (book.start_goal client generation, .ok ())

/-! ## The checks -/

def holder_required : Except Refusal Unit :=
  if book.holds_goal client then .ok ()
  else
    .error (.precondition (client.display ++ " holds no lease goal: a client takes, offers, " ++
      "opens and closes leases while its `lease` goal runs"))

def not_halted (what : String) : Except Refusal Unit :=
  match book.halt with
  | none => .ok ()
  | some halted_by =>
    .error (.robot_leases .Halted ("the stack is halted (by " ++ halted_by ++ "), so " ++ what ++
      " is refused until the halt is cleared"))

def not_leased : MoveRefusal where
  failure_kind := .NotLeased
  message := client.display ++ " holds no lease of robot `" ++ robot ++ "`: " ++
    (book.endings.get ⟨client, robot⟩).getD "it never held the lease"

def leased_by_another : MoveRefusal where
  failure_kind := .Leased
  message := "robot `" ++ robot ++ "` is leased by " ++ lease.holder.display ++
    " under the name `" ++ lease.name ++ "`"

def held : Except Refusal Lease :=
  match book.leases.get robot with
  | some lease =>
    if lease.holder = client then .ok lease else .error (.of_move (book.not_leased client robot))
  | none => .error (.of_move (book.not_leased client robot))

def move_refusal (robot : Option String) : Option MoveRefusal :=
  match book.halt with
  | some halted_by => some
    { failure_kind := .Halted
      message := "the stack is halted (by " ++ halted_by ++
        "): no move until the halt is cleared" }
  | none =>
    match robot with
    | none => none
    | some robot =>
      match book.leases.get robot with
      | some lease =>
        if lease.open || lease.holder = client then none
        else some (leased_by_another robot lease)
      | none => if book.holds_goal client then some (book.not_leased client robot) else none

def check_join (client : Option ClientRef) (robot : String) : Except Refusal Unit :=
  match client.filter book.holds_goal with
  | some client =>
    match book.not_halted ("the join of robot `" ++ robot ++ "` by a lease holder") with
    | .error refusal => .error refusal
    | .ok () =>
      match book.leases.get robot with
      | some lease =>
        if lease.holder ≠ client then .error (.of_move (leased_by_another robot lease))
        else .ok ()
      | none => .ok ()
  | none =>
    match book.leases.get robot with
    | some lease => .error (.of_move (leased_by_another robot lease))
    | none => .ok ()

def check_removal (client : Option ClientRef) (robot : String) : Except Refusal Unit :=
  match book.leases.get robot with
  | none => .ok ()
  | some lease =>
    match client with
    | none => .error (.of_move (leased_by_another robot lease))
    | some client =>
      if lease.holder = client || lease.received_from.bind Giver.client = some client then .ok ()
      else .error (.of_move (leased_by_another robot lease))

/-! ## The calls -/

def start_lease (robot name : String) : FleetBook :=
  { book with
    leases := book.leases.insert robot { holder := client, name }
    endings := book.endings.remove ⟨client, robot⟩ }.note .LeaseStart robot

def hand_over (robot name : String) (lease : Lease) : FleetBook :=
  let book := { book with
    leases := book.leases.insert robot
      { holder := client
        name
        received_from := some { client := some lease.holder, name := lease.name } }
    endings := book.endings.remove ⟨client, robot⟩ }
  let book := book.tell_holder lease.holder .LeaseEnd robot
    (client.display ++ " took the lease that you offered it")
  (book.note .OfferEnd robot).note .HolderChange robot

def take (robot name : String) : FleetBook × Except Refusal Unit :=
  match book.holder_required client with
  | .error refusal => (book, .error refusal)
  | .ok () =>
    match book.not_halted ("a lease of robot `" ++ robot ++ "`") with
    | .error refusal => (book, .error refusal)
    | .ok () =>
      if (book.leases.get robot).any fun lease => lease.holder = client then (book, .ok ())
      else if book.leaving.contains robot then
        (book, .error (.precondition ("robot `" ++ robot ++
          "` leaves the stack: a removal of it runs")))
      else
        match book.leases.get robot with
        | none => (book.start_lease client robot name, .ok ())
        | some lease =>
          if lease.offer ≠ some client then
            (book, .error (.of_move (leased_by_another robot lease)))
          else (book.hand_over client robot name lease, .ok ())

def release : FleetBook × Except Refusal Unit :=
  match book.held client robot with
  | .error refusal => (book, .error refusal)
  | .ok _ => (book.give_back_or_end robot (client.display ++ " released it"), .ok ())

/-- The first loop of `offer`: each robot is held, and was not received. -/
def check_offer (book : FleetBook) (client : ClientRef) : List String → Except Refusal Unit
  | [] => .ok ()
  | robot :: robots =>
    match book.held client robot with
    | .error refusal => .error refusal
    | .ok lease =>
      if lease.received_from.isSome then
        .error (.precondition (client.display ++ " received the lease of robot `" ++ robot ++
          "`; it can release it, not offer it again"))
      else book.check_offer client robots

/-- One turn of the second loop of `offer`, for a robot that is held. -/
def offer_of (client receiver : ClientRef) (book : FleetBook) (robot : String) : FleetBook :=
  match book.leases.get robot with
  | none => book
  | some lease =>
    if lease.offer = some receiver then book
    else
      let book := book.end_offer_of robot lease
        (client.display ++ " offered the lease to " ++ receiver.display)
      let book := { book with
        leases := book.leases.insert robot { lease with offer := some receiver } }
      (book.tell_holder_from receiver .Offer robot (some client) "").note .OfferStart robot

def offer (book : FleetBook) (client : ClientRef) (robots : List String) (receiver : ClientRef) :
    FleetBook × Except Refusal Unit :=
  match book.holder_required client with
  | .error refusal => (book, .error refusal)
  | .ok () =>
    match book.not_halted "an offer of a lease" with
    | .error refusal => (book, .error refusal)
    | .ok () =>
      if robots.isEmpty then (book, .error (.rejected "an offer names at least one robot"))
      else if receiver = client then
        (book, .error (.rejected (client.display ++
          " offers a lease to itself; an offer names another client")))
      else
        match book.check_offer client robots with
        | .error refusal => (book, .error refusal)
        | .ok () => (robots.foldl (offer_of client receiver) book, .ok ())

def set_open («open» : Bool) (kind : ChangeKind) : FleetBook :=
  { book with leases := book.leases.insert robot { lease with «open» := «open» } }.note kind robot

def «open» : FleetBook × Except Refusal Unit :=
  match book.not_halted ("opening the lease of robot `" ++ robot ++ "`") with
  | .error refusal => (book, .error refusal)
  | .ok () =>
    match book.held client robot with
    | .error refusal => (book, .error refusal)
    | .ok lease =>
      if lease.open then (book, .ok ()) else (book.set_open robot lease true .LeaseOpen, .ok ())

def close : FleetBook × Except Refusal Unit :=
  match book.held client robot with
  | .error refusal => (book, .error refusal)
  | .ok lease =>
    if !lease.open then (book, .ok ()) else (book.set_open robot lease false .LeaseClose, .ok ())

def end_lease_of (book : FleetBook) (entry : String × Lease) : FleetBook :=
  let (robot, lease) := entry
  let book := { book with
    endings := book.endings.insert ⟨lease.holder, robot⟩ ("its lease ended: " ++ cause) }
  let book := book.end_offer_of robot lease cause
  (book.tell_holder lease.holder .LeaseEnd robot cause).note .LeaseEnd robot

def end_every_lease : FleetBook :=
  book.leases.entries.foldl (end_lease_of cause) { book with leases := .empty }

def set_halt (halted_by : String) : FleetBook × Bool :=
  match book.halt with
  | some _ => (book, false)
  | none =>
    let book := { book with halt := some halted_by }.note .HaltStart ""
    (book.end_every_lease ("the stack is halted (by " ++ halted_by ++ ")"), true)

def clear_halt : FleetBook × Bool :=
  match book.halt with
  | none => (book, false)
  | some _ => ({ book with halt := none }.note .HaltEnd "", true)

def lease_joined (client : Option ClientRef) (robot : String) : FleetBook :=
  match client.filter book.holds_goal with
  | none => book
  | some client =>
    if book.halt.isSome || book.leases.contains robot then book
    else book.start_lease client robot robot

def begin_removal (client : Option ClientRef) (robot : String) : FleetBook × Except Refusal Unit :=
  match book.check_removal client robot with
  | .error refusal => (book, .error refusal)
  | .ok () => ({ book with leaving := book.leaving.insert robot () }, .ok ())

def end_removal : FleetBook :=
  { book with leaving := book.leaving.remove robot }

/-! ## One call after the other -/

inductive FleetCall where
  | BeginHolding (client : ClientRef) (generation : String)
  | EndHolding (client : ClientRef) (generation cause : String)
  | Take (client : ClientRef) (robot name : String)
  | Release (client : ClientRef) (robot : String)
  | Offer (client : ClientRef) (robots : List String) (receiver : ClientRef)
  | Open (client : ClientRef) (robot : String)
  | Close (client : ClientRef) (robot : String)
  | Halt (halted_by : String)
  | ClearHalt
  | EndEveryLease (cause : String)
  | LeaseJoined (client : Option ClientRef) (robot : String)
  | BeginRemoval (client : Option ClientRef) (robot : String)
  | EndRemoval (robot : String)
  | NoteProcess (process : Process) (runs : Bool) (robots : List RobotProcesses)
  | SetLaunch (launch : FleetListing) (robots : List RobotProcesses)
  | Follow
  | Note (kind : ChangeKind) (robot : String)
  | Unfollow (index : Nat)
  deriving DecidableEq

def call : FleetCall → FleetBook × Except Refusal Unit
  | .BeginHolding client generation => book.begin_holding client generation
  | .EndHolding client generation cause => (book.end_holding client generation cause, .ok ())
  | .Take client robot name => book.take client robot name
  | .Release client robot => book.release client robot
  | .Offer client robots receiver => book.offer client robots receiver
  | .Open client robot => book.open client robot
  | .Close client robot => book.close client robot
  | .Halt halted_by => ((book.set_halt halted_by).1, .ok ())
  | .ClearHalt => (book.clear_halt.1, .ok ())
  | .EndEveryLease cause => (book.end_every_lease cause, .ok ())
  | .LeaseJoined client robot => (book.lease_joined client robot, .ok ())
  | .BeginRemoval client robot => book.begin_removal client robot
  | .EndRemoval robot => (book.end_removal robot, .ok ())
  | .NoteProcess process runs robots => (book.note_process process runs robots, .ok ())
  | .SetLaunch launch robots => (book.set_launch launch robots, .ok ())
  | .Follow => (book.follow, .ok ())
  | .Note kind robot => (book.note kind robot, .ok ())
  | .Unfollow index =>
    ({ book with
      followers := book.followers.modify index fun follower => { follower with closed := true } },
      .ok ())

def step (act : FleetCall) : Option FleetBook := some (book.call act).1

/-- A new book, with the halt read from disk, and each book after a call. -/
inductive Built : FleetBook → Prop
  | new (version core_node : String) : Built (new version core_node)
  | restore_halt {book : FleetBook} (halted_by : Option String) :
      Built book → Built (book.restore_halt halted_by)
  | call {book : FleetBook} (act : FleetCall) : Built book → Built (book.call act).1

end FleetBook

end peppy.fleet
