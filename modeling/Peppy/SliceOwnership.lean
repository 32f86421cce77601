-- The launch that a daemon is reserved for and the launch that its slice of the stack
-- came from. The presence watch over the coordinator holds the lifetime of a
-- reservation.
import Peppy.StackGoals

open runs peppy.stack_action

namespace peppy.federation

/-! ## Reservations -/

/-- A lifetime, by the place of its reservation among all the ones that were
taken. -/
abbrev ReservationLifetime := Nat

structure HeldReservation where
  launch_id : String
  coordinator_core_node : String
  lifetime : ReservationLifetime
  deriving DecidableEq

structure LaunchIdentity where
  launch_id : String
  coordinator_core_node : String
  deriving DecidableEq

structure ProducerRef where
  core_node : String
  instance_id : String
  deriving DecidableEq

/-- The reservation and the slice, and which handed out lifetimes ended. -/
structure SliceOwnership where
  core_node_name : String
  reservation : Option HeldReservation := none
  slice : Option LaunchIdentity := none
  slice_daemon : Option ProducerRef := none
  handed_out : Nat := 0
  ended : List ReservationLifetime := []
  deriving DecidableEq

inductive ReserveOutcome where
  | Reserved (lifetime : ReservationLifetime)
  | AlreadyHeld
  | TookOverFromSameCoordinator (stale_launch_id : String)
  | HeldByAnotherLaunch (launch_id coordinator_core_node : String)

namespace SliceOwnership

variable (o : SliceOwnership) (lifetime : ReservationLifetime)

/-- The slice came from the launch of the reservation, and from its coordinator. -/
def slice_came_from (held : HeldReservation) : Bool :=
  o.slice.any fun slice =>
    slice.launch_id = held.launch_id && slice.coordinator_core_node = held.coordinator_core_node

def has_ended : Bool :=
  o.ended.contains lifetime

def end_held_reservation : SliceOwnership :=
  match o.reservation with
  | some held => { o with reservation := none, ended := held.lifetime :: o.ended }
  | none => o

def try_reserve (launch_id coordinator : String) : SliceOwnership × ReserveOutcome :=
  match o.reservation with
  | some held =>
    if held.launch_id = launch_id then (o, .AlreadyHeld)
    else if held.coordinator_core_node = coordinator then
      ({ o with reservation := some { held with launch_id } },
        .TookOverFromSameCoordinator held.launch_id)
    else (o, .HeldByAnotherLaunch held.launch_id held.coordinator_core_node)
  | none =>
    let lifetime := o.handed_out
    ({ o with
        reservation := some { launch_id, coordinator_core_node := coordinator, lifetime }
        handed_out := o.handed_out + 1 },
      .Reserved lifetime)

/-- `false` when another launch holds the daemon. -/
def release (launch_id : String) : SliceOwnership × Bool :=
  match o.reservation with
  | some held => if held.launch_id ≠ launch_id then (o, false) else (o.end_held_reservation, true)
  | none => (o, true)

def release_because_coordinator_gone : SliceOwnership × Option String :=
  if o.has_ended lifetime then (o, none)
  else
    match o.reservation with
    | none => (o, none)
    | some held => (o.end_held_reservation, some held.launch_id)

def record_slice (launch : LaunchIdentity) (coordinator_instance_id : String) : SliceOwnership :=
  { o with
    slice_daemon := some ⟨launch.coordinator_core_node, coordinator_instance_id⟩
    slice := some launch }

def clear : SliceOwnership :=
  { o.end_held_reservation with slice := none, slice_daemon := none }

/-! ## Node goals -/

inductive FailureKind where
  | Busy
  | PreconditionFailed

structure Failure where
  kind : FailureKind
  message : String

def busy_text : StackBusy → String
  | .Change => "a stack launch, build, join, removal or reset, or a coordinator's change to this " ++
      "daemon's slice, is in progress on this daemon; run this again once it ends"
  | .NodeGoals => "a node add, build, run, stop or removal, or a restart, is in progress on this " ++
      "daemon; run this again once it ends"

/-- The stack with the goal admitted to it. `reset` tells that a reset is in
progress. -/
def admit_node_change (stack : StackState) (reset : Bool)
    (launch_id : Option String) : Except Failure StackState :=
  match stack.try_admit_node_goal with
  | .error busy => .error ⟨.Busy, busy_text busy⟩
  | .ok admission =>
    if reset then .error ⟨.Busy, "stack reset is in progress; wait for it to finish"⟩
    else
      match o.reservation with
      | none =>
        if launch_id.isSome then
          .error ⟨.PreconditionFailed, "this launch reservation has ended; launch the stack again"⟩
        else .ok admission
      | some held =>
        if launch_id = some held.launch_id then
          if o.slice_came_from held then .ok admission
          else .error ⟨.PreconditionFailed, "this daemon is reserved for launch `" ++
            held.launch_id ++ "` and holds no slice of it; `" ++ held.coordinator_core_node ++
            "` begins the slice on this daemon before it dispatches nodes"⟩
        else .error ⟨.Busy, "this daemon is reserved for federated launch `" ++ held.launch_id ++
          "`, driven by `" ++ held.coordinator_core_node ++ "`, which is changing its stack. " ++
          "Wait for that operation to finish, or clear the reservation with `peppy stack reset " ++
          "--core-node " ++ o.core_node_name ++ "`."⟩

/-! ## Runs -/

inductive Request where
  | try_reserve (launch_id coordinator : String)
  | release (launch_id : String)
  | release_because_coordinator_gone (lifetime : ReservationLifetime)
  | record_slice (launch : LaunchIdentity) (coordinator_instance_id : String)
  | clear

/-- A watch has a lifetime that was handed out. -/
def step : Request → Option SliceOwnership
  | .try_reserve launch_id coordinator => some (o.try_reserve launch_id coordinator).1
  | .release launch_id => some (o.release launch_id).1
  | .release_because_coordinator_gone lifetime =>
    if lifetime < o.handed_out then some (o.release_because_coordinator_gone lifetime).1 else none
  | .record_slice launch coordinator_instance_id =>
    some (o.record_slice launch coordinator_instance_id)
  | .clear => some o.clear

/-- The lifetime is handed out, and not ended. -/
def Lives : Prop :=
  lifetime < o.handed_out ∧ lifetime ∉ o.ended

/-- The one that lives is the one that holds the slice. -/
structure OneLives (o : SliceOwnership) : Prop where
  lives : ∀ lifetime, o.Lives lifetime ↔
    ∃ held, o.reservation = some held ∧ held.lifetime = lifetime
  ended_below : ∀ lifetime ∈ o.ended, lifetime < o.handed_out

variable {o o' : SliceOwnership}

theorem OneLives.new (core_node_name : String) : OneLives { core_node_name } where
  lives := by
    intro lifetime
    simp [Lives]
  ended_below := by simp

variable {held : HeldReservation} {launch_id : String}

theorem OneLives.of_held (h : o.OneLives)
    (hheld : o.reservation = some held) (lifetime : ReservationLifetime) :
    o.Lives lifetime ↔ held.lifetime = lifetime := by
  rw [h.lives lifetime]
  simp [hheld]

theorem OneLives.of_free (h : o.OneLives) (hfree : o.reservation = none)
    (lifetime : ReservationLifetime) : ¬ o.Lives lifetime := by
  rw [h.lives lifetime]
  simp [hfree]

theorem end_held_reservation_eq (hheld : o.reservation = some held) :
    o.end_held_reservation = { o with reservation := none, ended := held.lifetime :: o.ended } := by
  simp [SliceOwnership.end_held_reservation, hheld]

theorem OneLives.end_held_reservation (h : o.OneLives) : o.end_held_reservation.OneLives := by
  cases hreservation : o.reservation with
  | none => simpa [SliceOwnership.end_held_reservation, hreservation] using h
  | some held =>
    rw [end_held_reservation_eq hreservation]
    have hheld : o.Lives held.lifetime := (h.of_held hreservation _).mpr rfl
    constructor
    · -- the one that lived is the one that ends
      intro lifetime
      have hlives := h.of_held hreservation lifetime
      simp only [Lives, List.mem_cons, not_or] at hlives ⊢
      constructor
      · rintro ⟨hlt, hne, hnot⟩
        exact absurd (hlives.mp ⟨hlt, hnot⟩).symm hne
      · rintro ⟨_, hnone, -⟩
        cases hnone
    · intro lifetime hlifetime
      rcases List.mem_cons.mp hlifetime with rfl | hlifetime
      · exact hheld.1
      · exact h.ended_below lifetime hlifetime

theorem OneLives.reserved (h : o.OneLives) (hfree : o.reservation = none)
    (launch_id coordinator : String) : OneLives { o with
      reservation := some ⟨launch_id, coordinator, o.handed_out⟩
      handed_out := o.handed_out + 1 } := by
  have hfresh : o.handed_out ∉ o.ended := fun hmem => Nat.lt_irrefl _ (h.ended_below _ hmem)
  constructor
  · intro lifetime
    have hdead := h.of_free hfree lifetime
    simp only [Lives, Option.some.injEq, exists_eq_left'] at hdead ⊢
    constructor
    · rintro ⟨hlt, hnot⟩
      have hold : ¬ lifetime < o.handed_out := fun hlt => hdead ⟨hlt, hnot⟩
      exact (Nat.eq_of_lt_succ_of_not_lt hlt hold).symm
    · rintro rfl
      exact ⟨Nat.lt_succ_self _, hfresh⟩
  · intro lifetime hlifetime
    exact Nat.lt_succ_of_lt (h.ended_below lifetime hlifetime)

theorem OneLives.try_reserve (h : o.OneLives) (launch_id coordinator : String) :
    (o.try_reserve launch_id coordinator).1.OneLives := by
  unfold SliceOwnership.try_reserve
  split
  · next held hheld =>
    split
    · exact h
    split
    · -- the launch changes inside the reservation, which keeps its lifetime
      refine ⟨fun lifetime => ?_, h.ended_below⟩
      have hlives := h.of_held hheld lifetime
      simpa [Lives] using hlives
    · exact h
  · next hfree => exact h.reserved hfree launch_id coordinator

theorem OneLives.release (h : o.OneLives) (launch_id : String) :
    (o.release launch_id).1.OneLives := by
  unfold SliceOwnership.release
  split
  · split
    · exact h
    · exact h.end_held_reservation
  · exact h

theorem OneLives.gone (h : o.OneLives) (lifetime : ReservationLifetime) :
    (o.release_because_coordinator_gone lifetime).1.OneLives := by
  unfold SliceOwnership.release_because_coordinator_gone
  split
  · exact h
  split
  · exact h
  · exact h.end_held_reservation

theorem OneLives.step (h : o.OneLives) {request : Request} (hs : o.step request = some o') :
    o'.OneLives := by
  cases request with
  | try_reserve launch_id coordinator =>
    obtain rfl := Option.some.inj hs
    exact h.try_reserve launch_id coordinator
  | release launch_id =>
    obtain rfl := Option.some.inj hs
    exact h.release launch_id
  | release_because_coordinator_gone lifetime =>
    simp only [SliceOwnership.step] at hs
    split at hs
    · obtain rfl := Option.some.inj hs
      exact h.gone lifetime
    · cases hs
  | record_slice launch coordinator_instance_id =>
    obtain rfl := Option.some.inj hs
    exact ⟨h.lives, h.ended_below⟩
  | clear =>
    obtain rfl := Option.some.inj hs
    exact ⟨h.end_held_reservation.lives, h.end_held_reservation.ended_below⟩

theorem OneLives.run {core_node_name : String} {requests : List Request}
    (hr : run SliceOwnership.step { core_node_name } requests = some o) : o.OneLives :=
  run_keeps (fun _ _ _ h hs => h.step hs) (OneLives.new core_node_name) hr

/-! ## What a request can do -/

theorem OneLives.late_watch (h : o.OneLives)
    (hheld : o.reservation = some held) {lifetime : ReservationLifetime}
    (hhanded : lifetime < o.handed_out) (hne : held.lifetime ≠ lifetime) :
    o.release_because_coordinator_gone lifetime = (o, none) := by
  have hended : o.has_ended lifetime = true := by
    by_contra hnot
    refine hne ((h.of_held hheld lifetime).mp ⟨hhanded, ?_⟩)
    simpa [has_ended] using hnot
  simp [SliceOwnership.release_because_coordinator_gone, hended]

theorem try_reserve_takes_over (hheld : o.reservation = some held)
    (hlaunch : held.launch_id ≠ launch_id) : o.try_reserve launch_id held.coordinator_core_node =
    ({ o with reservation := some { held with launch_id } },
        .TookOverFromSameCoordinator held.launch_id) := by
  simp [SliceOwnership.try_reserve, hheld, hlaunch]

theorem slice_came_from_iff : o.slice_came_from held = true ↔
      o.slice = some ⟨held.launch_id, held.coordinator_core_node⟩ := by
  cases hslice : o.slice with
  | none => simp [slice_came_from, hslice]
  | some slice =>
    cases slice
    simp [slice_came_from, hslice]

theorem admit_node_change_ok {stack admission : StackState} {reset : Bool}
    {launch_id : Option String} (h : o.admit_node_change stack reset launch_id = .ok admission) :
    match launch_id with
    | none => o.reservation = none
    | some launch => ∃ held, o.reservation = some held ∧ held.launch_id = launch ∧
        o.slice = some ⟨launch, held.coordinator_core_node⟩ := by
  cases hstack : stack.try_admit_node_goal with
  | error busy => simp [admit_node_change, hstack] at h
  | ok _ =>
    cases reset with
    | true => simp [admit_node_change, hstack] at h
    | false =>
      cases hreservation : o.reservation with
      | none =>
        cases launch_id with
        | none => rfl
        | some launch => simp [admit_node_change, hstack, hreservation] at h
      | some held =>
        by_cases hlaunch : launch_id = some held.launch_id
        · subst hlaunch
          by_cases hslice : o.slice_came_from held = true
          · exact ⟨held, rfl, rfl, slice_came_from_iff.mp hslice⟩
          · simp [admit_node_change, hstack, hreservation, hslice] at h
        · simp [admit_node_change, hstack, hreservation, hlaunch] at h

/-- In every run, the lifetime that lives is the one of the reservation, which only a new
reservation hands out and a takeover keeps, and others change nothing. A node goal is
admitted for the launch of the reservation and of the slice, or for none. -/
theorem the_reservations_of_every_run (core_node_name : String) (requests : List Request)
    (hr : run SliceOwnership.step { core_node_name } requests = some o) :
    (∀ lifetime, o.Lives lifetime ↔
      ∃ held, o.reservation = some held ∧ held.lifetime = lifetime) ∧
    (∀ launch_id coordinator lifetime,
      (o.try_reserve launch_id coordinator).2 = .Reserved lifetime → ¬ lifetime < o.handed_out) ∧
    (∀ held, o.reservation = some held →
      (∀ lifetime, lifetime < o.handed_out → held.lifetime ≠ lifetime →
        o.release_because_coordinator_gone lifetime = (o, none)) ∧
      (∀ launch_id, held.launch_id ≠ launch_id →
        (o.try_reserve launch_id held.coordinator_core_node).1.reservation =
          some ⟨launch_id, held.coordinator_core_node, held.lifetime⟩ ∧
        (o.release launch_id = (o, false)) ∧
        ∀ coordinator, held.coordinator_core_node ≠ coordinator →
          o.try_reserve launch_id coordinator =
            (o, .HeldByAnotherLaunch held.launch_id held.coordinator_core_node))) ∧
    ∀ stack reset,
      (∀ launch_id admission, o.admit_node_change stack reset (some launch_id) = .ok admission →
        ∃ held, o.reservation = some held ∧ held.launch_id = launch_id ∧
          o.slice = some ⟨launch_id, held.coordinator_core_node⟩) ∧
      ∀ admission, o.admit_node_change stack reset none = .ok admission →
        o.reservation = none := by
  have hone : o.OneLives := OneLives.run hr
  refine ⟨hone.lives, ?_, ?_, ?_⟩
  · intro launch_id coordinator lifetime hreserved
    cases hreservation : o.reservation with
    | none =>
      simp only [SliceOwnership.try_reserve, hreservation, ReserveOutcome.Reserved.injEq] at hreserved
      subst hreserved
      exact Nat.lt_irrefl _
    | some held =>
      simp only [SliceOwnership.try_reserve, hreservation] at hreserved
      split at hreserved
      · cases hreserved
      split at hreserved <;> cases hreserved
  · intro held hheld
    refine ⟨fun lifetime hhanded hne => hone.late_watch hheld hhanded hne, ?_⟩
    intro launch_id hlaunch
    refine ⟨?_, ?_, fun coordinator hcoordinator => ?_⟩
    · rw [try_reserve_takes_over hheld hlaunch]
    · simp [SliceOwnership.release, hheld, hlaunch]
    · simp [SliceOwnership.try_reserve, hheld, hlaunch, hcoordinator]
  · intro stack reset
    exact ⟨fun launch_id admission h => admit_node_change_ok h,
      fun admission h => admit_node_change_ok h⟩

def againReserved : List Request :=
  [.try_reserve "launch-a" "cn-robot-7", .release "launch-a", .try_reserve "launch-b" "cn-robot-7"]

theorem the_watch_of_the_first_reservation :
    ∃ o : SliceOwnership, run SliceOwnership.step { core_node_name := "cn-arm" } againReserved =
        some o ∧
      (∃ held, o.reservation = some held ∧ held.lifetime = 1) ∧
      o.release_because_coordinator_gone 0 = (o, none) := by
  have hrun : run SliceOwnership.step { core_node_name := "cn-arm" } againReserved = some
      { core_node_name := "cn-arm", reservation := some ⟨"launch-b", "cn-robot-7", 1⟩,
        handed_out := 2, ended := [0] } := by decide
  refine ⟨_, hrun, ⟨_, rfl, rfl⟩, ?_⟩
  obtain ⟨-, -, hheld, -⟩ := the_reservations_of_every_run "cn-arm" againReserved hrun
  exact (hheld _ rfl).1 0 (by decide) (by decide)

end SliceOwnership

end peppy.federation
