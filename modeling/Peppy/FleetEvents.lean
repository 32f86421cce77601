-- The events of the lease holders. A client whose `lease` goal runs reads in them
-- which of its leases ended and which came back.
import Peppy.FleetLaws

open keymap runs List

namespace peppy.fleet.FleetBook

/-! ## The events of one goal -/

def goal_events (book : FleetBook) (client : ClientRef) : List LeaseEvent :=
  ((book.holders.get client).map Holder.events).getD []

/-- The goal of the client runs on, if it runs, and gets the events. -/
structure Heard (client : ClientRef) (book book' : FleetBook) (events : List LeaseEvent) : Prop where
  goal : book'.holds_goal client = book.holds_goal client
  events : book'.goal_events client = book.goal_events client ++ events

/-- The events of offers, which change no lease. -/
def Quiet (events : List LeaseEvent) : Prop :=
  ∀ event ∈ events, event.event = .Offer ∨ event.event = .OfferEnd

/-- The client hears of the change, and of no lease. -/
def Hears (client : ClientRef) (book book' : FleetBook) : Prop :=
  ∃ events, Quiet events ∧ Heard client book book' events

section
variable {client : ClientRef} {book book' book'' : FleetBook}

theorem Heard.of_holders (h : book'.holders = book.holders) : Heard client book book' [] where
  goal := by unfold holds_goal; rw [h]
  events := by unfold goal_events; rw [h, append_nil]

theorem Heard.trans {events events' : List LeaseEvent} (h : Heard client book book' events)
    (h' : Heard client book' book'' events') : Heard client book book'' (events ++ events') where
  goal := h'.goal.trans h.goal
  events := by rw [h'.events, h.events, append_assoc]

theorem Hears.of_heard (h : Heard client book book' []) : Hears client book book' :=
  ⟨[], fun _ he => absurd he not_mem_nil, h⟩

theorem Hears.of_holders (h : book'.holders = book.holders) : Hears client book book' :=
  .of_heard (.of_holders h)

theorem Hears.trans (h : Hears client book book') (h' : Hears client book' book'') :
    Hears client book book'' := by
  obtain ⟨events, hquiet, hheard⟩ := h
  obtain ⟨events', hquiet', hheard'⟩ := h'
  refine ⟨events ++ events', fun event he => ?_, hheard.trans hheard'⟩
  exact (mem_append.mp he).elim (hquiet event) (hquiet' event)

variable (book)

theorem note_holders (kind : ChangeKind) (robot : String) :
    (book.note kind robot).holders = book.holders := by
  unfold note
  dsimp only
  split <;> rfl

theorem note_hears (kind : ChangeKind) (robot : String) :
    Hears client book (book.note kind robot) :=
  .of_holders (note_holders book kind robot)

theorem tell_heard (c client : ClientRef) (event : LeaseEventKind)
    (robot : String) (giver : Option ClientRef) (cause : String) :
    ∃ events, Heard client book (book.tell_holder_from c event robot giver cause) events ∧
      (∀ e ∈ events, e.event = event ∧ e.robot = robot) ∧ (c ≠ client → events = []) ∧
      (book.holds_goal client = true → (events = [] ↔ c ≠ client)) := by
  unfold tell_holder_from
  split
  · rename_i hnone
    refine ⟨[], .of_holders rfl, by simp, fun _ => rfl, fun hruns => ⟨fun _ hc => ?_, fun _ => rfl⟩⟩
    subst hc
    rw [holds_goal, KeyMap.contains, hnone] at hruns
    cases hruns
  · rename_i holder hsome
    by_cases hc : c = client
    · subst hc
      refine ⟨[⟨event, robot, (giver.map ClientRef.instance_id).getD "",
        (giver.map ClientRef.core_node).getD "", cause⟩], ⟨?_, ?_⟩, by simp, by simp, by simp⟩
      · simp [holds_goal, KeyMap.contains, hsome]
      · simp [goal_events, hsome]
    · refine ⟨[], ⟨?_, ?_⟩, by simp, fun _ => rfl, by simp [hc]⟩
      · simp [holds_goal, KeyMap.contains_insert, Ne.symm hc]
      · simp [goal_events, KeyMap.get_insert, Ne.symm hc]

theorem tell_hears (c : ClientRef) {event : LeaseEventKind}
    (hevent : event = .Offer ∨ event = .OfferEnd) (robot : String) (giver : Option ClientRef)
    (cause : String) : Hears client book (book.tell_holder_from c event robot giver cause) := by
  obtain ⟨events, hheard, hkind, _, _⟩ := tell_heard book c client event robot giver cause
  exact ⟨events, fun e he => by rw [(hkind e he).1]; exact hevent, hheard⟩

theorem end_offer_of_hears (robot : String) (lease : Lease) (cause : String) :
    Hears client book (book.end_offer_of robot lease cause) := by
  unfold end_offer_of
  split
  · exact .of_holders rfl
  · exact (tell_hears book _ (.inr rfl) robot _ cause).trans (note_hears ..)

end

/-! ## What a client knows of its leases -/

/-- The client holds the robot's lease. -/
def Holds (client : ClientRef) (book : FleetBook) (robot : String) : Prop :=
  ∃ lease, book.leases.get robot = some lease ∧ lease.holder = client

/-- The view has the robots that the client holds. -/
def Knows (client : ClientRef) (book : FleetBook) (view : List String) : Prop :=
  ∀ robot, robot ∈ view ↔ Holds client book robot

def read_event (view : List String) (event : LeaseEvent) : List String :=
  match event.event with
  | .LeaseBack => event.robot :: view
  | .LeaseEnd => view.filter fun robot => robot ≠ event.robot
  | .Offer | .OfferEnd => view

def read (view : List String) (events : List LeaseEvent) : List String :=
  events.foldl read_event view

/-- Reading its events, a client that knows its leases knows them after. -/
def Reads (client : ClientRef) (book book' : FleetBook) : Prop :=
  ∃ events, Heard client book book' events ∧
    (book.holds_goal client = true → ∀ view, Knows client book view →
      Knows client book' (read view events))

variable {view : List String} {r cause name generation : String} {kind : ChangeKind}

section
variable {client : ClientRef} {book book' book'' : FleetBook} {robot : String} {lease : Lease}

theorem read_append {events events' : List LeaseEvent} :
    read view (events ++ events') = read (read view events) events' := foldl_append

variable {events : List LeaseEvent} {c : ClientRef}

theorem read_quiet (h : Quiet events) : read view events = view := by
  unfold read
  induction events with
  | nil => rfl
  | cons event events ih =>
    have hread : read_event view event = view := by
      unfold read_event
      rcases h event mem_cons_self with he | he <;> rw [he]
    rw [foldl_cons, hread]
    exact ih fun e he => h e (mem_cons_of_mem _ he)

theorem mem_read_ends (h : ∀ e ∈ events, e.event = .LeaseEnd ∧ e.robot = robot) :
    r ∈ read view events ↔ r ∈ view ∧ (events = [] ∨ r ≠ robot) := by
  unfold read
  induction events generalizing view with
  | nil => simp
  | cons event events ih =>
    obtain ⟨hkind, hrobot⟩ := h event mem_cons_self
    rw [foldl_cons, ih fun e he => h e (mem_cons_of_mem _ he)]
    simp only [read_event, hkind, hrobot, mem_filter, decide_eq_true_eq]
    grind

theorem mem_read_backs (h : ∀ e ∈ events, e.event = .LeaseBack ∧ e.robot = robot) :
    r ∈ read view events ↔ r ∈ view ∨ (events ≠ [] ∧ r = robot) := by
  unfold read
  induction events generalizing view with
  | nil => simp
  | cons event events ih =>
    obtain ⟨hkind, hrobot⟩ := h event mem_cons_self
    rw [foldl_cons, ih fun e he => h e (mem_cons_of_mem _ he)]
    simp only [read_event, hkind, hrobot, mem_cons]
    grind

theorem Reads.of_hears (h : Hears client book book')
    (hsame : ∀ r, Holds client book' r ↔ Holds client book r) : Reads client book book' := by
  obtain ⟨events, hquiet, hheard⟩ := h
  refine ⟨events, hheard, fun _ view hview r => ?_⟩
  rw [read_quiet hquiet, hview r, hsame r]

theorem Reads.refl (client : ClientRef) (book : FleetBook) : Reads client book book :=
  .of_hears (.of_holders rfl) fun _ => Iff.rfl

theorem Reads.of_same (h : book' = book) : Reads client book book' := by
  rw [h]
  exact .refl client book

theorem Reads.of_eq (hholders : book'.holders = book.holders) (hleases : book'.leases = book.leases) :
    Reads client book book' :=
  .of_hears (.of_holders hholders) fun r => by unfold Holds; rw [hleases]

theorem Reads.trans (h : Reads client book book') (h' : Reads client book' book'') :
    Reads client book book'' := by
  obtain ⟨events, hheard, hreads⟩ := h
  obtain ⟨events', hheard', hreads'⟩ := h'
  refine ⟨events ++ events', hheard.trans hheard', fun hruns view hview => ?_⟩
  rw [read_append]
  exact hreads' (hheard.goal.trans hruns) _ (hreads hruns view hview)

theorem note_reads : Reads client book (book.note kind robot) :=
  .of_eq (note_holders book kind robot) (note_same book kind robot).leases

theorem LeaseSet.holds {x : Option Lease} (h : LeaseSet book book' robot x) (r : String) :
    Holds client book' r ↔ if r = robot then ∃ lease, x = some lease ∧ lease.holder = client
      else Holds client book r := by
  unfold Holds
  rw [h.leases r]
  split <;> rfl

theorem Reads.of_set {lease' : Lease} (h : Hears client book book')
    (hset : LeaseSet book book' robot (some lease')) (hget : book.leases.get robot = some lease)
    (hholder : lease'.holder = lease.holder) : Reads client book book' := by
  refine .of_hears h fun r => ?_
  rw [hset.holds]
  split
  · rename_i hr
    subst hr
    unfold Holds
    rw [hget]
    simp [hholder]
  · rfl

/-! ## The lease that goes back or ends -/

def without_lease (book : FleetBook) (robot : String) (lease : Lease) (cause : String) : FleetBook :=
  { book with
    leases := book.leases.remove robot
    endings := book.endings.insert ⟨lease.holder, robot⟩ ("its lease ended: " ++ cause)
  }.end_offer_of robot lease cause

variable (client book robot)

theorem without_lease_set (lease : Lease) (cause : String) :
    LeaseSet book (book.without_lease robot lease cause) robot none := by
  refine .same ?_ (end_offer_of_same ..)
  exact .remove rfl rfl rfl rfl

theorem without_lease_hears (lease : Lease) (cause : String) :
    Hears client book (book.without_lease robot lease cause) := by
  refine .trans ?_ (end_offer_of_hears ..)
  exact .of_holders rfl

variable {client book robot}

theorem LeaseSet.back_to {x : Option Lease} (h : LeaseSet book book' robot x) (lease : Lease) :
    book'.back_to lease = book.back_to lease := by
  unfold FleetBook.back_to
  rw [show book'.holds_goal = book.holds_goal from funext h.holders]

theorem holds_of_get (hget : book.leases.get robot = some lease) :
    Holds client book robot ↔ lease.holder = client := by
  unfold Holds
  simp [hget]

theorem end_lease_reads (hget : book.leases.get robot = some lease)
    (hset : LeaseSet book book' robot none) (hhears : Hears client book book') : Reads client book
      ((book'.tell_holder lease.holder .LeaseEnd robot cause).note .LeaseEnd robot) := by
  obtain ⟨offers, hquiet, hoffers⟩ := hhears
  obtain ⟨ends, hends, hkind, _, htold⟩ :=
    tell_heard book' lease.holder client .LeaseEnd robot none cause
  refine ⟨offers ++ ends, hoffers.trans ?_, fun hruns view hview r => ?_⟩
  · have hnoted := hends.trans (.of_holders (note_holders _ .LeaseEnd robot))
    rwa [append_nil] at hnoted
  have hafter := (hset.same (tell_holder_from_same book' lease.holder .LeaseEnd robot none
    cause)).same (note_same _ .LeaseEnd robot)
  rw [read_append, read_quiet hquiet, mem_read_ends hkind, hview r,
    htold (hoffers.goal.trans hruns)]
  refine Iff.trans ?_ (hafter.holds r).symm
  by_cases hr : r = robot
  · subst hr
    simp [holds_of_get hget]
  · simp [hr]

def give_to (book : FleetBook) (robot : String) (lease : Lease) (giver : ClientRef)
    (name cause : String) : FleetBook :=
  let book := book.tell_holder lease.holder .LeaseEnd robot cause
  { book with leases := book.leases.insert robot { holder := giver, name } }

/-- The holder reads its lease's end, and its giver that it came back. -/
theorem give_back_reads (hget : book.leases.get robot = some lease)
    (hset : LeaseSet book book' robot none) (hhears : Hears client book book') {giver : ClientRef} :
    Reads client book (((book'.give_to robot lease giver name cause).tell_holder_from giver
      .LeaseBack robot (some lease.holder) cause).note .HolderChange robot) := by
  obtain ⟨offers, hquiet, hoffers⟩ := hhears
  obtain ⟨ends, hends, hkind, _, htold⟩ :=
    tell_heard book' lease.holder client .LeaseEnd robot none cause
  have hgiven : LeaseSet book (book'.give_to robot lease giver name cause) robot
      (some { holder := giver, name }) := by
    refine (hset.same (tell_holder_from_same book' lease.holder .LeaseEnd robot none cause)).trans ?_
    exact .insert rfl rfl rfl rfl
  have hinsert : Heard client book' (book'.give_to robot lease giver name cause) (ends ++ []) :=
    hends.trans (.of_holders rfl)
  rw [append_nil] at hinsert
  obtain ⟨backs, hbacks, hkind', _, htold'⟩ := tell_heard
    (book'.give_to robot lease giver name cause) giver client .LeaseBack robot (some lease.holder)
    cause
  have hafter := (hgiven.same (tell_holder_from_same _ giver .LeaseBack robot (some lease.holder)
    cause)).same (note_same _ .HolderChange robot)
  refine ⟨offers ++ (ends ++ backs), hoffers.trans (hinsert.trans ?_), fun hruns view hview r => ?_⟩
  · have hnoted := hbacks.trans (.of_holders (note_holders _ .HolderChange robot))
    rwa [append_nil] at hnoted
  have hback : backs ≠ [] ↔ giver = client := by
    rw [Ne, htold' (hinsert.goal.trans (hoffers.goal.trans hruns)), not_not]
  rw [read_append, read_append, read_quiet hquiet, mem_read_backs hkind', mem_read_ends hkind,
    hview r, htold (hoffers.goal.trans hruns), hback]
  refine Iff.trans ?_ (hafter.holds r).symm
  by_cases hr : r = robot
  · subst hr
    rw [holds_of_get hget]
    grind
  · simp [hr]

theorem give_back_or_end_reads (hget : book.leases.get robot = some lease) :
    Reads client book (book.give_back_or_end robot cause) := by
  have hset := without_lease_set book robot lease cause
  have hhears := without_lease_hears client book robot lease cause
  have hback := hset.back_to lease
  rw [give_back_or_end, hget]
  dsimp only
  rw [← without_lease, hback]
  cases hto : book.back_to lease with
  | none => exact end_lease_reads hget hset hhears
  | some back => exact give_back_reads hget hset hhears

/-! ## The end of a goal -/

variable (book c)

theorem end_offer_to_hears (robot : String) (lease : Lease) :
    Hears client book (book.end_offer_to c robot lease) := by
  unfold end_offer_to
  split
  · refine .trans ?_ (note_hears ..)
    exact .of_holders rfl
  · exact .of_holders rfl

theorem without_offer_to_holder (lease : Lease) :
    (without_offer_to c lease).holder = lease.holder := by
  unfold without_offer_to
  split <;> rfl

theorem end_holding_of_reads (client c : ClientRef) (gone : String) (book : FleetBook)
    (robot : String) : Reads client book (end_holding_of c gone book robot) := by
  unfold end_holding_of
  cases hget : book.leases.get robot with
  | none => exact .refl client book
  | some lease =>
    have hset := end_offer_to_set hget c
    have hoffer : Reads client book (book.end_offer_to c robot lease) :=
      .of_set (end_offer_to_hears ..) hset hget (without_offer_to_holder c lease)
    dsimp only
    generalize book.end_offer_to c robot lease = book' at hset hoffer ⊢
    generalize without_offer_to c lease = lease' at hset ⊢
    have hget' : book'.leases.get robot = some lease' := by rw [hset.leases, if_pos rfl]
    refine hoffer.trans ?_
    split_ifs with hholder hgiver
    · exact give_back_or_end_reads hget'
    · refine .of_set ?_ (lose_giver_set book' robot lease') hget' rfl
      unfold lose_giver
      refine .trans ?_ (note_hears ..)
      exact .of_holders rfl
    · exact .refl client book'

theorem end_holding_of_holders (c client : ClientRef) (gone : String) (book : FleetBook)
    (robot : String) : (end_holding_of c gone book robot).holds_goal client =
      book.holds_goal client := by
  cases hget : book.leases.get robot with
  | none => rw [end_holding_of, hget]
  | some lease =>
    obtain ⟨x, hset, -⟩ := end_holding_of_set c gone hget
    exact hset.holders client

theorem end_holding_loop_holders (c client : ClientRef) (gone : String) (robots : List String)
    (book : FleetBook) :
    (robots.foldl (end_holding_of c gone) book).holds_goal client = book.holds_goal client := by
  induction robots generalizing book with
  | nil => rfl
  | cons robot robots ih => exact (ih _).trans (end_holding_of_holders c client gone book robot)

theorem remove_holder_gone :
    { book with holders := book.holders.remove c }.holds_goal c = false := by
  simp [holds_goal, KeyMap.contains_remove]

variable {book c}

theorem end_holding_reads (hne : client ≠ c) (book : FleetBook)
    (generation cause : String) : Reads client book (book.end_holding c generation cause) := by
  unfold end_holding
  split
  · exact .refl client book
  split
  · exact .refl client book
  · refine .trans ?_ (rel_foldl (.refl client) .trans (end_holding_of_reads client c _) _ _)
    refine .of_hears (.of_heard ⟨?_, ?_⟩) fun _ => Iff.rfl
    · simp [holds_goal, KeyMap.contains_remove, hne]
    · simp [goal_events, KeyMap.get_remove, hne]

theorem start_goal_reads (hne : client ≠ c) : Reads client book (book.start_goal c generation) := by
  refine .of_hears (.of_heard ⟨?_, ?_⟩) fun _ => Iff.rfl
  · simp [start_goal, holds_goal, KeyMap.contains_insert, hne]
  · simp [start_goal, goal_events, KeyMap.get_insert, hne]

theorem begin_holding_reads (hne : client ≠ c)
    : Reads client book (book.begin_holding c generation).1 := by
  unfold begin_holding
  split
  · exact start_goal_reads hne
  · split
    · exact .refl client book
    · exact (end_holding_reads hne book _ _).trans (start_goal_reads hne)

theorem end_holding_gone {holder : Holder} (hget : book.holders.get client = some holder) :
    (book.end_holding client holder.generation cause).holds_goal client = false := by
  unfold end_holding
  rw [hget]
  dsimp only
  rw [if_neg (not_not.mpr rfl)]
  exact (end_holding_loop_holders ..).trans (remove_holder_gone book client)

/-- A goal that begins has no events, and its client no lease. -/
theorem begin_holding_begins (hrules : LeasesRuled book)
    (hok : (book.begin_holding client generation).2 = .ok ()) (robot : String) :
    ¬ Holds client (book.begin_holding client generation).1 robot := by
  have hno : ∀ b : FleetBook, LeasesRuled b → b.holds_goal client = false →
      ∀ robot, ¬ Holds client b robot := by
    rintro b hb hgone robot ⟨lease, hget, rfl⟩
    have hruns := (hb robot lease hget).holder_runs
    rw [hgone] at hruns
    cases hruns
  unfold begin_holding at hok ⊢
  cases hget : book.holders.get client with
  | none =>
    refine hno book hrules ?_ robot
    rw [holds_goal, KeyMap.contains, hget]
    rfl
  | some holder =>
    rw [hget] at hok
    dsimp only at hok ⊢
    split at hok
    · cases hok
    · rename_i hother
      rw [if_neg hother]
      exact hno _ ((end_holding_keeps book client holder.generation _).leases_ruled hrules)
        (end_holding_gone hget) robot

/-! ## The calls of a lease -/

theorem start_lease_hears : Hears client book (book.start_lease c robot name) := by
  unfold start_lease
  refine .trans ?_ (note_hears ..)
  exact .of_holders rfl

theorem start_lease_reads (hne : c ≠ client) (hget : book.leases.get robot = none)
    (name : String) : Reads client book (book.start_lease c robot name) := by
  refine .of_hears (start_lease_hears ..) fun r => ?_
  rw [(start_lease_set book c robot name).holds]
  split
  · rename_i hr
    subst hr
    simp [Holds, hget, hne]
  · rfl

/-- The giver reads that its lease ended, and the client that takes it nothing. -/
theorem hand_over_heard (hne : lease.holder ≠ c) :
    ∃ ends, Heard client book (book.hand_over c robot name lease) ends ∧
    (∀ e ∈ ends, e.event = .LeaseEnd ∧ e.robot = robot) ∧ (c = client → ends = []) ∧
    (book.holds_goal client = true → (ends = [] ↔ lease.holder ≠ client)) := by
  unfold hand_over
  generalize hto : { book with
    leases := book.leases.insert robot
      { holder := c
        name
        received_from := some { client := some lease.holder, name := lease.name } }
    endings := book.endings.remove ⟨c, robot⟩ } = moved
  have hmoved : Heard client book moved [] := by
    rw [← hto]
    exact .of_holders rfl
  obtain ⟨ends, hends, hkind, hother, htold⟩ := tell_heard moved lease.holder client .LeaseEnd
    robot none (c.display ++ " took the lease that you offered it")
  refine ⟨ends, ?_, hkind, fun hc => hother (hc ▸ hne), fun hruns => htold (hmoved.goal.trans hruns)⟩
  have hnotes := (hmoved.trans hends).trans
    ((Heard.of_holders (note_holders _ .OfferEnd robot)).trans
      (.of_holders (note_holders _ .HolderChange robot)))
  rw [nil_append, append_nil, append_nil] at hnotes
  exact hnotes

theorem hand_over_reads (hc : c ≠ client)
    (hget : book.leases.get robot = some lease) (hne : lease.holder ≠ c) :
    Reads client book (book.hand_over c robot name lease) := by
  obtain ⟨ends, hends, hkind, _, htold⟩ := hand_over_heard hne
  refine ⟨ends, hends, fun hruns view hview r => ?_⟩
  rw [mem_read_ends hkind, hview r, htold hruns, (hand_over_set book c robot name lease).holds]
  by_cases hr : r = robot
  · subst hr
    simp [Holds, hget, hc]
  · simp [hr]

/-- A client takes a lease: it reads nothing, and has one robot more. -/
def Takes (client : ClientRef) (book book' : FleetBook) (robot : String) : Prop :=
  Heard client book book' [] ∧
    ∀ r, Holds client book' r ↔ r = robot ∨ Holds client book r

theorem Takes.of_set {lease : Lease} (h : Heard client book book' [])
    (hset : LeaseSet book book' robot (some lease)) (hholder : lease.holder = client) :
    Takes client book book' robot := by
  refine ⟨h, fun r => ?_⟩
  rw [hset.holds]
  by_cases hr : r = robot
  · simp [hr, hholder]
  · simp [hr]

theorem start_lease_takes (book : FleetBook) (client : ClientRef) (robot name : String) :
    Takes client book (book.start_lease client robot name) robot := by
  refine .of_set ?_ (start_lease_set book client robot name) rfl
  unfold start_lease
  exact .of_holders (note_holders ..)

theorem take_takes (hok : (book.take client robot name).2 = .ok ()) :
    Takes client book (book.take client robot name).1 robot := by
  unfold take at hok ⊢
  split at hok
  · cases hok
  split at hok
  · cases hok
  split_ifs at hok ⊢ with hheld hleaving
  · refine ⟨.of_holders rfl, fun r => (or_iff_right_of_imp ?_).symm⟩
    rintro rfl
    cases hget : book.leases.get r with
    | none => simp [hget] at hheld
    | some lease =>
      rw [hget] at hheld
      exact ⟨lease, hget, of_decide_eq_true hheld⟩
  · split at hok
    · exact start_lease_takes book client robot name
    rename_i lease hget
    split_ifs at hok ⊢ with hoffer
    have hne : lease.holder ≠ client := by
      rw [hget] at hheld
      simpa using hheld
    obtain ⟨ends, hends, _, hnone, _⟩ :=
      hand_over_heard hne
    rw [hnone rfl] at hends
    exact .of_set hends (hand_over_set book client robot name lease) rfl

theorem take_reads (hc : c ≠ client) : Reads client book (book.take c robot name).1 := by
  unfold take
  split
  · exact .refl client book
  split
  · exact .refl client book
  split_ifs with hheld hleaving
  · exact .refl client book
  · exact .refl client book
  split
  · rename_i hget
    exact start_lease_reads hc hget name
  rename_i lease hget
  split_ifs with hoffer
  · exact .refl client book
  · have hne : lease.holder ≠ c := by
      rw [hget] at hheld
      simpa using hheld
    exact hand_over_reads hc hget hne

variable (book c)

theorem release_reads (robot : String) : Reads client book (book.release c robot).1 := by
  unfold release
  split
  · exact .refl client book
  · rename_i lease hheld
    obtain ⟨hget, -⟩ := get_of_held hheld
    exact give_back_or_end_reads hget

theorem offer_of_reads (c receiver : ClientRef) (book : FleetBook) (robot : String) :
    Reads client book (offer_of c receiver book robot) := by
  cases hget : book.leases.get robot with
  | none =>
    rw [offer_of, hget]
    exact .refl client book
  | some lease =>
    refine .of_set ?_ (offer_of_set hget c receiver) hget rfl
    unfold offer_of
    rw [hget]
    dsimp only
    split
    · exact .of_holders rfl
    · refine .trans (.trans (.trans (end_offer_of_hears book robot lease
        (c.display ++ " offered the lease to " ++ receiver.display)) ?_)
        (tell_hears _ receiver (.inl rfl) robot (some c) "")) (note_hears ..)
      exact .of_holders rfl

theorem offer_reads (robots : List String)
    (receiver : ClientRef) : Reads client book (book.offer c robots receiver).1 := by
  unfold offer
  repeat' split
  all_goals first
    | exact .refl client book
    | exact rel_foldl (.refl client) .trans (offer_of_reads c receiver) robots book

variable {book}

theorem set_open_reads (hget : book.leases.get robot = some lease) {state : Bool}
    : Reads client book (book.set_open robot lease state kind) := by
  refine .of_set ?_ (set_open_set book robot lease state kind) hget rfl
  unfold set_open
  refine .trans ?_ (note_hears ..)
  exact .of_holders rfl

variable (book)

theorem open_reads (robot : String) : Reads client book (book.open c robot).1 := by
  unfold FleetBook.open
  split
  · exact .refl client book
  split
  · exact .refl client book
  · rename_i lease hheld
    split
    · exact .refl client book
    · exact set_open_reads (get_of_held hheld).1

theorem close_reads (robot : String) : Reads client book (book.close c robot).1 := by
  unfold close
  split
  · exact .refl client book
  · rename_i lease hheld
    split
    · exact .refl client book
    · exact set_open_reads (get_of_held hheld).1

/-! ## The end of every lease -/

variable (client)

theorem end_lease_of_heard (cause : String) (book : FleetBook) (robot : String) (lease : Lease) :
    ∃ offers ends, Heard client book (end_lease_of cause book (robot, lease)) (offers ++ ends) ∧
      Quiet offers ∧ (∀ e ∈ ends, e.event = .LeaseEnd ∧ e.robot = robot) ∧
      (book.holds_goal client = true → (ends = [] ↔ lease.holder ≠ client)) := by
  unfold end_lease_of
  dsimp only
  have hhears : Hears client book ({ book with
      endings := book.endings.insert ⟨lease.holder, robot⟩ ("its lease ended: " ++ cause)
      }.end_offer_of robot lease cause) := by
    refine .trans ?_ (end_offer_of_hears ..)
    exact .of_holders rfl
  generalize end_offer_of _ robot lease cause = ended at hhears ⊢
  obtain ⟨offers, hquiet, hoffers⟩ := hhears
  obtain ⟨ends, hends, hkind, _, htold⟩ :=
    tell_heard ended lease.holder client .LeaseEnd robot none cause
  refine ⟨offers, ends, hoffers.trans ?_, hquiet, hkind,
    fun hruns => htold (hoffers.goal.trans hruns)⟩
  have hnote := hends.trans (.of_holders (note_holders _ .LeaseEnd robot))
  rwa [append_nil] at hnote

/-- The client reads the end of each of its leases. -/
theorem end_lease_loop_heard (cause : String) {entries : List (String × Lease)}
    (hnodup : (entries.map Prod.fst).Nodup) (book : FleetBook) :
    ∃ events, Heard client book (entries.foldl (end_lease_of cause) book) events ∧
      (book.holds_goal client = true → ∀ view : List String,
        (∀ r, r ∈ view ↔ ∃ lease, (r, lease) ∈ entries ∧ lease.holder = client) →
        ∀ r, r ∉ read view events) := by
  induction entries generalizing book with
  | nil =>
    refine ⟨[], .of_holders rfl, fun _ view hview r hr => ?_⟩
    obtain ⟨lease, hmem, _⟩ := (hview r).mp hr
    cases hmem
  | cons entry entries ih =>
    obtain ⟨robot, lease⟩ := entry
    obtain ⟨hfresh, hnodup⟩ := nodup_cons.mp hnodup
    obtain ⟨offers, ends, hheard, hquiet, hkind, htold⟩ :=
      end_lease_of_heard client cause book robot lease
    obtain ⟨events, hheard', hreads⟩ := ih hnodup (end_lease_of cause book (robot, lease))
    refine ⟨_, hheard.trans hheard', fun hruns view hview => ?_⟩
    rw [read_append]
    refine hreads (hheard.goal.trans hruns) _ fun r => ?_
    rw [read_append, read_quiet hquiet, mem_read_ends hkind, htold hruns, hview r]
    have hother : ∀ l, (robot, l) ∉ entries :=
      fun l hl => hfresh (mem_map.mpr ⟨(robot, l), hl, rfl⟩)
    constructor
    · rintro ⟨⟨l, hmem, hholder⟩, hends⟩
      rcases mem_cons.mp hmem with heq | hmem
      · obtain ⟨rfl, rfl⟩ := Prod.mk.inj heq
        exact (hends.elim (absurd hholder) fun hne => absurd rfl hne)
      · exact ⟨l, hmem, hholder⟩
    · rintro ⟨l, hmem, hholder⟩
      refine ⟨⟨l, mem_cons_of_mem _ hmem, hholder⟩, .inr ?_⟩
      rintro rfl
      exact hother l hmem

variable {client}

theorem end_every_lease_reads (cause : String) :
    Reads client book (book.end_every_lease cause) := by
  have hempty := (end_every_lease_same book cause).leases
  unfold end_every_lease at hempty ⊢
  obtain ⟨events, hheard, hreads⟩ := end_lease_loop_heard client cause book.leases.nodup
    { book with leases := .empty }
  refine ⟨events, ⟨hheard.goal, hheard.events⟩, fun hruns view hview r => ?_⟩
  have hgone : ¬ Holds client (book.leases.entries.foldl (end_lease_of cause)
      { book with leases := .empty }) r := by
    rintro ⟨lease, hget, _⟩
    rw [hempty] at hget
    cases hget
  refine iff_of_false (hreads hruns view (fun r => ?_) r) hgone
  rw [hview r]
  unfold Holds
  simp only [KeyMap.get_eq_some_iff]

theorem set_halt_reads (halted_by : String) : Reads client book (book.set_halt halted_by).1 := by
  unfold set_halt
  split
  · exact .refl client book
  · refine .trans (.trans ?_ (note_reads ..)) (end_every_lease_reads ..)
    exact .of_eq rfl rfl

theorem clear_halt_reads : Reads client book book.clear_halt.1 := by
  unfold clear_halt
  split
  · exact .refl client book
  · refine .trans ?_ (note_reads ..)
    exact .of_eq rfl rfl

theorem sync_software_reads (robots : List RobotProcesses) :
    Reads client book (book.sync_software robots) := by
  unfold sync_software
  refine .trans ?_ (rel_foldl (R := Reads client) (.refl client) .trans
    (fun _ (_ : ChangeKind × String) => note_reads) _ _)
  exact .of_eq rfl rfl

variable {book}

theorem lease_joined_reads (joined : Option ClientRef) (hother : joined ≠ some client)
    (book : FleetBook) (robot : String) : Reads client book (book.lease_joined joined robot) := by
  unfold lease_joined
  split
  · exact .refl client book
  rename_i c hfilter
  split
  · exact .refl client book
  rename_i hno
  have hc : c ≠ client := by
    rintro rfl
    exact hother (Option.filter_eq_some_iff.mp hfilter).1
  refine start_lease_reads hc ?_ robot
  rw [Bool.or_eq_true, not_or] at hno
  exact Option.not_isSome_iff_eq_none.mp hno.2

/-! ## Every call -/

def FleetCall.isOwn (client : ClientRef) : FleetCall → Bool
  | .BeginHolding c _ => c = client
  | .EndHolding c _ _ => c = client
  | .Take c _ _ => c = client
  | .LeaseJoined joined _ => joined = some client
  | _ => false

/-- In each other call the client reads what it did to its leases. -/
theorem call_reads {act : FleetCall}
    (hact : act.isOwn client = false) : Reads client book (book.call act).1 := by
  cases act with
  | BeginHolding c generation =>
    exact begin_holding_reads (Ne.symm (of_decide_eq_false hact))
  | EndHolding c generation cause =>
    exact end_holding_reads (Ne.symm (of_decide_eq_false hact)) book generation cause
  | Take c robot name => exact take_reads (of_decide_eq_false hact)
  | Release c robot => exact release_reads book c robot
  | Offer c robots receiver => exact offer_reads book c robots receiver
  | Open c robot => exact open_reads book c robot
  | Close c robot => exact close_reads book c robot
  | Halt halted_by => exact set_halt_reads book halted_by
  | ClearHalt => exact clear_halt_reads book
  | EndEveryLease cause => exact end_every_lease_reads book cause
  | LeaseJoined joined robot => exact lease_joined_reads joined (of_decide_eq_false hact) book robot
  | BeginRemoval removed robot =>
    simp only [call, begin_removal]
    split
    · exact .refl client book
    · exact .of_eq rfl rfl
  | EndRemoval robot | Follow | Unfollow index => exact .of_eq rfl rfl
  | NoteProcess process runs robots | SetLaunch launch robots =>
    refine .trans ?_ (sync_software_reads ..)
    exact .of_eq rfl rfl
  | Note kind robot => exact note_reads

variable (book)

theorem end_holding_own (client : ClientRef) (generation cause : String) :
    book.end_holding client generation cause = book ∨
      (book.end_holding client generation cause).holds_goal client = false := by
  cases hget : book.holders.get client with
  | none =>
    left
    rw [end_holding, hget]
  | some holder =>
    by_cases hgeneration : holder.generation = generation
    · right
      rw [← hgeneration]
      exact end_holding_gone hget
    · left
      rw [end_holding, hget]
      exact if_pos hgeneration

end

end peppy.fleet.FleetBook
