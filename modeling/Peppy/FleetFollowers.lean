-- The followers of the fleet. Each change of the book reaches every follower with the
-- next revision, so what a follower read last is what the book lists, while the
-- launch record stays as it is.
import Mathlib.Data.List.Range
import Peppy.FleetLaws

open keymap runs List

namespace peppy.fleet.FleetBook

/-! ## The changes that a call sends -/

/-- Changes from book to book, one a revision, to each follower that stays. -/
structure Sent (book book' : FleetBook) (changes : List Change) : Prop where
  revision : book'.revision = book.revision + changes.length
  revisions : changes.map Change.revision = List.range' (book.revision + 1) changes.length
  followers : book'.followers =
    if changes = [] then book.followers
    else (book.followers.filter fun follower => !follower.closed).map fun follower =>
      { follower with changes := follower.changes ++ changes }
  software : ∀ robot, (book'.software.get robot).isSome = (book.software.get robot).isSome

/-- The first book changes to the second, and maybe in ways not sent. -/
def Sends (book book' : FleetBook) : Prop := ∃ changes, Sent book book' changes

/-- What a client knows that started with `listing` and read the changes. -/
def last_listing (listing : FleetListing) (changes : List Change) : FleetListing :=
  (changes.getLast?.map Change.listing).getD listing

/-- Followers that know the first listing know the second. -/
def Told (book book' : FleetBook) : Prop :=
  ∃ changes, Sent book book' changes ∧ last_listing book.listing changes = book'.listing

variable {kind : ChangeKind} {robot : String}

section
variable {book book' book'' : FleetBook}

theorem Sent.of_eq (hrevision : book'.revision = book.revision)
    (hfollowers : book'.followers = book.followers) (hsoftware : book'.software = book.software) :
    Sent book book' [] where
  revision := hrevision
  revisions := rfl
  followers := hfollowers
  software _ := by rw [hsoftware]

theorem Sends.of_eq (hrevision : book'.revision = book.revision)
    (hfollowers : book'.followers = book.followers) (hsoftware : book'.software = book.software) :
    Sends book book' :=
  ⟨[], .of_eq hrevision hfollowers hsoftware⟩

theorem Sent.trans {changes changes' : List Change} (h : Sent book book' changes)
    (h' : Sent book' book'' changes') : Sent book book'' (changes ++ changes') where
  revision := by rw [h'.revision, h.revision, length_append]; omega
  revisions := by
    rw [map_append, h.revisions, h'.revisions, h.revision, length_append,
      Nat.add_right_comm, range'_append_1]
  followers := by
    rw [h'.followers, h.followers]
    by_cases hc : changes = []
    · simp [hc]
    · by_cases hc' : changes' = []
      · simp [hc, hc']
      · -- no follower goes away between the two
        simp [hc, hc', List.filter_map, Function.comp_def]
  software robot := (h'.software robot).trans (h.software robot)

theorem Sends.trans (h : Sends book book') (h' : Sends book' book'') : Sends book book'' := by
  obtain ⟨changes, h⟩ := h
  obtain ⟨changes', h'⟩ := h'
  exact ⟨changes ++ changes', h.trans h'⟩

theorem listing_congr (hlaunch : book'.launch = book.launch) (hversion : book'.version = book.version)
    (hcore : book'.core_node = book.core_node) (hhalt : book'.halt = book.halt)
    (hleases : book'.leases = book.leases) (hsoftware : book'.software = book.software) :
    book'.listing = book.listing := by
  unfold listing lease_listing
  rw [hlaunch, hversion, hcore, hhalt, hleases, hsoftware]

theorem note_listing : (book.note kind robot).listing = book.listing := by
  unfold note
  dsimp only
  split <;> rfl

theorem note_sent : Sent book (book.note kind robot)
      [{ kind, robot, revision := book.revision + 1, listing := book.listing }] := by
  unfold note
  dsimp only
  split
  · rename_i hnone
    have hnil := List.isEmpty_iff.mp hnone
    exact ⟨rfl, rfl, by simp [hnil], fun _ => rfl⟩
  · exact ⟨rfl, rfl, by simp [listing, lease_listing], fun _ => rfl⟩

theorem last_listing_append {listing : FleetListing} {changes changes' : List Change} :
    last_listing listing (changes ++ changes') =
      last_listing (last_listing listing changes) changes' := by
  unfold last_listing
  rw [getLast?_append]
  cases changes'.getLast? <;> rfl

theorem Told.sends (h : Told book book') : Sends book book' := by
  obtain ⟨changes, hsent, _⟩ := h
  exact ⟨changes, hsent⟩

theorem Told.of_eq (hrevision : book'.revision = book.revision)
    (hfollowers : book'.followers = book.followers) (hsoftware : book'.software = book.software)
    (hlisting : book'.listing = book.listing) : Told book book' :=
  ⟨[], .of_eq hrevision hfollowers hsoftware, hlisting.symm⟩

theorem Told.refl (book : FleetBook) : Told book book := .of_eq rfl rfl rfl rfl

theorem Told.trans (h : Told book book') (h' : Told book' book'') : Told book book'' := by
  obtain ⟨changes, hsent, hlast⟩ := h
  obtain ⟨changes', hsent', hlast'⟩ := h'
  exact ⟨changes ++ changes', hsent.trans hsent', by rw [last_listing_append, hlast, hlast']⟩

/-- A note after any changes of the book, and after no others, tells them. -/
theorem Sends.note (h : Sends book book') (kind : ChangeKind) (robot : String) :
    Told book (book'.note kind robot) := by
  obtain ⟨changes, hsent⟩ := h
  refine ⟨_, hsent.trans (note_sent), ?_⟩
  rw [note_listing]
  simp [last_listing]

/-- A loop whose turns end with a note. The first one tells the changes before. -/
theorem Sends.foldl {α : Type} {f : FleetBook → α → FleetBook}
    (hf : ∀ book book' a, Sends book book' → Told book (f book' a)) (h : Sends book book')
    {l : List α} (hl : l ≠ []) : Told book (l.foldl f book') := by
  obtain ⟨a, l, rfl⟩ := exists_cons_of_ne_nil hl
  exact (hf book book' a h).trans
    (rel_foldl .refl .trans (fun book a => hf book book a (Told.refl book).sends) l (f book' a))

end

/-! ## Each call tells its changes -/

section
variable {book book' : FleetBook} {client receiver : ClientRef} {robot cause name : String}
  {lease : Lease}

theorem tell_holder_from_told {event : LeaseEventKind} {giver : Option ClientRef} :
    Told book (book.tell_holder_from client event robot giver cause) := by
  unfold tell_holder_from
  split
  · exact .refl book
  · exact .of_eq rfl rfl rfl rfl

theorem tell_holder_told {event : LeaseEventKind} : Told book (book.tell_holder client event robot cause) :=
  tell_holder_from_told

theorem end_offer_of_told : Told book (book.end_offer_of robot lease cause) := by
  unfold end_offer_of
  split
  · exact .refl book
  · exact tell_holder_from_told.sends.note .OfferEnd robot

theorem give_back_or_end_told : Told book (book.give_back_or_end robot cause) := by
  unfold give_back_or_end
  split
  · exact .refl book
  rename_i lease _
  dsimp only
  generalize hout : end_offer_of _ robot lease cause = out
  have hsends : Sends book out := by
    rw [← hout]
    refine .trans ?_ end_offer_of_told.sends
    exact .of_eq rfl rfl rfl
  have hend : Sends book (out.tell_holder lease.holder .LeaseEnd robot cause) :=
    hsends.trans tell_holder_told.sends
  split
  · exact hend.note .LeaseEnd robot
  · refine Sends.note (hend.trans (.trans ?_ tell_holder_from_told.sends)) _ robot
    exact .of_eq rfl rfl rfl

theorem end_offer_to_told : Told book (book.end_offer_to client robot lease) := by
  unfold end_offer_to
  split
  · refine Sends.note ?_ .OfferEnd robot
    exact .of_eq rfl rfl rfl
  · exact .refl book

theorem lose_giver_told : Told book (book.lose_giver robot lease) := by
  unfold lose_giver
  refine Sends.note ?_ .HolderChange robot
  exact .of_eq rfl rfl rfl

theorem end_holding_of_told {gone : String} (book : FleetBook) (robot : String) :
    Told book (end_holding_of client gone book robot) := by
  unfold end_holding_of
  split
  · exact .refl book
  rename_i lease _
  have hoffer : Told book (book.end_offer_to client robot lease) := end_offer_to_told
  refine hoffer.trans ?_
  dsimp only
  split
  · exact give_back_or_end_told
  · split
    · exact lose_giver_told
    · exact .refl _

theorem end_holding_told {generation : String} :
    Told book (book.end_holding client generation cause) := by
  unfold end_holding
  split
  · exact .refl book
  · split
    · exact .refl book
    · refine .trans ?_ (rel_foldl .refl .trans end_holding_of_told _ _)
      exact .of_eq rfl rfl rfl rfl

theorem begin_holding_told {generation : String} :
    Told book (book.begin_holding client generation).1 := by
  unfold begin_holding
  split
  · exact .of_eq rfl rfl rfl rfl
  · split
    · exact .refl book
    · exact end_holding_told.trans (.of_eq rfl rfl rfl rfl)

theorem start_lease_told : Told book (book.start_lease client robot name) := by
  unfold start_lease
  refine Sends.note ?_ .LeaseStart robot
  exact .of_eq rfl rfl rfl

theorem hand_over_told : Told book (book.hand_over client robot name lease) := by
  unfold hand_over
  refine Sends.note (Told.sends (Sends.note (.trans ?_ tell_holder_told.sends) .OfferEnd robot))
    .HolderChange robot
  exact .of_eq rfl rfl rfl

theorem take_told : Told book (book.take client robot name).1 := by
  unfold take
  repeat' split
  all_goals first
    | exact .refl book
    | exact start_lease_told
    | exact hand_over_told

theorem release_told : Told book (book.release client robot).1 := by
  unfold release
  split
  · exact .refl book
  · exact give_back_or_end_told

theorem offer_of_told (book : FleetBook) (robot : String) :
    Told book (offer_of client receiver book robot) := by
  unfold offer_of
  split
  · exact .refl book
  split
  · exact .refl book
  rename_i lease _ _
  refine Sends.note (.trans ?_ tell_holder_from_told.sends) .OfferStart robot
  have hoffer : Told book (book.end_offer_of robot lease
    (client.display ++ " offered the lease to " ++ receiver.display)) := end_offer_of_told
  refine .trans hoffer.sends ?_
  exact .of_eq rfl rfl rfl

theorem offer_told {robots : List String} : Told book (book.offer client robots receiver).1 := by
  unfold offer
  repeat' split
  all_goals first
    | exact .refl book
    | exact rel_foldl .refl .trans offer_of_told robots book

theorem set_open_told {state : Bool} {kind : ChangeKind} : Told book (book.set_open robot lease state kind) := by
  unfold set_open
  refine Sends.note ?_ kind robot
  exact .of_eq rfl rfl rfl

theorem open_told : Told book (book.open client robot).1 := by
  unfold FleetBook.open
  repeat' split
  all_goals first
    | exact .refl book
    | exact set_open_told

theorem close_told : Told book (book.close client robot).1 := by
  unfold close
  repeat' split
  all_goals first
    | exact .refl book
    | exact set_open_told

theorem end_lease_of_told {cause : String} {entry : String × Lease} (h : Sends book book') :
    Told book (end_lease_of cause book' entry) := by
  unfold end_lease_of
  refine Sends.note (h.trans (.trans ?_ tell_holder_told.sends)) .LeaseEnd entry.1
  refine .trans ?_ end_offer_of_told.sends
  exact .of_eq rfl rfl rfl

theorem end_every_lease_told : Told book (book.end_every_lease cause) := by
  unfold end_every_lease
  by_cases hnone : book.leases.entries = []
  · -- there is no lease: the loop has no turn and the listing has none to lose
    have hleases : book.leases = .empty := by
      rcases hl : book.leases with ⟨entries, nodup⟩
      rw [hl] at hnone
      subst hnone
      rfl
    rw [hnone]
    exact .of_eq rfl rfl rfl (listing_congr rfl rfl rfl rfl hleases.symm rfl)
  · refine Sends.foldl (fun _ _ entry h => end_lease_of_told h) ?_ hnone
    exact .of_eq rfl rfl rfl

theorem set_halt_told {halted_by : String} : Told book (book.set_halt halted_by).1 := by
  unfold set_halt
  split
  · exact .refl book
  · refine .trans (Sends.note ?_ .HaltStart "") end_every_lease_told
    exact .of_eq rfl rfl rfl

theorem clear_halt_told : Told book book.clear_halt.1 := by
  unfold clear_halt
  split
  · exact .refl book
  · refine Sends.note ?_ .HaltEnd ""
    exact .of_eq rfl rfl rfl

theorem lease_joined_told {client : Option ClientRef} :
    Told book (book.lease_joined client robot) := by
  unfold lease_joined
  repeat' split
  all_goals first
    | exact .refl book
    | exact start_lease_told

theorem begin_removal_told {client : Option ClientRef} :
    Told book (book.begin_removal client robot).1 := by
  unfold begin_removal
  split
  · exact .refl book
  · exact .of_eq rfl rfl rfl rfl

end

/-! ## The software of the robots -/

/-- The software is known of the robots there are. -/
def Synced (robots : List RobotProcesses) (book : FleetBook) : Prop :=
  ∀ robot, (book.software.get robot).isSome = true ↔ robot ∈ robots.map RobotProcesses.robot

section
variable {book book' : FleetBook} {robots : List RobotProcesses}

theorem Synced.sends (h : Synced robots book) (hsends : Sends book book') :
    Synced robots book' := by
  obtain ⟨changes, hsent⟩ := hsends
  intro robot
  rw [hsent.software]
  exact h robot

theorem software_of_no_change (hsynced : Synced robots book)
    (hnone : robots.filterMap book.software_change = []) {robot : RobotProcesses}
    (hrobot : robot ∈ robots) :
    book.software.get robot.robot = some (book.software_state robot) := by
  have hchange : book.software_change robot = none := filterMap_eq_nil_iff.mp hnone robot hrobot
  have hsome := (hsynced robot.robot).mpr (mem_map_of_mem hrobot)
  obtain ⟨previous, hprevious⟩ := Option.isSome_iff_exists.mp hsome
  unfold software_change at hchange
  rw [hprevious] at hchange
  by_cases hsame : previous = book.software_state robot
  · rw [hprevious, hsame]
  · simp only [if_neg hsame] at hchange
    split at hchange <;> cases hchange

theorem sync_software_synced : Synced robots (book.sync_software robots) := by
  unfold sync_software
  refine Synced.sends ?_ (rel_foldl Told.refl .trans
    (fun book (change : ChangeKind × String) => (Told.refl book).sends.note change.1 change.2) _
    _).sends
  intro robot
  exact KeyMap.isSome_get_foldl_insert.trans (by simp)

theorem sync_software_told (hsynced : Synced robots book) :
    Told book (book.sync_software robots) := by
  have hdomain : ∀ name, ((robots.foldl (fun next robot =>
      next.insert robot.robot (book.software_state robot)) KeyMap.empty).get name).isSome =
        (book.software.get name).isSome := by
    intro name
    rw [Bool.eq_iff_iff, KeyMap.isSome_get_foldl_insert, hsynced name]
    simp
  unfold sync_software
  by_cases hnone : robots.filterMap book.software_change = []
  · rw [hnone]
    refine ⟨[], ⟨rfl, rfl, rfl, hdomain⟩, ?_⟩
    have hknown : ∀ robot ∈ robots,
        book.software.get robot.robot = some (book.software_state robot) :=
      fun robot hrobot => software_of_no_change hsynced hnone hrobot
    have hget : ∀ name, (robots.foldl (fun next robot =>
        next.insert robot.robot (book.software_state robot)) KeyMap.empty).get name =
          book.software.get name := by
      intro name
      by_cases hname : name ∈ robots.map RobotProcesses.robot
      · obtain ⟨robot, hrobot, rfl, hget⟩ := KeyMap.get_foldl_insert_of_mem hname
        rw [hget, hknown robot hrobot]
      have hno : book.software.get name = none := by
        rw [← Option.not_isSome_iff_eq_none, hsynced name]
        exact hname
      rw [KeyMap.get_foldl_insert_of_not_mem hname, hno]
      rfl
    simp [last_listing, listing, lease_listing, hget]
  · refine Sends.foldl (fun _ _ (change : ChangeKind × String) h => h.note change.1 change.2)
      ?_ hnone
    exact ⟨[], rfl, rfl, rfl, hdomain⟩

theorem note_process_told (hsynced : Synced robots book) {process : Process} {runs : Bool} :
    Told book (book.note_process process runs robots) := by
  unfold note_process
  generalize (if runs then book.running.insert process () else book.running.remove process) =
    running
  have hsynced' : Synced robots { book with running } := hsynced
  refine .trans ?_ (sync_software_told hsynced')
  exact .of_eq rfl rfl rfl rfl

end

/-! ## The followers along a run -/

/-- The call sets no launch, and a noted process has the robots of the last one. -/
def FleetCall.KeepsLaunch (robots : List RobotProcesses) : FleetCall → Prop
  | .SetLaunch _ _ => False
  | .NoteProcess _ _ robots' => robots' = robots
  | _ => True

/-- The books since a launch with these robots; a new one has no launch. -/
inductive Launched : List RobotProcesses → FleetBook → Prop
  | new (version core_node : String) : Launched [] (new version core_node)
  | set_launch {book : FleetBook} (launch : FleetListing) (robots : List RobotProcesses) :
      Built book → Launched robots (book.set_launch launch robots)
  | restore_halt {robots : List RobotProcesses} {book : FleetBook} (halted_by : Option String) :
      Launched robots book → Launched robots (book.restore_halt halted_by)
  | call {robots : List RobotProcesses} {book : FleetBook} {act : FleetCall} :
      Launched robots book → act.KeepsLaunch robots → Launched robots (book.call act).1

structure Following where
  revision : Nat
  listing : FleetListing

def following (book : FleetBook) : Following where
  revision := book.revision
  listing := book.listing

/-- Where the follower at place `i` is after the call, which drops those that left. -/
def place_after (book book' : FleetBook) (i : Nat) : Nat :=
  if book'.revision = book.revision then i
  else ((book.followers.take i).filter fun follower => !follower.closed).length

def place_in (book : FleetBook) : List FleetCall → Nat → Option Nat
  | [], i => some i
  | act :: acts, i =>
    if act = .Unfollow i then none
    else place_in (book.call act).1 acts (place_after book (book.call act).1 i)

/-- The follower is open, got each revision up to now, and knows the listing. -/
def UpToDate (start : Following) (book : FleetBook) (i : Nat) : Prop :=
  ∃ follower, book.followers[i]? = some follower ∧ follower.closed = false ∧
    follower.changes.map Change.revision =
      List.range' (start.revision + 1) follower.changes.length ∧
    book.revision = start.revision + follower.changes.length ∧
    last_listing start.listing follower.changes = book.listing

variable {i : Nat} {start : Following} {act : FleetCall}

section
variable {book book' : FleetBook} {robots : List RobotProcesses}

theorem getElem?_filter_take {α : Type} {p : α → Bool} {l : List α} {a : α}
    (hi : l[i]? = some a) (ha : p a = true) :
    (l.filter p)[((l.take i).filter p).length]? = some a := by
  induction l generalizing i with
  | nil => simp at hi
  | cons b l ih =>
    cases i with
    | zero =>
      cases hi
      simp [ha]
    | succ i =>
      rw [take_succ_cons, filter_cons, filter_cons]
      split
      · simpa using ih hi
      · exact ih hi

theorem UpToDate.told (h : UpToDate start book i)
    (htold : Told book book') : UpToDate start book' (place_after book book' i) := by
  obtain ⟨follower, hget, hopen, hrevisions, hrevision, hlast⟩ := h
  obtain ⟨changes, hsent, hlast'⟩ := htold
  unfold place_after
  by_cases hnone : changes = []
  · subst hnone
    have hsame : book'.revision = book.revision := hsent.revision
    rw [if_pos hsame]
    refine ⟨follower, ?_, hopen, hrevisions, hsame.trans hrevision, hlast.trans hlast'⟩
    rw [hsent.followers, if_pos rfl, hget]
  · have hlength := length_pos_of_ne_nil hnone
    rw [if_neg (by rw [hsent.revision]; omega)]
    refine ⟨{ follower with changes := follower.changes ++ changes }, ?_, hopen, ?_, ?_, ?_⟩
    · rw [hsent.followers, if_neg hnone, getElem?_map,
        getElem?_filter_take hget (by simp [hopen])]
      rfl
    · rw [map_append, hrevisions, hsent.revisions, hrevision, length_append,
        Nat.add_right_comm, range'_append_1]
    · rw [hsent.revision, hrevision, length_append]
      omega
    · rw [last_listing_append, hlast, hlast']

theorem call_told (hsynced : Synced robots book) (hact : act.KeepsLaunch robots)
    (hfollow : act ≠ .Follow) (hunfollow : ∀ i, act ≠ .Unfollow i) :
    Told book (book.call act).1 := by
  cases act with
  | BeginHolding client generation => exact begin_holding_told
  | EndHolding client generation cause => exact end_holding_told
  | Take client robot name => exact take_told
  | Release client robot => exact release_told
  | Offer client robots receiver => exact offer_told
  | Open client robot => exact open_told
  | Close client robot => exact close_told
  | Halt halted_by => exact set_halt_told
  | ClearHalt => exact clear_halt_told
  | EndEveryLease cause => exact end_every_lease_told
  | LeaseJoined client robot => exact lease_joined_told
  | BeginRemoval client robot => exact begin_removal_told
  | EndRemoval robot => exact .of_eq rfl rfl rfl rfl
  | NoteProcess process runs robots' =>
    cases hact
    exact note_process_told hsynced
  | SetLaunch launch robots' => exact hact.elim
  | Follow => exact absurd rfl hfollow
  | Note kind robot => exact (Told.refl book).sends.note kind robot
  | Unfollow i => exact absurd rfl (hunfollow i)

theorem call_synced (hsynced : Synced robots book)
    (hact : act.KeepsLaunch robots) : Synced robots (book.call act).1 := by
  by_cases hfollow : act = .Follow
  · subst hfollow
    exact hsynced
  by_cases hunfollow : ∃ i, act = .Unfollow i
  · obtain ⟨i, rfl⟩ := hunfollow
    exact hsynced
  · exact hsynced.sends
      (call_told hsynced hact hfollow fun i hi => hunfollow ⟨i, hi⟩).sends

theorem Launched.synced (h : Launched robots book) : Synced robots book := by
  induction h with
  | new version core_node => intro robot; simp [FleetBook.new]
  | set_launch launch robots _ => exact sync_software_synced
  | restore_halt halted_by _ ih => exact ih
  | call _ hact ih => exact call_synced ih hact

theorem call_upToDate (hsynced : Synced robots book)
    (hact : act.KeepsLaunch robots) (hstays : act ≠ .Unfollow i) (h : UpToDate start book i) :
    UpToDate start (book.call act).1 (place_after book (book.call act).1 i) := by
  by_cases hfollow : act = .Follow
  · subst hfollow
    obtain ⟨follower, hget, hrest⟩ := h
    obtain ⟨hlt, _⟩ := List.getElem?_eq_some_iff.mp hget
    refine ⟨follower, ?_, hrest⟩
    change (book.followers ++ [({} : Follower)])[place_after book book.follow i]? = some follower
    rw [show place_after book book.follow i = i from if_pos rfl,
      getElem?_append_left hlt, hget]
  · by_cases hunfollow : ∃ j, act = .Unfollow j
    · obtain ⟨j, rfl⟩ := hunfollow
      obtain ⟨follower, hget, hrest⟩ := h
      have hne : j ≠ i := fun hji => hstays (by rw [hji])
      refine ⟨follower, ?_, hrest⟩
      rw [show place_after book (book.call (.Unfollow j)).1 i = i from if_pos rfl]
      change (book.followers.modify j _)[i]? = some follower
      rw [getElem?_modify_ne _ _ hne, hget]
    · exact h.told (call_told hsynced hact hfollow fun j hj => hunfollow ⟨j, hj⟩)

/-- While the launch record stays, a follower knows the listing after every call, and got
each revision since its start once and in order. -/
theorem the_followers_know_the_listing {book' : FleetBook} {acts : List FleetCall} {i : Nat}
    (hbook : Launched robots book) (hacts : ∀ act ∈ acts, act.KeepsLaunch robots)
    (hrun : run step book.follow acts = some book')
    (hplace : place_in book.follow acts book.followers.length = some i) :
    UpToDate book.following book' i := by
  have hgoes : ∀ (acts : List FleetCall) (at_ : FleetBook) (j : Nat),
      (∀ act ∈ acts, act.KeepsLaunch robots) → Synced robots at_ →
      UpToDate book.following at_ j → run step at_ acts = some book' →
      place_in at_ acts j = some i → UpToDate book.following book' i := by
    intro acts
    induction acts with
    | nil =>
      intro at_ j _ _ h hrun hplace
      cases hrun
      cases hplace
      exact h
    | cons act acts ih =>
      intro at_ j hacts hsynced h hrun hplace
      obtain ⟨hact, hacts⟩ := forall_mem_cons.mp hacts
      unfold place_in at hplace
      split at hplace
      · cases hplace
      · rename_i hstays
        exact ih _ _ hacts (call_synced hsynced hact) (call_upToDate hsynced hact hstays h)
          hrun hplace
  exact hgoes acts book.follow book.followers.length hacts hbook.synced
    ⟨{}, by simp [follow], rfl, rfl, rfl, rfl⟩ hrun hplace

end

def armLaunch : FleetBook :=
  (new "1" "core").set_launch { robots := [⟨"arm", .Stopped⟩] } [⟨"arm", [⟨"core", "driver"⟩]⟩]

def armCalls : List FleetCall :=
  [.NoteProcess ⟨"core", "driver"⟩ true [⟨"arm", [⟨"core", "driver"⟩]⟩],
    .BeginHolding ⟨"core", "pilot"⟩ "g", .Take ⟨"core", "pilot"⟩ "arm" "own", .Halt "operator"]

theorem the_listing_after_a_halt : ∃ book', run step armLaunch.follow armCalls = some book' ∧
      UpToDate armLaunch.following book' 0 ∧ book'.revision = 4 :=
  ⟨_, rfl,
    @the_followers_know_the_listing armLaunch _ _ armCalls 0 (.set_launch _ _ (.new "1" "core"))
      (by simp [armCalls, FleetCall.KeepsLaunch]) rfl (by decide +kernel),
    by decide +kernel⟩

/-- A restored halt, and robots that come back after a process was noted with none: the
listing changes without a change for the follower. -/
theorem the_changes_that_no_follower_reads :
    (((new "1" "core").follow.restore_halt (some "operator")).followers = [{}] ∧
      ((new "1" "core").follow.restore_halt (some "operator")).listing ≠
        (following (new "1" "core")).listing) ∧
    ∃ book book', run step armLaunch [.NoteProcess ⟨"core", "driver"⟩ true []] = some book ∧
      run step book.follow [.NoteProcess ⟨"core", "camera"⟩ true
        [⟨"arm", [⟨"core", "driver"⟩]⟩]] = some book' ∧
      book'.followers = [{}] ∧ book'.listing ≠ book.following.listing :=
  ⟨by decide +kernel, _, _, rfl, rfl, by decide +kernel, by decide +kernel⟩

end peppy.fleet.FleetBook
