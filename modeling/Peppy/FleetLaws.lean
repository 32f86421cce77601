-- The laws of the book of the fleet: whoever holds, gave or is offered a
-- lease, in every book that the daemon can build, and that a refused call
-- changes nothing.
import Peppy.FleetBook
import Peppy.Lib.Runs

open keymap runs List Option

namespace peppy.fleet.FleetBook

/-! ## What the notes and the events leave as it was -/

/-- Nobody's rights change. -/
structure SameRights (book book' : FleetBook) : Prop where
  leases : book'.leases = book.leases
  halt : book'.halt = book.halt
  leaving : book'.leaving = book.leaving
  holders : ∀ client, book'.holds_goal client = book.holds_goal client

section
variable {book book' book'' : FleetBook}

theorem SameRights.refl (book : FleetBook) : SameRights book book :=
  ⟨rfl, rfl, rfl, fun _ => rfl⟩

theorem SameRights.trans (h : SameRights book book') (h' : SameRights book' book'') :
    SameRights book book'' where
  leases := h'.leases.trans h.leases
  halt := h'.halt.trans h.halt
  leaving := h'.leaving.trans h.leaving
  holders client := (h'.holders client).trans (h.holders client)

variable (book)

theorem note_same (kind : ChangeKind) (robot : String) :
    SameRights book (book.note kind robot) := by
  rw [note]
  dsimp only
  split
  · exact ⟨rfl, rfl, rfl, fun _ => rfl⟩
  · exact ⟨rfl, rfl, rfl, fun _ => rfl⟩

theorem sync_software_same (robots : List RobotProcesses) :
    SameRights book (book.sync_software robots) := by
  rw [sync_software]
  refine .trans ?_
    (rel_foldl .refl .trans (fun book (change : ChangeKind × String) =>
      note_same book change.1 change.2) _ _)
  exact ⟨rfl, rfl, rfl, fun _ => rfl⟩

theorem set_launch_same (launch : FleetListing) (robots : List RobotProcesses) :
    SameRights book (book.set_launch launch robots) := by
  rw [set_launch]
  refine .trans ?_ (sync_software_same ..)
  exact ⟨rfl, rfl, rfl, fun _ => rfl⟩

theorem note_process_same (process : Process) (runs : Bool)
    (robots : List RobotProcesses) : SameRights book (book.note_process process runs robots) := by
  rw [note_process]
  refine .trans ?_ (sync_software_same ..)
  exact ⟨rfl, rfl, rfl, fun _ => rfl⟩

theorem tell_holder_from_same (client : ClientRef) (event : LeaseEventKind)
    (robot : String) (giver : Option ClientRef) (cause : String) :
    SameRights book (book.tell_holder_from client event robot giver cause) := by
  rw [tell_holder_from]
  split
  · exact .refl book
  rename_i holder hget
  refine ⟨rfl, rfl, rfl, fun c => ?_⟩
  -- the client has a goal already, and keeps it
  have hin : book.holders.contains client = true := by rw [KeyMap.contains, hget]; rfl
  rw [holds_goal, holds_goal]
  dsimp only
  rw [KeyMap.contains_insert]
  by_cases hc : c = client
  · simp [hc, hin]
  · simp [hc]

theorem end_offer_of_same (robot : String) (lease : Lease) (cause : String) :
    SameRights book (book.end_offer_of robot lease cause) := by
  rw [end_offer_of]
  split
  · exact .refl book
  · exact (tell_holder_from_same ..).trans (note_same ..)

end

/-! ## What a call does to the lease of one robot -/

/-- The lease of the robot is `lease` or ended, and the other rights stay. -/
structure LeaseSet (book book' : FleetBook) (robot : String) (lease : Option Lease) : Prop where
  leases : ∀ r, book'.leases.get r = if r = robot then lease else book.leases.get r
  halt : book'.halt = book.halt
  leaving : book'.leaving = book.leaving
  holders : ∀ client, book'.holds_goal client = book.holds_goal client

section
variable {book book' book'' : FleetBook} {robot : String} {x y : Option Lease}

variable {lease : Lease}

theorem LeaseSet.insert (hleases : book'.leases = book.leases.insert robot lease)
    (hhalt : book'.halt = book.halt) (hleaving : book'.leaving = book.leaving)
    (hholders : book'.holders = book.holders) : LeaseSet book book' robot (some lease) where
  leases r := by rw [hleases, KeyMap.get_insert]
  halt := hhalt
  leaving := hleaving
  holders client := by rw [holds_goal, hholders, holds_goal]

theorem LeaseSet.remove (hleases : book'.leases = book.leases.remove robot)
    (hhalt : book'.halt = book.halt) (hleaving : book'.leaving = book.leaving)
    (hholders : book'.holders = book.holders) : LeaseSet book book' robot none where
  leases r := by rw [hleases, KeyMap.get_remove]
  halt := hhalt
  leaving := hleaving
  holders client := by rw [holds_goal, hholders, holds_goal]

theorem LeaseSet.same (h : LeaseSet book book' robot x) (hsame : SameRights book' book'') :
    LeaseSet book book'' robot x where
  leases r := by rw [hsame.leases, h.leases]
  halt := hsame.halt.trans h.halt
  leaving := hsame.leaving.trans h.leaving
  holders client := (hsame.holders client).trans (h.holders client)

theorem SameRights.set (hsame : SameRights book book') (h : LeaseSet book' book'' robot x) :
    LeaseSet book book'' robot x where
  leases r := by rw [h.leases, hsame.leases]
  halt := h.halt.trans hsame.halt
  leaving := h.leaving.trans hsame.leaving
  holders client := (h.holders client).trans (hsame.holders client)

theorem LeaseSet.trans (h : LeaseSet book book' robot x) (h' : LeaseSet book' book'' robot y) :
    LeaseSet book book'' robot y where
  leases r := by
    rw [h'.leases, h.leases]
    split_ifs <;> rfl
  halt := h'.halt.trans h.halt
  leaving := h'.leaving.trans h.leaving
  holders client := (h'.holders client).trans (h.holders client)

theorem LeaseSet.refl (h : book.leases.get robot = x) : LeaseSet book book robot x where
  leases r := by
    split_ifs with hr
    · rw [hr, h]
    · rfl
  halt := rfl
  leaving := rfl
  holders _ := rfl

variable (book robot lease)

theorem start_lease_set (client : ClientRef) (robot name : String) :
    LeaseSet book (book.start_lease client robot name) robot (some { holder := client, name }) := by
  rw [start_lease]
  refine .same ?_ (note_same ..)
  exact .insert rfl rfl rfl rfl

theorem hand_over_set (client : ClientRef) (robot name : String) (lease : Lease) :
    LeaseSet book (book.hand_over client robot name lease) robot
      (some { holder := client, name,
              received_from := some { client := some lease.holder, name := lease.name } }) := by
  rw [hand_over]
  refine .same (.same (.same ?_ (tell_holder_from_same ..)) (note_same ..)) (note_same ..)
  exact .insert rfl rfl rfl rfl

theorem set_open_set (state : Bool) (kind : ChangeKind) :
    LeaseSet book (book.set_open robot lease state kind) robot
      (some { lease with «open» := state }) := by
  rw [set_open]
  refine .same ?_ (note_same ..)
  exact .insert rfl rfl rfl rfl

theorem lose_giver_set : LeaseSet book (book.lose_giver robot lease) robot (some { lease with
          received_from := lease.received_from.map fun giver => { giver with client := none } }) := by
  rw [lose_giver]
  refine .same ?_ (note_same ..)
  exact .insert rfl rfl rfl rfl

variable {book robot lease}

theorem end_offer_to_set (h : book.leases.get robot = some lease) (client : ClientRef) :
    LeaseSet book (book.end_offer_to client robot lease) robot
    (some (without_offer_to client lease)) := by
  rw [end_offer_to, without_offer_to]
  split_ifs
  · refine .same ?_ (note_same ..)
    exact .insert rfl rfl rfl rfl
  · exact .refl h

theorem offer_of_set (h : book.leases.get robot = some lease) (client receiver : ClientRef) :
    LeaseSet book (offer_of client receiver book robot) robot
    (some { lease with offer := some receiver }) := by
  rw [offer_of, h]
  dsimp only
  split_ifs with hoffer
  · refine .refl (h.trans ?_)
    rw [← hoffer]
  · refine .same (.same ?_ (tell_holder_from_same ..)) (note_same ..)
    have hended := end_offer_of_same book robot lease
      (client.display ++ " offered the lease to " ++ receiver.display)
    exact hended.set (.insert rfl rfl rfl rfl)

/-- The lease ends, or its giver, whose goal runs, holds it again. -/
theorem give_back_or_end_set (h : book.leases.get robot = some lease) (cause : String) :
    ∃ x, LeaseSet book (book.give_back_or_end robot cause) robot x ∧
      ∀ back, x = some back → book.holds_goal back.holder = true ∧ back.received_from = none ∧
        back.offer = none := by
  rw [give_back_or_end, h]
  dsimp only
  -- the lease left the book, and its offer ended
  have hended : LeaseSet book
      ({ book with
        leases := book.leases.remove robot
        endings := book.endings.insert ⟨lease.holder, robot⟩ ("its lease ended: " ++ cause)
      }.end_offer_of robot lease cause) robot none := by
    refine .same ?_ (end_offer_of_same ..)
    exact .remove rfl rfl rfl rfl
  generalize end_offer_of _ robot lease cause = ended at hended ⊢
  split
  · refine ⟨none, ?_, nofun⟩
    exact (hended.same (tell_holder_from_same ..)).same (note_same ..)
  rename_i giver name hback
  refine ⟨some { holder := giver, name }, ?_, ?_⟩
  · refine .same (.same ?_ (tell_holder_from_same ..)) (note_same ..)
    have htold := hended.same
      (tell_holder_from_same ended lease.holder .LeaseEnd robot none cause)
    exact htold.trans (.insert rfl rfl rfl rfl)
  · rintro back ⟨⟩
    obtain ⟨_, _, hg⟩ := bind_eq_some_iff.mp hback
    obtain ⟨_, hc, heq⟩ := map_eq_some_iff.mp hg
    obtain ⟨rfl, rfl⟩ := Prod.mk.inj heq
    have hruns := (filter_eq_some_iff.mp hc).2
    exact ⟨(hended.holders _).symm.trans hruns, rfl, rfl⟩

end

/-! ## The rules of the leases -/

/-- What holds of each lease. `runs` are the clients whose goal runs. -/
structure LeaseRules (runs : ClientRef → Bool) (lease : Lease) : Prop where
  holder_runs : runs lease.holder = true
  giver_runs : ∀ giver client, lease.received_from = some giver → giver.client = some client →
    runs client = true ∧ client ≠ lease.holder
  offer_is_own : ∀ receiver, lease.offer = some receiver →
    lease.received_from = none ∧ receiver ≠ lease.holder

/-- Every lease keeps the rules. -/
def LeasesRuled (book : FleetBook) : Prop :=
  ∀ robot lease, book.leases.get robot = some lease → LeaseRules book.holds_goal lease

/-- While the stack is halted there is no lease. -/
def HaltRuled (book : FleetBook) : Prop :=
  book.halt ≠ none → ∀ robot, book.leases.get robot = none

variable {receiver : ClientRef} {act : FleetCall}

section
variable {runs runs' : ClientRef → Bool} {lease : Lease} {book book' : FleetBook}
  {client : ClientRef} {robot : String} {x : Option Lease}

theorem LeaseRules.mono (h : LeaseRules runs lease) (hsub : ∀ c, runs c = true → runs' c = true) :
    LeaseRules runs' lease where
  holder_runs := hsub _ h.holder_runs
  giver_runs giver client hg hc :=
    ⟨hsub _ (h.giver_runs giver client hg hc).1, (h.giver_runs giver client hg hc).2⟩
  offer_is_own := h.offer_is_own

theorem LeaseRules.of_own (hruns : runs lease.holder = true) (hown : lease.received_from = none)
    (hoffer : lease.offer = none) : LeaseRules runs lease where
  holder_runs := hruns
  giver_runs giver client hg := absurd hg (by rw [hown]; exact nofun)
  offer_is_own receiver hr := absurd hr (by rw [hoffer]; exact nofun)

theorem LeaseRules.without_offer_to (h : LeaseRules runs lease) (client : ClientRef) :
    LeaseRules runs (without_offer_to client lease) := by
  rw [FleetBook.without_offer_to]
  split_ifs
  · exact ⟨h.holder_runs, h.giver_runs, nofun⟩
  · exact h

theorem LeaseRules.gone (h : LeaseRules runs lease) (hholder : lease.holder ≠ client)
    (hgiver : lease.received_from.bind Giver.client ≠ some client) :
    LeaseRules (fun c => c ≠ client && runs c) lease where
  holder_runs := by simp [hholder, h.holder_runs]
  giver_runs giver c hg hc := by
    obtain ⟨hruns, hne⟩ := h.giver_runs giver c hg hc
    refine ⟨?_, hne⟩
    have hother : c ≠ client := by
      rintro rfl
      exact hgiver (by rw [hg, bind_some, hc])
    simp [hother, hruns]
  offer_is_own := h.offer_is_own

theorem LeasesRuled.same (h : LeasesRuled book) (hsame : SameRights book book') :
    LeasesRuled book' := by
  intro robot lease hget
  rw [hsame.leases] at hget
  exact (h robot lease hget).mono fun c hc => (hsame.holders c).trans hc

theorem HaltRuled.same (h : HaltRuled book) (hsame : SameRights book book') : HaltRuled book' := by
  intro hhalt robot
  rw [hsame.leases]
  exact h (hsame.halt ▸ hhalt) robot

theorem LeasesRuled.set (h : LeasesRuled book) (hset : LeaseSet book book' robot x)
    (hx : ∀ lease, x = some lease → LeaseRules book.holds_goal lease) : LeasesRuled book' := by
  intro r l hl
  rw [hset.leases r] at hl
  refine LeaseRules.mono ?_ fun c hc => (hset.holders c).trans hc
  split_ifs at hl with hr
  · exact hx l hl
  · exact h r l hl

theorem HaltRuled.set (h : HaltRuled book) (hset : LeaseSet book book' robot x)
    (hx : book.halt ≠ none → x = none) : HaltRuled book' := by
  intro hhalt r
  rw [hset.halt] at hhalt
  rw [hset.leases r]
  split_ifs
  · exact hx hhalt
  · exact h hhalt r

/-- The change keeps the rules and the leaving robots. -/
structure Keeps (book book' : FleetBook) : Prop where
  leases_ruled : LeasesRuled book → LeasesRuled book'
  halt_ruled : HaltRuled book → HaltRuled book'
  leaving : book'.leaving = book.leaving

theorem Keeps.refl (book : FleetBook) : Keeps book book := ⟨id, id, rfl⟩

theorem Keeps.trans {book'' : FleetBook} (h : Keeps book book') (h' : Keeps book' book'') :
    Keeps book book'' where
  leases_ruled := h'.leases_ruled ∘ h.leases_ruled
  halt_ruled := h'.halt_ruled ∘ h.halt_ruled
  leaving := h'.leaving.trans h.leaving

theorem Keeps.of_same (hsame : SameRights book book') : Keeps book book' where
  leases_ruled h := h.same hsame
  halt_ruled h := h.same hsame
  leaving := hsame.leaving

theorem Keeps.of_set (hset : LeaseSet book book' robot x)
    (hx : LeasesRuled book → ∀ lease, x = some lease → LeaseRules book.holds_goal lease)
    (hhalt : HaltRuled book → book.halt ≠ none → x = none) : Keeps book book' where
  leases_ruled h := h.set hset (hx h)
  halt_ruled h := h.set hset (hhalt h)
  leaving := hset.leaving

theorem HaltRuled.elim {P : Prop} (h : HaltRuled book) (hget : book.leases.get robot = some lease)
    (hhalt : book.halt ≠ none) : P := by
  rw [h hhalt robot] at hget
  cases hget

theorem give_back_or_end_keeps (hget : book.leases.get robot = some lease) (cause : String) :
    Keeps book (book.give_back_or_end robot cause) := by
  obtain ⟨x, hset, hx⟩ := give_back_or_end_set hget cause
  refine .of_set hset (fun _ l hl => ?_) fun h hhalt => h.elim hget hhalt
  obtain ⟨hruns, hown, hoffer⟩ := hx l hl
  exact .of_own hruns hown hoffer

/-! ## The end of a `lease` goal -/

theorem end_holding_of_set (client : ClientRef) (gone : String)
    (hget : book.leases.get robot = some lease) :
    ∃ x, LeaseSet book (end_holding_of client gone book robot) robot x ∧
      ∀ runs, (∀ c, book.holds_goal c = (c ≠ client && runs c)) → LeaseRules runs lease →
        ∀ l, x = some l → LeaseRules book.holds_goal l := by
  have hoffer := end_offer_to_set hget client
  have hwithout : ∀ runs, LeaseRules runs lease →
      LeaseRules runs (without_offer_to client lease) := fun _ h => h.without_offer_to client
  rw [end_holding_of, hget]
  dsimp only
  generalize book.end_offer_to client robot lease = book' at hoffer ⊢
  generalize without_offer_to client lease = lease' at hoffer hwithout ⊢
  have hget' : book'.leases.get robot = some lease' := by rw [hoffer.leases, if_pos rfl]
  split_ifs with hholder hgiver
  · obtain ⟨x, hset, hx⟩ := give_back_or_end_set hget' gone
    refine ⟨x, hoffer.trans hset, fun runs hruns hrules l hl => ?_⟩
    obtain ⟨hback, hown, hno⟩ := hx l hl
    exact .of_own ((hoffer.holders _).symm.trans hback) hown hno
  · refine ⟨_, hoffer.trans (lose_giver_set book' robot lease'), ?_⟩
    rintro runs hruns hrules l ⟨⟩
    have hrules' := hwithout runs hrules
    obtain ⟨giver, hg, hc⟩ := bind_eq_some_iff.mp hgiver
    refine ⟨?_, ?_, fun receiver hr => ?_⟩
    · rw [hruns]
      simp [hholder, hrules'.holder_runs]
    · intro giver' c hg' hc'
      obtain ⟨g, _, rfl⟩ := map_eq_some_iff.mp hg'
      cases hc'
    · obtain ⟨hown, hne⟩ := hrules'.offer_is_own receiver hr
      rw [hown] at hg
      cases hg
  · refine ⟨_, hoffer, ?_⟩
    rintro runs hruns hrules l ⟨⟩
    rw [show book.holds_goal = fun c => c ≠ client && runs c from funext hruns]
    exact (hwithout runs hrules).gone hholder hgiver

/-- The loop of `end_holding`: of the robots left, the client's goal still counts. -/
structure EndingGoal (client : ClientRef) (runs : ClientRef → Bool) (robots : List String)
    (book : FleetBook) : Prop where
  holders : ∀ c, book.holds_goal c = (c ≠ client && runs c)
  left : ∀ robot ∈ robots, ∀ lease, book.leases.get robot = some lease → LeaseRules runs lease
  done : ∀ robot ∉ robots, ∀ lease, book.leases.get robot = some lease →
    LeaseRules book.holds_goal lease

variable {robots : List String}

theorem EndingGoal.turn (h : EndingGoal client runs (robot :: robots) book)
    (gone : String) : EndingGoal client runs robots (end_holding_of client gone book robot) := by
  cases hget : book.leases.get robot with
  | none =>
    have hsame : end_holding_of client gone book robot = book := by rw [end_holding_of, hget]
    rw [hsame]
    refine ⟨h.holders, fun r hr => h.left r (mem_cons_of_mem _ hr), fun r hr l hl => ?_⟩
    by_cases heq : r = robot
    · rw [heq, hget] at hl
      cases hl
    · exact h.done r (by simp [heq, hr]) l hl
  | some lease =>
    have hrules := h.left robot mem_cons_self lease hget
    obtain ⟨x, hset, hkeeps⟩ := end_holding_of_set client gone hget
    have hx := hkeeps runs h.holders hrules
    have hmono : ∀ c, book.holds_goal c = true →
        (end_holding_of client gone book robot).holds_goal c = true :=
      fun c hc => (hset.holders c).trans hc
    have hweak : ∀ c, book.holds_goal c = true → runs c = true := by
      intro c hc
      rw [h.holders c, Bool.and_eq_true] at hc
      exact hc.2
    refine ⟨fun c => (hset.holders c).trans (h.holders c), fun r hr l hl => ?_,
      fun r hr l hl => ?_⟩
    · rw [hset.leases r] at hl
      split_ifs at hl with heq
      · exact (hx l hl).mono hweak
      · exact h.left r (mem_cons_of_mem _ hr) l hl
    · rw [hset.leases r] at hl
      split_ifs at hl with heq
      · exact (hx l hl).mono hmono
      · exact (h.done r (by simp [heq, hr]) l hl).mono hmono

theorem EndingGoal.loop (gone : String) {book : FleetBook}
    (h : EndingGoal client runs robots book) :
    EndingGoal client runs [] (robots.foldl (end_holding_of client gone) book) := by
  induction robots generalizing book with
  | nil => exact h
  | cons robot robots ih => exact ih (h.turn gone)

variable (book client)

theorem end_holding_of_rest (gone : String) (book : FleetBook) (robot : String) :
    (HaltRuled book → HaltRuled (end_holding_of client gone book robot)) ∧
      (end_holding_of client gone book robot).leaving = book.leaving := by
  cases hget : book.leases.get robot with
  | none =>
    rw [end_holding_of, hget]
    exact ⟨id, rfl⟩
  | some lease =>
    obtain ⟨x, hset, -⟩ := end_holding_of_set client gone hget
    exact ⟨fun h => h.set hset fun hhalt => h.elim hget hhalt, hset.leaving⟩

theorem end_holding_loop_rest (gone : String) (robots : List String) (book : FleetBook) :
    (HaltRuled book → HaltRuled (robots.foldl (end_holding_of client gone) book)) ∧
      (robots.foldl (end_holding_of client gone) book).leaving = book.leaving :=
  rel_foldl (R := fun book book' => (HaltRuled book → HaltRuled book') ∧ book'.leaving = book.leaving)
    (fun _ => ⟨id, rfl⟩) (fun h h' => ⟨h'.1 ∘ h.1, h'.2.trans h.2⟩) (end_holding_of_rest client gone) ..

theorem end_holding_keeps (generation cause : String) :
    Keeps book (book.end_holding client generation cause) := by
  rw [end_holding]
  split
  · exact .refl book
  split_ifs
  · exact .refl book
  dsimp only
  obtain ⟨hhalt, hleaving⟩ := end_holding_loop_rest client
    ("its holder " ++ client.display ++ " is gone: " ++ cause) book.leases.keys
    { book with holders := book.holders.remove client }
  refine ⟨fun h => ?_, hhalt, hleaving⟩
  -- every lease is left, and keeps the rules of the goals that ran
  have hstart : EndingGoal client book.holds_goal book.leases.keys
      { book with holders := book.holders.remove client } := by
    refine ⟨fun c => KeyMap.contains_remove book.holders client c,
      fun r _ l hl => h r l hl, fun r hr l hl => ?_⟩
    have hnone : book.leases.get r = none := by
      by_contra hsome
      exact hr (KeyMap.mem_keys_iff.mpr hsome)
    exact absurd (hl : book.leases.get r = some l) (by rw [hnone]; exact nofun)
  exact fun r l hl => (hstart.loop _).done r (by simp) l hl

theorem start_goal_keeps (generation : String) :
    Keeps book (book.start_goal client generation) := by
  refine ⟨fun h r l hl => (h r l hl).mono fun c hc => ?_, id, rfl⟩
  rw [start_goal, holds_goal]
  dsimp only
  rw [KeyMap.contains_insert]
  simp [show book.holders.contains c = true from hc]

theorem begin_holding_keeps (generation : String) :
    Keeps book (book.begin_holding client generation).1 := by
  rw [begin_holding]
  split
  · exact start_goal_keeps ..
  · split_ifs
    · exact .refl book
    · exact (end_holding_keeps ..).trans (start_goal_keeps ..)

/-! ## The calls of a lease -/

variable {book client}

theorem holds_goal_of_required (h : book.holder_required client = .ok ()) :
    book.holds_goal client = true := by
  rw [holder_required] at h
  split_ifs at h with hruns
  exact hruns

theorem halt_of_not_halted {what : String} (h : book.not_halted what = .ok ()) :
    book.halt = none := by
  rw [not_halted] at h
  split at h
  · assumption
  · cases h

theorem get_of_held (h : book.held client robot = .ok lease) :
    book.leases.get robot = some lease ∧ lease.holder = client := by
  rw [held] at h
  split at h
  · rename_i lease' hget
    split_ifs at h with hholder
    cases h
    exact ⟨hget, hholder⟩
  · cases h

theorem start_lease_keeps (hruns : book.holds_goal client = true) (hhalt : book.halt = none)
    (robot name : String) : Keeps book (book.start_lease client robot name) := by
  refine .of_set (start_lease_set ..) ?_ fun _ h => absurd hhalt h
  rintro _ l ⟨⟩
  exact .of_own hruns rfl rfl

variable (book client robot)

theorem take_keeps (robot name : String) : Keeps book (book.take client robot name).1 := by
  rw [take]
  split
  · exact .refl book
  rename_i hreq
  have hruns := holds_goal_of_required hreq
  split
  · exact .refl book
  rename_i hok
  have hhalt := halt_of_not_halted hok
  split_ifs with hheld hleaving
  · exact .refl book
  · exact .refl book
  split
  · exact start_lease_keeps hruns hhalt ..
  rename_i lease hget
  split_ifs with hoffer
  · exact .refl book
  refine .of_set (hand_over_set ..) ?_ fun _ h => absurd hhalt h
  rintro h l ⟨⟩
  -- the giver is the holder of the lease, and not the client
  have hne : lease.holder ≠ client := by
    rw [hget] at hheld
    simpa using hheld
  refine ⟨hruns, ?_, by simp⟩
  rintro giver c ⟨⟩ ⟨⟩
  exact ⟨(h robot lease hget).holder_runs, hne⟩

theorem release_keeps : Keeps book (book.release client robot).1 := by
  rw [release]
  split
  · exact .refl book
  · rename_i lease hheld
    exact give_back_or_end_keeps (get_of_held hheld).1 _

variable {book robot}

theorem set_open_keeps (hget : book.leases.get robot = some lease) (state : Bool)
    (kind : ChangeKind) : Keeps book (book.set_open robot lease state kind) := by
  refine .of_set (set_open_set ..) ?_ fun h hhalt => h.elim hget hhalt
  rintro h l ⟨⟩
  have hrules := h robot lease hget
  exact ⟨hrules.holder_runs, hrules.giver_runs, hrules.offer_is_own⟩

variable (book robot)

theorem open_keeps : Keeps book (book.open client robot).1 := by
  rw [FleetBook.open]
  split
  · exact .refl book
  split
  · exact .refl book
  · rename_i lease hheld
    split_ifs
    · exact .refl book
    · exact set_open_keeps (get_of_held hheld).1 ..

theorem close_keeps : Keeps book (book.close client robot).1 := by
  rw [close]
  split
  · exact .refl book
  · rename_i lease hheld
    split_ifs
    · exact .refl book
    · exact set_open_keeps (get_of_held hheld).1 ..

/-! ## Offers -/

variable {book client robot}

/-- The client holds the robots, from nobody else. -/
def OwnLeases (book : FleetBook) (client : ClientRef) (robots : List String) : Prop :=
  ∀ robot ∈ robots, ∃ lease, book.leases.get robot = some lease ∧ lease.holder = client ∧
    lease.received_from = none

theorem ownLeases_of_check_offer
    (h : book.check_offer client robots = .ok ()) : OwnLeases book client robots := by
  induction robots with
  | nil => exact nofun
  | cons robot robots ih =>
    rw [check_offer] at h
    split at h
    · cases h
    rename_i lease hheld
    obtain ⟨hget, hholder⟩ := get_of_held hheld
    split_ifs at h with hown
    intro r hr
    rcases mem_cons.mp hr with rfl | hr
    · exact ⟨lease, hget, hholder, not_isSome_iff_eq_none.mp hown⟩
    · exact ih h r hr

theorem offer_of_keeps (h : OwnLeases book client (robot :: robots)) (hne : receiver ≠ client) :
    Keeps book (offer_of client receiver book robot) ∧
      OwnLeases (offer_of client receiver book robot) client robots := by
  obtain ⟨lease, hget, hholder, hown⟩ := h robot mem_cons_self
  have hset := offer_of_set hget client receiver
  refine ⟨.of_set hset ?_ fun h hhalt => h.elim hget hhalt, fun r hr => ?_⟩
  · rintro hruled l ⟨⟩
    have hrules := hruled robot lease hget
    refine ⟨hrules.holder_runs, hrules.giver_runs, ?_⟩
    rintro c ⟨⟩
    exact ⟨hown, hholder ▸ hne⟩
  · rw [hset.leases r]
    split_ifs
    · exact ⟨_, rfl, hholder, hown⟩
    · exact h r (mem_cons_of_mem _ hr)

theorem offer_loop_keeps (hne : receiver ≠ client)
    {book : FleetBook} (h : OwnLeases book client robots) :
    Keeps book (robots.foldl (offer_of client receiver) book) := by
  induction robots generalizing book with
  | nil => exact .refl book
  | cons robot robots ih =>
    obtain ⟨hkeeps, hown⟩ := offer_of_keeps h hne
    exact hkeeps.trans (ih hown)

variable (book client)

theorem offer_keeps (robots : List String)
    (receiver : ClientRef) : Keeps book (book.offer client robots receiver).1 := by
  rw [offer]
  split
  · exact .refl book
  split
  · exact .refl book
  split_ifs with hempty hself
  · exact .refl book
  · exact .refl book
  · split
    · exact .refl book
    · rename_i hcheck
      exact offer_loop_keeps hself (ownLeases_of_check_offer hcheck)

/-! ## The halt -/

theorem end_lease_of_same (cause : String) (book : FleetBook) (entry : String × Lease) :
    SameRights book (end_lease_of cause book entry) := by
  rw [end_lease_of]
  refine .trans (.trans (.trans ?_ (end_offer_of_same ..)) (tell_holder_from_same ..))
    (note_same ..)
  exact ⟨rfl, rfl, rfl, fun _ => rfl⟩

theorem end_every_lease_same (cause : String) :
    SameRights { book with leases := .empty } (book.end_every_lease cause) :=
  rel_foldl .refl .trans (end_lease_of_same cause) _ _

theorem end_every_lease_keeps (cause : String) : Keeps book (book.end_every_lease cause) := by
  refine .trans ?_ (.of_same (end_every_lease_same book cause))
  exact ⟨fun _ => nofun, fun _ _ _ => rfl, rfl⟩

theorem set_halt_keeps (halted_by : String) : Keeps book (book.set_halt halted_by).1 := by
  rw [set_halt]
  split
  · exact .refl book
  dsimp only
  have hnote := note_same { book with halt := some halted_by } .HaltStart ""
  have hend := end_every_lease_same ({ book with halt := some halted_by }.note .HaltStart "")
    ("the stack is halted (by " ++ halted_by ++ ")")
  refine ⟨fun _ r l hl => ?_, fun _ _ r => ?_, hend.leaving.trans hnote.leaving⟩
  · rw [hend.leases] at hl
    cases hl
  · rw [hend.leases]
    rfl

theorem clear_halt_keeps : Keeps book book.clear_halt.1 := by
  rw [clear_halt]
  split
  · exact .refl book
  · refine .trans ?_ (.of_same (note_same ..))
    exact ⟨id, fun _ h => absurd rfl h, rfl⟩

theorem lease_joined_keeps (client : Option ClientRef) (robot : String) :
    Keeps book (book.lease_joined client robot) := by
  rw [lease_joined]
  split
  · exact .refl book
  rename_i c hclient
  split_ifs with hno
  · exact .refl book
  · have hhalt : book.halt = none := by
      rw [Bool.or_eq_true, not_or] at hno
      exact not_isSome_iff_eq_none.mp hno.1
    exact start_lease_keeps (filter_eq_some_iff.mp hclient).2 hhalt ..

/-! ## Every call -/

def FleetCall.isRemoval : FleetCall → Bool
  | .BeginRemoval .. => true
  | .EndRemoval _ => true
  | _ => false

theorem call_keeps (h : act.isRemoval = false) : Keeps book (book.call act).1 := by
  cases act with
  | BeginHolding client generation => exact begin_holding_keeps ..
  | EndHolding client generation cause => exact end_holding_keeps ..
  | Take client robot name => exact take_keeps ..
  | Release client robot => exact release_keeps ..
  | Offer client robots receiver => exact offer_keeps ..
  | Open client robot => exact open_keeps ..
  | Close client robot => exact close_keeps ..
  | Halt halted_by => exact set_halt_keeps ..
  | ClearHalt => exact clear_halt_keeps book
  | EndEveryLease cause => exact end_every_lease_keeps ..
  | LeaseJoined client robot => exact lease_joined_keeps ..
  | BeginRemoval client robot => cases h
  | EndRemoval robot => cases h
  | NoteProcess process runs robots => exact .of_same (note_process_same ..)
  | SetLaunch launch robots => exact .of_same (set_launch_same ..)
  | Follow | Unfollow index => exact ⟨id, id, rfl⟩
  | Note kind robot => exact .of_same (note_same ..)

theorem begin_removal_rules (client : Option ClientRef) (robot : String) :
    (LeasesRuled book → LeasesRuled (book.begin_removal client robot).1) ∧
      (HaltRuled book → HaltRuled (book.begin_removal client robot).1) := by
  rw [begin_removal]
  split
  · exact ⟨id, id⟩
  · exact ⟨id, id⟩

theorem call_rules (act : FleetCall) : (LeasesRuled book → LeasesRuled (book.call act).1) ∧
      (HaltRuled book → HaltRuled (book.call act).1) := by
  cases hact : act.isRemoval with
  | false => exact ⟨(call_keeps book hact).leases_ruled, (call_keeps book hact).halt_ruled⟩
  | true =>
    cases act with
    | BeginRemoval client robot => exact begin_removal_rules book client robot
    | EndRemoval robot => exact ⟨id, id⟩
    | _ => cases hact

variable {book client}

theorem Built.leasesRuled (h : Built book) : LeasesRuled book := by
  induction h with
  | new version core_node => exact nofun
  | restore_halt halted_by _ ih => exact ih
  | call act _ ih => exact (call_rules _ act).1 ih

theorem book_of_refused {refusal : Refusal}
    (h : (book.call act).2 = .error refusal) : (book.call act).1 = book := by
  cases act with
  | BeginHolding client generation =>
    simp only [call, begin_holding] at h ⊢
    grind
  | Take client robot name =>
    simp only [call, take] at h ⊢
    grind
  | Release client robot =>
    simp only [call, release] at h ⊢
    grind
  | Offer client robots receiver =>
    simp only [call, offer] at h ⊢
    grind
  | Open client robot =>
    simp only [call, FleetBook.open] at h ⊢
    grind
  | Close client robot =>
    simp only [call, close] at h ⊢
    grind
  | BeginRemoval client robot =>
    simp only [call, begin_removal] at h ⊢
    grind
  | _ => cases h

/-- In every book, each lease is of a holder whose goal runs, from another client whose goal
runs, and neither offered to its holder nor offered on. A halted stack has no lease, and a
refused call changes nothing. -/
theorem the_book_keeps_the_rules_of_its_leases {start book : FleetBook} (hbuilt : Built start)
    (hstart : start.halt = none ∨ start.leases = .empty) {acts : List FleetCall}
    (hrun : run step start acts = some book) : (∀ robot lease, book.leases.get robot = some lease →
      book.holders.get lease.holder ≠ none ∧
      (∀ giver client, lease.received_from = some giver → giver.client = some client →
        book.holders.get client ≠ none ∧ client ≠ lease.holder) ∧
      (∀ receiver, lease.offer = some receiver →
        lease.received_from = none ∧ receiver ≠ lease.holder)) ∧
    (book.halt ≠ none → ∀ robot, book.leases.get robot = none) ∧
    ∀ act refusal, (book.call act).2 = .error refusal → (book.call act).1 = book := by
  have hrules : LeasesRuled book ∧ HaltRuled book := by
    refine run_keeps (I := fun book => LeasesRuled book ∧ HaltRuled book) ?_ ?_ hrun
    · rintro book act book' ⟨hleases, hhalt⟩ ⟨⟩
      exact ⟨(call_rules book act).1 hleases, (call_rules book act).2 hhalt⟩
    · refine ⟨hbuilt.leasesRuled, fun hhalt robot => ?_⟩
      have hempty := hstart.resolve_left hhalt
      rw [hempty, KeyMap.get_empty]
  have hgoal : ∀ client, book.holds_goal client = true → book.holders.get client ≠ none := by
    intro client h
    exact isSome_iff_ne_none.mp h
  refine ⟨fun robot lease hget => ?_, hrules.2, fun act refusal => book_of_refused⟩
  have hlease := hrules.1 robot lease hget
  refine ⟨hgoal _ hlease.holder_runs, fun giver client hg hc => ?_, hlease.offer_is_own⟩
  obtain ⟨hruns, hne⟩ := hlease.giver_runs giver client hg hc
  exact ⟨hgoal _ hruns, hne⟩

def handOver (pilot planner : ClientRef) : List FleetCall :=
  [.BeginHolding pilot "one", .BeginHolding planner "one", .Take pilot "arm" "teleop",
    .Offer pilot ["arm"] planner, .Take planner "arm" "plan"]

theorem the_giver_of_an_arm_that_was_handed_over :
    ∃ book, run step (new "v1" "cn-desk") (handOver ⟨"cn-desk", "pilot"⟩ ⟨"cn-desk", "planner"⟩) =
        some book ∧
      (book.leases.get "arm").map Lease.received_from =
        some (some { client := some ⟨"cn-desk", "pilot"⟩, name := "teleop" }) ∧
      book.holders.get ⟨"cn-desk", "pilot"⟩ ≠ none := by
  have hget : (run step (new "v1" "cn-desk")
      (handOver ⟨"cn-desk", "pilot"⟩ ⟨"cn-desk", "planner"⟩)).map (·.leases.get "arm") =
        some (some
          { holder := ⟨"cn-desk", "planner"⟩
            name := "plan"
            received_from := some { client := some ⟨"cn-desk", "pilot"⟩, name := "teleop" } }) := by
    decide +kernel
  obtain ⟨book, hrun, hget⟩ := map_eq_some_iff.mp hget
  have hrules := (the_book_keeps_the_rules_of_its_leases (.new "v1" "cn-desk") (.inl rfl) hrun).1
    "arm" _ hget
  exact ⟨book, hrun, by rw [hget]; rfl, (hrules.2.1 _ _ rfl rfl).1⟩

/-! ## The halt lasts -/

theorem end_holding_halt (hkeys : book.leases.keys = []) (client : ClientRef)
    (generation cause : String) : (book.end_holding client generation cause).halt = book.halt := by
  rw [end_holding]
  split
  · rfl
  · split_ifs
    · rfl
    · dsimp only
      rw [hkeys]
      rfl

/-- With no robot leased, only the clear gets to change the halt. -/
theorem call_halted {act : FleetCall} (hact : act ≠ .ClearHalt) (hruled : HaltRuled book)
    (hhalt : book.halt ≠ none) : (book.call act).1.halt = book.halt := by
  have hnone := hruled hhalt
  have hkeys : book.leases.keys = [] :=
    eq_nil_iff_forall_not_mem.mpr fun robot h => KeyMap.mem_keys_iff.mp h (hnone robot)
  obtain ⟨halted_by, hhalt⟩ := ne_none_iff_exists'.mp hhalt
  cases act with
  | BeginHolding client generation =>
    rw [call, begin_holding]
    split
    · rfl
    · split_ifs
      · rfl
      · exact end_holding_halt hkeys ..
  | EndHolding client generation cause => exact end_holding_halt hkeys ..
  | Take | Offer | LeaseJoined =>
    simp only [call, take, offer, lease_joined, not_halted, hhalt]
    split <;> simp [hhalt]
  | Open => simp [call, «open», not_halted, hhalt]
  | Release | Close => simp [call, release, close, held, hnone]
  | Halt => simp [call, set_halt, hhalt]
  | ClearHalt => exact absurd rfl hact
  | EndEveryLease cause => exact (end_every_lease_same _ cause).halt
  | BeginRemoval =>
    rw [call, begin_removal]
    split <;> rfl
  | NoteProcess => exact (note_process_same ..).halt
  | SetLaunch => exact (set_launch_same ..).halt
  | Note => exact (note_same ..).halt
  | EndRemoval | Follow | Unfollow => rfl

/-- In every run until the halt is cleared, the halt stays, no robot is leased, and each
move is refused. -/
theorem a_halt_lasts_until_it_is_cleared {start halted : FleetBook}
    (hstart : start.halt = none ∨ start.leases = .empty) {acts : List FleetCall}
    (hrun : run step start acts = some halted) (hhalt : halted.halt ≠ none)
    (later : List FleetCall) (hclear : Meets step (fun _ act => act ≠ .ClearHalt) halted later)
    (hlater : run step halted later = some book) :
    book.halt = halted.halt ∧ (∀ robot, book.leases.get robot = none) ∧
      ∀ client robot,
        (book.move_refusal client robot).map MoveRefusal.failure_kind = some .Halted := by
  have hruled : HaltRuled halted := by
    refine run_keeps (fun book act _ h hstep => ?_) (fun hhalt robot => ?_) hrun
    · cases hstep
      exact (call_rules book act).2 h
    · rw [hstart.resolve_left hhalt, KeyMap.get_empty]
  obtain ⟨hruled, hsame⟩ : HaltRuled book ∧ book.halt = halted.halt := by
    refine run_keeps_where (I := fun book => HaltRuled book ∧ book.halt = halted.halt)
      (fun book act _ h hact hstep => ?_) ⟨hruled, rfl⟩ hclear hlater
    cases hstep
    exact ⟨(call_rules book act).2 h.1, (call_halted hact h.1 (h.2 ▸ hhalt)).trans h.2⟩
  rw [← hsame] at hhalt
  refine ⟨hsame, hruled hhalt, fun client robot => ?_⟩
  obtain ⟨halted_by, hhalt⟩ := ne_none_iff_exists'.mp hhalt
  simp [move_refusal, hhalt]

theorem a_halted_arm_is_not_moved :
    let calls := handOver ⟨"cn-desk", "pilot"⟩ ⟨"cn-desk", "planner"⟩
    ∃ halted book, run step (new "v1" "cn-desk") (calls ++ [.Halt "operator"]) = some halted ∧
      run step halted calls = some book ∧
      (book.move_refusal ⟨"cn-desk", "pilot"⟩ (some "arm")).map MoveRefusal.failure_kind =
        some .Halted := by
  intro calls
  have hrun : run step (new "v1" "cn-desk") (calls ++ [.Halt "operator"]) = some _ := rfl
  refine ⟨_, _, hrun, rfl, (a_halt_lasts_until_it_is_cleared (.inl rfl) hrun
    (some_ne_none _) calls ?_ rfl).2.2 ..⟩
  simp [calls, handOver, Meets]

end

end peppy.fleet.FleetBook
