-- The laws of the results. A poll is answered at most once, and every answer within
-- the window of a goal is its one outcome.
import Peppy.GoalPolls

open changes tasks runs List

namespace peppy.actions

namespace Engine

/-! ## A goal that ended -/

/-- The goal ended with the outcome, with its window open until `evict_at`. -/
def Ended (e : Engine) (k : Nat) (goal_id : String) (outcome : GoalOutcome) (evict_at : Nat) :
    Prop :=
  ∃ g, e.goals[k]? = some g ∧ g.goal_id = goal_id ∧ g.ended = some (outcome, evict_at)

section
variable {e e' : Engine} {a : Act} {k evict_at : Nat} {goal_id : String} {outcome : GoalOutcome}

theorem Ended.grow (h : Ended e k goal_id outcome evict_at) (hgrow : GoalsGrow e.goals e'.goals) :
    Ended e' k goal_id outcome evict_at := by
  obtain ⟨g, hg, hid, hended⟩ := h
  obtain ⟨g', hg', hgrows⟩ := hgrow k g hg
  exact ⟨g', hg', hgrows.goal_id.trans hid, hgrows.ended _ hended⟩

theorem Ended.named (h : Ended e k goal_id outcome evict_at) : Named e k goal_id := by
  obtain ⟨g, hg, hid, _⟩ := h
  exact ⟨g, hg, hid⟩

theorem ended_of_slot {slot : GoalSlot} (hslot : e.slots[k]? = some slot)
    (hstate : slot.state = .Terminal outcome evict_at) :
    Ended e k slot.goal_id outcome evict_at := by
  refine ⟨slot.goal, goals_getElem? hslot, rfl, ?_⟩
  rw [GoalSlot.goal, hstate]
  rfl

theorem Ended.slot (h : Ended e k goal_id outcome evict_at) :
    ∃ slot, e.slots[k]? = some slot ∧ slot.goal_id = goal_id ∧
      slot.state = .Terminal outcome evict_at := by
  obtain ⟨g, hg, hid, hended⟩ := h
  obtain ⟨slot, hslot, rfl⟩ := slot_of_goal hg
  refine ⟨slot, hslot, hid, ?_⟩
  cases hstate : slot.state with
  | Pending waiters =>
    rw [GoalSlot.goal, hstate] at hended
    cases hended
  | Terminal o ev =>
    rw [GoalSlot.goal, hstate] at hended
    cases hended
    rfl

/-- With distinct ids, a goal that ended left only past its window. -/
theorem Orderly.registry_of_ended (orderly : Orderly e) (h : Ended e k goal_id outcome evict_at) :
    e.registry goal_id = some k ∨
      (e.registry goal_id = none ∧ goal_id ∈ e.gap ++ e.evicted ∧ evict_at ≤ e.now) := by
  obtain ⟨g, hg, rfl, hended⟩ := h
  have haccepted := orderly.ends.winners _ (orderly.ends.stored k g outcome evict_at hg hended)
  rcases orderly.placed.present k g hg with hk | hk | hgone
  · exact absurd hk (orderly.ledger.accepted_unaccepted haccepted)
  · exact .inl hk
  obtain ⟨hnone, k', g', o', ev', hg', hid', hended', hle⟩ := orderly.placed.gone _ hgone
  cases orderly.distinct.slot_unique ⟨g, hg, rfl⟩ ⟨g', hg', hid'⟩
  cases hg.symm.trans hg'
  cases hended.symm.trans hended'
  exact .inr ⟨hnone, hgone, hle⟩

theorem Orderly.slot_of_registry (orderly : Orderly e) (h : Ended e k goal_id outcome evict_at)
    {j : Nat} (hj : e.registry goal_id = some j) : j = k :=
  orderly.distinct.slot_unique (orderly.routed.registry goal_id j hj) h.named

theorem Orderly.late_of_none (orderly : Orderly e) (h : Ended e k goal_id outcome evict_at)
    (hnone : e.registry goal_id = none) : evict_at ≤ e.now := by
  rcases orderly.registry_of_ended h with hk | ⟨-, -, hle⟩
  · cases hk.symm.trans hnone
  · exact hle

end

/-! ## A poll within the window -/

/-- What is read of the goal is its outcome, or it is read past the window. -/
def ReadsOutcome (k : Nat) (outcome : GoalOutcome) (evict_at : Nat) (e : Engine)
    (slot : Option Nat) (o : GoalOutcome) (read_at : Nat) : Prop :=
  (slot = some k ∧ o = outcome) ∨ (evict_at ≤ read_at ∧ evict_at ≤ e.now)

/-- A poll after the goal's end. It misses the slot only past the window. -/
def WindowPhase (k : Nat) (outcome : GoalOutcome) (evict_at : Nat) (e : Engine) : PollPhase → Prop
  | .Look => True
  | .Slot j => j = k
  | .Reply slot o read_at => ReadsOutcome k outcome evict_at e slot o read_at
  | .Lock | .LookAgain | .Tombstone | .Park => evict_at ≤ e.now

/-- Within the window, the poll reads the outcome. -/
def InWindow (k : Nat) (outcome : GoalOutcome) (evict_at r : Nat) (goal_id : String)
    (e : Engine) : Prop :=
  Tracks (WindowPhase k outcome evict_at)
    (fun e a => ReadsOutcome k outcome evict_at e a.slot a.outcome a.read_at)
    (fun e => evict_at ≤ e.now) r goal_id e

section
variable {e e' : Engine} {a : Act} {k r evict_at : Nat} {goal_id : String} {outcome : GoalOutcome}

theorem ReadsOutcome.mono {slot : Option Nat} {o : GoalOutcome} {read_at : Nat}
    (h : ReadsOutcome k outcome evict_at e slot o read_at) (hnow : e.now ≤ e'.now) :
    ReadsOutcome k outcome evict_at e' slot o read_at :=
  h.imp_right fun hlate => ⟨hlate.1, Nat.le_trans hlate.2 hnow⟩

theorem WindowPhase.mono {p : PollPhase} (h : WindowPhase k outcome evict_at e p)
    (hnow : e.now ≤ e'.now) : WindowPhase k outcome evict_at e' p := by
  cases p with
  | Look | Slot => exact h
  | Reply => exact ReadsOutcome.mono h hnow
  | Lock | LookAgain | Tombstone | Park => exact Nat.le_trans h hnow

theorem WindowPhase.route (orderly : Orderly e) (hended : Ended e k goal_id outcome evict_at)
    {p p' : PollPhase} (h : WindowPhase k outcome evict_at e p) (hroute : Routes e goal_id p p') :
    WindowPhase k outcome evict_at e p' := by
  cases hroute with
  | found hj | foundAgain hj => exact orderly.slot_of_registry hended hj
  | missed hnone => exact orderly.late_of_none hended hnone
  | lock | missedAgain | absent => exact h
  | expired => exact .inr ⟨h, h⟩
  | @read j slot o ev hslot hstate =>
    cases h
    obtain ⟨slot', hslot', -, hstate'⟩ := hended.slot
    cases hslot.symm.trans hslot'
    cases hstate.symm.trans hstate'
    by_cases hin : e.now < evict_at
    · exact .inl ⟨rfl, if_pos hin⟩
    · exact .inr ⟨Nat.le_of_not_lt hin, Nat.le_of_not_lt hin⟩

theorem InWindow.step (inv : InWindow k outcome evict_at r goal_id e) (orderly : Orderly e)
    (hended : Ended e k goal_id outcome evict_at) (h : Stepped e a e') :
    InWindow k outcome evict_at r goal_id e' := by
  have hnow := now_mono h
  refine Tracks.step inv orderly.ledger h ?_ ?_ ?_ ?_ ?_ ?_ ?_ ?_
  · exact fun p hp => hp.mono hnow
  · exact fun ans hans => hans.mono hnow
  · exact fun hle => Nat.le_trans hle hnow
  · exact fun i poll next _ _ _ hp hroute => (hp.route orderly hended hroute).mono hnow
  · exact fun slot o read_at hp => hp
  · exact fun hp => Nat.le_trans hp hnow
  · intro j slot waiters hj hslot hstate
    cases hj
    obtain ⟨slot', hslot', -, hstate'⟩ := hended.slot
    cases hslot.symm.trans hslot'
    cases hstate.symm.trans hstate'
  · exact fun hle j o => .inr ⟨hle, hle⟩

/-- Within the window, the poll is answered with the outcome by its own
sections. -/
theorem InWindow.answers (inv : InWindow k outcome evict_at r goal_id e) (orderly : Orderly e)
    (hended : Ended e k goal_id outcome evict_at) (hin : e.now < evict_at) :
    ∃ i, Answers e i r fun a => a.slot = some k ∧ a.outcome = outcome := by
  obtain ⟨slot, hslot, -, hstate⟩ := hended.slot
  have hread : ∀ {s o t}, ReadsOutcome k outcome evict_at e s o t → s = some k ∧ o = outcome :=
    fun h => h.resolve_right fun hlate => Nat.not_lt.mpr hlate.2 hin
  rcases inv.here with (⟨poll, hpoll, hr⟩ | ⟨ans, hans, hr⟩) | hle
  · obtain ⟨hid, hphase⟩ := inv.phases poll hpoll hr
    obtain ⟨i, hi⟩ := getElem?_of_mem hpoll
    refine ⟨i, ?_⟩
    cases hp : poll.phase with
    | Look =>
      have hk : e.registry poll.goal_id = some k := by
        rw [hid]
        refine (orderly.registry_of_ended hended).resolve_right fun hgone => ?_
        exact Nat.not_lt.mpr hgone.2.2 hin
      refine Answers.route hi hp (.found hk) (.slot (setPoll_self hi) hr rfl hslot hstate ?_)
      exact ⟨rfl, if_pos hin⟩
    | Slot j =>
      rw [hp] at hphase
      cases hphase
      exact .slot hi hr hp hslot hstate ⟨rfl, if_pos hin⟩
    | Reply s o t =>
      rw [hp] at hphase
      exact .reply hi hr hp (hread hphase)
    | Lock | LookAgain | Tombstone | Park =>
      rw [hp] at hphase
      exact absurd hin (Nat.not_lt.mpr hphase)
  · exact ⟨0, e, ans, .refl _ _, hans, hr, hread (Tracks.answers inv ans hans hr)⟩
  · exact absurd hin (Nat.not_lt.mpr hle)

end

/-! ## The laws -/

/-- Every poll has at most one answer, and every goal has one outcome. -/
structure OneResult (e : Engine) : Prop where
  once : (e.answers.map (·.responder)).Nodup
  decided : (e.wins.map Prod.fst).Nodup
  polled : ∀ r k, (r, k) ∈ e.parked →
    ∃ slot, e.slots[k]? = some slot ∧ (r, slot.goal_id) ∈ e.polled
  /-- When a transition is at its end, the polls of its slot have the outcome. -/
  parked : ∀ r k, (r, k) ∈ e.parked → k ∈ e.completed →
    k ∈ e.accepted ∧ ∃ a ∈ e.answers, a.responder = r ∧ a.slot = some k ∧ (k, a.outcome) ∈ e.wins
  /-- A call that won the flag comes to its end by its own sections. -/
  completes : ∀ i t, e.transitions[i]? = some t → t.phase.won = true →
    ∃ e', Leads step (.TransitionStep i) e e' ∧ t.slot ∈ e'.completed
  /-- What a slot gives is the outcome of its goal, or `Expired` past its window. -/
  read : ∀ a ∈ e.answers, ∀ k, a.slot = some k → (k, a.outcome) ∈ e.wins ∨
    (a.outcome = .Expired ∧ ∃ slot outcome evict_at, e.slots[k]? = some slot ∧
      slot.state = .Terminal outcome evict_at ∧ evict_at ≤ a.read_at)

section
variable {e : Engine}

theorem Ledger.answered_once (ledger : Ledger e) : (e.answers.map (·.responder)).Nodup := by
  rw [nodup_iff_count_le_one]
  intro r
  have hone := ledger.held_le_one r
  rw [Engine.held] at hone
  omega

theorem Sound.accepted_of_completed (sound : Sound e) {k : Nat} (hk : k ∈ e.completed) :
    k ∈ e.accepted := by
  obtain ⟨g, ⟨o, evict_at⟩, hg, hended⟩ := sound.ends.done k hk
  exact sound.ends.winners _ (sound.ends.stored k g o evict_at hg hended)

theorem Followed.answered (inv : Followed e) (sound : Sound e) {r k : Nat}
    (hparked : (r, k) ∈ e.parked) (hk : k ∈ e.completed) :
    ∃ a ∈ e.answers, a.responder = r ∧ a.slot = some k ∧ (k, a.outcome) ∈ e.wins := by
  have haccepted := sound.accepted_of_completed hk
  cases inv (r, k) hparked with
  | @adopted call _ hcall hphase hr =>
    have hslot : k ∈ call.phase.slot := by
      rw [hphase]
      exact mem_singleton_self k
    exact absurd haccepted (sound.ledger.not_accepted hcall hslot)
  | @slot slot hslot hr =>
    obtain ⟨g, x, hg, hended⟩ := sound.ends.done k hk
    cases (goals_getElem? hslot).symm.trans hg
    cases hstate : slot.state with
    | Pending waiters =>
      rw [GoalSlot.goal, hstate] at hended
      cases hended
    | Terminal o evict_at =>
      rw [hstate] at hr
      cases hr
  | @responding t ht hslot hr =>
    have hwon : t.phase.won = true := by
      cases hphase : t.phase with
      | Respond waiters => rfl
      | Swap | Lock =>
        rw [hphase] at hr
        cases hr
    exact absurd (hslot ▸ hk) (won_alone sound.ledger sound.ends.once ht hwon).1
  | answered ha hr hslot hwin => exact ⟨_, ha, hr, hslot, hwin⟩
  | broken hbroken =>
    exact absurd hbroken (completed_not_broken sound.ledger sound.ends.once hk)
  | unaccepted hunaccepted =>
    exact absurd hunaccepted (sound.ledger.accepted_unaccepted haccepted)

theorem oneResult (sound : Sound e) (followed : Followed e) (answered : Answered e) :
    OneResult e where
  once := sound.ledger.answered_once
  decided := sound.ends.once
  polled := by
    intro r k hparked
    obtain ⟨goal_id, ⟨g, hg, rfl⟩, hpolled⟩ := sound.routed.parked (r, k) hparked
    obtain ⟨slot, hslot, rfl⟩ := slot_of_goal hg
    exact ⟨slot, hslot, hpolled⟩
  parked r k hparked hk :=
    ⟨sound.accepted_of_completed hk, followed.answered sound hparked hk⟩
  completes _ _ ht hwon := won_completes sound ht hwon
  read := by
    intro a ha k hk
    have h := answered.answers a ha
    rw [hk] at h
    rcases h with hwin | ⟨hexpired, g, o, evict_at, hg, hended, hle⟩
    · exact .inl hwin
    · obtain ⟨slot, hslot, _, hstate⟩ := Ended.slot ⟨g, hg, rfl, hended⟩
      exact .inr ⟨hexpired, slot, o, evict_at, hslot, hstate, hle⟩

end

/-- With distinct goal ids no responder is answered twice, a poll that the slot took in gets
its outcome, and a poll after the end reads it while the window is open. -/
theorem every_goal_has_one_result {grace : Nat} {ops : List Act} {e : Engine}
    (hrun : run step (start grace) ops = some e)
    (hfresh : Meets step (fun e a => freshGoal e a = true) (start grace) ops) : OneResult e ∧
      ∀ (k : Nat) (slot : GoalSlot) (outcome : GoalOutcome) (evict_at r : Nat)
        (later : List Act) (e₁ e₂ : Engine),
        e.slots[k]? = some slot → slot.state = .Terminal outcome evict_at →
        step e (.Poll slot.goal_id r) = some e₁ → run step e₁ later = some e₂ →
        Meets step (fun e a => freshGoal e a = true) e₁ later →
        (∀ a ∈ e₂.answers, a.responder = r → a.read_at < evict_at →
          a.slot = some k ∧ a.outcome = outcome) ∧
        (e₂.now < evict_at →
          ∃ i, Answers e₂ i r fun a => a.slot = some k ∧ a.outcome = outcome) := by
  constructor
  · obtain ⟨sound, followed, answered⟩ := run_keeps
      (I := fun e => Sound e ∧ Followed e ∧ Answered e)
      (by
        rintro e a e' ⟨sound, followed, answered⟩ hstep
        have hstep := step_cases hstep
        exact ⟨sound.step hstep, followed.step sound hstep, answered.step sound.ends hstep⟩)
      ⟨.start grace, by simp [Followed, start], by constructor <;> simp [start]⟩ hrun
    exact oneResult sound followed answered
  · intro k slot outcome evict_at r later e₁ e₂ hslot hstate hpoll hlater hfresh'
    have orderly := (Orderly.start grace).of_run hfresh hrun
    have hstep := step_cases hpoll
    obtain ⟨orderly₂, hended, htracks⟩ := run_keeps_where
      (I := fun e => Orderly e ∧ Ended e k slot.goal_id outcome evict_at ∧
        InWindow k outcome evict_at r slot.goal_id e)
      (by
        rintro e a e' ⟨orderly, hended, htracks⟩ hfresh hstep
        have hstep := step_cases hstep
        exact ⟨orderly.step hfresh hstep, hended.grow (orderly.ends.grow hstep),
          htracks.step orderly hended hstep⟩)
      ⟨orderly.step rfl hstep, (ended_of_slot hslot hstate).grow (orderly.ends.grow hstep),
        Tracks.init orderly.toSound hpoll trivial⟩ hfresh' hlater
    refine ⟨fun a ha hr hin => ?_, htracks.answers orderly₂ hended⟩
    exact (Tracks.answers htracks a ha hr).resolve_right fun hlate => Nat.not_lt.mpr hlate.1 hin

def racedGoal : List Act :=
  [.Poll "pick" 7, .PollStep 0, .PollStep 0, .PollStep 0, .PollStep 0, .PollStep 0,
    .Accept "pick" none, .AcceptStep 0 true, .AcceptStep 0 true, .AcceptStep 0 true,
    .AcceptStep 0 true, .AcceptStep 0 true, .Poll "pick" 8, .PollStep 0, .PollStep 0,
    .Deliver 0 (.Complete "placed"), .Deliver 0 (.Fail ⟨.Timeout, "late"⟩), .TransitionStep 0,
    .TransitionStep 1, .TransitionStep 0, .TransitionStep 0, .TransitionStep 0, .TransitionStep 0]

theorem the_result_of_a_raced_goal :
    ∃ e e₁ e₂, run step (start 30) racedGoal = some e ∧ e.parked = [(8, 0), (7, 0)] ∧
      step e (.Poll "pick" 9) = some e₁ ∧ run step e₁ [.PollStep 0, .Tick 20] = some e₂ ∧
      (∀ r k, (r, k) ∈ e.parked →
        ∃ a ∈ e.answers, a.responder = r ∧ a.slot = some k ∧ (k, a.outcome) ∈ e.wins) ∧
      ∃ i, Answers e₂ i 9 fun a => a.slot = some 0 ∧ a.outcome = .Completed "placed" := by
  obtain ⟨e, he, hparked, hcompleted, slot, hslot, hid, hstate, e₁, he₁, e₂, he₂⟩ :
      ∃ e, run step (start 30) racedGoal = some e ∧ e.parked = [(8, 0), (7, 0)] ∧
        e.completed = [0] ∧
      ∃ slot, e.slots[0]? = some slot ∧ slot.goal_id = "pick" ∧
        slot.state = .Terminal (.Completed "placed") 30 ∧
      ∃ e₁, step e (.Poll "pick" 9) = some e₁ ∧
      ∃ e₂, run step e₁ [.PollStep 0, .Tick 20] = some e₂ :=
    ⟨_, rfl, rfl, rfl, _, rfl, rfl, rfl, _, rfl, _, rfl⟩
  obtain ⟨hone, hlater⟩ := every_goal_has_one_result he (by decide)
  refine ⟨e, e₁, e₂, he, hparked, he₁, he₂, fun r k hr => (hone.parked r k hr ?_).2, ?_⟩
  · rw [hparked] at hr
    rw [hcompleted]
    rcases mem_cons.mp hr with h | h
    · cases h
      exact mem_singleton_self 0
    · cases mem_singleton.mp h
      exact mem_singleton_self 0
  · refine (hlater 0 slot (.Completed "placed") 30 9 [.PollStep 0, .Tick 20] e₁ e₂ hslot hstate
      (by rw [hid]; exact he₁) he₂ ?_).2 ?_
    · exact ⟨rfl, fun _ _ => ⟨rfl, fun _ _ => trivial⟩⟩
    · cases he
      cases he₁
      cases he₂
      decide

end Engine

end peppy.actions
