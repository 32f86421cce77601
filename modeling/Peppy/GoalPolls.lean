-- The way of a poll, which stays with a holder until it is answered with the outcome
-- of the goal or `Expired`.
import Peppy.GoalRouting

open changes tasks runs List

namespace peppy.actions

namespace Engine

/-! ## The polls that a slot took in -/

/-- The goal knows of the responder, or answered it. -/
inductive Waits (e : Engine) (r k : Nat) : Prop
  | adopted {call : AcceptCall} {adopted : List Nat} (hcall : call ∈ e.accepts)
      (hphase : call.phase = .Extend k adopted) (hr : r ∈ adopted)
  | slot {slot : GoalSlot} (hslot : e.slots[k]? = some slot) (hr : r ∈ slot.state.waiters)
  | responding {t : Transition} (ht : t ∈ e.transitions) (hslot : t.slot = k)
      (hr : r ∈ t.phase.waiters)
  | answered {a : Answer} (ha : a ∈ e.answers) (hr : a.responder = r) (hslot : a.slot = some k)
      (hwin : (k, a.outcome) ∈ e.wins)
  | broken (hk : k ∈ e.broken)
  | unaccepted (hk : k ∈ e.unaccepted)

/-- Every holder of polls that a slot took in keeps them or hands them on. -/
structure HandsOn (e e' : Engine) : Prop where
  accepts : ∀ call ∈ e.accepts, ∀ k adopted, call.phase = .Extend k adopted →
      ∀ r ∈ adopted, Waits e' r k := by
    exact fun _ hcall _ _ hphase _ hr => .adopted hcall hphase hr
  slots : ∀ (k : Nat) (slot : GoalSlot), e.slots[k]? = some slot →
      ∀ r ∈ slot.state.waiters, Waits e' r k := by
    exact fun _ _ hslot _ hr => .slot hslot hr
  transitions : ∀ t ∈ e.transitions, ∀ r ∈ t.phase.waiters, Waits e' r t.slot := by
    exact fun _ ht _ hr => .responding ht rfl hr
  answers : e.answers ⊆ e'.answers := by exact fun _ => id
  wins : e.wins ⊆ e'.wins := by exact fun _ => id
  broken : e.broken ⊆ e'.broken := by exact fun _ => id
  unaccepted : e.unaccepted ⊆ e'.unaccepted := by exact fun _ => id

section
variable {e e' : Engine} {a : Act} {i k r : Nat}

theorem Waits.handsOn (h : Waits e r k) (hon : HandsOn e e') : Waits e' r k := by
  cases h with
  | adopted hcall hphase hr => exact hon.accepts _ hcall k _ hphase r hr
  | slot hslot hr => exact hon.slots k _ hslot r hr
  | responding ht hslot hr => exact hslot ▸ hon.transitions _ ht r hr
  | answered ha hr hslot hwin => exact .answered (hon.answers ha) hr hslot (hon.wins hwin)
  | broken hk => exact .broken (hon.broken hk)
  | unaccepted hk => exact .unaccepted (hon.unaccepted hk)

variable {call : AcceptCall} {slot slot' : GoalSlot}

theorem accepts_handOn (hcall : e.accepts[i]? = some call)
    {phase : Option AcceptPhase} (haccepts : e'.accepts = (e.setAccept i call phase).accepts)
    (hself : ∀ k adopted, call.phase = .Extend k adopted → ∀ r ∈ adopted, Waits e' r k) :
    ∀ c ∈ e.accepts, ∀ k adopted, c.phase = .Extend k adopted → ∀ r ∈ adopted, Waits e' r k := by
  intro c hc k adopted hphase r hr
  by_cases hne : c = call
  · subst hne
    exact hself k adopted hphase r hr
  · refine .adopted ?_ hphase hr
    rw [haccepts]
    exact (eq_or_mem_put hcall hc).resolve_left hne

theorem accepts_stay {p : AcceptPhase} (hcall : e.accepts[i]? = some call)
    (hphase : call.phase = p) (hadopted : p.adopted = []) {phase : Option AcceptPhase}
    (haccepts : e'.accepts = (e.setAccept i call phase).accepts) :
    ∀ c ∈ e.accepts, ∀ k adopted, c.phase = .Extend k adopted → ∀ r ∈ adopted, Waits e' r k := by
  apply accepts_handOn hcall haccepts
  intro k adopted hextend r hr
  rw [← hphase, hextend] at hadopted
  exact absurd hadopted (ne_nil_of_mem hr)

variable {t : Transition}

theorem transitions_handOn (ht : e.transitions[i]? = some t) {phase : Option TransitionPhase}
    (htransitions : e'.transitions = (e.setTransition i t phase).transitions)
    (hself : ∀ r ∈ t.phase.waiters, Waits e' r t.slot) :
    ∀ t' ∈ e.transitions, ∀ r ∈ t'.phase.waiters, Waits e' r t'.slot := by
  intro t' ht' r hr
  by_cases hne : t' = t
  · subst hne
    exact hself r hr
  · refine .responding ?_ rfl hr
    rw [htransitions]
    exact other_stays ht phase ht' hne

theorem transitions_stay {p : TransitionPhase} (ht : e.transitions[i]? = some t)
    (hphase : t.phase = p) (hwaiters : p.waiters = []) {phase : Option TransitionPhase}
    (htransitions : e'.transitions = (e.setTransition i t phase).transitions) :
    ∀ t' ∈ e.transitions, ∀ r ∈ t'.phase.waiters, Waits e' r t'.slot := by
  apply transitions_handOn ht htransitions
  intro r hr
  rw [hphase, hwaiters] at hr
  cases hr

theorem slots_handOn (hslot : e.slots[k]? = some slot) (hslots : e'.slots = e.slots.set k slot')
    (hself : e'.slots[k]? = some slot' → ∀ r ∈ slot.state.waiters, Waits e' r k) :
    ∀ (j : Nat) (s : GoalSlot), e.slots[j]? = some s → ∀ r ∈ s.state.waiters, Waits e' r j := by
  intro j s hs r hr
  by_cases hj : j = k
  · subst hj
    cases hslot.symm.trans hs
    refine hself ?_ r hr
    rw [hslots]
    exact getElem?_set_self (List.getElem?_eq_some_iff.mp hs).1
  · refine .slot ?_ hr
    rw [hslots, getElem?_set_ne (Ne.symm hj)]
    exact hs

theorem slots_stay (hslot : e.slots[k]? = some slot) (hslots : e'.slots = e.slots.set k slot')
    (hwaiters : slot.state.waiters ⊆ slot'.state.waiters) :
    ∀ (j : Nat) (s : GoalSlot), e.slots[j]? = some s → ∀ r ∈ s.state.waiters, Waits e' r j :=
  slots_handOn hslot hslots fun hslot' _ hr => .slot hslot' (hwaiters hr)

theorem waiters_same (hsame : slot.SameGoal slot') : slot.state.waiters ⊆ slot'.state.waiters := by
  rw [hsame.state]
  exact fun _ => id

theorem waiters_join {waiters : List Nat} (hstate : slot.state = .Pending waiters)
    {responders : List Nat} : slot.state.waiters ⊆ waiters ++ responders := by
  rw [hstate]
  exact subset_append_left _ _

/-- Each poll of a slot is held, or answered, or what held it came to nothing. -/
def Followed (e : Engine) : Prop := ∀ p ∈ e.parked, Waits e p.1 p.2

theorem Followed.handsOn (inv : Followed e) (hon : HandsOn e e') (hparked : e'.parked = e.parked) :
    Followed e' := by
  intro p hp
  rw [hparked] at hp
  exact (inv p hp).handsOn hon

theorem Sound.open_of_call (inv : Sound e) {o : GoalOutcome}
    {evict_at : Nat} (hcall : call ∈ e.accepts) (hk : k ∈ call.phase.slot)
    (hslot : e.slots[k]? = some slot) : slot.state ≠ .Terminal o evict_at := by
  intro hstate
  have hwin := inv.ends.stored k slot.goal o evict_at (goals_getElem? hslot)
    (by rw [GoalSlot.goal, hstate]; rfl)
  exact inv.ledger.not_accepted hcall hk (inv.ends.winners _ hwin)

theorem Followed.step (inv : Followed e) (sound : Sound e) (h : Stepped e a e') : Followed e' := by
  cases h with
  | accept =>
    exact inv.handsOn
      { accepts := fun _ hc _ _ hphase _ hr => .adopted (mem_append_left _ hc) hphase hr } rfl
  | register hcall hphase =>
    exact inv.handsOn { accepts := accepts_stay hcall hphase rfl rfl
                        slots := fun _ _ hslot _ hr => .slot (getElem?_push hslot _) hr } rfl
  | takeEarly hcall hphase | noEarly hcall hphase | takeOn hcall hphase =>
    exact inv.handsOn { accepts := accepts_stay hcall hphase rfl rfl } rfl
  | acceptSignal hcall hphase hslot =>
    exact inv.handsOn
      { accepts := accepts_stay hcall hphase rfl rfl
        slots := slots_stay hslot rfl (waiters_same (signal_cancel_same ..)) } rfl
  | @adopt i replied call k hcall hphase =>
    intro p hp
    rcases mem_append.mp hp with hp | hp
    · obtain ⟨r, hr, rfl⟩ := mem_map.mp hp
      have hne : e.parked_for call.goal_id ≠ [] := ne_nil_of_mem hr
      exact .adopted (mem_put_self hcall _) (if_neg hne) hr
    · exact (inv p hp).handsOn { accepts := accepts_stay hcall hphase rfl rfl }
  | @extend i replied call k adopted slot waiters hcall hphase hslot hstate =>
    refine inv.handsOn
      { accepts := accepts_handOn hcall rfl ?_
        slots := slots_stay hslot rfl (waiters_join hstate) } rfl
    intro k' adopted' hextend r hr
    cases hphase.symm.trans hextend
    refine .slot (getElem?_set_self (List.getElem?_eq_some_iff.mp hslot).1) ?_
    exact mem_append_right waiters hr
  | extendEnded hcall hphase hslot hstate =>
    exact absurd hstate (sound.open_of_call (mem_of_getElem? hcall)
      (by simp [hphase, AcceptPhase.slot]) hslot)
  | forget hcall hphase | dropAccept hcall hphase =>
    exact inv.handsOn { accepts := accepts_stay hcall hphase rfl rfl
                        unaccepted := subset_cons_self _ _ } rfl
  | @dropAdopted i call k adopted hcall hphase =>
    refine inv.handsOn { accepts := accepts_handOn hcall rfl ?_
                         unaccepted := subset_cons_self _ _ } rfl
    intro k' adopted' hextend r _
    cases hphase.symm.trans hextend
    exact .unaccepted mem_cons_self
  | @wait i poll k slot waiters hpoll hphase hslot hstate =>
    intro p hp
    rcases mem_cons.mp hp with rfl | hp
    · refine .slot (getElem?_set_self (List.getElem?_eq_some_iff.mp hslot).1) ?_
      exact mem_append_right waiters (mem_singleton_self _)
    · exact (inv p hp).handsOn
        { slots := slots_stay hslot rfl (waiters_join hstate) }
  | reply => exact inv.handsOn { answers := subset_cons_self _ _ } rfl
  | cancelSignal hcall hphase hslot | signalled hcall hphase hslot
  | watchSignal hcall hphase hslot =>
    exact inv.handsOn
      { slots := slots_stay hslot rfl (waiters_same (signal_cancel_same ..)) } rfl
  | link hslot =>
    exact inv.handsOn { slots := slots_stay hslot rfl (waiters_same (link_same ..)) } rfl
  | unlink hslot =>
    exact inv.handsOn { slots := slots_stay hslot rfl (waiters_same (unlink_same ..)) } rfl
  | deliver | abandon =>
    exact inv.handsOn
      { transitions := fun _ ht _ hr => .responding (mem_append_left _ ht) rfl hr } rfl
  | lose ht hphase | dropSwap ht hcall hphase | complete ht hphase =>
    exact inv.handsOn { transitions := transitions_stay ht hphase rfl rfl } rfl
  | win ht hphase hslot =>
    exact inv.handsOn { transitions := transitions_stay ht hphase rfl rfl
                        slots := slots_stay hslot rfl fun _ => id
                        wins := subset_cons_self _ _ } rfl
  | @finish i t slot ht hphase hslot =>
    refine inv.handsOn
      { transitions := transitions_stay ht hphase rfl rfl
        slots := slots_handOn hslot rfl fun _ r hr => ?_ } rfl
    exact .responding (mem_put_self ht _) rfl hr
  | @respond i t responder waiters ht hphase =>
    refine inv.handsOn
      { transitions := transitions_handOn ht rfl fun r hr => ?_
        answers := subset_cons_self _ _ } rfl
    rw [hphase] at hr
    rcases mem_cons.mp hr with rfl | hr
    · refine .answered mem_cons_self rfl rfl ?_
      exact sound.ends.won t (mem_of_getElem? ht) (by rw [hphase]; rfl)
    · exact .responding (mem_put_self ht _) rfl hr
  | dropLock ht hcall hphase =>
    exact inv.handsOn { transitions := transitions_stay ht hphase rfl rfl
                        broken := subset_cons_self _ _ } rfl
  | @dropRespond i t waiters ht hcall hphase =>
    exact inv.handsOn { transitions := transitions_handOn ht rfl fun _ _ =>
                          .broken mem_cons_self
                        broken := subset_cons_self _ _ } rfl
  | _ => exact inv.handsOn {} rfl

end

/-! ## Where an answer comes from -/

/-- An answer is the outcome of its goal, or `Expired` past the window or slotless. -/
def FromGoal (e : Engine) (slot : Option Nat) (outcome : GoalOutcome) (read_at : Nat) : Prop :=
  match slot with
  | none => outcome = .Expired
  | some k => (k, outcome) ∈ e.wins ∨ (outcome = .Expired ∧ ∃ (g : Goal) (o : GoalOutcome)
      (evict_at : Nat), e.goals[k]? = some g ∧ g.ended = some (o, evict_at) ∧ evict_at ≤ read_at)

/-- Every answer is one of a goal. -/
structure Answered (e : Engine) : Prop where
  answers : ∀ a ∈ e.answers, FromGoal e a.slot a.outcome a.read_at
  polls : ∀ poll ∈ e.polls, ∀ slot outcome read_at, poll.phase = .Reply slot outcome read_at →
    FromGoal e slot outcome read_at

section
variable {e e' : Engine} {a : Act}

theorem wins_mono (h : Stepped e a e') : e.wins ⊆ e'.wins := by
  cases h with
  | win => exact subset_cons_self _ _
  | _ => exact fun _ => id

variable {read_at : Nat} {outcome : GoalOutcome} {slot : Option Nat}

theorem FromGoal.grow (h : FromGoal e slot outcome read_at) (hwins : e.wins ⊆ e'.wins)
    (hgrow : GoalsGrow e.goals e'.goals) : FromGoal e' slot outcome read_at := by
  cases slot with
  | none => exact h
  | some k =>
    rcases h with hwin | ⟨hexpired, g, o, evict_at, hg, hended, hle⟩
    · exact .inl (hwins hwin)
    · obtain ⟨g', hg', hgrows⟩ := hgrow k g hg
      exact .inr ⟨hexpired, g', o, evict_at, hg', hgrows.ended _ hended, hle⟩

theorem answers_cases (h : Stepped e a e') {ans : Answer} (hans : ans ∈ e'.answers) :
    ans ∈ e.answers ∨
      (∃ poll ∈ e.polls, ∃ slot outcome read_at, poll.phase = .Reply slot outcome read_at ∧
        ans = ⟨poll.responder, slot, outcome, read_at⟩) ∨
      ∃ t ∈ e.transitions, ∃ r waiters, t.phase = .Respond (r :: waiters) ∧
        ans = ⟨r, some t.slot, t.outcome, e.now⟩ := by
  cases h with
  | reply hpoll hphase =>
    rcases mem_cons.mp hans with rfl | hans
    · exact .inr (.inl ⟨_, mem_of_getElem? hpoll, _, _, _, hphase, rfl⟩)
    · exact .inl hans
  | respond ht hphase =>
    rcases mem_cons.mp hans with rfl | hans
    · exact .inr (.inr ⟨_, mem_of_getElem? ht, _, _, hphase, rfl⟩)
    · exact .inl hans
  | _ => exact .inl hans

/-- A poll reads the outcome of the goal, or `Expired` past its window. -/
theorem fromGoal_of_routes (ends : Ends e) {goal_id : String} {phase : PollPhase}
    (h : Routes e goal_id phase (.Reply slot outcome read_at)) :
    FromGoal e slot outcome read_at := by
  cases h with
  | expired => exact rfl
  | @read k slot o evict_at hslot hstate =>
    have hg := goals_getElem? hslot
    have hended : slot.goal.ended = some (o, evict_at) := by
      rw [GoalSlot.goal, hstate]
      rfl
    by_cases hin : e.now < evict_at
    · rw [if_pos hin]
      exact .inl (ends.stored k slot.goal o evict_at hg hended)
    · rw [if_neg hin]
      exact .inr ⟨rfl, slot.goal, o, evict_at, hg, hended, Nat.le_of_not_lt hin⟩

theorem Answered.step (inv : Answered e) (ends : Ends e) (h : Stepped e a e') : Answered e' := by
  have hwins := wins_mono h
  have hgrow := ends.grow h
  constructor
  · intro ans hans
    rcases answers_cases h hans with hans | ⟨poll, hpoll, slot, outcome, read_at, hphase, rfl⟩ |
      ⟨t, ht, r, waiters, hphase, rfl⟩
    · exact (inv.answers ans hans).grow hwins hgrow
    · exact (inv.polls poll hpoll slot outcome read_at hphase).grow hwins hgrow
    · exact .inl (hwins (ends.won t ht (by rw [hphase]; rfl)))
  · intro poll hpoll slot outcome read_at hphase
    rcases polls_cases h hpoll with hpoll | ⟨goal_id, responder, -, rfl, -⟩ |
      ⟨i, old, phase, -, -, hroute, rfl⟩
    · exact (inv.polls poll hpoll slot outcome read_at hphase).grow hwins hgrow
    · cases hphase
    · cases hphase
      exact (fromGoal_of_routes ends hroute).grow hwins hgrow

end

/-! ## One poll on its way -/

/-- The poll is in progress or answered. -/
def Here (e : Engine) (r : Nat) : Prop :=
  (∃ poll ∈ e.polls, poll.responder = r) ∨ ∃ a ∈ e.answers, a.responder = r

/-- Its phases meet `P`, its answers `A`, and it goes on or is answered, unless `L`. -/
structure Tracks (P : Engine → PollPhase → Prop) (A : Engine → Answer → Prop)
    (L : Engine → Prop) (r : Nat) (goal_id : String) (e : Engine) : Prop where
  polled : r ∈ e.polled.map Prod.fst
  phases : ∀ poll ∈ e.polls, poll.responder = r → poll.goal_id = goal_id ∧ P e poll.phase
  answers : ∀ a ∈ e.answers, a.responder = r → A e a
  here : Here e r ∨ L e

section
variable {e e' : Engine} {a : Act} {r : Nat}

theorem Here.count_pos (h : Here e r) : 0 < (e.polls.flatMap fun poll => [poll.responder]).count r +
      (e.answers.map (·.responder)).count r := by
  rcases h with ⟨poll, hpoll, rfl⟩ | ⟨a, ha, rfl⟩
  · have h : 0 < (e.polls.flatMap fun poll => [poll.responder]).count poll.responder :=
      count_pos_iff.mpr (mem_flatMap.mpr ⟨poll, hpoll, mem_singleton_self _⟩)
    omega
  · have h : 0 < (e.answers.map (·.responder)).count a.responder :=
      count_pos_iff.mpr (mem_map_of_mem ha)
    omega

theorem Ledger.not_responding (ledger : Ledger e) (hhere : Here e r) :
    ∀ t ∈ e.transitions, r ∉ t.phase.waiters := by
  intro t ht hr
  have hone := ledger.held_le_one r
  have hresponding : 0 < (e.transitions.flatMap fun t => t.phase.waiters).count r :=
    count_pos_iff.mpr (mem_flatMap.mpr ⟨t, ht, hr⟩)
  have hother := hhere.count_pos
  rw [Engine.held] at hone
  omega

theorem Ledger.not_parked (ledger : Ledger e) (hhere : Here e r) :
    r ∉ e.pending_waiters.map (·.responder) ∧ r ∉ e.dropped := by
  have hone := ledger.held_le_one r
  have hother := hhere.count_pos
  rw [Engine.held] at hone
  constructor
  · intro hr
    have hparked := count_pos_iff.mpr hr
    omega
  · intro hr
    have hdropped := count_pos_iff.mpr hr
    omega

theorem poll_after (h : Stepped e a e') {poll : PollCall} (hpoll : poll ∈ e.polls) :
    Here e' poll.responder ∨ poll.phase = .Park ∨
      ∃ k slot waiters, poll.phase = .Slot k ∧ e.slots[k]? = some slot ∧
        slot.state = .Pending waiters := by
  cases h with
  | poll => exact .inl (.inl ⟨poll, mem_append_left _ hpoll, rfl⟩)
  | @route i old _ next hold =>
    rcases other_poll hold (some next) hpoll with rfl | hmem
    · exact .inl (.inl ⟨_, mem_put_self hold _, rfl⟩)
    · exact .inl (.inl ⟨poll, hmem, rfl⟩)
  | park hold hphase | parkFull hold hphase =>
    rcases other_poll hold none hpoll with rfl | hmem
    · exact .inr (.inl hphase)
    · exact .inl (.inl ⟨poll, hmem, rfl⟩)
  | wait hold hphase hslot hstate =>
    rcases other_poll hold none hpoll with rfl | hmem
    · exact .inr (.inr ⟨_, _, _, hphase, hslot, hstate⟩)
    · exact .inl (.inl ⟨poll, hmem, rfl⟩)
  | reply hold =>
    rcases other_poll hold none hpoll with rfl | hmem
    · exact .inl (.inr ⟨_, mem_cons_self, rfl⟩)
    · exact .inl (.inl ⟨poll, hmem, rfl⟩)
  | _ => exact .inl (.inl ⟨poll, hpoll, rfl⟩)

theorem answers_mono (h : Stepped e a e') : e.answers ⊆ e'.answers := by
  cases h with
  | reply | respond => exact subset_cons_self _ _
  | _ => exact fun _ => id

section
variable {P : Engine → PollPhase → Prop} {A : Engine → Answer → Prop} {L : Engine → Prop}
variable {goal_id : String}

/-- The rule to follow one poll through a section. -/
theorem Tracks.step (inv : Tracks P A L r goal_id e) (ledger : Ledger e) (h : Stepped e a e')
    (hstays : ∀ p, P e p → P e' p) (hkept : ∀ ans, A e ans → A e' ans) (hlost : L e → L e')
    (hroute : ∀ i poll next, a = .PollStep i → e.polls[i]? = some poll → poll.goal_id = goal_id →
      P e poll.phase → Routes e goal_id poll.phase next → P e' next)
    (hreply : ∀ slot outcome read_at, P e (.Reply slot outcome read_at) →
      A e ⟨r, slot, outcome, read_at⟩) (hpark : P e .Park → L e')
    (hwait : ∀ k slot waiters, P e (.Slot k) → e.slots[k]? = some slot →
      slot.state = .Pending waiters → L e')
    (hlate : L e → ∀ k outcome, A e ⟨r, some k, outcome, e.now⟩) : Tracks P A L r goal_id e' where
  polled := by
    obtain ⟨p, hp, rfl⟩ := mem_map.mp inv.polled
    exact mem_map_of_mem (polled_mono h hp)
  phases := by
    intro poll hpoll hr
    rcases polls_cases h hpoll with hpoll | ⟨id, responder, -, rfl, hnew⟩ |
      ⟨i, old, phase, ha, hold, hphase, rfl⟩
    · obtain ⟨hid, hp⟩ := inv.phases poll hpoll hr
      exact ⟨hid, hstays _ hp⟩
    · cases hr
      exact absurd inv.polled hnew
    · obtain ⟨hid, hp⟩ := inv.phases old (mem_of_getElem? hold) hr
      exact ⟨hid, hroute i old phase ha hold hid hp (hid ▸ hphase)⟩
  answers := by
    intro ans hans hr
    rcases answers_cases h hans with hans | ⟨poll, hpoll, slot, outcome, read_at, hphase, rfl⟩ |
      ⟨t, ht, responder, waiters, hphase, rfl⟩
    · exact hkept ans (inv.answers ans hans hr)
    · obtain ⟨_, hp⟩ := inv.phases poll hpoll hr
      cases hr
      exact hkept _ (hreply slot outcome read_at (hphase ▸ hp))
    cases hr
    rcases inv.here with hhere | hl
    · refine absurd ?_ (ledger.not_responding hhere t ht)
      rw [hphase]
      exact mem_cons_self
    · exact hkept _ (hlate hl t.slot t.outcome)
  here := by
    rcases inv.here with (⟨poll, hpoll, rfl⟩ | ⟨ans, hans, hr⟩) | hl
    · obtain ⟨_, hp⟩ := inv.phases poll hpoll rfl
      rcases poll_after h hpoll with hhere | hphase | ⟨k, slot, waiters, hphase, hslot, hstate⟩
      · exact .inl hhere
      · exact .inr (hpark (hphase ▸ hp))
      · exact .inr (hwait k slot waiters (hphase ▸ hp) hslot hstate)
    · exact .inl (.inr ⟨ans, answers_mono h hans, hr⟩)
    · exact .inr (hlost hl)

theorem Tracks.init (sound : Sound e) (h : Engine.step e (.Poll goal_id r) = some e')
    (hlook : P e' .Look) : Tracks P A L r goal_id e' := by
  cases step_cases h with
  | poll hnew =>
    have hold : ∀ {p}, (r, p) ∈ e.polled → False := fun hp => hnew (mem_map_of_mem hp)
    refine ⟨mem_cons_self, ?_, ?_, .inl (.inl ⟨_, mem_append_right _
      (mem_singleton_self _), rfl⟩)⟩
    · intro poll hpoll hr
      rcases mem_push hpoll with hpoll | rfl
      · exact (hold (hr ▸ sound.routed.polled poll hpoll)).elim
      · exact ⟨rfl, hlook⟩
    · intro ans hans hr
      have hheld := sound.ledger.held r
      have hanswered : 0 < (e.answers.map (·.responder)).count r :=
        count_pos_iff.mpr (hr ▸ mem_map_of_mem hans)
      have hnone : (e.polled.map Prod.fst).count r = 0 := count_eq_zero.mpr hnew
      rw [hnone, Engine.held] at hheld
      omega

end

end

/-! ## A task that is left alone -/

/-- The poll, taking its own sections alone, is answered as `Q` tells. -/
def Answers (e : Engine) (i r : Nat) (Q : Answer → Prop) : Prop :=
  ∃ e' a, Leads step (.PollStep i) e e' ∧ a ∈ e'.answers ∧ a.responder = r ∧ Q a

section
variable {e : Engine} {i r : Nat} {Q : Answer → Prop} {poll : PollCall}

variable {next : PollPhase} {t : Transition}

variable {phase : PollPhase} {outcome : GoalOutcome}

section
variable (hpoll : e.polls[i]? = some poll)
include hpoll

theorem step_of_routes (hphase : poll.phase = phase) (hroute : Routes e poll.goal_id phase next) :
    step e (.PollStep i) = some (e.setPoll i poll (some next)) := by
  rw [step, hpoll, Option.bind_some, pollStep, hphase]
  cases hroute with
  | found h | missed h | foundAgain h | missedAgain h => simp only [h]
  | lock h | expired h => exact if_pos h
  | absent h => exact if_neg h
  | read hslot hstate => simp only [hslot, Option.map_some, hstate]

theorem Answers.route (hphase : poll.phase = phase) (hroute : Routes e poll.goal_id phase next)
    (h : Answers (e.setPoll i poll (some next)) i r Q) : Answers e i r Q := by
  obtain ⟨e', a, hleads, ha⟩ := h
  exact ⟨e', a, hleads.head (step_of_routes hpoll hphase hroute), ha⟩

theorem setPoll_self :
    (e.setPoll i poll (some next)).polls[i]? = some { poll with phase := next } :=
  getElem?_set_self (List.getElem?_eq_some_iff.mp hpoll).1

theorem Answers.reply {slot : Option Nat} {read_at : Nat} (hr : poll.responder = r)
    (hphase : poll.phase = .Reply slot outcome read_at)
    (hq : Q ⟨poll.responder, slot, outcome, read_at⟩) : Answers e i r Q := by
  have hstep : step e (.PollStep i) =
      some ((e.answer ⟨poll.responder, slot, outcome, read_at⟩).setPoll i poll none) := by
    rw [step, hpoll, Option.bind_some, pollStep, hphase]
  exact ⟨_, _, .head hstep (.refl _ _), mem_cons_self, hr, hq⟩

theorem Answers.slot {k : Nat} {slot : GoalSlot} {evict_at : Nat}
    (hr : poll.responder = r) (hphase : poll.phase = .Slot k)
    (hslot : e.slots[k]? = some slot) (hstate : slot.state = .Terminal outcome evict_at)
    (hq : Q ⟨poll.responder, some k, if e.now < evict_at then outcome else .Expired, e.now⟩) :
    Answers e i r Q := by
  apply Answers.route hpoll hphase (.read hslot hstate)
  exact .reply (setPoll_self hpoll) hr rfl hq

end

theorem step_of_transition (ht : e.transitions[i]? = some t) :
    step e (.TransitionStep i) = e.transitionStep i t := by
  rw [step, ht, Option.bind_some]

theorem setTransition_self (ht : e.transitions[i]? = some t) (phase : TransitionPhase) :
    (e.setTransition i t (some phase)).transitions[i]? = some { t with phase } :=
  getElem?_set_self (List.getElem?_eq_some_iff.mp ht).1

theorem responding_completes {waiters : List Nat}
    (ht : e.transitions[i]? = some t) (hphase : t.phase = .Respond waiters) :
    ∃ e', Leads step (.TransitionStep i) e e' ∧ t.slot ∈ e'.completed := by
  induction waiters generalizing e t with
  | nil =>
    have hstep : step e (.TransitionStep i) =
        some ((e.complete t.slot).setTransition i t none) := by
      rw [step_of_transition ht, transitionStep, hphase]
    exact ⟨_, .head hstep (.refl _ _), mem_cons_self⟩
  | cons r waiters ih =>
    have hstep : step e (.TransitionStep i) =
        some ((e.answer ⟨r, some t.slot, t.outcome, e.now⟩).setTransition i t
          (some (.Respond waiters))) := by
      rw [step_of_transition ht, transitionStep, hphase]
    obtain ⟨e', hleads, hdone⟩ := ih (setTransition_self
      (e := e.answer ⟨r, some t.slot, t.outcome, e.now⟩) ht (.Respond waiters)) rfl
    exact ⟨e', hleads.head hstep, hdone⟩

theorem won_completes (sound : Sound e) (ht : e.transitions[i]? = some t)
    (hwon : t.phase.won = true) :
    ∃ e', Leads step (.TransitionStep i) e e' ∧ t.slot ∈ e'.completed := by
  cases hphase : t.phase with
  | Swap =>
    rw [hphase] at hwon
    cases hwon
  | Respond waiters => exact responding_completes ht hphase
  | Lock =>
    obtain ⟨slot, hslot⟩ := sound.ledger.slot_of_accepted
      (sound.ends.transitions t (mem_of_getElem? ht))
    have hstep : step e (.TransitionStep i) =
        some ((e.finish t slot).setTransition i t (some (.Respond slot.state.waiters))) := by
      rw [step_of_transition ht, transitionStep, hphase]
      simp only [hslot, Option.map_some]
    obtain ⟨e', hleads, hdone⟩ := responding_completes
      (setTransition_self (e := e.finish t slot) ht (.Respond slot.state.waiters)) rfl
    exact ⟨e', hleads.head hstep, hdone⟩

end

end Engine

end peppy.actions
