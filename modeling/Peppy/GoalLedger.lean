-- The ledgers of the engine. Every responder, every slot and every flag that was won
-- is with exactly one holder. A section moves an item from one holder to another and
-- loses none.
import Peppy.GoalSteps

open tasks runs List Option

namespace peppy.actions

/-! ## What a task holds -/

def AcceptPhase.slot : AcceptPhase → List Nat
  | .Register => []
  | .TakeEarly k | .Signal k _ | .Adopt k | .Extend k _ | .Respond k => [k]

/-- The polls that the accept carries from the parked ones to the slot. -/
def AcceptPhase.adopted : AcceptPhase → List Nat
  | .Extend _ adopted => adopted
  | _ => []

def TransitionPhase.waiters : TransitionPhase → List Nat
  | .Respond waiters => waiters
  | _ => []

def TransitionPhase.won : TransitionPhase → Bool
  | .Swap => false
  | .Lock | .Respond _ => true

def Transition.wonSlot (t : Transition) : List Nat := if t.phase.won then [t.slot] else []

@[simp] theorem adopted_afterSignal (k : Nat) (phase : Option SignalPhase) :
    (Engine.afterSignal k phase).adopted = [] := by
  cases phase <;> rfl

@[simp] theorem slot_afterSignal (k : Nat) (phase : Option SignalPhase) :
    (Engine.afterSignal k phase).slot = [k] := by
  cases phase <;> rfl

@[simp] theorem adopted_afterAdopt (k : Nat) (adopted : List Nat) :
    (Engine.afterAdopt k adopted).adopted = adopted := by
  unfold Engine.afterAdopt
  split
  · rename_i h
    rw [h]
    rfl
  · rfl

@[simp] theorem slot_afterAdopt (k : Nat) (adopted : List Nat) :
    (Engine.afterAdopt k adopted).slot = [k] := by
  unfold Engine.afterAdopt
  split <;> rfl

/-! ## The slot under its cancel signal -/

/-- The goal is the same, whatever its signal. -/
structure GoalSlot.SameGoal (slot slot' : GoalSlot) : Prop where
  goal_id : slot'.goal_id = slot.goal_id
  owner : slot'.owner = slot.owner
  state : slot'.state = slot.state
  terminal : slot'.terminal = slot.terminal

theorem signal_cancel_same (slot : GoalSlot) (cause : CancelCause) (phase : SignalPhase) :
    slot.SameGoal (slot.signal_cancel cause phase).1 := by
  cases phase with
  | Tokens tokens => cases tokens <;> exact ⟨rfl, rfl, rfl, rfl⟩
  | _ => exact ⟨rfl, rfl, rfl, rfl⟩

theorem link_same (slot : GoalSlot) (token : Nat) : slot.SameGoal (slot.link token).1 := by
  unfold GoalSlot.link
  dsimp only
  split <;> exact ⟨rfl, rfl, rfl, rfl⟩

theorem unlink_same (slot : GoalSlot) (id : Nat) : slot.SameGoal (slot.unlink id) :=
  ⟨rfl, rfl, rfl, rfl⟩

theorem count_push (l : List Nat) (a b : Nat) : (a :: l).count b = l.count b + [a].count b := by
  rw [← singleton_append, count_append, Nat.add_comm]

variable {call : AcceptCall} {e' : Engine} {a : Act}

namespace Engine

/-! ## The holders of a responder -/

def held (e : Engine) (r : Nat) : Nat :=
  (e.polls.flatMap fun poll => [poll.responder]).count r +
    (e.pending_waiters.map (·.responder)).count r +
    (e.slots.flatMap fun slot => slot.state.waiters).count r +
    (e.accepts.flatMap fun call => call.phase.adopted).count r +
    (e.transitions.flatMap fun t => t.phase.waiters).count r +
    (e.answers.map (·.responder)).count r +
    e.dropped.count r

section
variable {e : Engine} {i k n r : Nat}

theorem held_setAccept {old : AcceptPhase} (hcall : e.accepts[i]? = some call)
    (hphase : call.phase = old) (phase : Option AcceptPhase)
    (hgiven : e.held r + (phase.toList.flatMap AcceptPhase.adopted).count r =
      n + old.adopted.count r) : (e.setAccept i call phase).held r = n := by
  have h := count_flatMap_put_map (f := fun call : AcceptCall => call.phase.adopted)
    (g := fun phase => { call with phase }) (w := AcceptPhase.adopted) hcall
    (fun _ => rfl) phase r
  rw [hphase] at h
  simp only [held, setAccept] at hgiven ⊢
  omega

theorem held_setPoll {poll : PollCall} (hpoll : e.polls[i]? = some poll) (phase : Option PollPhase)
    (hgiven : e.held r + (phase.toList.flatMap fun _ => [poll.responder]).count r =
      n + [poll.responder].count r) : (e.setPoll i poll phase).held r = n := by
  have h := count_flatMap_put_map (f := fun poll : PollCall => [poll.responder])
    (g := fun phase => { poll with phase }) (w := fun _ => [poll.responder]) hpoll
    (fun _ => rfl) phase r
  simp only [held, setPoll] at hgiven ⊢
  omega

variable {t : Transition} {slot : GoalSlot}

theorem held_setTransition {old : TransitionPhase} (ht : e.transitions[i]? = some t)
    (hphase : t.phase = old) (phase : Option TransitionPhase)
    (hgiven : e.held r + (phase.toList.flatMap TransitionPhase.waiters).count r =
      n + old.waiters.count r) : (e.setTransition i t phase).held r = n := by
  have h := count_flatMap_put_map (f := fun t : Transition => t.phase.waiters)
    (g := fun phase => { t with phase }) (w := TransitionPhase.waiters) ht
    (fun _ => rfl) phase r
  rw [hphase] at h
  simp only [held, setTransition] at hgiven ⊢
  omega

theorem held_setSlot (r : Nat) (hslot : e.slots[k]? = some slot) (slot' : GoalSlot) :
    (e.setSlot k slot').held r + slot.state.waiters.count r =
      e.held r + slot'.state.waiters.count r := by
  have h := count_flatMap_put (f := fun slot : GoalSlot => slot.state.waiters)
    (x := some slot') hslot r
  simp only [put, toList_some, flatMap_singleton] at h
  simp only [held, setSlot]
  omega

theorem held_register (call : AcceptCall) : (e.register call).held r = e.held r := by
  simp [held, register, GoalSlot.new, GoalState.waiters]

theorem held_signal (hslot : e.slots[k]? = some slot) (cause : CancelCause)
    (phase : SignalPhase) : (e.signal k slot cause phase).held r = e.held r := by
  have h := held_setSlot r hslot (slot.signal_cancel cause phase).1
  rw [(signal_cancel_same slot cause phase).state] at h
  exact Nat.add_right_cancel h

theorem held_adopt (goal_id : String) :
    (e.adopt k goal_id).held r + (e.parked_for goal_id).count r = e.held r := by
  have hsplit := (filter_append_perm (fun waiter : PendingWaiter => waiter.goal_id = goal_id)
    e.pending_waiters).map (·.responder) |>.count_eq r
  rw [map_append, count_append] at hsplit
  simp only [held, adopt, parked_for, ne_eq, decide_not]
  omega

theorem held_drop (responders : List Nat) :
    (e.drop responders).held r = e.held r + responders.count r := by
  simp only [held, drop, count_append]
  omega

theorem held_enqueue (poll : PollCall) :
    (e.enqueue poll).held r = e.held r + [poll.responder].count r := by
  simp only [held, enqueue, map_append, map_cons, map_nil, count_append]
  omega

theorem held_join {waiters : List Nat} (hslot : e.slots[k]? = some slot)
    (hstate : slot.state = .Pending waiters) (responders : List Nat) :
    (e.setSlot k { slot with state := .Pending (waiters ++ responders) }).held r =
      e.held r + responders.count r := by
  have h := held_setSlot r hslot { slot with state := .Pending (waiters ++ responders) }
  rw [hstate] at h
  simp only [GoalState.waiters, count_append] at h
  omega

theorem held_answer (a : Answer) : (e.answer a).held r = e.held r + [a.responder].count r := by
  simp only [held, answer, map_cons]
  rw [count_push]
  omega

theorem held_win (hslot : e.slots[t.slot]? = some slot) : (e.win t slot).held r = e.held r :=
  Nat.add_right_cancel (held_setSlot r hslot { slot with terminal := true })

theorem held_step (h : Stepped e a e') (hheld : e.held r = (e.polled.map Prod.fst).count r) :
    e'.held r = (e'.polled.map Prod.fst).count r := by
  cases h with
  | accept =>
    rw [← hheld]
    simp [held, AcceptPhase.adopted]
  | register hcall hphase =>
    refine held_setAccept (e := e.register _) hcall hphase _ ?_
    rw [held_register, hheld]
    rfl
  | takeEarly hcall hphase | noEarly hcall hphase | takeOn hcall hphase | forget hcall hphase
  | dropAccept hcall hphase =>
    refine held_setAccept hcall hphase _ ?_
    show e.held r + 0 = (e.polled.map Prod.fst).count r + 0
    rw [hheld]
  | acceptSignal hcall hphase hslot =>
    refine held_setAccept (e := e.signal ..) hcall hphase _ ?_
    rw [toList_some, flatMap_singleton, adopted_afterSignal, held_signal hslot, hheld]
    rfl
  | adopt hcall hphase =>
    refine held_setAccept (e := e.adopt ..) hcall hphase _ ?_
    rw [toList_some, flatMap_singleton, adopted_afterAdopt, held_adopt]
    exact hheld
  | extend hcall hphase hslot hstate =>
    refine held_setAccept (e := e.setSlot ..) hcall hphase _ ?_
    rw [held_join hslot hstate, hheld]
    rfl
  | extendEnded hcall hphase =>
    refine held_setAccept (e := e.drop _) hcall hphase _ ?_
    rw [held_drop, hheld]
    rfl
  | @dropAdopted i call k adopted hcall hphase =>
    have h := held_setAccept (e := e.drop adopted) hcall hphase none (by rw [held_drop, hheld]; rfl)
    exact h
  | @poll goal_id responder hnew =>
    simp only [held, flatMap_append, flatMap_singleton, count_append, map_cons,
      count_cons, count_nil] at hheld ⊢
    omega
  | route hpoll => exact held_setPoll hpoll _ (congrArg (· + _) hheld)
  | park hpoll => exact held_setPoll (e := e.enqueue _) hpoll _ (by rw [held_enqueue, hheld]; rfl)
  | parkFull hpoll => exact held_setPoll (e := e.drop _) hpoll _ (by rw [held_drop, hheld]; rfl)
  | wait hpoll hphase hslot hstate =>
    exact held_setPoll (e := e.wait ..) hpoll _ ((held_join hslot hstate _).trans (by rw [hheld]; rfl))
  | reply hpoll => exact held_setPoll (e := e.answer _) hpoll _ (by rw [held_answer, hheld]; rfl)
  | cancelSignal hcall hphase hslot | signalled hcall hphase hslot
  | watchSignal hcall hphase hslot => exact (held_signal hslot _ _).trans hheld
  | @link k token slot hslot =>
    have h := held_setSlot r hslot (slot.link token).1
    rw [(link_same slot token).state] at h
    exact (Nat.add_right_cancel h).trans hheld
  | @unlink k id slot hslot =>
    exact (Nat.add_right_cancel (held_setSlot r hslot (slot.unlink id))).trans hheld
  | deliver | abandon =>
    rw [← hheld]
    simp [held, TransitionPhase.waiters]
  | lose ht hphase | dropSwap ht hcall hphase | dropLock ht hcall hphase | complete ht hphase =>
    refine held_setTransition ht hphase _ ?_
    show e.held r + 0 = (e.polled.map Prod.fst).count r + 0
    rw [hheld]
  | win ht hphase hslot =>
    refine held_setTransition (e := e.win ..) ht hphase _ ?_
    rw [held_win hslot, hheld]
    rfl
  | finish ht hphase hslot =>
    refine held_setTransition (e := e.finish ..) ht hphase _ ?_
    rw [toList_some, flatMap_singleton]
    exact (held_setSlot r hslot _).trans hheld
  | @respond i t responder waiters ht hphase =>
    refine held_setTransition (e := e.answer _) ht hphase _ ?_
    rw [held_answer, hheld, Nat.add_assoc, toList_some, flatMap_singleton,
      Nat.add_comm (count r [_])]
    exact congrArg (_ + ·) (count_push waiters responder r).symm
  | @dropRespond i t waiters ht hcall hphase =>
    have h := held_setTransition (e := e.drop waiters) ht hphase none (by rw [held_drop, hheld]; rfl)
    exact h
  | @sweepPending evicted now hphase hfree =>
    have hsplit := (filter_append_perm (fun waiter : PendingWaiter => now < waiter.deadline)
      e.pending_waiters).map (·.responder) |>.count_eq r
    rw [map_append, count_append] at hsplit
    simp only [held, drop, count_append] at hheld ⊢
    omega
  | _ => exact hheld

end

/-! ## The accept of a slot -/

def entered (e : Engine) (k : Nat) : Nat :=
  (e.accepts.flatMap fun call => call.phase.slot).count k + e.accepted.count k +
    e.unaccepted.count k

section
variable {e : Engine} {i : Nat} (k : Nat)

theorem entered_setAccept (hcall : e.accepts[i]? = some call) (phase : Option AcceptPhase) :
    (e.setAccept i call phase).entered k + call.phase.slot.count k =
      e.entered k + (phase.toList.flatMap AcceptPhase.slot).count k := by
  have h := count_flatMap_put_map (f := fun call : AcceptCall => call.phase.slot)
    (g := fun phase => { call with phase }) (w := AcceptPhase.slot) hcall
    (fun _ => rfl) phase k
  simp only [entered, setAccept]
  omega

theorem entered_goesOn {phase : AcceptPhase} (hcall : e.accepts[i]? = some call)
    (hslot : phase.slot = call.phase.slot) :
    (e.setAccept i call (some phase)).entered k = e.entered k := by
  have h := entered_setAccept k hcall (some phase)
  rw [toList_some, flatMap_singleton, hslot] at h
  exact Nat.add_right_cancel h

theorem entered_takeOn (j : Nat) : (e.takeOn j).entered k = e.entered k + [j].count k := by
  simp only [entered, takeOn]
  rw [count_push]
  omega

theorem entered_unaccept (j : Nat) : (e.unaccept j).entered k = e.entered k + [j].count k := by
  simp only [entered, unaccept]
  rw [count_push]
  omega

theorem entered_step (h : Stepped e a e')
    (hentered : e.entered k = (List.range e.slots.length).count k) :
    e'.entered k = (List.range e'.slots.length).count k := by
  cases h with
  | accept =>
    rw [← hentered]
    simp [entered, AcceptPhase.slot]
  | @register i replied call hcall hphase =>
    have h := entered_setAccept (e := e.register call) k hcall (some (.TakeEarly e.slots.length))
    rw [hphase, toList_some, flatMap_singleton] at h
    simp only [setAccept, register, length_append, length_singleton, range_succ,
      count_append]
    rw [← hentered]
    exact h
  | takeEarly hcall hphase | noEarly hcall hphase | extendEnded hcall hphase =>
    exact (entered_goesOn k hcall (by rw [hphase]; rfl)).trans hentered
  | acceptSignal hcall hphase =>
    rw [signal, setAccept, length_set]
    exact (entered_goesOn k hcall (by rw [hphase, slot_afterSignal]; rfl)).trans hentered
  | adopt hcall hphase =>
    exact (entered_goesOn k hcall (by rw [hphase, slot_afterAdopt]; rfl)).trans hentered
  | extend hcall hphase =>
    rw [setSlot, setAccept, length_set]
    exact (entered_goesOn k hcall (by rw [hphase]; rfl)).trans hentered
  | @takeOn i call j hcall hphase =>
    have h := entered_setAccept (e := e.takeOn j) k hcall none
    rw [hphase, entered_takeOn] at h
    exact (Nat.add_right_cancel h).trans hentered
  | @forget _ _ j hcall hphase | @dropAdopted _ _ j _ hcall hphase
  | @dropAccept _ _ j hcall hphase =>
    have h := entered_setAccept (e := e.unaccept j) k hcall none
    rw [hphase, entered_unaccept] at h
    exact (Nat.add_right_cancel h).trans hentered
  | wait | cancelSignal | signalled | watchSignal | link | unlink | win | finish =>
    exact hentered.trans (congrArg (fun n => (List.range n).count k) (length_set ..).symm)
  | _ => exact hentered

end

/-! ## The flag of a slot -/

/-- How often the flag of the slot was won. -/
def ends (e : Engine) (k : Nat) : Nat :=
  (e.transitions.flatMap Transition.wonSlot).count k + e.completed.count k + e.broken.count k

section
variable {e : Engine} {i : Nat} (k : Nat)

variable {t : Transition}

theorem ends_setTransition (ht : e.transitions[i]? = some t) (phase : Option TransitionPhase) :
    (e.setTransition i t phase).ends k + t.wonSlot.count k =
      e.ends k + (phase.toList.flatMap fun p => if p.won then [t.slot] else []).count k := by
  have h := count_flatMap_put_map (f := Transition.wonSlot)
    (g := fun phase => { t with phase }) (w := fun p => if p.won then [t.slot] else []) ht
    (fun _ => rfl) phase k
  simp only [ends, setTransition]
  omega

theorem wonSlot_of_won {phase : TransitionPhase} (hphase : t.phase = phase)
    (hwon : phase.won = true) : t.wonSlot = [t.slot] := by
  rw [Transition.wonSlot, hphase, if_pos hwon]

theorem wonSlot_of_swap (hphase : t.phase = .Swap) : t.wonSlot = [] := by
  rw [Transition.wonSlot, hphase]
  rfl

theorem ends_complete (j : Nat) : (e.complete j).ends k = e.ends k + [j].count k := by
  simp only [ends, complete]
  rw [count_push]
  omega

theorem ends_breakOff (j : Nat) : (e.breakOff j).ends k = e.ends k + [j].count k := by
  simp only [ends, breakOff]
  rw [count_push]
  omega

theorem ends_step (h : Stepped e a e') (hends : e.ends k = (e.wins.map Prod.fst).count k) :
    e'.ends k = (e'.wins.map Prod.fst).count k := by
  cases h with
  | deliver | abandon =>
    rw [← hends]
    simp [ends, Transition.wonSlot, TransitionPhase.won]
  | lose ht hphase | dropSwap ht hcall hphase =>
    have h := ends_setTransition k ht none
    rw [wonSlot_of_swap hphase] at h
    exact h.trans hends
  | @win i t slot ht hphase =>
    have h := ends_setTransition (e := e.win t slot) k ht (some .Lock)
    rw [wonSlot_of_swap hphase] at h
    rw [setTransition, win, map_cons, count_push, ← hends]
    exact h
  | @finish i t slot ht hphase =>
    have h := ends_setTransition (e := e.finish t slot) k ht (some (.Respond slot.state.waiters))
    rw [wonSlot_of_won hphase rfl] at h
    exact (Nat.add_right_cancel h).trans hends
  | @respond i t r waiters ht hphase =>
    have h := ends_setTransition k ht (some (.Respond waiters))
    rw [wonSlot_of_won hphase rfl] at h
    exact (Nat.add_right_cancel h).trans hends
  | @complete i t ht hphase =>
    have h := ends_setTransition (e := e.complete t.slot) k ht none
    rw [wonSlot_of_won hphase rfl, ends_complete] at h
    exact (Nat.add_right_cancel h).trans hends
  | @dropLock i t ht hcall hphase =>
    have h := ends_setTransition (e := e.breakOff t.slot) k ht none
    rw [wonSlot_of_won hphase rfl, ends_breakOff] at h
    exact (Nat.add_right_cancel h).trans hends
  | @dropRespond i t waiters ht hcall hphase =>
    have h := ends_setTransition (e := (e.drop waiters).breakOff t.slot) k ht none
    rw [wonSlot_of_won hphase rfl, ends_breakOff] at h
    exact (Nat.add_right_cancel h).trans hends
  | _ => exact hends

end

/-! ## The three ledgers -/

/-- Every responder and slot is in one place. -/
structure Ledger (e : Engine) : Prop where
  fresh : (e.polled.map Prod.fst).Nodup
  held : ∀ r, e.held r = (e.polled.map Prod.fst).count r
  entered : ∀ k, e.entered k = (List.range e.slots.length).count k
  ends : ∀ k, e.ends k = (e.wins.map Prod.fst).count k

theorem Ledger.start (grace : Nat) : Ledger (start grace) :=
  ⟨nodup_nil, fun _ => rfl, fun _ => rfl, fun _ => rfl⟩

theorem Ledger.step {e : Engine} (inv : Ledger e) (h : Stepped e a e') : Ledger e' where
  fresh := by
    cases h with
    | poll hnew => exact nodup_cons.mpr ⟨hnew, inv.fresh⟩
    | _ => exact inv.fresh
  held r := held_step h (inv.held r)
  entered k := entered_step k h (inv.entered k)
  ends k := ends_step k h (inv.ends k)

section
variable {e : Engine} (inv : Ledger e)
include inv

theorem Ledger.held_le_one (r : Nat) : e.held r ≤ 1 := by
  rw [inv.held r]
  exact nodup_iff_count_le_one.mp inv.fresh r

theorem Ledger.entered_le_one (k : Nat) : e.entered k ≤ 1 := by
  rw [inv.entered k]
  exact nodup_iff_count_le_one.mp nodup_range k

variable {k : Nat}

theorem Ledger.not_accepted (hcall : call ∈ e.accepts)
    (hslot : k ∈ call.phase.slot) : k ∉ e.accepted := by
  intro haccepted
  have hone := inv.entered_le_one k
  have hcall : 0 < (e.accepts.flatMap fun call => call.phase.slot).count k :=
    count_pos_iff.mpr (mem_flatMap.mpr ⟨call, hcall, hslot⟩)
  have haccepted : 0 < e.accepted.count k := count_pos_iff.mpr haccepted
  rw [Engine.entered] at hone
  omega

theorem Ledger.accepted_unaccepted (haccepted : k ∈ e.accepted) : k ∉ e.unaccepted := by
  intro hunaccepted
  have hone := inv.entered_le_one k
  have haccepted : 0 < e.accepted.count k := count_pos_iff.mpr haccepted
  have hunaccepted : 0 < e.unaccepted.count k := count_pos_iff.mpr hunaccepted
  rw [Engine.entered] at hone
  omega

theorem Ledger.slot_of_entered (h : 0 < e.entered k) : ∃ slot, e.slots[k]? = some slot := by
  rw [inv.entered k] at h
  have hk : k < e.slots.length := mem_range.mp (count_pos_iff.mp h)
  exact ⟨_, getElem?_eq_getElem hk⟩

theorem Ledger.slot_of_accepted (haccepted : k ∈ e.accepted) : ∃ slot, e.slots[k]? = some slot := by
  apply inv.slot_of_entered
  have haccepted : 0 < e.accepted.count k := count_pos_iff.mpr haccepted
  rw [Engine.entered]
  omega

theorem Ledger.slot_of_call (hcall : call ∈ e.accepts)
    (hslot : k ∈ call.phase.slot) : ∃ slot, e.slots[k]? = some slot := by
  apply inv.slot_of_entered
  have hcall : 0 < (e.accepts.flatMap fun call => call.phase.slot).count k :=
    count_pos_iff.mpr (mem_flatMap.mpr ⟨call, hcall, hslot⟩)
  rw [Engine.entered]
  omega

end

end Engine

end peppy.actions
