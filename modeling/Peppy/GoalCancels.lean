-- The laws of the cancel requests. With distinct goal ids no request of the
-- owner of a goal is lost: not one that finds the goal, and not one that
-- comes before it.
import Peppy.GoalExpiry
import Peppy.GoalEarly

open changes tasks runs List

namespace peppy.actions

namespace Engine

/-! ## A request and its answer -/

/-- The goal has ended. -/
def Over (e : Engine) (k : Nat) : Prop := ∃ g, e.goals[k]? = some g ∧ g.terminal = true

/-- The request fired the signal or will. When it missed the registry, `L` is known. -/
def RequestPhase (L : Engine → Prop) (goal_id : String) (caller : Option VerifiedCaller)
    (e : Engine) : CancelPhase → Prop
  | .Look => True
  | .Tombstone | .Lock | .LookAgain | .Remember => L e
  | .Check k => Named e k goal_id
  | .Signal k phase =>
    SentBy e k goal_id caller ∧ (Fired e k ∨ phase = .Cause ∨ phase = .Cancel)

/-- What each answer says of the goal that was asked for. -/
def RequestReply (L : Engine → Prop) (goal_id : String) (caller : Option VerifiedCaller)
    (e : Engine) : CancelAnswer → Prop
  | .ok .Signalled => ∃ k, SentBy e k goal_id caller ∧ Fired e k
  | .ok .AlreadyTerminal => ∃ k, Named e k goal_id ∧ Over e k
  | .ok .Unknown => L e
  | .error _ => ∃ k owner, SentBy e k goal_id owner ∧ owner ≠ caller

section
variable {e e' : Engine} {a : Act} {k : Nat} {goal_id : String} {caller : Option VerifiedCaller}
variable {L : Engine → Prop}

theorem Over.grow (h : Over e k) (hgrow : GoalsGrow e.goals e'.goals) : Over e' k := by
  obtain ⟨g, hg, hover⟩ := h
  obtain ⟨g', hg', hgrows⟩ := hgrow k g hg
  exact ⟨g', hg', hgrows.terminal hover⟩

theorem Ends.over (ends : Ends e) {g : Goal} {x : GoalOutcome × Nat} (hg : e.goals[k]? = some g)
    (hended : g.ended = some x) : Over e k :=
  ⟨g, hg, (ends.flag k g hg).mpr (mem_map_of_mem (ends.stored k g x.1 x.2 hg hended))⟩

theorem accepted_mono (h : Stepped e a e') : e.accepted ⊆ e'.accepted := by
  cases h with
  | takeOn => exact subset_cons_self _ _
  | _ => exact fun _ => id

theorem Orderly.registry_of_accepted (orderly : Orderly e) (haccepted : k ∈ e.accepted)
    (hnamed : Named e k goal_id) : e.registry goal_id = some k ∨ Over e k := by
  obtain ⟨g, hg, rfl⟩ := hnamed
  rcases orderly.placed.present k g hg with hk | hk | hgone
  · exact absurd hk (orderly.ledger.accepted_unaccepted haccepted)
  · exact .inl hk
  · obtain ⟨-, k', g', o', ev', hg', hid', hended', -⟩ := orderly.placed.gone _ hgone
    cases orderly.distinct.slot_unique ⟨g, hg, rfl⟩ ⟨g', hg', hid'⟩
    exact .inr (orderly.ends.over hg' hended')

theorem Orderly.over_of_tombstone (orderly : Orderly e) (buried : Buried e)
    (h : e.tombstones.contains goal_id = true) : ∃ k, Named e k goal_id ∧ Over e k := by
  have hevicted := mem_of_mem_drop (buried.contains_iff.mp h)
  obtain ⟨-, k, g, o, ev, hg, hid, hended, -⟩ :=
    orderly.placed.gone goal_id (mem_append_right _ hevicted)
  exact ⟨k, ⟨g, hg, hid⟩, orderly.ends.over hg hended⟩

theorem RequestPhase.stays {p : CancelPhase} (hp : RequestPhase L goal_id caller e p)
    (ends : Ends e) (h : Stepped e a e') (hL : L e → L e') :
    RequestPhase L goal_id caller e' p := by
  have hgrow := ends.grow h
  cases p with
  | Look => trivial
  | Tombstone | Lock | LookAgain | Remember => exact hL hp
  | Check k => exact Named.grow hp hgrow
  | Signal k phase => exact ⟨hp.1.grow hgrow, hp.2.imp_left fun hfired => hfired.step ends h⟩

variable {ans : CancelAnswer} {call : CancelCall} {i : Nat}

theorem RequestReply.stays (hans : RequestReply L goal_id caller e ans)
    (ends : Ends e) (h : Stepped e a e') (hL : L e → L e') :
    RequestReply L goal_id caller e' ans := by
  have hgrow := ends.grow h
  match ans, hans with
  | .ok .Signalled, ⟨k, hsent, hfired⟩ => exact ⟨k, hsent.grow hgrow, hfired.step ends h⟩
  | .ok .AlreadyTerminal, ⟨k, hnamed, hover⟩ => exact ⟨k, hnamed.grow hgrow, hover.grow hgrow⟩
  | .ok .Unknown, hL' => exact hL hL'
  | .error _, ⟨k, owner, hsent, hne⟩ => exact ⟨k, owner, hsent.grow hgrow, hne⟩

theorem fired_of_signal (h : Stepped e (.CancelStep i) e')
    (hcall : e.cancels[i]? = some call) (hphase : call.phase = .Signal k .Cancel) : Fired e' k := by
  cases h with
  | search hcall' hphase' hsearch =>
    cases hcall'.symm.trans hcall
    cases hphase'.symm.trans hphase
    cases hsearch
  | resolve hcall' hphase' hresolve =>
    cases hcall'.symm.trans hcall
    cases hphase'.symm.trans hphase
    cases hresolve
  | remember hcall' hphase' | rememberFull hcall' hphase' =>
    cases hcall'.symm.trans hcall
    cases hphase'.symm.trans hphase
  | cancelSignal hcall' hphase' hslot =>
    cases hcall'.symm.trans hcall
    cases hphase'.symm.trans hphase
    exact ⟨_, getElem?_set_self (List.getElem?_eq_some_iff.mp hslot).1, rfl⟩
  | signalled hcall' hphase' hslot hlast =>
    cases hcall'.symm.trans hcall
    cases hphase'.symm.trans hphase
    cases hlast

theorem RequestPhase.proceed {next : CancelPhase} (sound : Sound e)
    (hp : RequestPhase L call.goal_id call.verified_caller e call.phase)
    (hmissed : e.registry call.goal_id = none → L e) (hL : L e → L e')
    (h : Stepped e (.CancelStep i) e') (hcall : e.cancels[i]? = some call)
    (hproceeds : Proceeds e call call.phase next) :
    RequestPhase L call.goal_id call.verified_caller e' next := by
  have hgrow := sound.ends.grow h
  generalize hphase : call.phase = phase at hp hproceeds
  cases hproceeds with
  | search hsearch =>
    cases hsearch with
    | found hk | foundAgain hk => exact (sound.routed.registry _ _ hk).grow hgrow
    | missed hnone => exact hL (hmissed hnone)
    | absent | lock | missedAgain => exact hL hp
    | allowed hslot howner hlive =>
      obtain ⟨g, hg, hid⟩ := hp
      cases (goals_getElem? hslot).symm.trans hg
      exact ⟨SentBy.grow ⟨_, hg, hid, howner⟩ hgrow, .inr (.inl rfl)⟩
  | signal hslot hnext =>
    obtain ⟨hsent, hfired | rfl | rfl⟩ := hp
    · exact ⟨hsent.grow hgrow, .inl (hfired.step sound.ends h)⟩
    · cases hnext
      exact ⟨hsent.grow hgrow, .inr (.inr rfl)⟩
    · exact ⟨hsent.grow hgrow, .inl (fired_of_signal h hcall hphase)⟩

theorem RequestPhase.conclude (orderly : Orderly e)
    (buried : Buried e) (hp : RequestPhase L call.goal_id call.verified_caller e call.phase)
    (hconcludes : Concludes e call call.phase ans) :
    RequestReply L call.goal_id call.verified_caller e ans := by
  generalize call.phase = phase at hp hconcludes
  cases hconcludes with
  | resolve hresolve =>
    cases hresolve with
    | expired h => exact orderly.over_of_tombstone buried h
    | refused hslot howner =>
      obtain ⟨g, hg, hid⟩ := hp
      cases (goals_getElem? hslot).symm.trans hg
      exact ⟨_, _, ⟨_, hg, hid, rfl⟩, howner⟩
    | ended hslot howner hended => exact ⟨_, hp, _, goals_getElem? hslot, hended⟩
  | remember => exact hp
  | signalled hslot hlast =>
    obtain ⟨hsent, hfired | rfl | rfl⟩ := hp
    · exact ⟨_, hsent, hfired⟩
    · cases hlast
    · cases hlast

/-- What is known of a request, when `L` is known once it misses the
registry. -/
def FollowsRequest (L : Engine → Prop) (q : Nat) (goal_id : String)
    (caller : Option VerifiedCaller) (e : Engine) : Prop :=
  Follows (RequestPhase L goal_id caller) (RequestReply L goal_id caller) q goal_id caller e

theorem FollowsRequest.step {q : Nat} (inv : FollowsRequest L q goal_id caller e)
    (orderly : Orderly e) (buried : Buried e) (hmissed : e.registry goal_id = none → L e)
    (hL : L e → L e') (h : Stepped e a e') : FollowsRequest L q goal_id caller e' := by
  refine Follows.step inv h ?_ ?_ ?_ ?_
  · exact fun p hp => hp.stays orderly.ends h hL
  · exact fun ans hans => hans.stays orderly.ends h hL
  · intro i call next ha hcall hid hcaller hp hproceeds
    subst ha hid hcaller
    exact hp.proceed orderly.toSound hmissed hL h hcall hproceeds
  · intro call ans hid hcaller hp hconcludes
    subst hid hcaller
    exact hp.conclude orderly buried hconcludes

/-- An answer that found the caller's goal tells that it fired, or is over. -/
theorem RequestReply.heard (h : RequestReply L goal_id caller e ans)
    (orderly : Orderly e) (hsent : SentBy e k goal_id caller)
    (hunknown : ans = .ok .Unknown → Over e k) : Fired e k ∨ Over e k := by
  match ans, h with
  | .ok .Signalled, ⟨j, hj, hfired⟩ =>
    cases orderly.distinct.slot_unique hj.named hsent.named
    exact .inl hfired
  | .ok .AlreadyTerminal, ⟨j, hj, hover⟩ =>
    cases orderly.distinct.slot_unique hj hsent.named
    exact .inr hover
  | .ok .Unknown, _ => exact .inr (hunknown rfl)
  | .error _, ⟨j, owner, hj, hne⟩ =>
    cases orderly.distinct.slot_unique hj.named hsent.named
    obtain ⟨g, hg, -, rfl⟩ := hj
    obtain ⟨g', hg', -, rfl⟩ := hsent
    cases hg.symm.trans hg'
    exact absurd rfl hne

end

/-! ## A request of a goal that is on its way -/

/-- The sections of the request alone fire the signal of the slot. -/
def Fires (e : Engine) (i k : Nat) : Prop := ∃ e', Leads step (.CancelStep i) e e' ∧ Fired e' k

section
variable {e : Engine} {i k : Nat} {call : CancelCall} {slot : GoalSlot}

theorem Fires.head {e' : Engine} (hstep : step e (.CancelStep i) = some e') (h : Fires e' i k) :
    Fires e i k := by
  obtain ⟨e'', hleads, hfired⟩ := h
  exact ⟨e'', hleads.head hstep, hfired⟩

section
variable (hcall : e.cancels[i]? = some call)
include hcall

theorem fires_cancel (hslot : e.slots[k]? = some slot)
    (hphase : call.phase = .Signal k .Cancel) : Fires e i k := by
  have hstep : step e (.CancelStep i) =
      some ((e.signal k slot .Caller .Cancel).setCancel i call (some (.Signal k .Take))) := by
    rw [step, hcall, Option.bind_some, cancelStep, hphase]
    simp only [hslot, Option.map_some, GoalSlot.signal_cancel]
  exact ⟨_, .head hstep (.refl _ _), fired_of_signal (step_cases hstep) hcall hphase⟩

theorem fires_cause (hslot : e.slots[k]? = some slot)
    (hphase : call.phase = .Signal k .Cause) : Fires e i k := by
  have hstep : step e (.CancelStep i) =
      some ((e.signal k slot .Caller .Cause).setCancel i call (some (.Signal k .Cancel))) := by
    rw [step, hcall, Option.bind_some, cancelStep, hphase]
    simp only [hslot, Option.map_some, GoalSlot.signal_cancel]
  have hslot' : (e.signal k slot .Caller .Cause).slots[k]? =
      some (slot.signal_cancel .Caller .Cause).1 :=
    getElem?_set_self (List.getElem?_eq_some_iff.mp hslot).1
  exact .head hstep (fires_cancel (setCancel_self (e := e.signal k slot .Caller .Cause) hcall)
    hslot' rfl)

theorem fires_check (hslot : e.slots[k]? = some slot)
    (howner : slot.owner = call.verified_caller) (hlive : slot.terminal = false)
    (hphase : call.phase = .Check k) : Fires e i k :=
  .head (step_of_searches hcall hphase (.allowed hslot howner hlive))
    (fires_cause (setCancel_self hcall) hslot rfl)

theorem fires_look (hslot : e.slots[k]? = some slot)
    (howner : slot.owner = call.verified_caller) (hlive : slot.terminal = false)
    (hk : e.registry call.goal_id = some k) (hphase : call.phase = .Look) : Fires e i k :=
  .head (step_of_searches hcall hphase (.found hk))
    (fires_check (setCancel_self hcall) hslot howner hlive rfl)

end

/-- A request that misses only goals that are over fires the signal by its own steps. -/
theorem FollowsRequest.fires {q : Nat} {goal_id : String} {caller : Option VerifiedCaller}
    (inv : FollowsRequest (fun e => Over e k) q goal_id caller e) (orderly : Orderly e)
    (haccepted : k ∈ e.accepted) (hslot : e.slots[k]? = some slot)
    (hid : slot.goal_id = goal_id) (howner : slot.owner = caller)
    (hlive : slot.terminal = false) : ∃ i, Fires e i k := by
  have hsent : SentBy e k goal_id caller := ⟨slot.goal, goals_getElem? hslot, hid, howner⟩
  have hnot : ¬ Over e k := by
    rintro ⟨g, hg, hover⟩
    cases (goals_getElem? hslot).symm.trans hg
    cases hlive.symm.trans hover
  rcases inv.here with ⟨call, hcall, hq⟩ | ⟨reply, hreply, hq⟩
  · obtain ⟨rfl, rfl, hphase⟩ := inv.phases call hcall hq
    obtain ⟨i, hi⟩ := getElem?_of_mem hcall
    refine ⟨i, ?_⟩
    cases hp : call.phase with
    | Look =>
      have hk := (orderly.registry_of_accepted haccepted hsent.named).resolve_right hnot
      exact fires_look hi hslot howner hlive hk hp
    | Check j =>
      rw [hp] at hphase
      cases orderly.distinct.slot_unique hphase hsent.named
      exact fires_check hi hslot howner hlive hp
    | Signal j phase =>
      rw [hp] at hphase
      obtain ⟨hj, hfired⟩ := hphase
      cases orderly.distinct.slot_unique hj.named hsent.named
      rcases hfired with hfired | rfl | rfl
      · exact ⟨e, .refl _ _, hfired⟩
      · exact fires_cause hi hslot hp
      · exact fires_cancel hi hslot hp
    | Tombstone | Lock | LookAgain | Remember =>
      rw [hp] at hphase
      exact absurd hphase hnot
  · have hheard := RequestReply.heard (Follows.replies inv reply hreply hq) orderly hsent
      fun hunknown => by
        have h := Follows.replies inv reply hreply hq
        rw [hunknown] at h
        exact h
    exact ⟨0, e, .refl _ _, hheard.resolve_right hnot⟩

end

/-! ## The laws -/

/-- With distinct goal ids, no request of an owner is lost from here on. -/
structure NoCancelLost (e : Engine) : Prop where
  here : ∀ q goal_id caller e₁ later e₂, step e (.Cancel q goal_id caller) = some e₁ →
    run step e₁ later = some e₂ → Meets step (fun e a => freshGoal e a = true) e₁ later →
    RequestHere e₂ q
  /-- Once answered, the signal fired or the goal ended, if accepted before. -/
  answered : ∀ q goal_id caller e₁ later e₂ k slot, step e (.Cancel q goal_id caller) = some e₁ →
    run step e₁ later = some e₂ → Meets step (fun e a => freshGoal e a = true) e₁ later →
    k ∈ e₂.accepted → e₂.slots[k]? = some slot → slot.goal_id = goal_id → slot.owner = caller →
    ∀ reply ∈ e₂.replies, reply.request = q → (reply.answer = .ok .Unknown → k ∈ e.accepted) →
    slot.cancel = true ∨ slot.terminal = true
  /-- A request for a goal that did not end fires by its own sections. -/
  live : ∀ q goal_id caller e₁ later e₂ k slot, step e (.Cancel q goal_id caller) = some e₁ →
    run step e₁ later = some e₂ → Meets step (fun e a => freshGoal e a = true) e₁ later →
    k ∈ e.accepted → e₂.slots[k]? = some slot → slot.goal_id = goal_id → slot.owner = caller →
    slot.terminal = false →
    ∃ i e₃, Leads step (.CancelStep i) e₂ e₃ ∧ ∃ slot, e₃.slots[k]? = some slot ∧ slot.cancel = true
  /-- A remembered request fires the signal of a goal that is accepted in time. -/
  remembered : ∀ i call e₁ ops e₂ j accept k replied e₃ later e₄,
    e.cancels[i]? = some call → call.phase = .Remember →
    e.early_cancels.length < EARLY_CANCELS_CAP → step e (.CancelStep i) = some e₁ →
    run step e₁ ops = some e₂ → Meets step (fun e a => freshGoal e a = true) e₁ ops →
    e₂.accepts[j]? = some accept → accept.phase = .TakeEarly k →
    accept.goal_id = call.goal_id → accept.verified_caller = call.verified_caller →
    e₂.now < e.now + PENDING_WAITER_MAX_PARK → step e₂ (.AcceptStep j replied) = some e₃ →
    run step e₃ later = some e₄ → k ∈ e₄.accepted →
    ∃ slot, e₄.slots[k]? = some slot ∧ slot.cancel = true

section
variable {e e₁ e₂ : Engine} {q k : Nat} {goal_id : String} {caller : Option VerifiedCaller}
variable {later : List Act}

theorem Attended.follow (inv : Attended e)
    (hcancel : Engine.step e (.Cancel q goal_id caller) = some e₁)
    (hlater : run Engine.step e₁ later = some e₂)
    (hfresh : Meets Engine.step (fun e a => freshGoal e a = true) e₁ later) :
    FollowsRequest (fun _ => True) q goal_id caller e₂ := by
  refine (run_keeps_where
    (I := fun e => Attended e ∧ FollowsRequest (fun _ => True) q goal_id caller e) ?_
    ⟨inv.step rfl (step_cases hcancel), Follows.init inv.requested hcancel trivial⟩ hfresh hlater).2
  rintro e a e' ⟨inv, hfollows⟩ hfresh hstep
  have hstep := step_cases hstep
  exact ⟨inv.step hfresh hstep,
    hfollows.step inv.orderly inv.buried (fun _ => trivial) (fun _ => trivial) hstep⟩

theorem Attended.follow_accepted (inv : Attended e)
    (hcancel : Engine.step e (.Cancel q goal_id caller) = some e₁)
    (hlater : run Engine.step e₁ later = some e₂)
    (hfresh : Meets Engine.step (fun e a => freshGoal e a = true) e₁ later)
    (haccepted : k ∈ e.accepted) (hnamed : Named e k goal_id) :
    k ∈ e₂.accepted ∧ FollowsRequest (fun e => Over e k) q goal_id caller e₂ := by
  have hstep := step_cases hcancel
  refine (run_keeps_where
    (I := fun e => (Attended e ∧ Named e k goal_id) ∧ k ∈ e.accepted ∧
      FollowsRequest (fun e => Over e k) q goal_id caller e) ?_
    ⟨⟨inv.step rfl hstep, hnamed.grow (inv.orderly.ends.grow hstep)⟩,
      accepted_mono hstep haccepted, Follows.init inv.requested hcancel trivial⟩ hfresh hlater).2
  rintro e a e' ⟨⟨inv, hnamed⟩, haccepted, hfollows⟩ hfresh hstep
  have hstep := step_cases hstep
  have hgrow := inv.orderly.ends.grow hstep
  refine ⟨⟨inv.step hfresh hstep, hnamed.grow hgrow⟩, accepted_mono hstep haccepted,
    hfollows.step inv.orderly inv.buried (fun hnone => ?_) (fun hover => hover.grow hgrow) hstep⟩
  refine (inv.orderly.registry_of_accepted haccepted hnamed).resolve_left fun hk => ?_
  cases hk.symm.trans hnone

variable {slot : GoalSlot}

theorem Sound.named_before {ops : List Act} (sound : Sound e)
    (h : run Engine.step e ops = some e₂) (haccepted : k ∈ e.accepted)
    (hslot : e₂.slots[k]? = some slot) : Named e k slot.goal_id := by
  obtain ⟨slot0, hslot0⟩ := sound.ledger.slot_of_accepted haccepted
  obtain ⟨g, hg, hgrows⟩ := sound.grow_of_run h k slot0.goal (goals_getElem? hslot0)
  cases (goals_getElem? hslot).symm.trans hg
  exact ⟨slot0.goal, goals_getElem? hslot0, hgrows.goal_id.symm⟩

theorem slot_of_heard (hslot : e.slots[k]? = some slot)
    (h : Fired e k ∨ Over e k) : slot.cancel = true ∨ slot.terminal = true := by
  rcases h with ⟨slot', hslot', hcancel⟩ | ⟨g, hg, hover⟩
  · cases hslot.symm.trans hslot'
    exact .inl hcancel
  · cases (goals_getElem? hslot).symm.trans hg
    exact .inr hover

theorem Attended.kept (inv : Attended e) (clocked : Clocked e) {i : Nat} {call : CancelCall}
    (hcall : e.cancels[i]? = some call) (hphase : call.phase = .Remember)
    (hroom : e.early_cancels.length < EARLY_CANCELS_CAP)
    (hstep : Engine.step e (.CancelStep i) = some e₁) (hlater : run Engine.step e₁ later = some e₂)
    (hfresh : Meets Engine.step (fun e a => freshGoal e a = true) e₁ later) :
    Kept call.goal_id call.verified_caller (e.now + PENDING_WAITER_MAX_PARK) e₂ := by
  have hfirst : Kept call.goal_id call.verified_caller (e.now + PENDING_WAITER_MAX_PARK) e₁ := by
    have hremember := hstep
    rw [Engine.step, hcall, Option.bind_some, cancelStep, hphase] at hremember
    dsimp only at hremember
    rw [remember_early_cancel, if_pos hroom] at hremember
    cases hremember
    exact .inl ⟨_, mem_append_right _ (mem_singleton_self _), Nat.le_refl _⟩
  have hnow := now_mono (step_cases hstep)
  refine (run_keeps_where
    (I := fun s => (Attended s ∧ Clocked s ∧ e.now ≤ s.now) ∧
      Kept call.goal_id call.verified_caller (e.now + PENDING_WAITER_MAX_PARK) s) ?_
    ⟨⟨inv.step rfl (step_cases hstep), clocked.step (step_cases hstep), hnow⟩, hfirst⟩
    hfresh hlater).2
  rintro s a s' ⟨⟨inv, clocked, hnow⟩, hkept⟩ hfresh hstep
  have hstep := step_cases hstep
  refine ⟨⟨inv.step hfresh hstep, clocked.step hstep, Nat.le_trans hnow (now_mono hstep)⟩, ?_⟩
  exact hkept.step inv.orderly.toSound clocked (Nat.add_le_add_right hnow _) hstep

theorem Attended.noCancelLost (inv : Attended e) (clocked : Clocked e) : NoCancelLost e where
  here _ _ _ _ _ _ hcancel hlater hfresh := (inv.follow hcancel hlater hfresh).here
  answered := by
    intro q goal_id caller e₁ later e₂ k slot hcancel hlater hfresh haccepted hslot hid howner
      reply hreply hq hunknown
    have inv2 := (inv.step rfl (step_cases hcancel)).of_run hfresh hlater
    have hsent : SentBy e₂ k goal_id caller := ⟨slot.goal, goals_getElem? hslot, hid, howner⟩
    refine slot_of_heard hslot ?_
    by_cases hbefore : k ∈ e.accepted
    · have hnamed := inv.orderly.toSound.named_before
        (run_cons_some.mpr ⟨e₁, hcancel, hlater⟩) hbefore hslot
      obtain ⟨-, hfollows⟩ := inv.follow_accepted hcancel hlater hfresh hbefore (hid ▸ hnamed)
      have hans := Follows.replies hfollows reply hreply hq
      refine hans.heard inv2.orderly hsent fun hunknown => ?_
      rw [hunknown] at hans
      exact hans
    · have hans := Follows.replies (inv.follow hcancel hlater hfresh) reply hreply hq
      exact hans.heard inv2.orderly hsent fun h => absurd (hunknown h) hbefore
  live := by
    intro q goal_id caller e₁ later e₂ k slot hcancel hlater hfresh hbefore hslot hid howner hlive
    have inv2 := (inv.step rfl (step_cases hcancel)).of_run hfresh hlater
    have hnamed := inv.orderly.toSound.named_before
      (run_cons_some.mpr ⟨e₁, hcancel, hlater⟩) hbefore hslot
    obtain ⟨haccepted, hfollows⟩ :=
      inv.follow_accepted hcancel hlater hfresh hbefore (hid ▸ hnamed)
    exact hfollows.fires inv2.orderly haccepted hslot hid howner hlive
  remembered := by
    intro i call e₁ ops e₂ j accept k replied e₃ later e₄ hcall hphase hroom hstep hops hfresh
      haccept htake hid hcaller hin haccepts hlater haccepted
    have inv2 := (inv.step rfl (step_cases hstep)).of_run hfresh hops
    have hkept := inv.kept clocked hcall hphase hroom hstep hops hfresh
    rw [← hid, ← hcaller] at hkept
    have hsignals := hkept.signals inv2.orderly haccept htake hin (step_cases haccepts)
    obtain ⟨sound, hsignals⟩ := run_keeps (I := fun e => Sound e ∧ AcceptSignals e k)
      (fun _ _ _ inv h => ⟨inv.1.step (step_cases h), inv.2.step inv.1.ends (step_cases h)⟩)
      ⟨inv2.orderly.toSound.step (step_cases haccepts), hsignals⟩ hlater
    exact hsignals.fired sound.ledger haccepted

end

def armClient : Option VerifiedCaller := some ⟨"lab", "arm", .Instance⟩

def gripperClient : Option VerifiedCaller := some ⟨"lab", "gripper", .Instance⟩

def earlyRequest : List Act :=
  [.Cancel 3 "pick" armClient, .CancelStep 0, .CancelStep 0, .CancelStep 0, .CancelStep 0]

end Engine

end peppy.actions
