-- The cancel signal of a goal: where it comes from, and that one with the
-- cause `Caller` is the work of a request by the owner of the goal.
import Peppy.GoalRequests

open changes tasks runs List

namespace peppy.actions

/-! ## The signal of one slot -/

/-- The cancel signal is the same. -/
structure GoalSlot.SameSignal (slot slot' : GoalSlot) : Prop where
  cancel : slot'.cancel = slot.cancel
  cancel_cause : slot'.cancel_cause = slot.cancel_cause

theorem link_sameSignal {slot : GoalSlot} {token : Nat} : slot.SameSignal (slot.link token).1 := by
  unfold GoalSlot.link
  dsimp only
  split <;> exact ⟨rfl, rfl⟩

theorem signal_cancel_cancel {slot : GoalSlot} {cause : CancelCause} {phase : SignalPhase}
    (h : slot.cancel = true) : (slot.signal_cancel cause phase).1.cancel = true := by
  cases phase with
  | Cancel => rfl
  | Cause | Take => exact h
  | Tokens tokens => cases tokens <;> exact h

theorem signal_cancel_cause {slot : GoalSlot} {cause c : CancelCause} {phase : SignalPhase}
    (h : (slot.signal_cancel cause phase).1.cancel_cause = some c) :
    slot.cancel_cause = some c ∨ cause = c := by
  cases phase with
  | Cause =>
    rcases Option.or_eq_some_iff.mp h with h | ⟨-, h⟩
    · exact .inl h
    · exact .inr (Option.some.inj h)
  | Cancel | Take => exact .inl h
  | Tokens tokens => cases tokens <;> exact .inl h

namespace Engine

/-- Who may be in a phase of the signal, and for which cause. -/
inductive Signs (e : Engine) (k : Nat) (phase : SignalPhase) : CancelCause → Prop
  | accept {call} (hcall : call ∈ e.accepts) (hphase : call.phase = .Signal k phase) :
      Signs e k phase .Caller
  | request {call} (hcall : call ∈ e.cancels) (hphase : call.phase = .Signal k phase) :
      Signs e k phase .Caller
  | watch : Signs e k phase .SenderGone

/-- Where the signal of a slot comes from. -/
inductive SignalOf (e : Engine) (k : Nat) (slot' : GoalSlot) : Prop
  | same {slot} (hslot : e.slots[k]? = some slot) (hsame : slot.SameSignal slot')
  | new (hk : k = e.slots.length) (hcause : slot'.cancel_cause = none)
  | signs {slot cause phase} (hslot : e.slots[k]? = some slot) (hsigns : Signs e k phase cause)
      (hslot' : slot' = (slot.signal_cancel cause phase).1)

section
variable {e e' : Engine} {a : Act} {j k : Nat} {slot slot' slot'' : GoalSlot}

theorem signalOf_set (hslot : e.slots[j]? = some slot)
    (h : (e.slots.set j slot'')[k]? = some slot') (hsame : slot.SameSignal slot'') :
    SignalOf e k slot' := by
  rcases getElem?_set_cases h with ⟨rfl, rfl⟩ | ⟨-, h⟩
  · exact .same hslot hsame
  · exact .same h ⟨rfl, rfl⟩

theorem signalOf_signal {cause : CancelCause} {phase : SignalPhase}
    (hslot : e.slots[j]? = some slot) (hsigns : Signs e j phase cause)
    (h : (e.slots.set j (slot.signal_cancel cause phase).1)[k]? = some slot') :
    SignalOf e k slot' := by
  rcases getElem?_set_cases h with ⟨rfl, rfl⟩ | ⟨-, h⟩
  · exact .signs hslot hsigns rfl
  · exact .same h ⟨rfl, rfl⟩

theorem signal_cases (h : Stepped e a e') (hslot' : e'.slots[k]? = some slot') :
    SignalOf e k slot' := by
  cases h with
  | register =>
    rcases getElem?_push_cases hslot' with hslot | ⟨hk, rfl⟩
    · exact .same hslot ⟨rfl, rfl⟩
    · exact .new hk rfl
  | acceptSignal hcall hphase hslot =>
    exact signalOf_signal hslot (.accept (mem_of_getElem? hcall) hphase) hslot'
  | cancelSignal hcall hphase hslot | signalled hcall hphase hslot =>
    exact signalOf_signal hslot (.request (mem_of_getElem? hcall) hphase) hslot'
  | watchSignal hw hphase hslot => exact signalOf_signal hslot .watch hslot'
  | extend hcall hphase hslot | wait hpoll hphase hslot | win ht hphase hslot
  | finish ht hphase hslot | unlink hslot => exact signalOf_set hslot hslot' ⟨rfl, rfl⟩
  | link hslot => exact signalOf_set hslot hslot' (link_sameSignal)
  | _ => exact .same hslot' ⟨rfl, rfl⟩

/-- The cancel signal of the slot fired. -/
def Fired (e : Engine) (k : Nat) : Prop := ∃ slot, e.slots[k]? = some slot ∧ slot.cancel = true

theorem Fired.step (hfired : Fired e k) (ends : Ends e) (h : Stepped e a e') : Fired e' k := by
  obtain ⟨slot, hslot, hcancel⟩ := hfired
  obtain ⟨g', hg', -⟩ := ends.grow h k slot.goal (goals_getElem? hslot)
  obtain ⟨slot', hslot', -⟩ := slot_of_goal hg'
  refine ⟨slot', hslot', ?_⟩
  cases signal_cases h hslot' with
  | same hold hsame =>
    cases hold.symm.trans hslot
    exact hsame.cancel.trans hcancel
  | new hk =>
    have hlt := (List.getElem?_eq_some_iff.mp hslot).1
    omega
  | signs hold hsigns hsignal =>
    cases hold.symm.trans hslot
    rw [hsignal]
    exact signal_cancel_cancel hcancel

end

/-! ## Who signals -/

/-- The caller asked to cancel the goal. -/
def Asked (e : Engine) (goal_id : String) (caller : Option VerifiedCaller) : Prop :=
  ∃ q, (q, goal_id, caller) ∈ e.requests

/-- Every signal of a `Caller` is the work of a request by the owner. -/
structure Authorised (e : Engine) : Prop where
  early : ∀ entry ∈ e.early_cancels, Asked e entry.1.1 entry.1.2
  accepts : ∀ call ∈ e.accepts, ∀ k phase, call.phase = .Signal k phase →
    Asked e call.goal_id call.verified_caller
  checks : ∀ call ∈ e.cancels, ∀ k, call.phase = .Check k → Named e k call.goal_id
  signals : ∀ call ∈ e.cancels, ∀ k phase, call.phase = .Signal k phase →
    SentBy e k call.goal_id call.verified_caller
  slots : ∀ (k : Nat) (slot : GoalSlot), e.slots[k]? = some slot →
    slot.cancel_cause = some .Caller → Asked e slot.goal_id slot.owner

theorem Authorised.start (grace : Nat) : Authorised (start grace) := by
  constructor <;> simp [Engine.start]

section
variable {e e' : Engine} {a : Act}

theorem Asked.step {goal_id : String} {caller : Option VerifiedCaller} (h : Asked e goal_id caller)
    (hstep : Stepped e a e') : Asked e' goal_id caller := by
  obtain ⟨q, hq⟩ := h
  exact ⟨q, requests_mono hstep hq⟩

theorem Requested.asked (requested : Requested e) {call : CancelCall} (hcall : call ∈ e.cancels) :
    Asked e call.goal_id call.verified_caller :=
  ⟨call.request, requested.cancels call hcall⟩

theorem early_cases (h : Stepped e a e') {entry : (String × Option VerifiedCaller) × Nat}
    (hentry : entry ∈ e'.early_cancels) : entry ∈ e.early_cancels ∨
      ∃ call ∈ e.cancels, entry.1 = (call.goal_id, call.verified_caller) := by
  cases h with
  | takeEarly | sweepEarly => exact .inl (mem_filter.mp hentry).1
  | remember hcall =>
    rcases mem_push hentry with hentry | rfl
    · exact .inl (mem_filter.mp hentry).1
    · exact .inr ⟨_, mem_of_getElem? hcall, rfl⟩
  | _ => exact .inl hentry

/-- The sections of an accept. -/
inductive Accepts (e : Engine) (call : AcceptCall) : AcceptPhase → AcceptPhase → Prop
  | register : Accepts e call .Register (.TakeEarly e.slots.length)
  | takeEarly {k forget_at}
      (h : e.early_cancel (call.goal_id, call.verified_caller) = some forget_at) :
      Accepts e call (.TakeEarly k) (.Signal k .Cause)
  | noEarly {k} : Accepts e call (.TakeEarly k) (.Adopt k)
  | signal {k phase} (next : Option SignalPhase) :
      Accepts e call (.Signal k phase) (afterSignal k next)
  | adopt {k} (adopted : List Nat) : Accepts e call (.Adopt k) (afterAdopt k adopted)
  | extend {k adopted} : Accepts e call (.Extend k adopted) (.Respond k)

theorem accepts_cases (h : Stepped e a e') {call : AcceptCall} (hcall : call ∈ e'.accepts) :
    call ∈ e.accepts ∨ call.phase = .Register ∨
      ∃ old ∈ e.accepts, ∃ next, Accepts e old old.phase next ∧
        call = { old with phase := next } := by
  have hmoved : ∀ {i : Nat} {old : AcceptCall} {phase next : AcceptPhase},
      e.accepts[i]? = some old → old.phase = phase → Accepts e old phase next →
      call ∈ (e.setAccept i old (some next)).accepts → call ∈ e.accepts ∨
        call.phase = .Register ∨ ∃ old ∈ e.accepts, ∃ next, Accepts e old old.phase next ∧
          call = { old with phase := next } := by
    intro i old phase next hold hphase hmoves hcall
    rcases mem_setAccept hcall with hmem | ⟨p, hp, rfl⟩
    · exact .inl hmem
    · cases hp
      exact .inr (.inr ⟨old, mem_of_getElem? hold, next, hphase ▸ hmoves, rfl⟩)
  cases h with
  | accept =>
    rcases mem_push hcall with hmem | rfl
    · exact .inl hmem
    · exact .inr (.inl rfl)
  | register hold hphase => exact hmoved hold hphase .register hcall
  | takeEarly hold hphase _ hearly => exact hmoved hold hphase (.takeEarly hearly) hcall
  | noEarly hold hphase => exact hmoved hold hphase .noEarly hcall
  | acceptSignal hold hphase => exact hmoved hold hphase (.signal _) hcall
  | adopt hold hphase => exact hmoved hold hphase (.adopt _) hcall
  | extend hold hphase | extendEnded hold hphase => exact hmoved hold hphase .extend hcall
  | takeOn | forget | dropAdopted | dropAccept =>
    rcases mem_setAccept hcall with hmem | ⟨p, hp, rfl⟩
    · exact .inl hmem
    · cases hp
  | _ => exact .inl hcall

theorem afterAdopt_ne_signal {j k : Nat} {adopted : List Nat} {phase : SignalPhase} :
    afterAdopt j adopted ≠ .Signal k phase := by
  unfold afterAdopt
  split <;> exact AcceptPhase.noConfusion

theorem afterSignal_eq_signal {j k : Nat} {next : Option SignalPhase} {phase : SignalPhase}
    (h : afterSignal j next = .Signal k phase) : j = k := by
  have hslot := congrArg AcceptPhase.slot h
  rw [slot_afterSignal] at hslot
  exact (List.cons.inj hslot).1

theorem mem_early_cancels {key : String × Option VerifiedCaller} {t : Nat}
    (h : e.early_cancel key = some t) : (key, t) ∈ e.early_cancels := by
  obtain ⟨entry, hfind, rfl⟩ := Option.map_eq_some_iff.mp h
  have hkey : entry.1 = key := by simpa using find?_some hfind
  rw [← hkey]
  exact mem_of_find?_eq_some hfind

theorem accept_signal_cases (h : Stepped e a e') {call : AcceptCall} (hcall : call ∈ e'.accepts)
    {k : Nat} {phase : SignalPhase} (hphase : call.phase = .Signal k phase) :
    ∃ old ∈ e.accepts, old.goal_id = call.goal_id ∧ old.verified_caller = call.verified_caller ∧
      ((∃ p, old.phase = .Signal k p) ∨
        ∃ t, ((call.goal_id, call.verified_caller), t) ∈ e.early_cancels) := by
  rcases accepts_cases h hcall with hmem | hnew | ⟨old, hold, next, hmoves, rfl⟩
  · exact ⟨call, hmem, rfl, rfl, .inl ⟨phase, hphase⟩⟩
  · cases hnew.symm.trans hphase
  refine ⟨old, hold, rfl, rfl, ?_⟩
  generalize old.phase = p at hmoves ⊢
  cases hmoves with
  | takeEarly hearly => exact .inr ⟨_, mem_early_cancels hearly⟩
  | @signal j q next =>
    cases afterSignal_eq_signal hphase
    exact .inl ⟨q, rfl⟩
  | adopt => exact absurd hphase (afterAdopt_ne_signal)
  | register | noEarly | extend => cases hphase

theorem Authorised.step (inv : Authorised e) (sound : Sound e) (requested : Requested e)
    (h : Stepped e a e') : Authorised e' := by
  have hgrow := sound.ends.grow h
  refine ⟨?_, ?_, ?_, ?_, ?_⟩
  · intro entry hentry
    rcases early_cases h hentry with hentry | ⟨call, hcall, hkey⟩
    · exact (inv.early entry hentry).step h
    · rw [hkey]
      exact (requested.asked hcall).step h
  · intro call hcall k phase hphase
    obtain ⟨old, hold, hid, hcaller, ⟨p, hp⟩ | ⟨t, ht⟩⟩ := accept_signal_cases h hcall hphase
    · rw [← hid, ← hcaller]
      exact (inv.accepts old hold k p hp).step h
    · exact (inv.early _ ht).step h
  · intro call hcall k hphase
    rcases cancels_cases h hcall with hcall | ⟨request, goal_id, caller, -, rfl, -⟩ |
      ⟨i, old, phase, -, hold, hproceeds, rfl⟩
    · exact (inv.checks call hcall k hphase).grow hgrow
    · cases hphase
    cases hphase
    generalize old.phase = p at hproceeds
    cases hproceeds with
    | search hsearch =>
      cases hsearch with
      | found hk | foundAgain hk => exact (sound.routed.registry _ k hk).grow hgrow
  · intro call hcall k p hphase
    rcases cancels_cases h hcall with hcall | ⟨request, goal_id, caller, -, rfl, -⟩ |
      ⟨i, old, phase, -, hold, hproceeds, rfl⟩
    · exact (inv.signals call hcall k p hphase).grow hgrow
    · cases hphase
    cases hphase
    have hmem := mem_of_getElem? hold
    cases hp : old.phase with
    | Check j =>
      rw [hp] at hproceeds
      cases hproceeds with
      | search hsearch =>
        cases hsearch with
        | allowed hslot howner hlive =>
          obtain ⟨g, hg, hid⟩ := inv.checks old hmem k hp
          cases (goals_getElem? hslot).symm.trans hg
          exact SentBy.grow ⟨_, hg, hid, howner⟩ hgrow
    | Signal j q =>
      rw [hp] at hproceeds
      cases hproceeds with
      | search hsearch => cases hsearch
      | signal => exact (inv.signals old hmem k q hp).grow hgrow
    | Look | Tombstone | Lock | LookAgain | Remember =>
      rw [hp] at hproceeds
      cases hproceeds with
      | search hsearch => cases hsearch
  · intro k slot' hslot' hcause
    cases signal_cases h hslot' with
    | @same slot hslot hsame =>
      obtain ⟨g', hg', hgrows⟩ := hgrow k slot.goal (goals_getElem? hslot)
      cases (goals_getElem? hslot').symm.trans hg'
      have hid : slot'.goal_id = slot.goal_id := hgrows.goal_id
      have howner : slot'.owner = slot.owner := hgrows.owner
      rw [hid, howner]
      exact (inv.slots k slot hslot (hsame.cancel_cause ▸ hcause)).step h
    | new hk hnone => cases hnone.symm.trans hcause
    | @signs slot cause phase hslot hsigns hsignal =>
      subst hsignal
      have hsame := signal_cancel_same slot cause phase
      rw [hsame.goal_id, hsame.owner]
      rcases signal_cancel_cause hcause with hcause | rfl
      · exact (inv.slots k slot hslot hcause).step h
      have hasked : ∀ {goal_id caller}, SentBy e k goal_id caller → Asked e goal_id caller →
          Asked e' slot.goal_id slot.owner := by
        rintro _ _ ⟨g, hg, rfl, rfl⟩ hasked
        cases (goals_getElem? hslot).symm.trans hg
        exact hasked.step h
      cases hsigns with
      | accept hcall hphase =>
        refine hasked (sound.routed.calls _ hcall k ?_) (inv.accepts _ hcall k phase hphase)
        rw [hphase]
        exact mem_singleton_self k
      | request hcall hphase =>
        exact hasked (inv.signals _ hcall k phase hphase) (requested.asked hcall)

end

end Engine

end peppy.actions
