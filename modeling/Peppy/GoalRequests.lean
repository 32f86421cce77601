-- The way of a cancel request. A request is in progress until it is
-- answered, once, and it keeps its goal id and its caller.
import Peppy.GoalRouting

open changes tasks runs List

namespace peppy.actions

namespace Engine

/-! ## The sections of a request -/

/-- A section that does not answer the request. -/
inductive Proceeds (e : Engine) (call : CancelCall) : CancelPhase → CancelPhase → Prop
  | search {phase next} (h : Searches e call phase next) : Proceeds e call phase next
  | signal {k phase next slot} (hslot : e.slots[k]? = some slot)
      (hnext : (slot.signal_cancel .Caller phase).2.2 = some next) :
      Proceeds e call (.Signal k phase) (.Signal k next)

/-- The section that answers the request. -/
inductive Concludes (e : Engine) (call : CancelCall) : CancelPhase → CancelAnswer → Prop
  | resolve {phase a} (h : Resolves e call phase a) : Concludes e call phase a
  | remember : Concludes e call .Remember (.ok .Unknown)
  | signalled {k phase slot} (hslot : e.slots[k]? = some slot)
      (hlast : (slot.signal_cancel .Caller phase).2.2 = none) :
      Concludes e call (.Signal k phase) (.ok .Signalled)

section
variable {e e' : Engine} {a : Act}

variable {call : CancelCall}

theorem cancels_cases (h : Stepped e a e') (hcall : call ∈ e'.cancels) : call ∈ e.cancels ∨
    (∃ request goal_id caller, a = .Cancel request goal_id caller ∧
        call = ⟨request, goal_id, caller, .Look⟩ ∧ request ∉ e.requests.map Prod.fst) ∨
      ∃ i old phase, a = .CancelStep i ∧ e.cancels[i]? = some old ∧
        Proceeds e old old.phase phase ∧ call = { old with phase } := by
  cases h with
  | cancel hnew =>
    rcases mem_append.mp hcall with hcall | hcall
    · exact .inl hcall
    · exact .inr (.inl ⟨_, _, _, rfl, mem_singleton.mp hcall, hnew⟩)
  | search hold hphase hsearch =>
    rcases mem_setCancel hcall with hcall | ⟨p, hp, rfl⟩
    · exact .inl hcall
    · cases hp
      exact .inr (.inr ⟨_, _, _, rfl, hold, hphase ▸ .search hsearch, rfl⟩)
  | cancelSignal hold hphase hslot hnext =>
    rcases mem_setCancel hcall with hcall | ⟨p, hp, rfl⟩
    · exact .inl hcall
    · cases hp
      exact .inr (.inr ⟨_, _, _, rfl, hold, hphase ▸ .signal hslot hnext, rfl⟩)
  | resolve | remember | rememberFull | signalled =>
    rcases mem_setCancel hcall with hcall | ⟨p, hp, rfl⟩
    · exact .inl hcall
    · cases hp
  | _ => exact .inl hcall

theorem replies_cases (h : Stepped e a e') {reply : CancelReply} (hreply : reply ∈ e'.replies) :
    reply ∈ e.replies ∨ ∃ i old answer, a = .CancelStep i ∧ e.cancels[i]? = some old ∧
        Concludes e old old.phase answer ∧ reply = ⟨old.request, answer⟩ := by
  cases h with
  | resolve hold hphase hresolve =>
    rcases mem_cons.mp hreply with rfl | hreply
    · exact .inr ⟨_, _, _, rfl, hold, hphase ▸ .resolve hresolve, rfl⟩
    · exact .inl hreply
  | remember hold hphase | rememberFull hold hphase =>
    rcases mem_cons.mp hreply with rfl | hreply
    · exact .inr ⟨_, _, _, rfl, hold, hphase ▸ .remember, rfl⟩
    · exact .inl hreply
  | signalled hold hphase hslot hlast =>
    rcases mem_cons.mp hreply with rfl | hreply
    · exact .inr ⟨_, _, _, rfl, hold, hphase ▸ .signalled hslot hlast, rfl⟩
    · exact .inl hreply
  | _ => exact .inl hreply

theorem requests_mono (h : Stepped e a e') : e.requests ⊆ e'.requests := by
  cases h with
  | cancel => exact subset_cons_self _ _
  | _ => exact fun _ => id

theorem replies_mono (h : Stepped e a e') : e.replies ⊆ e'.replies := by
  cases h with
  | resolve | remember | rememberFull | signalled => exact subset_cons_self _ _
  | _ => exact fun _ => id

theorem other_cancel {i : Nat} {c : CancelCall} (hcall : e.cancels[i]? = some call)
    {phase : Option CancelPhase} (hc : c ∈ e.cancels) :
    c = call ∨ c ∈ (e.setCancel i call phase).cancels :=
  eq_or_mem_put hcall hc

/-- The request is in progress or answered. -/
def RequestHere (e : Engine) (q : Nat) : Prop :=
  (∃ call ∈ e.cancels, call.request = q) ∨ ∃ reply ∈ e.replies, reply.request = q

theorem RequestHere.step {q : Nat} (hhere : RequestHere e q) (h : Stepped e a e') :
    RequestHere e' q := by
  rcases hhere with ⟨call, hcall, rfl⟩ | ⟨reply, hreply, hq⟩
  · cases h with
    | cancel => exact .inl ⟨call, mem_append_left _ hcall, rfl⟩
    | search hold | cancelSignal hold =>
      rcases other_cancel hold hcall with rfl | hmem
      · exact .inl ⟨_, mem_put_self hold _, rfl⟩
      · exact .inl ⟨call, hmem, rfl⟩
    | resolve hold | remember hold | rememberFull hold | signalled hold =>
      rcases other_cancel hold hcall with rfl | hmem
      · exact .inr ⟨_, mem_cons_self, rfl⟩
      · exact .inl ⟨call, hmem, rfl⟩
    | _ => exact .inl ⟨call, hcall, rfl⟩
  · exact .inr ⟨reply, replies_mono h hreply, hq⟩

/-- Every cancel in progress was requested. -/
structure Requested (e : Engine) : Prop where
  cancels : ∀ call ∈ e.cancels, (call.request, call.goal_id, call.verified_caller) ∈ e.requests
  replies : ∀ reply ∈ e.replies, reply.request ∈ e.requests.map Prod.fst

theorem Requested.start (grace : Nat) : Requested (start grace) := by
  constructor <;> simp [Engine.start]

theorem Requested.step (inv : Requested e) (h : Stepped e a e') : Requested e' where
  cancels := by
    intro call hcall
    have hmono := requests_mono h
    rcases cancels_cases h hcall with hcall | ⟨request, goal_id, caller, rfl, rfl, -⟩ |
      ⟨i, old, phase, -, hold, -, rfl⟩
    · exact hmono (inv.cancels call hcall)
    · cases h
      exact mem_cons_self
    · exact hmono (inv.cancels old (mem_of_getElem? hold))
  replies := by
    intro reply hreply
    have hmono := map_subset Prod.fst (requests_mono h)
    rcases replies_cases h hreply with hreply | ⟨i, old, answer, -, hold, -, rfl⟩
    · exact hmono (inv.replies reply hreply)
    · exact hmono (mem_map_of_mem (inv.cancels old (mem_of_getElem? hold)))

/-- Its phases meet `P`, its answers `A`, and it goes on or is answered. -/
structure Follows (P : Engine → CancelPhase → Prop) (A : Engine → CancelAnswer → Prop) (q : Nat)
    (goal_id : String) (caller : Option VerifiedCaller) (e : Engine) : Prop where
  requested : q ∈ e.requests.map Prod.fst
  phases : ∀ call ∈ e.cancels, call.request = q →
    call.goal_id = goal_id ∧ call.verified_caller = caller ∧ P e call.phase
  replies : ∀ reply ∈ e.replies, reply.request = q → A e reply.answer
  here : RequestHere e q

section
variable {P : Engine → CancelPhase → Prop} {A : Engine → CancelAnswer → Prop} {q : Nat}
variable {goal_id : String} {caller : Option VerifiedCaller}

/-- The rule to follow one request through a section. -/
theorem Follows.step (inv : Follows P A q goal_id caller e) (h : Stepped e a e')
    (hstays : ∀ p, P e p → P e' p) (hkept : ∀ ans, A e ans → A e' ans)
    (hproceed : ∀ i call next, a = .CancelStep i → e.cancels[i]? = some call →
      call.goal_id = goal_id → call.verified_caller = caller → P e call.phase →
      Proceeds e call call.phase next → P e' next)
    (hconclude : ∀ call ans, call.goal_id = goal_id → call.verified_caller = caller →
      P e call.phase → Concludes e call call.phase ans → A e ans) :
    Follows P A q goal_id caller e' where
  requested := map_subset Prod.fst (requests_mono h) inv.requested
  phases := by
    intro call hcall hq
    rcases cancels_cases h hcall with hcall | ⟨request, id, c, -, rfl, hnew⟩ |
      ⟨i, old, phase, ha, hold, hproceeds, rfl⟩
    · obtain ⟨hid, hcaller, hp⟩ := inv.phases call hcall hq
      exact ⟨hid, hcaller, hstays _ hp⟩
    · cases hq
      exact absurd inv.requested hnew
    · obtain ⟨hid, hcaller, hp⟩ := inv.phases old (mem_of_getElem? hold) hq
      exact ⟨hid, hcaller, hproceed i old phase ha hold hid hcaller hp hproceeds⟩
  replies := by
    intro reply hreply hq
    rcases replies_cases h hreply with hreply | ⟨i, old, answer, -, hold, hconcludes, rfl⟩
    · exact hkept _ (inv.replies reply hreply hq)
    · obtain ⟨hid, hcaller, hp⟩ := inv.phases old (mem_of_getElem? hold) hq
      exact hkept _ (hconclude old answer hid hcaller hp hconcludes)
  here := inv.here.step h

theorem Follows.init (requested : Requested e)
    (h : Engine.step e (.Cancel q goal_id caller) = some e') (hlook : P e' .Look) :
    Follows P A q goal_id caller e' := by
  cases step_cases h with
  | cancel hnew =>
    refine ⟨mem_cons_self, ?_, ?_, .inl ⟨_, mem_append_right _
      (mem_singleton_self _), rfl⟩⟩
    · intro call hcall hq
      rcases mem_push hcall with hcall | rfl
      · exact absurd (mem_map_of_mem (requested.cancels call hcall)) (hq ▸ hnew)
      · exact ⟨rfl, rfl, hlook⟩
    · exact fun reply hreply hq => absurd (requested.replies reply hreply) (hq ▸ hnew)

end

end

/-! ## A request that is left alone -/

/-- The request, taking its own sections alone, is answered as `Q` tells. -/
def Replies (e : Engine) (i q : Nat) (Q : CancelAnswer → Prop) : Prop :=
  ∃ e' reply, Leads step (.CancelStep i) e e' ∧ reply ∈ e'.replies ∧ reply.request = q ∧
    Q reply.answer

section
variable {e : Engine} {i q : Nat} {Q : CancelAnswer → Prop} {call : CancelCall}

variable {next phase : CancelPhase} {a : CancelAnswer}

section
variable (hcall : e.cancels[i]? = some call)
include hcall

theorem step_of_searches (hphase : call.phase = phase) (hsearch : Searches e call phase next) :
    step e (.CancelStep i) = some (e.setCancel i call (some next)) := by
  rw [step, hcall, Option.bind_some, cancelStep, hphase]
  cases hsearch with
  | found h | missed h | foundAgain h | missedAgain h => simp only [h]
  | lock h => exact if_pos h
  | absent h => exact if_neg h
  | allowed hslot howner hlive =>
    simp only [hslot, Option.map_some, may_cancel, howner, decide_true, Bool.not_true,
      Bool.false_eq_true, if_false, GoalSlot.is_terminal, hlive]

theorem step_of_resolves (hphase : call.phase = phase) (hresolve : Resolves e call phase a) :
    step e (.CancelStep i) = some (e.replyCancel i call a) := by
  rw [step, hcall, Option.bind_some, cancelStep, hphase]
  cases hresolve with
  | expired h => exact if_pos h
  | refused hslot howner =>
    simp only [hslot, Option.map_some, may_cancel, howner, decide_false, Bool.not_false, if_true]
  | ended hslot howner hended =>
    simp only [hslot, Option.map_some, may_cancel, howner, decide_true, Bool.not_true,
      Bool.false_eq_true, if_false, GoalSlot.is_terminal, hended, if_true]

theorem setCancel_self :
    (e.setCancel i call (some next)).cancels[i]? = some { call with phase := next } :=
  getElem?_set_self (List.getElem?_eq_some_iff.mp hcall).1

theorem Replies.search (hphase : call.phase = phase) (hsearch : Searches e call phase next)
    (h : Replies (e.setCancel i call (some next)) i q Q) : Replies e i q Q := by
  obtain ⟨e', reply, hleads, hreply⟩ := h
  exact ⟨e', reply, hleads.head (step_of_searches hcall hphase hsearch), hreply⟩

theorem Replies.resolve (hq : call.request = q) (hphase : call.phase = phase)
    (hresolve : Resolves e call phase a) (ha : Q a) : Replies e i q Q :=
  ⟨_, _, .head (step_of_resolves hcall hphase hresolve) (.refl _ _), mem_cons_self, hq, ha⟩

end

end

end Engine

end peppy.actions
