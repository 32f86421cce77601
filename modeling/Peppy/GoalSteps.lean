-- What each section of the engine does, with what it found. Every law of the
-- engine is read off the cases here.
import Peppy.GoalEngine

open tasks runs Option

namespace peppy.actions

variable {call : AcceptCall} {poll p : PollCall} {t : Transition}

namespace Engine

/-! ## The sections that only read -/

/-- A section of a poll that reads, and the phase that it leads to. -/
inductive Routes (e : Engine) (goal_id : String) : PollPhase → PollPhase → Prop
  | found {k} (h : e.registry goal_id = some k) : Routes e goal_id .Look (.Slot k)
  | missed (h : e.registry goal_id = none) : Routes e goal_id .Look .Lock
  | lock (h : e.pendingFree) : Routes e goal_id .Lock .LookAgain
  | foundAgain {k} (h : e.registry goal_id = some k) : Routes e goal_id .LookAgain (.Slot k)
  | missedAgain (h : e.registry goal_id = none) : Routes e goal_id .LookAgain .Tombstone
  | expired (h : e.tombstones.contains goal_id) :
      Routes e goal_id .Tombstone (.Reply none .Expired e.now)
  | absent (h : ¬ e.tombstones.contains goal_id) : Routes e goal_id .Tombstone .Park
  | read {k slot outcome evict_at} (hslot : e.slots[k]? = some slot)
      (hstate : slot.state = .Terminal outcome evict_at) :
      Routes e goal_id (.Slot k)
        (.Reply (some k) (if e.now < evict_at then outcome else .Expired) e.now)

/-- A section of a cancel request that reads, and the phase that it leads
to. -/
inductive Searches (e : Engine) (call : CancelCall) : CancelPhase → CancelPhase → Prop
  | found {k} (h : e.registry call.goal_id = some k) : Searches e call .Look (.Check k)
  | missed (h : e.registry call.goal_id = none) : Searches e call .Look .Tombstone
  | absent (h : ¬ e.tombstones.contains call.goal_id) : Searches e call .Tombstone .Lock
  | lock (h : e.earlyFree) : Searches e call .Lock .LookAgain
  | foundAgain {k} (h : e.registry call.goal_id = some k) :
      Searches e call .LookAgain (.Check k)
  | missedAgain (h : e.registry call.goal_id = none) : Searches e call .LookAgain .Remember
  | allowed {k slot} (hslot : e.slots[k]? = some slot)
      (howner : slot.owner = call.verified_caller) (hlive : slot.terminal = false) :
      Searches e call (.Check k) (.Signal k .Cause)

/-- A section of a cancel request that ends in an answer without a
signal. -/
inductive Resolves (e : Engine) (call : CancelCall) : CancelPhase → CancelAnswer → Prop
  | expired (h : e.tombstones.contains call.goal_id) :
      Resolves e call .Tombstone (.ok .AlreadyTerminal)
  | refused {k slot} (hslot : e.slots[k]? = some slot)
      (howner : slot.owner ≠ call.verified_caller) :
      Resolves e call (.Check k) (.error (cancel_of_another_client call.goal_id))
  | ended {k slot} (hslot : e.slots[k]? = some slot)
      (howner : slot.owner = call.verified_caller) (hended : slot.terminal = true) :
      Resolves e call (.Check k) (.ok .AlreadyTerminal)

/-! ## All the sections -/

def afterSignal (k : Nat) (phase : Option SignalPhase) : AcceptPhase :=
  (phase.map (AcceptPhase.Signal k)).getD (.Adopt k)

def afterAdopt (k : Nat) (adopted : List Nat) : AcceptPhase :=
  if adopted = [] then .Respond k else .Extend k adopted

/-- What each act does, with its guard. -/
inductive Stepped (e : Engine) : Act → Engine → Prop
  | tick {d} : Stepped e (.Tick d) { e with now := e.now + d }
  | accept {goal_id caller} :
      Stepped e (.Accept goal_id caller)
        { e with accepts := e.accepts ++ [⟨goal_id, caller, .Register⟩] }
  | register {i replied call} (hcall : e.accepts[i]? = some call)
      (hphase : call.phase = .Register) :
      Stepped e (.AcceptStep i replied)
        ((e.register call).setAccept i call (some (.TakeEarly e.slots.length)))
  | takeEarly {i replied call k forget_at} (hcall : e.accepts[i]? = some call)
      (hphase : call.phase = .TakeEarly k) (hfree : e.earlyFree)
      (hearly : e.early_cancel (call.goal_id, call.verified_caller) = some forget_at) :
      Stepped e (.AcceptStep i replied)
        ((e.forget_early_cancel (call.goal_id, call.verified_caller)).setAccept i call
          (some (.Signal k .Cause)))
  | noEarly {i replied call k} (hcall : e.accepts[i]? = some call)
      (hphase : call.phase = .TakeEarly k) (hfree : e.earlyFree)
      (hearly : e.early_cancel (call.goal_id, call.verified_caller) = none) :
      Stepped e (.AcceptStep i replied) (e.setAccept i call (some (.Adopt k)))
  | acceptSignal {i replied call k phase slot} (hcall : e.accepts[i]? = some call)
      (hphase : call.phase = .Signal k phase) (hslot : e.slots[k]? = some slot) :
      Stepped e (.AcceptStep i replied)
        ((e.signal k slot .Caller phase).setAccept i call
          (some (afterSignal k (slot.signal_cancel .Caller phase).2.2)))
  | adopt {i replied call k} (hcall : e.accepts[i]? = some call) (hphase : call.phase = .Adopt k)
      (hfree : e.pendingFree) :
      Stepped e (.AcceptStep i replied)
        ((e.adopt k call.goal_id).setAccept i call
          (some (afterAdopt k (e.parked_for call.goal_id))))
  | extend {i replied call k adopted slot waiters} (hcall : e.accepts[i]? = some call)
      (hphase : call.phase = .Extend k adopted) (hslot : e.slots[k]? = some slot)
      (hstate : slot.state = .Pending waiters) :
      Stepped e (.AcceptStep i replied)
        ((e.setSlot k { slot with state := .Pending (waiters ++ adopted) }).setAccept i call
          (some (.Respond k)))
  | extendEnded {i replied call k adopted slot outcome evict_at}
      (hcall : e.accepts[i]? = some call) (hphase : call.phase = .Extend k adopted)
      (hslot : e.slots[k]? = some slot) (hstate : slot.state = .Terminal outcome evict_at) :
      Stepped e (.AcceptStep i replied)
        ((e.drop adopted).setAccept i call (some (.Respond k)))
  | takeOn {i call k} (hcall : e.accepts[i]? = some call) (hphase : call.phase = .Respond k) :
      Stepped e (.AcceptStep i true) ((e.takeOn k).setAccept i call none)
  | forget {i call k} (hcall : e.accepts[i]? = some call) (hphase : call.phase = .Respond k) :
      Stepped e (.AcceptStep i false)
        (((e.forget call.goal_id).unaccept k).setAccept i call none)
  | dropAdopted {i call k adopted} (hcall : e.accepts[i]? = some call)
      (hphase : call.phase = .Extend k adopted) :
      Stepped e (.DropAccept i) (((e.drop adopted).unaccept k).setAccept i call none)
  | dropAccept {i call k} (hcall : e.accepts[i]? = some call) (hphase : call.phase = .Respond k) :
      Stepped e (.DropAccept i) ((e.unaccept k).setAccept i call none)
  | poll {goal_id responder} (hnew : responder ∉ e.polled.map Prod.fst) :
      Stepped e (.Poll goal_id responder)
        { e with
          polls := e.polls ++ [⟨goal_id, responder, .Look⟩]
          polled := (responder, goal_id) :: e.polled }
  | route {i poll phase next} (hpoll : e.polls[i]? = some poll) (hphase : poll.phase = phase)
      (hroute : Routes e poll.goal_id phase next) :
      Stepped e (.PollStep i) (e.setPoll i poll (some next))
  | park {i poll} (hpoll : e.polls[i]? = some poll) (hphase : poll.phase = .Park)
      (hroom : e.pending_waiters.length < PENDING_WAITERS_CAP) :
      Stepped e (.PollStep i) ((e.enqueue poll).setPoll i poll none)
  | parkFull {i poll} (hpoll : e.polls[i]? = some poll) (hphase : poll.phase = .Park)
      (hfull : PENDING_WAITERS_CAP ≤ e.pending_waiters.length) :
      Stepped e (.PollStep i) ((e.drop [poll.responder]).setPoll i poll none)
  | wait {i poll k slot waiters} (hpoll : e.polls[i]? = some poll) (hphase : poll.phase = .Slot k)
      (hslot : e.slots[k]? = some slot) (hstate : slot.state = .Pending waiters) :
      Stepped e (.PollStep i) ((e.wait k slot waiters poll.responder).setPoll i poll none)
  | reply {i poll slot outcome read_at} (hpoll : e.polls[i]? = some poll)
      (hphase : poll.phase = .Reply slot outcome read_at) :
      Stepped e (.PollStep i)
        ((e.answer ⟨poll.responder, slot, outcome, read_at⟩).setPoll i poll none)
  | cancel {request goal_id caller} (hnew : request ∉ e.requests.map Prod.fst) :
      Stepped e (.Cancel request goal_id caller)
        { e with
          cancels := e.cancels ++ [⟨request, goal_id, caller, .Look⟩]
          requests := (request, goal_id, caller) :: e.requests }
  | search {i call phase next} (hcall : e.cancels[i]? = some call) (hphase : call.phase = phase)
      (hsearch : Searches e call phase next) :
      Stepped e (.CancelStep i) (e.setCancel i call (some next))
  | resolve {i call phase a} (hcall : e.cancels[i]? = some call) (hphase : call.phase = phase)
      (hresolve : Resolves e call phase a) : Stepped e (.CancelStep i) (e.replyCancel i call a)
  | remember {i call} (hcall : e.cancels[i]? = some call) (hphase : call.phase = .Remember)
      (hroom : e.early_cancels.length < EARLY_CANCELS_CAP) :
      Stepped e (.CancelStep i)
        ((e.insert_early_cancel (call.goal_id, call.verified_caller)).replyCancel i call
          (.ok .Unknown))
  | rememberFull {i call} (hcall : e.cancels[i]? = some call) (hphase : call.phase = .Remember)
      (hfull : EARLY_CANCELS_CAP ≤ e.early_cancels.length) :
      Stepped e (.CancelStep i) (e.replyCancel i call (.ok .Unknown))
  | cancelSignal {i call k phase next slot} (hcall : e.cancels[i]? = some call)
      (hphase : call.phase = .Signal k phase) (hslot : e.slots[k]? = some slot)
      (hnext : (slot.signal_cancel .Caller phase).2.2 = some next) :
      Stepped e (.CancelStep i)
        ((e.signal k slot .Caller phase).setCancel i call (some (.Signal k next)))
  | signalled {i call k phase slot} (hcall : e.cancels[i]? = some call)
      (hphase : call.phase = .Signal k phase) (hslot : e.slots[k]? = some slot)
      (hlast : (slot.signal_cancel .Caller phase).2.2 = none) :
      Stepped e (.CancelStep i)
        ((e.signal k slot .Caller phase).replyCancel i call (.ok .Signalled))
  | deliver {k ending} (hcontext : k ∈ e.contexts) :
      Stepped e (.Deliver k ending)
        { e with transitions := e.transitions ++ [⟨k, ending.outcome, false, .Swap⟩] }
  | dropContext {k slot} (hcontext : k ∈ e.contexts) (hslot : e.slots[k]? = some slot)
      (hended : slot.terminal = true) :
      Stepped e (.DropContext k) { e with contexts := e.contexts.erase k }
  | abandon {k slot} (hcontext : k ∈ e.contexts) (hslot : e.slots[k]? = some slot)
      (hlive : slot.terminal = false) :
      Stepped e (.DropContext k)
        { e with
          contexts := e.contexts.erase k
          transitions := e.transitions ++ [⟨k, .Abandoned, true, .Swap⟩] }
  | lose {i t slot} (ht : e.transitions[i]? = some t) (hphase : t.phase = .Swap)
      (hslot : e.slots[t.slot]? = some slot) (hended : slot.terminal = true) :
      Stepped e (.TransitionStep i) (e.setTransition i t none)
  | win {i t slot} (ht : e.transitions[i]? = some t) (hphase : t.phase = .Swap)
      (hslot : e.slots[t.slot]? = some slot) (hlive : slot.terminal = false) :
      Stepped e (.TransitionStep i) ((e.win t slot).setTransition i t (some .Lock))
  | finish {i t slot} (ht : e.transitions[i]? = some t) (hphase : t.phase = .Lock)
      (hslot : e.slots[t.slot]? = some slot) :
      Stepped e (.TransitionStep i)
        ((e.finish t slot).setTransition i t (some (.Respond slot.state.waiters)))
  | respond {i t r waiters} (ht : e.transitions[i]? = some t)
      (hphase : t.phase = .Respond (r :: waiters)) :
      Stepped e (.TransitionStep i)
        ((e.answer ⟨r, some t.slot, t.outcome, e.now⟩).setTransition i t
          (some (.Respond waiters)))
  | complete {i t} (ht : e.transitions[i]? = some t) (hphase : t.phase = .Respond []) :
      Stepped e (.TransitionStep i) ((e.complete t.slot).setTransition i t none)
  | dropSwap {i t} (ht : e.transitions[i]? = some t) (hcall : t.abandon = false)
      (hphase : t.phase = .Swap) : Stepped e (.DropTransition i) (e.setTransition i t none)
  | dropLock {i t} (ht : e.transitions[i]? = some t) (hcall : t.abandon = false)
      (hphase : t.phase = .Lock) :
      Stepped e (.DropTransition i) ((e.breakOff t.slot).setTransition i t none)
  | dropRespond {i t waiters} (ht : e.transitions[i]? = some t) (hcall : t.abandon = false)
      (hphase : t.phase = .Respond waiters) :
      Stepped e (.DropTransition i)
        (((e.drop waiters).breakOff t.slot).setTransition i t none)
  | watch {k} : Stepped e (.Watch k) { e with watches := e.watches ++ [⟨k, .Check⟩] }
  | watchCheck {i w slot} (hw : e.watches[i]? = some w) (hphase : w.phase = .Check)
      (hslot : e.slots[w.slot]? = some slot) :
      Stepped e (.WatchStep i)
        (e.setWatch i w (if slot.is_terminal then none else some (.Signal .Cause)))
  | watchSignal {i w phase slot} (hw : e.watches[i]? = some w) (hphase : w.phase = .Signal phase)
      (hslot : e.slots[w.slot]? = some slot) :
      Stepped e (.WatchStep i)
        ((e.signal w.slot slot .SenderGone phase).setWatch i w
          ((slot.signal_cancel .SenderGone phase).2.2.map .Signal))
  | link {k token slot} (hslot : e.slots[k]? = some slot) :
      Stepped e (.Link k token)
        { e with
          slots := e.slots.set k (slot.link token).1
          cancelled_tokens := (slot.link token).2 ++ e.cancelled_tokens }
  | unlink {k id slot} (hslot : e.slots[k]? = some slot) :
      Stepped e (.Unlink k id) (e.setSlot k (slot.unlink id))
  | sweepStart {evicted} (hphase : e.sweeper = .Idle) :
      Stepped e (.Sweep evicted) { e with sweeper := .Registry e.now }
  | evict {evicted now} (hphase : e.sweeper = .Registry now) (hnodup : evicted.Nodup)
      (hexpired : ∀ goal_id ∈ evicted, e.expires now goal_id = true) :
      Stepped e (.Sweep evicted)
        { e with
          registry := fun goal_id => if goal_id ∈ evicted then none else e.registry goal_id
          sweeper := .Tombstones now evicted }
  | bury {evicted now expired_ids} (hphase : e.sweeper = .Tombstones now expired_ids) :
      Stepped e (.Sweep evicted)
        { e with
          tombstones := expired_ids.foldl ExpiredTombstones.insert e.tombstones
          evicted := e.evicted ++ expired_ids
          sweeper := .Pending now }
  | sweepPending {evicted now} (hphase : e.sweeper = .Pending now) (hfree : e.pendingFree) :
      Stepped e (.Sweep evicted)
        { e.drop ((e.pending_waiters.filter fun waiter => !(now < waiter.deadline)).map
            (·.responder)) with
          pending_waiters := e.pending_waiters.filter fun waiter => now < waiter.deadline
          sweeper := .Early now }
  | sweepEarly {evicted now} (hphase : e.sweeper = .Early now) (hfree : e.earlyFree) :
      Stepped e (.Sweep evicted)
        { e with
          early_cancels := e.early_cancels.filter fun entry => now < entry.2
          sweeper := .Idle }

section
variable {e e' : Engine} {i : Nat}

theorem acceptStep_cases {replied : Bool} (hcall : e.accepts[i]? = some call)
    (h : e.acceptStep i call replied = some e') : Stepped e (.AcceptStep i replied) e' := by
  unfold acceptStep at h
  split at h
  case h_1 hphase => cases h; exact .register hcall hphase
  case h_2 k hphase =>
    split at h
    · rename_i hfree
      split at h
      · rename_i hearly
        cases h
        exact .takeEarly hcall hphase hfree hearly
      · rename_i hearly
        cases h
        exact .noEarly hcall hphase hfree hearly
    · cases h
  case h_3 k phase hphase =>
    obtain ⟨slot, hslot, rfl⟩ := map_eq_some_iff.mp h
    exact .acceptSignal hcall hphase hslot
  case h_4 k hphase =>
    split at h
    · rename_i hfree
      cases h
      exact .adopt hcall hphase hfree
    · cases h
  case h_5 k adopted hphase =>
    obtain ⟨slot, hslot, rfl⟩ := map_eq_some_iff.mp h
    cases hstate : slot.state with
    | Pending waiters =>
      rw [Engine.extend, hstate]
      exact .extend hcall hphase hslot hstate
    | Terminal outcome evict_at =>
      rw [Engine.extend, hstate]
      exact .extendEnded hcall hphase hslot hstate
  case h_6 k hphase =>
    cases replied with
    | true => cases h; exact .takeOn hcall hphase
    | false => cases h; exact .forget hcall hphase

theorem dropAccept_cases (hcall : e.accepts[i]? = some call)
    (h : e.dropAccept i call = some e') : Stepped e (.DropAccept i) e' := by
  unfold dropAccept at h
  split at h
  case h_1 hphase => cases h; exact .dropAdopted hcall hphase
  case h_2 hphase => cases h; exact .dropAccept hcall hphase
  case h_3 => cases h

theorem pollStep_cases (hpoll : e.polls[i]? = some poll)
    (h : e.pollStep i poll = some e') : Stepped e (.PollStep i) e' := by
  unfold pollStep at h
  split at h
  case h_1 hphase =>
    split at h
    · cases h; exact .route hpoll hphase (.found ‹_›)
    · cases h; exact .route hpoll hphase (.missed ‹_›)
  case h_2 hphase =>
    split at h
    · cases h; exact .route hpoll hphase (.lock ‹_›)
    · cases h
  case h_3 hphase =>
    split at h
    · cases h; exact .route hpoll hphase (.foundAgain ‹_›)
    · cases h; exact .route hpoll hphase (.missedAgain ‹_›)
  case h_4 hphase =>
    split at h
    · cases h; exact .route hpoll hphase (.expired ‹_›)
    · cases h; exact .route hpoll hphase (.absent ‹_›)
  case h_5 hphase =>
    cases h
    by_cases hfull : PENDING_WAITERS_CAP ≤ e.pending_waiters.length
    · rw [Engine.park, if_pos hfull]
      exact .parkFull hpoll hphase hfull
    · rw [Engine.park, if_neg hfull]
      exact .park hpoll hphase (Nat.lt_of_not_le hfull)
  case h_6 k hphase =>
    obtain ⟨slot, hslot, rfl⟩ := map_eq_some_iff.mp h
    split
    · rename_i hstate
      exact .route hpoll hphase (.read hslot hstate)
    · rename_i hstate
      exact .wait hpoll hphase hslot hstate
  case h_7 hphase => cases h; exact .reply hpoll hphase

theorem cancelStep_cases {call : CancelCall} (hcall : e.cancels[i]? = some call)
    (h : e.cancelStep i call = some e') : Stepped e (.CancelStep i) e' := by
  unfold cancelStep at h
  split at h
  case h_1 hphase =>
    split at h
    · cases h; exact .search hcall hphase (.found ‹_›)
    · cases h; exact .search hcall hphase (.missed ‹_›)
  case h_2 hphase =>
    split at h
    · cases h; exact .resolve hcall hphase (.expired ‹_›)
    · cases h; exact .search hcall hphase (.absent ‹_›)
  case h_3 hphase =>
    split at h
    · cases h; exact .search hcall hphase (.lock ‹_›)
    · cases h
  case h_4 hphase =>
    split at h
    · cases h; exact .search hcall hphase (.foundAgain ‹_›)
    · cases h; exact .search hcall hphase (.missedAgain ‹_›)
  case h_5 hphase =>
    cases h
    by_cases hroom : e.early_cancels.length < EARLY_CANCELS_CAP
    · rw [remember_early_cancel, if_pos hroom]
      exact .remember hcall hphase hroom
    · rw [remember_early_cancel, if_neg hroom]
      exact .rememberFull hcall hphase (Nat.le_of_not_lt hroom)
  case h_6 k hphase =>
    obtain ⟨slot, hslot, rfl⟩ := map_eq_some_iff.mp h
    by_cases howner : slot.owner = call.verified_caller
    · cases hended : slot.terminal with
      | true =>
        simp only [may_cancel, howner, GoalSlot.is_terminal, hended, decide_true, Bool.not_true,
          Bool.false_eq_true, if_false, if_true]
        exact .resolve hcall hphase (.ended hslot howner hended)
      | false =>
        simp only [may_cancel, howner, GoalSlot.is_terminal, hended, decide_true, Bool.not_true,
          Bool.false_eq_true, if_false]
        exact .search hcall hphase (.allowed hslot howner hended)
    · simp only [may_cancel, howner, decide_false, Bool.not_false, if_true]
      exact .resolve hcall hphase (.refused hslot howner)
  case h_7 k phase hphase =>
    obtain ⟨slot, hslot, rfl⟩ := map_eq_some_iff.mp h
    split
    · rename_i hnext
      exact .cancelSignal hcall hphase hslot hnext
    · rename_i hlast
      exact .signalled hcall hphase hslot hlast

theorem dropContext_cases {k : Nat} (h : e.dropContext k = some e') :
    Stepped e (.DropContext k) e' := by
  unfold dropContext at h
  split at h
  · rename_i hcontext
    obtain ⟨slot, hslot, rfl⟩ := map_eq_some_iff.mp h
    cases hended : slot.terminal with
    | true => exact .dropContext hcontext hslot hended
    | false => exact .abandon hcontext hslot hended
  · cases h

theorem transitionStep_cases (ht : e.transitions[i]? = some t)
    (h : e.transitionStep i t = some e') : Stepped e (.TransitionStep i) e' := by
  unfold transitionStep at h
  split at h
  case h_1 hphase =>
    obtain ⟨slot, hslot, rfl⟩ := map_eq_some_iff.mp h
    cases hended : slot.terminal with
    | true => exact .lose ht hphase hslot hended
    | false => exact .win ht hphase hslot hended
  case h_2 hphase =>
    obtain ⟨slot, hslot, rfl⟩ := map_eq_some_iff.mp h
    exact .finish ht hphase hslot
  case h_3 hphase => cases h; exact .respond ht hphase
  case h_4 hphase => cases h; exact .complete ht hphase

theorem dropTransition_cases (ht : e.transitions[i]? = some t)
    (h : e.dropTransition i t = some e') : Stepped e (.DropTransition i) e' := by
  unfold dropTransition at h
  split at h
  · cases h
  rename_i hcall
  have hcall : t.abandon = false := by simpa using hcall
  split at h
  · rename_i hphase
    cases h
    exact .dropSwap ht hcall hphase
  · rename_i hphase
    cases h
    exact .dropLock ht hcall hphase
  · rename_i hphase
    cases h
    exact .dropRespond ht hcall hphase

theorem watchStep_cases {w : Watch} (hw : e.watches[i]? = some w)
    (h : e.watchStep i w = some e') : Stepped e (.WatchStep i) e' := by
  obtain ⟨slot, hslot, rfl⟩ := map_eq_some_iff.mp h
  split
  · rename_i hphase
    exact .watchCheck hw hphase hslot
  · rename_i hphase
    exact .watchSignal hw hphase hslot

theorem sweepStep_cases {evicted : List String} (h : e.sweepStep evicted = some e') :
    Stepped e (.Sweep evicted) e' := by
  unfold sweepStep at h
  split at h
  case h_1 hphase => cases h; exact .sweepStart hphase
  case h_2 hphase =>
    split at h
    · rename_i hevicted
      cases h
      exact .evict hphase hevicted.1 hevicted.2
    · cases h
  case h_3 hphase => cases h; exact .bury hphase
  case h_4 hphase =>
    split at h
    · cases h; exact .sweepPending hphase ‹_›
    · cases h
  case h_5 hphase =>
    split at h
    · cases h; exact .sweepEarly hphase ‹_›
    · cases h

theorem step_cases {a : Act} (h : step e a = some e') : Stepped e a e' := by
  cases a with
  | Tick d => cases h; exact .tick
  | Accept goal_id caller => cases h; exact .accept
  | AcceptStep i replied =>
    obtain ⟨call, hcall, h⟩ := bind_eq_some_iff.mp h
    exact acceptStep_cases hcall h
  | DropAccept i =>
    obtain ⟨call, hcall, h⟩ := bind_eq_some_iff.mp h
    exact dropAccept_cases hcall h
  | Poll goal_id responder =>
    simp only [step] at h
    split at h
    · cases h
    · cases h; exact .poll ‹_›
  | PollStep i =>
    obtain ⟨poll, hpoll, h⟩ := bind_eq_some_iff.mp h
    exact pollStep_cases hpoll h
  | Cancel request goal_id caller =>
    simp only [step] at h
    split at h
    · cases h
    · cases h; exact .cancel ‹_›
  | CancelStep i =>
    obtain ⟨call, hcall, h⟩ := bind_eq_some_iff.mp h
    exact cancelStep_cases hcall h
  | Deliver k ending =>
    simp only [step] at h
    split at h
    · cases h; exact .deliver ‹_›
    · cases h
  | DropContext k => exact dropContext_cases h
  | TransitionStep i =>
    obtain ⟨t, ht, h⟩ := bind_eq_some_iff.mp h
    exact transitionStep_cases ht h
  | DropTransition i =>
    obtain ⟨t, ht, h⟩ := bind_eq_some_iff.mp h
    exact dropTransition_cases ht h
  | Watch k => cases h; exact .watch
  | WatchStep i =>
    obtain ⟨w, hw, h⟩ := bind_eq_some_iff.mp h
    exact watchStep_cases hw h
  | Link k token =>
    obtain ⟨slot, hslot, rfl⟩ := map_eq_some_iff.mp h
    exact .link hslot
  | Unlink k id =>
    obtain ⟨slot, hslot, rfl⟩ := map_eq_some_iff.mp h
    exact .unlink hslot
  | Sweep evicted => exact sweepStep_cases h

/-! ## The tasks after a section -/

theorem mem_setAccept {c : AcceptCall} {phase : Option AcceptPhase}
    (h : c ∈ (e.setAccept i call phase).accepts) :
    c ∈ e.accepts ∨ ∃ p, phase = some p ∧ c = { call with phase := p } :=
  mem_put_map h

theorem mem_setPoll {phase : Option PollPhase} (h : p ∈ (e.setPoll i poll phase).polls) :
    p ∈ e.polls ∨ ∃ q, phase = some q ∧ p = { poll with phase := q } :=
  mem_put_map h

theorem other_poll (hpoll : e.polls[i]? = some poll) (phase : Option PollPhase) (hp : p ∈ e.polls) :
    p = poll ∨ p ∈ (e.setPoll i poll phase).polls :=
  eq_or_mem_put hpoll hp

theorem mem_setCancel {call c : CancelCall} {phase : Option CancelPhase}
    (h : c ∈ (e.setCancel i call phase).cancels) :
    c ∈ e.cancels ∨ ∃ p, phase = some p ∧ c = { call with phase := p } :=
  mem_put_map h

theorem mem_setTransition {t' : Transition} {phase : Option TransitionPhase}
    (h : t' ∈ (e.setTransition i t phase).transitions) :
    t' ∈ e.transitions ∨ ∃ p, phase = some p ∧ t' = { t with phase := p } :=
  mem_put_map h

end

end Engine

end peppy.actions
