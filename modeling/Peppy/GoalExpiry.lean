-- What is left of a goal that ended: a poll or a cancel request that comes after the
-- end finds the slot, or the record of the evicted goals.
import Peppy.GoalResults
import Peppy.GoalRequests

open changes tasks runs List

namespace peppy.actions

/-! ## The record of the evicted goals -/

namespace ExpiredTombstones

/-- The record has the last goals evicted, up to its cap. -/
structure Holds (t : ExpiredTombstones) (evicted : List String) : Prop where
  cap : t.cap = EXPIRED_TOMBSTONE_CAP
  order : t.order = evicted.drop (evicted.length - EXPIRED_TOMBSTONE_CAP)
  set : t.set.Perm t.order

section
variable {t : ExpiredTombstones} {evicted : List String} {goal_id : String}

theorem cap_pos : 0 < EXPIRED_TOMBSTONE_CAP := by decide

theorem make_room_of_lt {cap : Nat} {order set : List String} (h : order.length < cap) :
    make_room cap order set = (order, set) := by
  cases order with
  | nil => rfl
  | cons old order => rw [make_room, if_neg (Nat.not_le.mpr h)]

theorem Holds.contains_iff (h : Holds t evicted) : t.contains goal_id = true ↔
      goal_id ∈ evicted.drop (evicted.length - EXPIRED_TOMBSTONE_CAP) := by
  rw [contains, decide_eq_true_iff, h.set.mem_iff, h.order]

theorem Holds.insert (h : Holds t evicted) (hnew : goal_id ∉ evicted) :
    Holds (t.insert goal_id) (evicted ++ [goal_id]) := by
  have habsent : ¬ t.contains goal_id = true := fun hmem =>
    hnew (mem_of_mem_drop (h.contains_iff.mp hmem))
  have hcap := cap_pos
  rw [ExpiredTombstones.insert, if_neg habsent]
  rcases Nat.lt_or_ge evicted.length EXPIRED_TOMBSTONE_CAP with hlt | hge
  · -- There is room, and nothing leaves.
    have horder : t.order = evicted := by
      rw [h.order, Nat.sub_eq_zero_of_le (Nat.le_of_lt hlt), drop_zero]
    have hroom : t.order.length < t.cap := by rw [horder, h.cap]; exact hlt
    rw [make_room_of_lt hroom]
    refine ⟨h.cap, ?_, ?_⟩
    · have hlen : (evicted ++ [goal_id]).length ≤ EXPIRED_TOMBSTONE_CAP := by
        rw [length_append]
        exact hlt
      rw [Nat.sub_eq_zero_of_le hlen, drop_zero]
      exact congrArg (· ++ [goal_id]) horder
    · exact (h.set.cons goal_id).trans (perm_append_singleton goal_id t.order).symm
  · -- The record is full, and its oldest entry leaves.
    have hlength : t.order.length = EXPIRED_TOMBSTONE_CAP := by
      rw [h.order, length_drop]
      omega
    obtain ⟨old, rest, hcons⟩ := exists_cons_of_length_pos (hlength ▸ hcap)
    have hfull : t.cap ≤ (old :: rest).length := Nat.le_of_eq (by rw [← hcons, hlength, h.cap])
    have hroom : rest.length < t.cap := by
      rw [h.cap, ← hlength, hcons]
      exact Nat.lt_succ_self _
    have hrest : rest = evicted.drop (evicted.length - EXPIRED_TOMBSTONE_CAP + 1) := by
      rw [← tail_drop, ← h.order, hcons, tail_cons]
    rw [hcons, make_room, if_pos hfull, make_room_of_lt hroom]
    refine ⟨h.cap, ?_, ?_⟩
    · have hdrop : (evicted ++ [goal_id]).length - EXPIRED_TOMBSTONE_CAP =
          evicted.length - EXPIRED_TOMBSTONE_CAP + 1 := by
        rw [length_append, length_singleton]
        omega
      rw [hdrop, drop_append_of_le_length (by omega), ← hrest]
    · have herase : (t.set.erase old).Perm rest := by
        have h' := h.set.erase old
        rwa [hcons, erase_cons_head] at h'
      exact (herase.cons goal_id).trans (perm_append_singleton goal_id rest).symm

theorem Holds.insert_all {ids : List String} (h : Holds t evicted)
    (hnodup : (evicted ++ ids).Nodup) :
    Holds (ids.foldl ExpiredTombstones.insert t) (evicted ++ ids) := by
  induction ids generalizing t evicted with
  | nil => rwa [append_nil]
  | cons id ids ih =>
    have hsplit : evicted ++ id :: ids = evicted ++ [id] ++ ids := by simp
    have hnew : id ∉ evicted := fun hmem =>
      (nodup_append.mp hnodup).2.2 id hmem id mem_cons_self rfl
    rw [hsplit] at hnodup ⊢
    exact ih (h.insert hnew) hnodup

theorem forgotten {ids : List String} (hnodup : (goal_id :: ids).Nodup)
    (hlength : ids.length = EXPIRED_TOMBSTONE_CAP) :
    ((goal_id :: ids).foldl ExpiredTombstones.insert {}).contains goal_id = false := by
  have hholds : Holds {} [] := ⟨rfl, rfl, .refl _⟩
  rw [← Bool.not_eq_true, (hholds.insert_all hnodup).contains_iff]
  simp [hlength, (nodup_cons.mp hnodup).1]

/-- A goal stays in the record while fewer than its cap left after it. -/
theorem Holds.contains (h : Holds t evicted) (hmem : goal_id ∈ evicted)
    (hfew : (evicted.dropWhile fun id => id ≠ goal_id).length ≤ EXPIRED_TOMBSTONE_CAP) :
    t.contains goal_id = true := by
  rw [h.contains_iff]
  have hsplit := takeWhile_append_dropWhile (p := fun id => decide (id ≠ goal_id))
    (l := evicted)
  have hbefore : evicted.length - EXPIRED_TOMBSTONE_CAP ≤
      (evicted.takeWhile fun id => id ≠ goal_id).length := by
    have hlen := congrArg List.length hsplit
    rw [length_append] at hlen
    omega
  have hafter : goal_id ∈ evicted.dropWhile fun id => id ≠ goal_id := by
    rw [← hsplit] at hmem
    rcases mem_append.mp hmem with hmem | hmem
    · exact absurd rfl (of_decide_eq_true (all_eq_true.mp all_takeWhile goal_id hmem))
    · exact hmem
  have hdrop : ((evicted.takeWhile fun id => id ≠ goal_id) ++
      evicted.dropWhile fun id => id ≠ goal_id).drop (evicted.length - EXPIRED_TOMBSTONE_CAP) =
      (evicted.takeWhile fun id => id ≠ goal_id).drop (evicted.length - EXPIRED_TOMBSTONE_CAP) ++
        evicted.dropWhile fun id => id ≠ goal_id := drop_append_of_le_length hbefore
  rw [hsplit] at hdrop
  rw [hdrop]
  exact mem_append_right _ hafter

end

end ExpiredTombstones

variable {poll : PollCall} {call : CancelCall} {p : CancelPhase} {slot : GoalSlot}

namespace Engine

/-- The tombstones are those of the evicted goals. -/
def Buried (e : Engine) : Prop := e.tombstones.Holds e.evicted

theorem Buried.start (grace : Nat) : Buried (start grace) := ⟨rfl, drop_nil.symm, .refl _⟩

theorem Buried.step {e e' : Engine} {a : Act} (inv : Buried e) (placed : Placed e)
    (h : Stepped e a e') : Buried e' := by
  cases h with
  | bury hphase =>
    have honce := placed.once
    rw [gap, hphase] at honce
    exact inv.insert_all honce
  | _ => exact inv

/-- The goal left the registry, and fewer goals than the cap left after it. -/
def recorded (e : Engine) (goal_id : String) : Bool :=
  goal_id ∉ e.gap ∧
    (e.evicted.dropWhile fun id => id ≠ goal_id).length ≤ EXPIRED_TOMBSTONE_CAP

/-- The requests of the goal read the record only when it holds the goal. -/
def readsRecord (goal_id : String) (e : Engine) : Act → Bool
  | .PollStep i =>
    (e.polls[i]?).all fun poll =>
      match poll.phase with
      | .Tombstone => poll.goal_id ≠ goal_id || e.recorded goal_id
      | _ => true
  | .CancelStep i =>
    (e.cancels[i]?).all fun call =>
      match call.phase with
      | .Tombstone => call.goal_id ≠ goal_id || e.recorded goal_id
      | _ => true
  | _ => true

section
variable {e e' : Engine} {a : Act} {i k evict_at : Nat} {goal_id : String} {outcome : GoalOutcome}

theorem Orderly.tombstone_of_none (orderly : Orderly e) (buried : Buried e)
    (hended : Ended e k goal_id outcome evict_at) (hnone : e.registry goal_id = none)
    (hrecorded : e.recorded goal_id = true) : e.tombstones.contains goal_id = true := by
  obtain ⟨hgap, hfew⟩ := of_decide_eq_true hrecorded
  rcases orderly.registry_of_ended hended with hk | ⟨-, hgone, -⟩
  · cases hk.symm.trans hnone
  · exact buried.contains ((mem_append.mp hgone).resolve_left hgap) hfew

theorem Ended.terminal (h : Ended e k goal_id outcome evict_at) (ends : Ends e) :
    ∃ slot, e.slots[k]? = some slot ∧ slot.goal_id = goal_id ∧ slot.terminal = true := by
  obtain ⟨g, hg, hid, hended⟩ := h
  obtain ⟨slot, hslot, rfl⟩ := slot_of_goal hg
  refine ⟨slot, hslot, hid, (ends.flag k slot.goal hg).mpr ?_⟩
  exact mem_map_of_mem (ends.stored k slot.goal outcome evict_at hg hended)

end

/-! ## A poll after the end -/

/-- Where the poll of a goal that ended can be. -/
def EndedPhase (k : Nat) (goal_id : String) (outcome : GoalOutcome) (e : Engine) : PollPhase → Prop
  | .Look | .Lock | .LookAgain => True
  | .Tombstone => e.registry goal_id = none
  | .Park => False
  | .Slot j => j = k
  | .Reply _ o _ => o = outcome ∨ o = .Expired

/-- The answer is the outcome of the goal or `Expired`. -/
def EndedAnswer (outcome : GoalOutcome) (a : Answer) : Prop :=
  a.outcome = outcome ∨ a.outcome = .Expired

/-- The poll comes to the outcome, or to `Expired`. -/
def PollsEnded (k : Nat) (outcome : GoalOutcome) (r : Nat) (goal_id : String) (e : Engine) : Prop :=
  Tracks (EndedPhase k goal_id outcome) (fun _ => EndedAnswer outcome) (fun _ => False) r goal_id e

section
variable {e e' : Engine} {a : Act} {k r evict_at : Nat} {goal_id : String} {outcome : GoalOutcome}

theorem EndedPhase.stays {p : PollPhase} (hp : EndedPhase k goal_id outcome e p)
    (distinct : Distinct e) (named : Named e k goal_id) (h : Stepped e a e') :
    EndedPhase k goal_id outcome e' p := by
  cases p with
  | Tombstone => exact registry_stays_none distinct h named hp
  | _ => exact hp

theorem EndedPhase.route (orderly : Orderly e) (buried : Buried e)
    (hended : Ended e k goal_id outcome evict_at) {p p' : PollPhase}
    (hp : EndedPhase k goal_id outcome e p) (hrecorded : p = .Tombstone → e.recorded goal_id = true)
    (hroute : Routes e goal_id p p') : EndedPhase k goal_id outcome e p' := by
  cases hroute with
  | found hj | foundAgain hj => exact orderly.slot_of_registry hended hj
  | missed | lock => trivial
  | missedAgain hnone => exact hnone
  | expired => exact .inr rfl
  | absent habsent =>
    exact habsent (orderly.tombstone_of_none buried hended hp (hrecorded rfl))
  | @read j slot o ev hslot hstate =>
    cases hp
    obtain ⟨slot', hslot', -, hstate'⟩ := hended.slot
    cases hslot.symm.trans hslot'
    cases hstate.symm.trans hstate'
    by_cases hin : e.now < evict_at
    · exact .inl (if_pos hin)
    · exact .inr (if_neg hin)

theorem PollsEnded.step (inv : PollsEnded k outcome r goal_id e) (orderly : Orderly e)
    (buried : Buried e) (hended : Ended e k goal_id outcome evict_at)
    (hreads : readsRecord goal_id e a = true) (h : Stepped e a e') :
    PollsEnded k outcome r goal_id e' := by
  refine Tracks.step inv orderly.ledger h ?_ ?_ ?_ ?_ ?_ ?_ ?_ ?_
  · exact fun p hp => hp.stays orderly.distinct hended.named h
  · exact fun ans hans => hans
  · exact id
  · intro i poll next ha hpoll hid hp hroute
    subst ha
    refine (hp.route orderly buried hended (fun hphase => ?_) hroute).stays orderly.distinct
      hended.named h
    simpa [readsRecord, hpoll, hphase, hid] using hreads
  · exact fun slot o read_at hp => hp
  · exact id
  · intro j slot waiters hj hslot hstate
    cases hj
    obtain ⟨slot', hslot', -, hstate'⟩ := hended.slot
    cases hslot.symm.trans hslot'
    cases hstate.symm.trans hstate'
  · exact fun hl => hl.elim

/-- What is left of a goal that ended: its slot, or its tombstone. -/
structure Recalled (k : Nat) (goal_id : String) (outcome : GoalOutcome) (e : Engine) : Prop where
  slot : ∃ slot evict_at, e.slots[k]? = some slot ∧ slot.state = .Terminal outcome evict_at
  found : ∀ j, e.registry goal_id = some j → j = k
  buried : e.registry goal_id = none → e.tombstones.contains goal_id = true

theorem Orderly.recalled (orderly : Orderly e) (buried : Buried e)
    (hended : Ended e k goal_id outcome evict_at) (hrecorded : e.recorded goal_id = true) :
    Recalled k goal_id outcome e where
  slot := by
    obtain ⟨slot, hslot, -, hstate⟩ := hended.slot
    exact ⟨slot, evict_at, hslot, hstate⟩
  found _ hj := orderly.slot_of_registry hended hj
  buried hnone := orderly.tombstone_of_none buried hended hnone hrecorded

theorem Recalled.setPoll (h : Recalled k goal_id outcome e) (i : Nat) (poll : PollCall)
    (phase : Option PollPhase) : Recalled k goal_id outcome (e.setPoll i poll phase) :=
  ⟨h.slot, h.found, h.buried⟩

theorem pendingFree_setPoll {i : Nat} (h : e.pendingFree = true) :
    (e.setPoll i poll (some .Lock)).pendingFree = true := by
  rw [pendingFree, all_eq_true] at h ⊢
  intro p hp
  rcases mem_setPoll hp with hp | ⟨q, hq, rfl⟩
  · exact h p hp
  · cases hq
    rfl

end

section
variable {e : Engine} {i k r : Nat} {poll : PollCall} {goal_id : String} {outcome : GoalOutcome}

section
variable (h : Recalled k goal_id outcome e)
include h

theorem Recalled.answers_slot
    (hpoll : e.polls[i]? = some poll) (hr : poll.responder = r) (hphase : poll.phase = .Slot k) :
    Answers e i r (EndedAnswer outcome) := by
  obtain ⟨slot, evict_at, hslot, hstate⟩ := h.slot
  refine .slot hpoll hr hphase hslot hstate ?_
  by_cases hin : e.now < evict_at
  · exact .inl (if_pos hin)
  · exact .inr (if_neg hin)

theorem Recalled.answers_tombstone (hpoll : e.polls[i]? = some poll) (hid : poll.goal_id = goal_id)
    (hr : poll.responder = r) (hphase : poll.phase = .Tombstone)
    (hnone : e.registry goal_id = none) : Answers e i r (EndedAnswer outcome) := by
  subst hid
  refine .route hpoll hphase (.expired (h.buried hnone)) ?_
  exact .reply (setPoll_self hpoll) hr rfl (.inr rfl)

theorem Recalled.answers_again (hpoll : e.polls[i]? = some poll) (hid : poll.goal_id = goal_id)
    (hr : poll.responder = r) (hphase : poll.phase = .LookAgain) :
    Answers e i r (EndedAnswer outcome) := by
  subst hid
  cases hj : e.registry poll.goal_id with
  | some j =>
    cases h.found j hj
    exact .route hpoll hphase (.foundAgain hj)
      ((h.setPoll i poll _).answers_slot (setPoll_self hpoll) hr rfl)
  | none =>
    exact .route hpoll hphase (.missedAgain hj)
      ((h.setPoll i poll _).answers_tombstone (setPoll_self hpoll) rfl hr rfl hj)

theorem Recalled.answers_lock (hpoll : e.polls[i]? = some poll) (hid : poll.goal_id = goal_id)
    (hr : poll.responder = r) (hphase : poll.phase = .Lock)
    (hfree : e.pendingFree = true) : Answers e i r (EndedAnswer outcome) := by
  subst hid
  exact .route hpoll hphase (.lock hfree)
    ((h.setPoll i poll _).answers_again (setPoll_self hpoll) rfl hr rfl)

theorem Recalled.answers_look (hpoll : e.polls[i]? = some poll) (hid : poll.goal_id = goal_id)
    (hr : poll.responder = r) (hphase : poll.phase = .Look)
    (hfree : e.pendingFree = true) : Answers e i r (EndedAnswer outcome) := by
  subst hid
  cases hj : e.registry poll.goal_id with
  | some j =>
    cases h.found j hj
    exact .route hpoll hphase (.found hj)
      ((h.setPoll i poll _).answers_slot (setPoll_self hpoll) hr rfl)
  | none =>
    exact .route hpoll hphase (.missed hj)
      ((h.setPoll i poll _).answers_lock (setPoll_self hpoll) rfl hr rfl
        (pendingFree_setPoll hfree))

end

/-- A poll of a recalled goal is answered by its own sections, given the lock. -/
theorem PollsEnded.answers (inv : PollsEnded k outcome r goal_id e)
    (recalled : Recalled k goal_id outcome e) (hlock : e.pendingFree = true ∨
      ∃ poll ∈ e.polls, poll.responder = r ∧ poll.holdsPending = true) :
    ∃ i, Answers e i r (EndedAnswer outcome) := by
  have hcase : (∃ poll ∈ e.polls, poll.responder = r ∧
      (e.pendingFree = true ∨ poll.holdsPending = true)) ∨ ∃ a ∈ e.answers, a.responder = r := by
    rcases hlock with hfree | ⟨poll, hpoll, hr, hholds⟩
    · rcases inv.here with (⟨poll, hpoll, hr⟩ | hanswered) | hl
      · exact .inl ⟨poll, hpoll, hr, .inl hfree⟩
      · exact .inr hanswered
      · exact hl.elim
    · exact .inl ⟨poll, hpoll, hr, .inr hholds⟩
  rcases hcase with ⟨poll, hpoll, hr, hlock⟩ | ⟨a, ha, hr⟩
  · obtain ⟨rfl, hphase⟩ := inv.phases poll hpoll hr
    obtain ⟨i, hi⟩ := getElem?_of_mem hpoll
    refine ⟨i, ?_⟩
    rw [PollCall.holdsPending] at hlock
    cases hp : poll.phase with
    | Look =>
      rw [hp] at hlock
      exact recalled.answers_look hi rfl hr hp (hlock.resolve_right Bool.false_ne_true)
    | Lock =>
      rw [hp] at hlock
      exact recalled.answers_lock hi rfl hr hp (hlock.resolve_right Bool.false_ne_true)
    | LookAgain => exact recalled.answers_again hi rfl hr hp
    | Tombstone =>
      rw [hp] at hphase
      exact recalled.answers_tombstone hi rfl hr hp hphase
    | Park =>
      rw [hp] at hphase
      exact hphase.elim
    | Slot j =>
      rw [hp] at hphase
      cases hphase
      exact recalled.answers_slot hi hr hp
    | Reply s o t =>
      rw [hp] at hphase
      exact .reply hi hr hp hphase
  · exact ⟨0, e, a, .refl _ _, ha, hr, Tracks.answers inv a ha hr⟩

end

/-! ## A cancel request after the end -/

/-- Where the cancel of a goal that ended can be. -/
def EndedCancelPhase (k : Nat) (goal_id : String) (e : Engine) : CancelPhase → Prop
  | .Look => True
  | .Tombstone => e.registry goal_id = none
  | .Check j => j = k
  | .Lock | .LookAgain | .Remember | .Signal .. => False

/-- The answer tells that the goal ended, or refuses who does not own it. -/
def EndedReply (goal_id : String) (owner caller : Option VerifiedCaller) (a : CancelAnswer) :
    Prop :=
  a = .ok .AlreadyTerminal ∨ (owner ≠ caller ∧ a = .error (cancel_of_another_client goal_id))

/-- What is known of a cancel request that came after its goal ended. -/
def CancelsEnded (k : Nat) (owner caller : Option VerifiedCaller) (q : Nat) (goal_id : String)
    (e : Engine) : Prop :=
  Follows (EndedCancelPhase k goal_id) (fun _ => EndedReply goal_id owner caller) q goal_id caller e

section
variable {e e' : Engine} {a : Act} {k q evict_at : Nat} {goal_id : String} {outcome : GoalOutcome}
variable {owner caller : Option VerifiedCaller}

theorem EndedCancelPhase.stays (hp : EndedCancelPhase k goal_id e p)
    (distinct : Distinct e) (named : Named e k goal_id) (h : Stepped e a e') :
    EndedCancelPhase k goal_id e' p := by
  cases p with
  | Tombstone => exact registry_stays_none distinct h named hp
  | _ => exact hp

theorem EndedCancelPhase.proceed (orderly : Orderly e) (buried : Buried e)
    (hended : Ended e k call.goal_id outcome evict_at) {p' : CancelPhase}
    (hp : EndedCancelPhase k call.goal_id e p)
    (hrecorded : p = .Tombstone → e.recorded call.goal_id = true)
    (hproceeds : Proceeds e call p p') : EndedCancelPhase k call.goal_id e p' := by
  cases hproceeds with
  | signal => exact hp.elim
  | search hsearch =>
    cases hsearch with
    | found hj => exact orderly.slot_of_registry hended hj
    | missed hnone => exact hnone
    | absent habsent =>
      exact absurd (orderly.tombstone_of_none buried hended hp (hrecorded rfl)) habsent
    | lock | foundAgain | missedAgain => exact hp.elim
    | allowed hslot howner hlive =>
      cases hp
      obtain ⟨slot, hslot', -, hterminal⟩ := hended.terminal orderly.ends
      cases hslot.symm.trans hslot'
      cases hlive.symm.trans hterminal

theorem EndedCancelPhase.conclude (hsent : SentBy e k call.goal_id owner)
    {a : CancelAnswer} (hp : EndedCancelPhase k call.goal_id e p)
    (hconcludes : Concludes e call p a) : EndedReply call.goal_id owner call.verified_caller a := by
  cases hconcludes with
  | remember | signalled => exact hp.elim
  | resolve hresolve =>
    cases hresolve with
    | expired | ended => exact .inl rfl
    | refused hslot howner =>
      cases hp
      obtain ⟨g, hg, -, rfl⟩ := hsent
      cases (goals_getElem? hslot).symm.trans hg
      exact .inr ⟨howner, rfl⟩

theorem CancelsEnded.step (inv : CancelsEnded k owner caller q goal_id e) (orderly : Orderly e)
    (buried : Buried e) (hended : Ended e k goal_id outcome evict_at)
    (hsent : SentBy e k goal_id owner) (hreads : readsRecord goal_id e a = true)
    (h : Stepped e a e') : CancelsEnded k owner caller q goal_id e' := by
  refine Follows.step inv h ?_ ?_ ?_ ?_
  · exact fun p hp => hp.stays orderly.distinct hended.named h
  · exact fun ans hans => hans
  · intro i call next ha hcall hid hcaller hp hproceeds
    subst ha hid
    refine (hp.proceed orderly buried hended (fun hphase => ?_) hproceeds).stays
      orderly.distinct hended.named h
    simpa [readsRecord, hcall, hphase] using hreads
  · intro call ans hid hcaller hp hconcludes
    subst hid hcaller
    exact hp.conclude hsent hconcludes

end

section
variable {e : Engine} {i k q : Nat} {call : CancelCall} {goal_id : String}
variable {caller : Option VerifiedCaller}

theorem replies_check (hslot : e.slots[k]? = some slot)
    (hended : slot.terminal = true) (hcall : e.cancels[i]? = some call) (hq : call.request = q)
    (hid : call.goal_id = goal_id) (hcaller : call.verified_caller = caller)
    (hphase : call.phase = .Check k) : Replies e i q (EndedReply goal_id slot.owner caller) := by
  subst hid hcaller
  by_cases howner : slot.owner = call.verified_caller
  · exact .resolve hcall hq hphase (.ended hslot howner hended) (.inl rfl)
  · exact .resolve hcall hq hphase (.refused hslot howner) (.inr ⟨howner, rfl⟩)

/-- A cancel request of a recalled goal is answered by its own sections. -/
theorem CancelsEnded.replies_alone {outcome : GoalOutcome}
    (inv : CancelsEnded k slot.owner caller q goal_id e) (recalled : Recalled k goal_id outcome e)
    (hslot : e.slots[k]? = some slot) (hended : slot.terminal = true) :
    ∃ i, Replies e i q (EndedReply goal_id slot.owner caller) := by
  rcases inv.here with ⟨call, hcall, hq⟩ | ⟨reply, hreply, hq⟩
  · obtain ⟨rfl, rfl, hphase⟩ := inv.phases call hcall hq
    obtain ⟨i, hi⟩ := getElem?_of_mem hcall
    refine ⟨i, ?_⟩
    cases hp : call.phase with
    | Look =>
      cases hj : e.registry call.goal_id with
      | some j =>
        cases recalled.found j hj
        refine .search hi hp (.found hj) ?_
        exact replies_check (e := e.setCancel i call (some (.Check k))) hslot hended
          (setCancel_self hi) hq rfl rfl rfl
      | none =>
        refine .search hi hp (.missed hj) ?_
        exact .resolve (setCancel_self hi) hq rfl (.expired (recalled.buried hj)) (.inl rfl)
    | Tombstone =>
      rw [hp] at hphase
      exact .resolve hi hq hp (.expired (recalled.buried hphase)) (.inl rfl)
    | Check j =>
      rw [hp] at hphase
      cases hphase
      exact replies_check hslot hended hi hq rfl rfl hp
    | Lock | LookAgain | Remember | Signal =>
      rw [hp] at hphase
      exact hphase.elim
  · exact ⟨0, e, reply, .refl _ _, hreply, hq, Follows.replies inv reply hreply hq⟩

end

/-! ## The laws of a goal that ended -/

/-- The rules that a request relies on. -/
structure Attended (e : Engine) : Prop where
  orderly : Orderly e
  buried : Buried e
  requested : Requested e

/-- The goal ended, and its request is known. -/
structure AtEnd (k : Nat) (goal_id : String) (owner : Option VerifiedCaller)
    (outcome : GoalOutcome) (evict_at : Nat) (e : Engine) : Prop extends Attended e where
  ended : Ended e k goal_id outcome evict_at
  sent : SentBy e k goal_id owner

section
variable {e e' : Engine} {a : Act} {k evict_at : Nat} {goal_id : String}
variable {owner : Option VerifiedCaller} {outcome : GoalOutcome} {ops : List Act}

theorem Attended.start (grace : Nat) : Attended (start grace) :=
  ⟨.start grace, .start grace, .start grace⟩

theorem Attended.step (inv : Attended e) (hfresh : freshGoal e a = true) (h : Stepped e a e') :
    Attended e' :=
  ⟨inv.orderly.step hfresh h, inv.buried.step inv.orderly.placed h, inv.requested.step h⟩

theorem Attended.of_run (inv : Attended e)
    (hfresh : Meets Engine.step (fun e a => freshGoal e a = true) e ops)
    (h : run Engine.step e ops = some e') : Attended e' :=
  run_keeps_where (fun _ _ _ inv hfresh h => inv.step hfresh (step_cases h)) inv hfresh h

theorem AtEnd.step (inv : AtEnd k goal_id owner outcome evict_at e) (hfresh : freshGoal e a = true)
    (h : Stepped e a e') : AtEnd k goal_id owner outcome evict_at e' :=
  have hgrow := inv.orderly.ends.grow h
  ⟨inv.toAttended.step hfresh h, inv.ended.grow hgrow, inv.sent.grow hgrow⟩

theorem Attended.atEnd (inv : Attended e) (hslot : e.slots[k]? = some slot)
    (hstate : slot.state = .Terminal outcome evict_at) :
    AtEnd k slot.goal_id slot.owner outcome evict_at e :=
  ⟨inv, ended_of_slot hslot hstate, ⟨slot.goal, goals_getElem? hslot, rfl, rfl⟩⟩

/-- New goal ids, and a record that holds the goal whenever it is read. -/
def KeepsRecord (goal_id : String) (e : Engine) (a : Act) : Prop :=
  freshGoal e a = true ∧ readsRecord goal_id e a = true

instance (goal_id : String) (e : Engine) (a : Act) : Decidable (KeepsRecord goal_id e a) :=
  inferInstanceAs (Decidable (_ ∧ _))

end

/-- With distinct goal ids, and a record that holds the goal when it is read: a poll after
the end is answered with the outcome or `Expired`, and a cancel with `AlreadyTerminal`, or
refused to who does not own the goal. -/
theorem a_goal_that_ended_is_answered {grace : Nat} {ops : List Act} {e : Engine}
    (hrun : run step (start grace) ops = some e)
    (hfresh : Meets step (fun e a => freshGoal e a = true) (start grace) ops)
    {k : Nat} {slot : GoalSlot} {outcome : GoalOutcome} {evict_at : Nat}
    (hslot : e.slots[k]? = some slot) (hstate : slot.state = .Terminal outcome evict_at)
    {later : List Act} {e₁ e₂ : Engine} (hlater : run step e₁ later = some e₂)
    (hkeeps : Meets step (KeepsRecord slot.goal_id) e₁ later) :
    (∀ r, step e (.Poll slot.goal_id r) = some e₁ →
      Here e₂ r ∧ r ∉ e₂.pending_waiters.map (·.responder) ∧ r ∉ e₂.dropped ∧
      (∀ a ∈ e₂.answers, a.responder = r → a.outcome = outcome ∨ a.outcome = .Expired) ∧
      (e₂.recorded slot.goal_id = true →
        (e₂.pendingFree = true ∨
          ∃ poll ∈ e₂.polls, poll.responder = r ∧ poll.holdsPending = true) →
        ∃ i, Answers e₂ i r fun a => a.outcome = outcome ∨ a.outcome = .Expired)) ∧
    ∀ q caller, step e (.Cancel q slot.goal_id caller) = some e₁ →
      RequestHere e₂ q ∧
      (∀ reply ∈ e₂.replies, reply.request = q →
        reply.answer = .ok .AlreadyTerminal ∨
          (slot.owner ≠ caller ∧
            reply.answer = .error (cancel_of_another_client slot.goal_id))) ∧
      (e₂.recorded slot.goal_id = true →
        ∃ i, Replies e₂ i q fun answer => answer = .ok .AlreadyTerminal ∨
            (slot.owner ≠ caller ∧ answer = .error (cancel_of_another_client slot.goal_id))) := by
  have hend := ((Attended.start grace).of_run hfresh hrun).atEnd hslot hstate
  constructor
  · intro r hpoll
    obtain ⟨hend₂, hpolls⟩ := run_keeps_where
      (I := fun e => AtEnd k slot.goal_id slot.owner outcome evict_at e ∧
        PollsEnded k outcome r slot.goal_id e)
      (by
        rintro e a e' ⟨hend, hpolls⟩ ⟨hfresh, hreads⟩ hstep
        have hstep := step_cases hstep
        exact ⟨hend.step hfresh hstep,
          hpolls.step hend.orderly hend.buried hend.ended hreads hstep⟩)
      ⟨hend.step rfl (step_cases hpoll), Tracks.init hend.orderly.toSound hpoll trivial⟩
      hkeeps hlater
    have hhere := hpolls.here.resolve_right id
    obtain ⟨hparked, hdropped⟩ := hend₂.orderly.ledger.not_parked hhere
    refine ⟨hhere, hparked, hdropped, Tracks.answers hpolls, fun hrecorded hlock => ?_⟩
    exact PollsEnded.answers hpolls
      (hend₂.orderly.recalled hend₂.buried hend₂.ended hrecorded) hlock
  · intro q caller hcancel
    obtain ⟨hend₂, hcancels⟩ := run_keeps_where
      (I := fun e => AtEnd k slot.goal_id slot.owner outcome evict_at e ∧
        CancelsEnded k slot.owner caller q slot.goal_id e)
      (by
        rintro e a e' ⟨hend, hcancels⟩ ⟨hfresh, hreads⟩ hstep
        have hstep := step_cases hstep
        exact ⟨hend.step hfresh hstep,
          hcancels.step hend.orderly hend.buried hend.ended hend.sent hreads hstep⟩)
      ⟨hend.step rfl (step_cases hcancel), Follows.init hend.requested hcancel trivial⟩
      hkeeps hlater
    refine ⟨hcancels.here, Follows.replies hcancels, fun hrecorded => ?_⟩
    obtain ⟨slot₂, hslot₂, -, hterminal⟩ := hend₂.ended.terminal hend₂.orderly.ends
    obtain ⟨g, hg, -, howner⟩ := hend₂.sent
    cases (goals_getElem? hslot₂).symm.trans hg
    have howner : slot₂.owner = slot.owner := howner
    rw [← howner] at hcancels ⊢
    exact hcancels.replies_alone
      (hend₂.orderly.recalled hend₂.buried hend₂.ended hrecorded) hslot₂ hterminal

def planner : VerifiedCaller := ⟨"lab", "planner", .Instance⟩

def endGoal (goal_id : String) (k : Nat) : List Act :=
  [.Accept goal_id (some planner), .AcceptStep 0 true, .AcceptStep 0 true, .AcceptStep 0 true,
    .AcceptStep 0 true, .Deliver k (.Complete "placed"), .TransitionStep 0, .TransitionStep 0,
    .TransitionStep 0]

def evictedGoal : List Act := endGoal "pick" 0 ++ [.Tick 31, .Sweep []]

theorem the_answers_of_an_evicted_goal : ∃ e e₁ e₂, run step (start 30) evictedGoal = some e ∧
      step e (.Poll "pick" 7) = some e₁ ∧
      run step e₁ [.Sweep ["pick"], .PollStep 0, .PollStep 0, .Sweep [], .PollStep 0] = some e₂ ∧
      7 ∉ e₂.pending_waiters.map (·.responder) ∧
      ∃ i, Answers e₂ i 7 fun a => a.outcome = .Completed "placed" ∨ a.outcome = .Expired := by
  obtain ⟨e, he, slot, hslot, hid, hstate, e₁, he₁, e₂, he₂⟩ :
      ∃ e, run step (start 30) evictedGoal = some e ∧
      ∃ slot, e.slots[0]? = some slot ∧ slot.goal_id = "pick" ∧
        slot.state = .Terminal (.Completed "placed") 30 ∧
      ∃ e₁, step e (.Poll "pick" 7) = some e₁ ∧
      ∃ e₂, run step e₁ [.Sweep ["pick"], .PollStep 0, .PollStep 0, .Sweep [], .PollStep 0] =
        some e₂ := ⟨_, rfl, _, rfl, rfl, rfl, _, rfl, _, rfl⟩
  have hkeeps : Meets step (KeepsRecord slot.goal_id) e₁
      [.Sweep ["pick"], .PollStep 0, .PollStep 0, .Sweep [], .PollStep 0] := by
    rw [hid]
    cases he
    cases he₁
    decide +kernel
  obtain ⟨-, hparked, -, -, hanswers⟩ :=
    (a_goal_that_ended_is_answered he (by decide) hslot hstate he₂ hkeeps).1 7
      (by rw [hid]; exact he₁)
  refine ⟨e, e₁, e₂, he, he₁, he₂, hparked, hanswers ?_ (.inr ?_)⟩
  · rw [hid]
    cases he
    cases he₁
    cases he₂
    decide +kernel
  · cases he
    cases he₁
    cases he₂
    exact ⟨_, mem_singleton_self _, rfl, rfl⟩

/-- The goals ended at the start of the clock, and nothing is under way. -/
def Settled (ids : List String) (e : Engine) : Prop :=
  ∃ slots registry contexts accepted wins completed,
    e = { start 30 with slots, registry, contexts, accepted, wins, completed } ∧
    slots.map (·.goal_id) = ids ∧
    (∀ slot ∈ slots, slot.state = .Terminal (.Completed "placed") 30) ∧
    ∀ goal_id ∈ ids, ∃ k slot, registry goal_id = some k ∧ slots[k]? = some slot

theorem Settled.start : Settled [] (start 30) := ⟨_, _, _, _, _, _, rfl, rfl, nofun, nofun⟩

theorem Settled.endGoal {ids : List String} {e : Engine} (h : Settled ids e) (goal_id : String) :
    ∃ e', run step e (endGoal goal_id ids.length) = some e' ∧ Settled (ids ++ [goal_id]) e' := by
  obtain ⟨slots, registry, contexts, accepted, wins, completed, rfl, rfl, hstates, hregistry⟩ := h
  refine ⟨_, by
    simp [Engine.endGoal, Engine.start, step, acceptStep, register, setAccept, put, earlyFree,
      early_cancel, pendingFree, adopt, parked_for, takeOn, transitionStep, win, setTransition,
      finish, setSlot, complete, Ending.outcome, GoalSlot.new, GoalState.waiters]
    exact ⟨rfl, rfl, rfl, rfl, rfl, rfl⟩, _, _, _, _, _, _, rfl, by simp, ?_, ?_⟩
  · simp only [mem_append, mem_singleton]
    rintro slot (hslot | rfl)
    · exact hstates slot hslot
    · rfl
  · intro other hother
    by_cases heq : other = goal_id
    · exact ⟨_, _, heq ▸ Function.update_self .., getElem?_concat_length⟩
    · obtain ⟨k, slot, hk, hslot⟩ := hregistry other (by simpa [heq] using hother)
      refine ⟨k, slot, (Function.update_of_ne heq ..).trans hk, ?_⟩
      exact (getElem?_append_left (List.getElem?_eq_some_iff.mp hslot).1).trans hslot

theorem Settled.endGoals {done : List String} {e₀ : Engine} (h : Settled done e₀)
    (ids : List String) : ∃ ops e, run step e₀ ops = some e ∧ Settled (done ++ ids) e := by
  induction ids generalizing done e₀ with
  | nil => exact ⟨[], e₀, rfl, by rwa [append_nil]⟩
  | cons goal_id ids ih =>
    obtain ⟨e', hrun', h⟩ := h.endGoal goal_id
    obtain ⟨ops, e, hrun, h⟩ := ih h
    rw [append_assoc] at h
    exact ⟨_ ++ ops, e, by rw [run_append, hrun']; exact hrun, h⟩

/-- A poll that came before the goals left is parked, when the record lost its goal. -/
theorem Settled.parks {goal_id : String} {ids : List String} {e : Engine} (h : Settled ids e)
    (hnodup : ids.Nodup) (hmem : goal_id ∈ ids)
    (hgone : (ids.foldl ExpiredTombstones.insert {}).contains goal_id = false) :
    ∃ e₁, step e (.Poll goal_id 7) = some e₁ ∧
      (run step e₁ ([.Tick 31, .Sweep [], .Sweep ids, .Sweep []] ++ replicate 5 (.PollStep 0))).map
        (·.pending_waiters.map (·.responder)) = some [7] := by
  obtain ⟨slots, registry, contexts, accepted, wins, completed, rfl, -, hstates, hregistry⟩ := h
  have hexpires : ∀ e : Engine, e.registry = registry → e.slots = slots →
      ∀ id ∈ ids, e.expires 31 id = true := by
    intro e hreg hslots id hid
    obtain ⟨k, slot, hk, hslot⟩ := hregistry id hid
    simp [expires, hreg, hslots, hk, hslot, hstates slot (mem_of_getElem? hslot)]
  refine ⟨_, rfl, ?_⟩
  simp only [Engine.start, cons_append, run_cons, step, sweepStep, Option.bind_some]
  rw [if_pos ⟨hnodup, hexpires _ rfl rfl⟩]
  simp [step, hmem, hgone, pollStep, setPoll, put, pendingFree, PollCall.holdsPending, park,
    enqueue, replicate, PENDING_WAITERS_CAP]

def goalId (n : Nat) : String := String.ofList (replicate (n + 1) 'g')

theorem goalIds_nodup (n : Nat) : ((range n).map goalId).Nodup := by
  refine nodup_range.map fun a b h => ?_
  simpa [goalId] using congrArg String.length h

/-- A client that does not own the goal is refused, though the goal ended. And a poll that
came before any goal was evicted is parked, when it reads the record after the goal fell
out of it. -/
theorem requests_that_an_ended_goal_does_not_answer :
    (∃ e e₁ e₂ slot, run step (start 30) (endGoal "pick" 0) = some e ∧ e.slots[0]? = some slot ∧
      slot.goal_id = "pick" ∧ slot.state = .Terminal (.Completed "placed") 30 ∧
      slot.owner = some planner ∧ e.evicted = [] ∧
      step e (.Cancel 3 "pick" (some ⟨"lab", "arm", .Instance⟩)) = some e₁ ∧
      run step e₁ [.CancelStep 0, .CancelStep 0] = some e₂ ∧
      e₂.replies = [⟨3, .error (cancel_of_another_client "pick")⟩]) ∧
    ∃ ops e e₁ slot ids, run step (start 30) ops = some e ∧ e.slots[0]? = some slot ∧
      slot.state = .Terminal (.Completed "placed") 30 ∧ e.evicted = [] ∧
      (e.slots.map (·.goal_id)).Nodup ∧ step e (.Poll slot.goal_id 7) = some e₁ ∧
      (run step e₁ ([.Tick 31, .Sweep [], .Sweep ids, .Sweep []] ++ replicate 5 (.PollStep 0))).map
        (·.pending_waiters.map (·.responder)) = some [7] := by
  refine ⟨⟨_, _, _, _, rfl, rfl, rfl, rfl, rfl, rfl, rfl, rfl, rfl⟩, ?_⟩
  obtain ⟨ops, e, hrun, h⟩ := Settled.start.endGoals
    ((range (EXPIRED_TOMBSTONE_CAP + 1)).map goalId)
  have hnodup := goalIds_nodup (EXPIRED_TOMBSTONE_CAP + 1)
  rw [nil_append] at h
  rw [range_succ_eq_map, map_cons] at h hnodup
  obtain ⟨_, _, _, _, _, _, rfl, hids, hstates, -⟩ := id h
  obtain ⟨slot, slots, rfl, hslot, -⟩ := map_eq_cons_iff.mp hids
  have hgone := ExpiredTombstones.forgotten hnodup (by simp)
  obtain ⟨e₁, hpoll, hparked⟩ := h.parks hnodup mem_cons_self hgone
  exact ⟨ops, _, e₁, slot, _, hrun, rfl, hstates slot mem_cons_self, rfl, hids ▸ hnodup,
    hslot ▸ hpoll, hparked⟩

end Engine

end peppy.actions
