-- Where a goal is found: in the registry from the moment its slot joins, then in the
-- hands of the sweeper or among the evicted goals, past its window.
import Peppy.GoalEnds

open changes tasks runs List Option

namespace peppy.actions

/-- The goal id of an accept whose slot did not join yet. -/
def AcceptCall.coming (call : AcceptCall) : List String :=
  match call.phase with
  | .Register => [call.goal_id]
  | _ => []

variable {call : AcceptCall}

open AcceptCall

theorem coming_of_slot (h : call.phase.slot ≠ []) : call.coming = [] := by
  unfold coming
  split
  · rename_i hphase
    rw [hphase] at h
    exact absurd rfl h
  · rfl

theorem GoalsGrow.ids_eq {l l' : List Goal} (h : GoalsGrow l l') (hlength : l'.length = l.length) :
    l'.map (·.goal_id) = l.map (·.goal_id) := by
  apply ext_getElem?
  intro k
  rw [getElem?_map, getElem?_map]
  rcases hg : l[k]? with _ | g
  · rw [getElem?_eq_none (hlength ▸ List.getElem?_eq_none_iff.mp hg)]
  · obtain ⟨g', hg', hgrows⟩ := h k g hg
    rw [hg', map_some, map_some, hgrows.goal_id]

variable {k i : Nat} {goal_id : String} {ops : List Act}

namespace Engine

/-! ## A goal before a section -/

section
variable {e e' : Engine} {a : Act}

theorem goals_length (h : Stepped e a e') : e'.goals.length = e.goals.length ∨
      ∃ call ∈ e.accepts, call.phase = .Register ∧
        e'.goals = e.goals ++ [⟨call.goal_id, call.verified_caller, none, false⟩] ∧
        e'.registry call.goal_id = some e.goals.length := by
  cases h with
  | register hcall hphase =>
    refine .inr ⟨_, mem_of_getElem? hcall, hphase, goals_register _, ?_⟩
    rw [goals, length_map]
    exact Function.update_self ..
  | acceptSignal | cancelSignal | signalled | watchSignal =>
    exact .inl (by simp [goals, signal, setAccept, setCancel, setWatch, replyCancel])
  | link | unlink => exact .inl (by simp [goals, setSlot])
  | extend | wait => exact .inl (by simp [goals, setSlot, setAccept, wait, setPoll])
  | win | finish => exact .inl (by simp [goals, setSlot, win, finish, setTransition])
  | _ => exact .inl rfl

theorem Ends.goal_before {g' : Goal} (ends : Ends e) (h : Stepped e a e')
    (hg' : e'.goals[k]? = some g') : (∃ g, e.goals[k]? = some g ∧ g.Grows g') ∨
      ∃ call ∈ e.accepts, call.phase = .Register ∧ k = e.goals.length ∧
        g' = ⟨call.goal_id, call.verified_caller, none, false⟩ ∧
        e'.registry call.goal_id = some k := by
  rcases goals_length h with hlength | ⟨call, hcall, hphase, hgoals, hregistry⟩
  · have hk : k < e.goals.length := hlength ▸ (List.getElem?_eq_some_iff.mp hg').1
    obtain ⟨g'', hg'', hgrows⟩ := ends.grow h k _ (getElem?_eq_getElem hk)
    cases hg''.symm.trans hg'
    exact .inl ⟨_, getElem?_eq_getElem hk, hgrows⟩
  · rw [hgoals] at hg'
    rcases getElem?_push_cases hg' with hg | ⟨hk, hg⟩
    · exact .inl ⟨g', hg, .refl g'⟩
    · exact .inr ⟨call, hcall, hphase, hk, hg, hk ▸ hregistry⟩

theorem now_mono (h : Stepped e a e') : e.now ≤ e'.now := by
  cases h with
  | tick => exact Nat.le_add_right _ _
  | _ => exact Nat.le_refl _

theorem unaccepted_mono (h : Stepped e a e') (hk : k ∈ e.unaccepted) : k ∈ e'.unaccepted := by
  cases h with
  | forget | dropAdopted | dropAccept => exact mem_cons_of_mem _ hk
  | _ => exact hk

end

/-! ## The names of the slots -/

/-- The slot is of a goal with that id. -/
def Named (e : Engine) (k : Nat) (goal_id : String) : Prop :=
  ∃ g, e.goals[k]? = some g ∧ g.goal_id = goal_id

/-- The slot is of that goal of the caller. -/
def SentBy (e : Engine) (k : Nat) (goal_id : String) (caller : Option VerifiedCaller) : Prop :=
  ∃ g, e.goals[k]? = some g ∧ g.goal_id = goal_id ∧ g.owner = caller

section
variable {e e' : Engine} {k : Nat} {goal_id : String} {caller : Option VerifiedCaller}

theorem Named.grow (h : Named e k goal_id) (hgrow : GoalsGrow e.goals e'.goals) :
    Named e' k goal_id := by
  obtain ⟨g, hg, hid⟩ := h
  obtain ⟨g', hg', hgrows⟩ := hgrow k g hg
  exact ⟨g', hg', hgrows.goal_id.trans hid⟩

theorem SentBy.grow (h : SentBy e k goal_id caller) (hgrow : GoalsGrow e.goals e'.goals) :
    SentBy e' k goal_id caller := by
  obtain ⟨g, hg, hid, howner⟩ := h
  obtain ⟨g', hg', hgrows⟩ := hgrow k g hg
  exact ⟨g', hg', hgrows.goal_id.trans hid, hgrows.owner.trans howner⟩

theorem SentBy.named (h : SentBy e k goal_id caller) : Named e k goal_id := by
  obtain ⟨g, hg, hid, _⟩ := h
  exact ⟨g, hg, hid⟩

theorem sentBy_new (call : AcceptCall) :
    SentBy (e.register call) e.slots.length call.goal_id call.verified_caller := by
  refine ⟨⟨call.goal_id, call.verified_caller, none, false⟩, ?_, rfl, rfl⟩
  rw [goals_register, ← length_map (f := GoalSlot.goal)]
  exact getElem?_concat_length

end

/-- The goals that the sweeper took out of the registry and did not record
yet. -/
def gap (e : Engine) : List String :=
  match e.sweeper with
  | .Tombstones _ expired_ids => expired_ids
  | _ => []

/-- A section keeps an id's entry, or a new slot, a failed accept or a sweep changes it. -/
theorem registry_cases {e e' : Engine} {a : Act} (h : Stepped e a e') (goal_id : String) :
    e'.registry goal_id = e.registry goal_id ∨
      (∃ call ∈ e.accepts, call.phase = .Register ∧ call.goal_id = goal_id ∧
        e'.registry goal_id = some e.slots.length ∧
        SentBy e' e.slots.length call.goal_id call.verified_caller) ∨ (e'.registry goal_id = none ∧
        ((∃ call ∈ e.accepts, ∃ k, call.phase = .Respond k ∧ call.goal_id = goal_id ∧
            k ∈ e'.unaccepted) ∨ goal_id ∈ e'.gap)) := by
  cases h with
  | @register i replied call hcall hphase =>
    by_cases hid : goal_id = call.goal_id
    · subst hid
      exact .inr (.inl ⟨call, mem_of_getElem? hcall, hphase, rfl,
        Function.update_self .., sentBy_new call⟩)
    · exact .inl (Function.update_of_ne hid ..)
  | @forget i call k hcall hphase =>
    by_cases hid : goal_id = call.goal_id
    · subst hid
      exact .inr (.inr ⟨Function.update_self .., .inl ⟨call, mem_of_getElem? hcall, k, hphase,
        rfl, mem_cons_self⟩⟩)
    · exact .inl (Function.update_of_ne hid ..)
  | @evict evicted now =>
    by_cases hid : goal_id ∈ evicted
    · exact .inr (.inr ⟨if_pos hid, .inr hid⟩)
    · exact .inl (if_neg hid)
  | _ => exact .inl rfl

/-- Every entry and task leads to a goal of the id it asks for. -/
structure Routed (e : Engine) : Prop where
  registry : ∀ goal_id k, e.registry goal_id = some k → Named e k goal_id
  calls : ∀ call ∈ e.accepts, ∀ k ∈ call.phase.slot,
    SentBy e k call.goal_id call.verified_caller
  polled : ∀ poll ∈ e.polls, (poll.responder, poll.goal_id) ∈ e.polled
  polls : ∀ poll ∈ e.polls, ∀ k, poll.phase = .Slot k → Named e k poll.goal_id
  pending : ∀ waiter ∈ e.pending_waiters, (waiter.responder, waiter.goal_id) ∈ e.polled
  parked : ∀ p ∈ e.parked, ∃ goal_id, Named e p.2 goal_id ∧ (p.1, goal_id) ∈ e.polled

theorem Routed.start (grace : Nat) : Routed (start grace) := by
  constructor <;> simp [Engine.start]

section
variable {e e' : Engine} {a : Act}

theorem Routed.registry_step (inv : Routed e) (hgrow : GoalsGrow e.goals e'.goals)
    (h : Stepped e a e') : ∀ goal_id k, e'.registry goal_id = some k → Named e' k goal_id := by
  intro goal_id k hk
  rcases registry_cases h goal_id with heq | ⟨call, -, -, rfl, hnew, hslot⟩ | ⟨hnone, -⟩
  · rw [heq] at hk
    exact (inv.registry goal_id k hk).grow hgrow
  · cases hnew.symm.trans hk
    exact hslot.named
  · cases hnone.symm.trans hk

theorem Routed.calls_goesOn (inv : Routed e)
    (hcall : e.accepts[i]? = some call) (phase : Option AcceptPhase)
    (hslot : ∀ p, phase = some p → p.slot = call.phase.slot) :
    ∀ c ∈ (e.setAccept i call phase).accepts, ∀ k ∈ c.phase.slot,
      SentBy e k c.goal_id c.verified_caller := by
  intro c hc k hk
  rcases mem_setAccept hc with hc | ⟨p, hp, rfl⟩
  · exact inv.calls c hc k hk
  · exact inv.calls call (mem_of_getElem? hcall) k (hslot p hp ▸ hk)

theorem Routed.calls_step (inv : Routed e) (hgrow : GoalsGrow e.goals e'.goals)
    (h : Stepped e a e') : ∀ call ∈ e'.accepts, ∀ k ∈ call.phase.slot,
      SentBy e' k call.goal_id call.verified_caller := by
  intro c hc k hk
  cases h with
  | accept =>
    rcases mem_push hc with hc | rfl
    · exact inv.calls c hc k hk
    · cases hk
  | @register i replied call hcall hphase =>
    rcases mem_setAccept hc with hc | ⟨p, hp, rfl⟩
    · exact (inv.calls c hc k hk).grow hgrow
    · cases hp
      cases mem_singleton.mp hk
      exact sentBy_new call
  | takeEarly hcall hphase | noEarly hcall hphase | extend hcall hphase
  | extendEnded hcall hphase =>
    refine (inv.calls_goesOn hcall (some _) ?_ c hc k hk).grow hgrow
    rintro p ⟨⟩
    rw [hphase]
    rfl
  | acceptSignal hcall hphase =>
    refine (inv.calls_goesOn hcall (some _) ?_ c hc k hk).grow hgrow
    rintro p ⟨⟩
    rw [hphase, slot_afterSignal]
    rfl
  | adopt hcall hphase =>
    refine (inv.calls_goesOn hcall (some _) ?_ c hc k hk).grow hgrow
    rintro p ⟨⟩
    rw [hphase, slot_afterAdopt]
    rfl
  | takeOn hcall | forget hcall | dropAdopted hcall | dropAccept hcall =>
    exact (inv.calls_goesOn hcall none (fun _ h => nomatch h) c hc k hk).grow hgrow
  | _ => exact (inv.calls c hc k hk).grow hgrow

theorem polls_cases (h : Stepped e a e') {poll : PollCall} (hpoll : poll ∈ e'.polls) :
    poll ∈ e.polls ∨ (∃ goal_id responder, a = .Poll goal_id responder ∧
      poll = ⟨goal_id, responder, .Look⟩ ∧ responder ∉ e.polled.map Prod.fst) ∨
      ∃ i old phase, a = .PollStep i ∧ e.polls[i]? = some old ∧
        Routes e old.goal_id old.phase phase ∧ poll = { old with phase } := by
  cases h with
  | poll hnew =>
    rcases mem_append.mp hpoll with hpoll | hpoll
    · exact .inl hpoll
    · exact .inr (.inl ⟨_, _, rfl, mem_singleton.mp hpoll, hnew⟩)
  | route hold hphase hroute =>
    rcases mem_setPoll hpoll with hpoll | ⟨p, hp, rfl⟩
    · exact .inl hpoll
    · cases hp
      exact .inr (.inr ⟨_, _, _, rfl, hold, hphase ▸ hroute, rfl⟩)
  | park | parkFull | wait | reply =>
    rcases mem_setPoll hpoll with hpoll | ⟨p, hp, rfl⟩
    · exact .inl hpoll
    · cases hp
  | _ => exact .inl hpoll

theorem polled_mono (h : Stepped e a e') {p : Nat × String} (hp : p ∈ e.polled) :
    p ∈ e'.polled := by
  cases h with
  | poll => exact mem_cons_of_mem _ hp
  | _ => exact hp

theorem Routed.polls_step (inv : Routed e) (hgrow : GoalsGrow e.goals e'.goals)
    (h : Stepped e a e') : ∀ poll ∈ e'.polls, (poll.responder, poll.goal_id) ∈ e'.polled ∧
      ∀ k, poll.phase = .Slot k → Named e' k poll.goal_id := by
  intro poll hpoll
  rcases polls_cases h hpoll with hpoll | ⟨goal_id, responder, rfl, rfl, -⟩ |
    ⟨i, old, phase, -, hold, hroute, rfl⟩
  · exact ⟨polled_mono h (inv.polled poll hpoll),
      fun k hk => (inv.polls poll hpoll k hk).grow hgrow⟩
  · refine ⟨?_, fun k hk => nomatch hk⟩
    cases h
    exact mem_cons_self
  refine ⟨polled_mono h (inv.polled old (mem_of_getElem? hold)), ?_⟩
  rintro k rfl
  generalize hphase : old.phase = p at hroute
  cases hroute with
  | found hk | foundAgain hk => exact (inv.registry _ _ hk).grow hgrow

theorem Routed.pending_step (inv : Routed e) (h : Stepped e a e') :
    ∀ waiter ∈ e'.pending_waiters, (waiter.responder, waiter.goal_id) ∈ e'.polled := by
  intro waiter hwaiter
  cases h with
  | poll => exact mem_cons_of_mem _ (inv.pending waiter hwaiter)
  | adopt | sweepPending => exact inv.pending waiter (mem_of_mem_filter hwaiter)
  | park hpoll =>
    rcases mem_push hwaiter with hwaiter | rfl
    · exact inv.pending waiter hwaiter
    · exact inv.polled _ (mem_of_getElem? hpoll)
  | _ => exact inv.pending waiter hwaiter

theorem Routed.parked_step (inv : Routed e) (hgrow : GoalsGrow e.goals e'.goals)
    (h : Stepped e a e') :
    ∀ p ∈ e'.parked, ∃ goal_id, Named e' p.2 goal_id ∧ (p.1, goal_id) ∈ e'.polled := by
  intro p hp
  have hold : p ∈ e.parked → ∃ goal_id, Named e' p.2 goal_id ∧ (p.1, goal_id) ∈ e'.polled := by
    intro hp
    obtain ⟨goal_id, hnamed, hpolled⟩ := inv.parked p hp
    exact ⟨goal_id, hnamed.grow hgrow, polled_mono h hpolled⟩
  cases h with
  | @adopt i replied call k hcall hphase =>
    rcases mem_append.mp hp with hp | hp
    · obtain ⟨r, hr, rfl⟩ := mem_map.mp hp
      obtain ⟨waiter, hwaiter, rfl⟩ := mem_map.mp hr
      obtain ⟨hwaiter, hid⟩ := mem_filter.mp hwaiter
      refine ⟨call.goal_id, ?_, ?_⟩
      · exact (inv.calls call (mem_of_getElem? hcall) k (by simp [hphase, AcceptPhase.slot])).named
      · rw [← of_decide_eq_true hid]
        exact inv.pending waiter hwaiter
    · exact hold hp
  | @wait i poll k slot waiters hpoll hphase =>
    rcases mem_cons.mp hp with rfl | hp
    · have hpoll := mem_of_getElem? hpoll
      exact ⟨poll.goal_id, (inv.polls poll hpoll k hphase).grow hgrow, inv.polled poll hpoll⟩
    · exact hold hp
  | _ => exact hold hp

theorem Routed.step (inv : Routed e) (ends : Ends e) (h : Stepped e a e') : Routed e' := by
  have hgrow := ends.grow h
  have hpolls := inv.polls_step hgrow h
  exact ⟨inv.registry_step hgrow h, inv.calls_step hgrow h, fun poll hpoll => (hpolls poll hpoll).1,
    fun poll hpoll => (hpolls poll hpoll).2, inv.pending_step h, inv.parked_step hgrow h⟩

end

/-! ## Distinct goal ids -/

/-- How often the goal id is taken, by a slot or by an accept on its way. -/
def taken (e : Engine) (goal_id : String) : Nat :=
  (e.goals.map (·.goal_id)).count goal_id + (e.accepts.flatMap AcceptCall.coming).count goal_id

def freshGoal (e : Engine) : Act → Bool
  | .Accept goal_id _ =>
    goal_id ∉ e.slots.map (·.goal_id) ∧ goal_id ∉ e.accepts.map (·.goal_id)
  | _ => true

/-- No id is accepted twice. -/
def Distinct (e : Engine) : Prop := ∀ goal_id, e.taken goal_id ≤ 1

section
variable {e e' : Engine} {a : Act}

variable {call : AcceptCall}

theorem taken_setAccept (hcall : e.accepts[i]? = some call)
    (phase : Option AcceptPhase) (hphase : ∀ p, phase = some p → p.slot ≠ []) (goal_id : String) :
    (e.setAccept i call phase).taken goal_id + call.coming.count goal_id = e.taken goal_id := by
  have h := count_flatMap_put (f := coming)
    (x := phase.map fun phase => { call with phase }) hcall goal_id
  have hnone : (phase.map fun phase => ({ call with phase } : AcceptCall)).toList.flatMap
      coming = [] := by
    cases phase with
    | none => rfl
    | some p =>
      rw [map_some, toList_some, flatMap_singleton]
      exact coming_of_slot (hphase p rfl)
  rw [hnone, count_nil] at h
  simp only [taken, setAccept] at h ⊢
  have hgoals : Engine.goals { e with accepts := put e.accepts i (phase.map fun phase =>
      { call with phase }) } = e.goals := rfl
  rw [hgoals]
  omega

theorem taken_register :
    (e.register call).taken goal_id = e.taken goal_id + [call.goal_id].count goal_id := by
  rw [taken, goals_register, map_append, count_append, taken]
  simp only [map_cons, map_nil, Engine.register]
  omega

theorem taken_push (goal_id : String) : { e with accepts := e.accepts ++ [call] }.taken goal_id =
      e.taken goal_id + call.coming.count goal_id := by
  have hgoals : Engine.goals { e with accepts := e.accepts ++ [call] } = e.goals := rfl
  rw [taken, hgoals, taken, flatMap_append, flatMap_singleton, count_append]
  omega

theorem taken_fresh {caller : Option VerifiedCaller}
    (h : freshGoal e (.Accept goal_id caller) = true) : e.taken goal_id = 0 := by
  obtain ⟨hslots, haccepts⟩ := of_decide_eq_true h
  have hgoals : goal_id ∉ e.goals.map (·.goal_id) := by
    rw [goals, List.map_map]
    exact hslots
  have hcoming : goal_id ∉ e.accepts.flatMap coming := by
    intro hmem
    obtain ⟨call, hcall, hid⟩ := mem_flatMap.mp hmem
    unfold coming at hid
    split at hid
    · rw [mem_singleton.mp hid] at haccepts
      exact haccepts (mem_map_of_mem hcall)
    · cases hid
  rw [taken, count_eq_zero.mpr hgoals, count_eq_zero.mpr hcoming]

section
variable (inv : Distinct e)
include inv

theorem Distinct.of_goals (hgoals : e'.goals.map (·.goal_id) = e.goals.map (·.goal_id))
    (haccepts : e'.accepts = e.accepts) : Distinct e' :=
  fun goal_id => Nat.le_trans (Nat.le_of_eq (by rw [taken, taken, hgoals, haccepts])) (inv goal_id)

theorem Distinct.goesOn (hcall : e.accepts[i]? = some call) (phase : Option AcceptPhase)
    (hphase : ∀ p, phase = some p → p.slot ≠ []) : Distinct (e.setAccept i call phase) :=
  fun goal_id => Nat.le_trans (Nat.le.intro (taken_setAccept hcall phase hphase goal_id))
    (inv goal_id)

theorem Distinct.step (ends : Ends e) (hfresh : freshGoal e a = true)
    (h : Stepped e a e') : Distinct e' := by
  have hgrow := ends.grow h
  cases h with
  | @accept id caller =>
    intro goal_id
    rw [taken_push]
    by_cases hid : id = goal_id
    · subst hid
      rw [taken_fresh hfresh]
      simp [coming]
    · have hnone : [id].count goal_id = 0 := by simp [hid]
      exact Nat.le_trans (Nat.le_of_eq (congrArg (e.taken goal_id + ·) hnone)) (inv goal_id)
  | @register i replied call hcall hphase =>
    intro goal_id
    have h := taken_setAccept (e := e.register call) hcall (some (.TakeEarly e.slots.length))
      (by rintro p ⟨⟩; simp [AcceptPhase.slot]) goal_id
    have hcoming : call.coming = [call.goal_id] := by rw [coming, hphase]
    rw [hcoming, taken_register] at h
    exact Nat.le_trans (Nat.le_of_eq (Nat.add_right_cancel h)) (inv goal_id)
  | @takeEarly i replied call k forget_at hcall =>
    have inv : Distinct (e.forget_early_cancel (call.goal_id, call.verified_caller)) := inv
    exact inv.goesOn hcall _ (by rintro p ⟨⟩; exact cons_ne_nil _ _)
  | noEarly hcall => exact inv.goesOn hcall _ (by rintro p ⟨⟩; exact cons_ne_nil _ _)
  | @acceptSignal i replied call k phase slot hcall hphase hslot =>
    have inv : Distinct (e.signal k slot .Caller phase) :=
      inv.of_goals (congrArg _ (goals_set hslot (signal_cancel_same ..).goal_eq)) rfl
    exact inv.goesOn hcall _ (by rintro p ⟨⟩; simp)
  | @adopt i replied call k hcall =>
    have inv : Distinct (e.adopt k call.goal_id) := inv
    exact inv.goesOn hcall _ (by rintro p ⟨⟩; simp)
  | @extend i replied call k adopted slot waiters hcall hphase hslot hstate =>
    have inv : Distinct (e.setSlot k { slot with state := .Pending (waiters ++ adopted) }) :=
      inv.of_goals (congrArg _ (goals_set hslot (goal_of_join hstate adopted))) rfl
    exact inv.goesOn hcall _ (by rintro p ⟨⟩; exact cons_ne_nil _ _)
  | @extendEnded i replied call k adopted slot outcome evict_at hcall =>
    have inv : Distinct (e.drop adopted) := inv
    exact inv.goesOn hcall _ (by rintro p ⟨⟩; exact cons_ne_nil _ _)
  | takeOn hcall | forget hcall | dropAdopted hcall | dropAccept hcall =>
    exact inv.goesOn hcall none (by rintro p ⟨⟩)
  | cancelSignal | signalled | watchSignal | link | unlink | wait | win | finish =>
    refine inv.of_goals (hgrow.ids_eq ?_) rfl
    simp [goals, signal, setCancel, replyCancel, setWatch, setSlot, wait, setPoll, win, finish,
      setTransition]
  | _ => exact inv

theorem Distinct.nodup : (e.goals.map (·.goal_id)).Nodup := by
  rw [nodup_iff_count_le_one]
  intro goal_id
  exact Nat.le_trans (Nat.le_add_right _ _) (inv goal_id)

theorem Distinct.slot_unique {k' : Nat}
    (h : Named e k goal_id) (h' : Named e k' goal_id) : k = k' := by
  obtain ⟨g, hg, rfl⟩ := h
  obtain ⟨g', hg', hid⟩ := h'
  have hk : (e.goals.map (·.goal_id))[k]? = some g.goal_id := by
    rw [getElem?_map, hg, map_some]
  have hk' : (e.goals.map (·.goal_id))[k']? = some g.goal_id := by
    rw [getElem?_map, hg', map_some, hid]
  have hlt : k < (e.goals.map (·.goal_id)).length := (List.getElem?_eq_some_iff.mp hk).1
  exact (getElem?_inj hlt inv.nodup).mp (hk.trans hk'.symm)

theorem Distinct.not_coming
    (hcall : call ∈ e.accepts) (hphase : call.phase = .Register) : ¬ Named e k call.goal_id := by
  rintro ⟨g, hg, hid⟩
  have hone := inv call.goal_id
  have hgoal : 0 < (e.goals.map (·.goal_id)).count call.goal_id :=
    count_pos_iff.mpr (hid ▸ mem_map_of_mem (mem_of_getElem? hg))
  have hcoming : 0 < (e.accepts.flatMap coming).count call.goal_id := by
    refine count_pos_iff.mpr (mem_flatMap.mpr ⟨call, hcall, ?_⟩)
    rw [coming, hphase]
    exact mem_singleton_self _
  rw [taken] at hone
  omega

end

end

/-! ## The goals that left the registry -/

/-- A goal of that id ended, and its window is over. -/
def Expired (e : Engine) (goal_id : String) : Prop :=
  ∃ (k : Nat) (g : Goal) (outcome : GoalOutcome) (evict_at : Nat), e.goals[k]? = some g ∧
    g.goal_id = goal_id ∧ g.ended = some (outcome, evict_at) ∧ evict_at ≤ e.now

/-- A goal is in the registry or past its window, or its accept came to
nothing. -/
structure Placed (e : Engine) : Prop where
  present : ∀ k g, e.goals[k]? = some g →
    k ∈ e.unaccepted ∨ e.registry g.goal_id = some k ∨ g.goal_id ∈ e.gap ++ e.evicted
  gone : ∀ goal_id ∈ e.gap ++ e.evicted, e.registry goal_id = none ∧ Expired e goal_id
  once : (e.evicted ++ e.gap).Nodup
  clock : ∀ now, e.sweeper = .Registry now → now ≤ e.now

theorem Placed.start (grace : Nat) : Placed (start grace) := by
  constructor <;> simp [Engine.start, goals, gap]

section
variable {e e' : Engine} {a : Act}

variable {goal_id : String}

theorem gone_mono (h : Stepped e a e')
    (hgone : goal_id ∈ e.gap ++ e.evicted) : goal_id ∈ e'.gap ++ e'.evicted := by
  cases h with
  | sweepStart hphase | sweepPending hphase | sweepEarly hphase =>
    rw [gap, hphase] at hgone
    exact hgone
  | evict hphase =>
    rw [gap, hphase] at hgone
    exact mem_append_right _ hgone
  | bury hphase =>
    rw [gap, hphase] at hgone
    exact mem_append.mpr (.inr (mem_append.mpr (mem_append.mp hgone).symm))
  | _ => exact hgone

theorem gone_cases (routed : Routed e) (placed : Placed e) (h : Stepped e a e')
    (hgone : goal_id ∈ e'.gap ++ e'.evicted) :
    goal_id ∈ e.gap ++ e.evicted ∨ (e'.registry goal_id = none ∧ Expired e goal_id) := by
  cases h with
  | sweepStart hphase | sweepPending hphase | sweepEarly hphase =>
    left
    rw [gap, hphase]
    exact hgone
  | @evict evicted now hphase hnodup hexpired =>
    rcases mem_append.mp hgone with hgone | hgone
    · have hexpires := hexpired goal_id hgone
      unfold expires at hexpires
      split at hexpires
      · rename_i slot hslot
        obtain ⟨k, hk, hslot⟩ := bind_eq_some_iff.mp hslot
        split at hexpires
        · rename_i o evict_at hstate
          right
          refine ⟨if_pos hgone, k, slot.goal, o, evict_at, goals_getElem? hslot, ?_, ?_, ?_⟩
          · obtain ⟨g, hg, hid⟩ := routed.registry goal_id k hk
            cases (goals_getElem? hslot).symm.trans hg
            exact hid
          · rw [GoalSlot.goal, hstate]
            rfl
          · exact Nat.le_trans (of_decide_eq_true hexpires) (placed.clock now hphase)
        · cases hexpires
      · cases hexpires
    · exact .inl (mem_append_right _ hgone)
  | @bury _ now expired_ids hphase =>
    have hgone : goal_id ∈ e.evicted ++ expired_ids := hgone
    left
    rw [gap, hphase]
    exact mem_append.mpr (mem_append.mp hgone).symm
  | _ => exact .inl hgone

theorem Expired.grow (h : Expired e goal_id)
    (hgrow : GoalsGrow e.goals e'.goals) (hnow : e.now ≤ e'.now) : Expired e' goal_id := by
  obtain ⟨k, g, o, evict_at, hg, hid, hended, hle⟩ := h
  obtain ⟨g', hg', hgrows⟩ := hgrow k g hg
  exact ⟨k, g', o, evict_at, hg', hgrows.goal_id.trans hid, hgrows.ended _ hended,
    Nat.le_trans hle hnow⟩

theorem Expired.named (h : Expired e goal_id) : ∃ k, Named e k goal_id := by
  obtain ⟨k, g, _, _, hg, hid, _⟩ := h
  exact ⟨k, g, hg, hid⟩

theorem registry_stays_none (distinct : Distinct e) (h : Stepped e a e')
    (hnamed : Named e k goal_id) (hnone : e.registry goal_id = none) :
    e'.registry goal_id = none := by
  rcases registry_cases h goal_id with heq | ⟨call, hcall, hphase, rfl, -⟩ | ⟨hnone, -⟩
  · exact heq.trans hnone
  · exact absurd hnamed (distinct.not_coming hcall hphase)
  · exact hnone

theorem Placed.present_step (inv : Placed e) (ends : Ends e) (routed : Routed e)
    (distinct : Distinct e) (h : Stepped e a e') : ∀ k g, e'.goals[k]? = some g →
      k ∈ e'.unaccepted ∨ e'.registry g.goal_id = some k ∨ g.goal_id ∈ e'.gap ++ e'.evicted := by
  intro k g' hg'
  rcases ends.goal_before h hg' with ⟨g, hg, hgrows⟩ | ⟨call, -, -, -, rfl, hregistry⟩
  · rw [hgrows.goal_id]
    rcases inv.present k g hg with hk | hk | hgone
    · exact .inl (unaccepted_mono h hk)
    · rcases registry_cases h g.goal_id with heq | ⟨call, hcall, hphase, hid, -⟩ |
        ⟨-, ⟨call, hcall, k', hphase, hid, hk'⟩ | hgap⟩
      · exact .inr (.inl (heq.trans hk))
      · exact absurd ⟨g, hg, hid.symm⟩ (distinct.not_coming hcall hphase (k := k))
      · have hnamed := (routed.calls call hcall k' (by simp [hphase, AcceptPhase.slot])).named
        rw [hid] at hnamed
        rw [distinct.slot_unique ⟨g, hg, rfl⟩ hnamed]
        exact .inl hk'
      · exact .inr (.inr (mem_append_left _ hgap))
    · exact .inr (.inr (gone_mono h hgone))
  · exact .inr (.inl hregistry)

theorem Placed.gone_step (inv : Placed e) (ends : Ends e) (routed : Routed e)
    (distinct : Distinct e) (h : Stepped e a e') :
    ∀ goal_id ∈ e'.gap ++ e'.evicted, e'.registry goal_id = none ∧ Expired e' goal_id := by
  intro goal_id hgone
  have hgrow := ends.grow h
  have hnow := now_mono h
  rcases gone_cases routed inv h hgone with hgone | ⟨hnone, hexpired⟩
  · obtain ⟨hnone, hexpired⟩ := inv.gone goal_id hgone
    obtain ⟨k, hnamed⟩ := hexpired.named
    exact ⟨registry_stays_none distinct h hnamed hnone, hexpired.grow hgrow hnow⟩
  · exact ⟨hnone, hexpired.grow hgrow hnow⟩

theorem Placed.once_step (inv : Placed e) (h : Stepped e a e') : (e'.evicted ++ e'.gap).Nodup := by
  have honce := inv.once
  cases h with
  | sweepStart hphase | sweepPending hphase | sweepEarly hphase =>
    rw [gap, hphase] at honce
    exact honce
  | @evict evicted now hphase hnodup hexpired =>
    rw [gap, hphase, append_nil] at honce
    refine nodup_append.mpr ⟨honce, hnodup, ?_⟩
    rintro goal_id hold _ hnew rfl
    have hnone := (inv.gone goal_id (mem_append_right _ hold)).1
    have hexpires := hexpired goal_id hnew
    simp [expires, hnone] at hexpires
  | bury hphase =>
    rw [gap, hphase] at honce
    exact (append_nil _).symm ▸ honce
  | _ => exact honce

theorem Placed.clock_step (inv : Placed e) (h : Stepped e a e') :
    ∀ now, e'.sweeper = .Registry now → now ≤ e'.now := by
  intro now hphase
  cases h with
  | tick => exact Nat.le_trans (inv.clock now hphase) (Nat.le_add_right _ _)
  | sweepStart =>
    cases hphase
    exact Nat.le_refl _
  | evict | bury | sweepPending | sweepEarly => cases hphase
  | _ => exact inv.clock now hphase

theorem Placed.step (inv : Placed e) (ends : Ends e) (routed : Routed e) (distinct : Distinct e)
    (h : Stepped e a e') : Placed e' :=
  ⟨inv.present_step ends routed distinct h, inv.gone_step ends routed distinct h,
    inv.once_step h, inv.clock_step h⟩

end

/-! ## The laws together -/

/-- The rules that hold of any ids. -/
structure Sound (e : Engine) : Prop where
  ledger : Ledger e
  ends : Ends e
  routed : Routed e

/-- The rules that hold of distinct ids. -/
structure Orderly (e : Engine) : Prop extends Sound e where
  distinct : Distinct e
  placed : Placed e

section
variable {e e' : Engine} {a : Act}

theorem Sound.start (grace : Nat) : Sound (start grace) :=
  ⟨.start grace, .start grace, .start grace⟩

theorem Sound.step (inv : Sound e) (h : Stepped e a e') : Sound e' :=
  ⟨inv.ledger.step h, inv.ends.step inv.ledger h, inv.routed.step inv.ends h⟩

theorem Orderly.start (grace : Nat) : Orderly (start grace) :=
  ⟨.start grace, fun _ => Nat.zero_le _, .start grace⟩

theorem Orderly.step (inv : Orderly e) (hfresh : freshGoal e a = true) (h : Stepped e a e') :
    Orderly e' :=
  ⟨inv.toSound.step h, inv.distinct.step inv.ends hfresh h,
    inv.placed.step inv.ends inv.routed inv.distinct h⟩

theorem Orderly.of_run (inv : Orderly e)
    (hfresh : Meets Engine.step (fun e a => freshGoal e a = true) e ops)
    (h : run Engine.step e ops = some e') : Orderly e' :=
  run_keeps_where (fun _ _ _ inv hfresh h => inv.step hfresh (step_cases h)) inv hfresh h

theorem Sound.grow_of_run (inv : Sound e)
    (h : run Engine.step e ops = some e') : GoalsGrow e.goals e'.goals := by
  refine (run_keeps (I := fun s => Sound s ∧ GoalsGrow e.goals s.goals) ?_ ⟨inv, .refl _⟩ h).2
  rintro s a s' ⟨hs, hgrow⟩ hstep
  exact ⟨hs.step (step_cases hstep), hgrow.trans (hs.ends.grow (step_cases hstep))⟩

end

end Engine

end peppy.actions
