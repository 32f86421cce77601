-- The early cancels. One that is remembered stays until its time is over or an accept
-- reads it and fires the signal of its goal.
import Peppy.GoalSignals

open changes tasks runs List

namespace peppy.actions

variable {call : AcceptCall} {i : Nat}

namespace Engine

/-! ## What is remembered -/

/-- The time that a pass read is not in the future. -/
def Clocked (e : Engine) : Prop :=
  ∀ now, e.sweeper = .Registry now ∨ (∃ ids, e.sweeper = .Tombstones now ids) ∨
    e.sweeper = .Pending now ∨ e.sweeper = .Early now → now ≤ e.now

theorem Clocked.start (grace : Nat) : Clocked (start grace) := by
  rintro now (h | ⟨ids, h⟩ | h | h) <;> cases h

/-- The early cancel is kept until then. -/
def Remembered (e : Engine) (key : String × Option VerifiedCaller) (d : Nat) : Prop :=
  ∃ t, (key, t) ∈ e.early_cancels ∧ d ≤ t

/-- The accept of the slot has looked for an early cancel. -/
def ReadEarly (e : Engine) (k : Nat) : Prop :=
  k < e.slots.length ∧ ∀ call ∈ e.accepts, call.phase ≠ .TakeEarly k

/-- A cancel remembered until `d` is there, out of time, or read by the accept. -/
def Kept (goal_id : String) (caller : Option VerifiedCaller) (d : Nat) (e : Engine) : Prop :=
  Remembered e (goal_id, caller) d ∨ d ≤ e.now ∨ ∃ k, Named e k goal_id ∧ ReadEarly e k

section
variable {e e' : Engine} {a : Act} {d k : Nat} {goal_id : String} {caller : Option VerifiedCaller}

theorem Clocked.step (inv : Clocked e) (h : Stepped e a e') : Clocked e' := by
  cases h with
  | tick => exact fun now hnow => Nat.le_trans (inv now hnow) (Nat.le_add_right _ _)
  | sweepStart =>
    rintro now (h | ⟨ids, h⟩ | h | h)
    · cases h
      exact Nat.le_refl _
    all_goals cases h
  | evict hphase =>
    rintro now (h | ⟨ids, h⟩ | h | h)
    · cases h
    · cases h
      exact inv _ (.inl hphase)
    all_goals cases h
  | bury hphase =>
    rintro now (h | ⟨ids, h⟩ | h | h)
    · cases h
    · cases h
    · cases h
      exact inv _ (.inr (.inl ⟨_, hphase⟩))
    · cases h
  | sweepPending hphase =>
    rintro now (h | ⟨ids, h⟩ | h | h)
    · cases h
    · cases h
    · cases h
    · cases h
      exact inv _ (.inr (.inr (.inl hphase)))
  | sweepEarly => rintro now (h | ⟨ids, h⟩ | h | h) <;> cases h
  | _ => exact inv

theorem slots_length (h : Stepped e a e') : e.slots.length ≤ e'.slots.length := by
  rcases goals_length h with hlength | ⟨call, -, -, hgoals, -⟩
  · rw [goals, goals, length_map, length_map] at hlength
    omega
  · have hlength := congrArg List.length hgoals
    rw [length_append, goals, goals, length_map, length_map] at hlength
    omega

theorem takeEarly_cases (h : Stepped e a e') (hcall : call ∈ e'.accepts)
    (hphase : call.phase = .TakeEarly k) : call ∈ e.accepts ∨ k = e.slots.length := by
  rcases accepts_cases h hcall with hmem | hnew | ⟨old, -, next, hmoves, rfl⟩
  · exact .inl hmem
  · cases hnew.symm.trans hphase
  generalize old.phase = p at hmoves
  cases hmoves with
  | register =>
    cases hphase
    exact .inr rfl
  | signal next => cases next <;> cases hphase
  | @adopt j adopted =>
    have hphase : afterAdopt j adopted = .TakeEarly k := hphase
    unfold afterAdopt at hphase
    split at hphase <;> cases hphase
  | takeEarly | noEarly | extend => cases hphase

theorem ReadEarly.step (inv : ReadEarly e k) (h : Stepped e a e') : ReadEarly e' k := by
  refine ⟨Nat.lt_of_lt_of_le inv.1 (slots_length h), fun call hcall hphase => ?_⟩
  rcases takeEarly_cases h hcall hphase with hmem | hk
  · exact inv.2 call hmem hphase
  · have hlt := inv.1
    omega

theorem Ledger.call_unique (ledger : Ledger e) {call' : AcceptCall} (hcall : call ∈ e.accepts)
    (hcall' : call' ∈ e.accepts) (hk : k ∈ call.phase.slot) (hk' : k ∈ call'.phase.slot) :
    call = call' := by
  have hone := ledger.entered_le_one k
  rw [Engine.entered] at hone
  exact eq_of_count_flatMap_le_one (f := fun call : AcceptCall => call.phase.slot) (by omega)
    hcall hcall' hk hk'

theorem readEarly_of_takeEarly (ledger : Ledger e)
    (ledger' : Ledger e') (hcall : e.accepts[i]? = some call) (hphase : call.phase = .TakeEarly k)
    (hslots : e'.slots = e.slots)
    (haccepts : e'.accepts = (e.setAccept i call (some (.Signal k .Cause))).accepts) :
    ReadEarly e' k := by
  have hk : k ∈ call.phase.slot := by
    rw [hphase]
    exact mem_singleton_self k
  obtain ⟨slot, hslot⟩ := ledger.slot_of_call (mem_of_getElem? hcall) hk
  refine ⟨hslots ▸ (List.getElem?_eq_some_iff.mp hslot).1, fun call' hcall' hphase' => ?_⟩
  have hnew : { call with phase := .Signal k .Cause } ∈ e'.accepts := by
    rw [haccepts]
    exact mem_put_self hcall _
  have hk' : k ∈ call'.phase.slot := by
    rw [hphase']
    exact mem_singleton_self k
  have heq := ledger'.call_unique hnew hcall' (mem_singleton_self k) hk'
  rw [← heq] at hphase'
  cases hphase'

theorem Kept.step (inv : Kept goal_id caller d e) (sound : Sound e) (clocked : Clocked e)
    (hd : d ≤ e.now + PENDING_WAITER_MAX_PARK) (h : Stepped e a e') : Kept goal_id caller d e' := by
  rcases inv with ⟨t, ht, hle⟩ | hlate | ⟨k, hnamed, hread⟩
  · have ledger' := sound.ledger.step h
    cases h with
    | @takeEarly i _ call k _ hcall hphase _ _ =>
      by_cases hkey : (call.goal_id, call.verified_caller) = (goal_id, caller)
      · cases hkey
        have hk : k ∈ call.phase.slot := by
          rw [hphase]
          exact mem_singleton_self k
        have hsent := sound.routed.calls call (mem_of_getElem? hcall) k hk
        exact .inr (.inr ⟨k, hsent.named,
          readEarly_of_takeEarly sound.ledger ledger' hcall hphase rfl rfl⟩)
      · refine .inl ⟨t, mem_filter.mpr ⟨ht, ?_⟩, hle⟩
        exact decide_eq_true (Ne.symm hkey)
    | @remember i call hcall hphase hroom =>
      by_cases hkey : (call.goal_id, call.verified_caller) = (goal_id, caller)
      · refine .inl ⟨_, mem_append_right _ (mem_singleton.mpr ?_), hd⟩
        rw [hkey]
      · refine .inl ⟨t, mem_append_left _ (mem_filter.mpr ⟨ht, ?_⟩), hle⟩
        exact decide_eq_true (Ne.symm hkey)
    | @sweepEarly _ now hphase _ =>
      by_cases hin : now < t
      · exact .inl ⟨t, mem_filter.mpr ⟨ht, decide_eq_true hin⟩, hle⟩
      · have hnow := clocked now (.inr (.inr (.inr hphase)))
        exact .inr (.inl (Nat.le_trans hle (Nat.le_trans (Nat.le_of_not_lt hin) hnow)))
    | _ => exact .inl ⟨t, ht, hle⟩
  · exact .inr (.inl (Nat.le_trans hlate (now_mono h)))
  · exact .inr (.inr ⟨k, hnamed.grow (sound.ends.grow h), hread.step h⟩)

/-- The accept fires the signal, or has. -/
def AcceptSignals (e : Engine) (k : Nat) : Prop :=
  Fired e k ∨ ∃ call ∈ e.accepts, call.phase = .Signal k .Cause ∨ call.phase = .Signal k .Cancel

theorem other_accept {c : AcceptCall} (hcall : e.accepts[i]? = some call)
    {phase : Option AcceptPhase} (hc : c ∈ e.accepts) :
    c = call ∨ c ∈ (e.setAccept i call phase).accepts :=
  eq_or_mem_put hcall hc

theorem accept_signal_after (h : Stepped e a e') (hcall : call ∈ e.accepts)
    {phase : SignalPhase} (hphase : call.phase = .Signal k phase) :
    call ∈ e'.accepts ∨ ∃ i slot, e.accepts[i]? = some call ∧ e.slots[k]? = some slot ∧
      e' = (e.signal k slot .Caller phase).setAccept i call
        (some (afterSignal k (slot.signal_cancel .Caller phase).2.2)) := by
  cases h with
  | accept => exact .inl (mem_append_left _ hcall)
  | @acceptSignal i _ old j p slot hold hsignal hslot =>
    rcases other_accept hold hcall with rfl | hmem
    · cases hsignal.symm.trans hphase
      exact .inr ⟨i, slot, hold, hslot, rfl⟩
    · exact .inl hmem
  | register hold hother | takeEarly hold hother | noEarly hold hother | adopt hold hother
  | extend hold hother | extendEnded hold hother | takeOn hold hother | forget hold hother
  | dropAdopted hold hother | dropAccept hold hother =>
    rcases other_accept hold hcall with rfl | hmem
    · cases hother.symm.trans hphase
    · exact .inl hmem
  | _ => exact .inl hcall

theorem AcceptSignals.step (inv : AcceptSignals e k) (ends : Ends e) (h : Stepped e a e') :
    AcceptSignals e' k := by
  rcases inv with hfired | ⟨call, hcall, hphase | hphase⟩
  · exact .inl (hfired.step ends h)
  · rcases accept_signal_after h hcall hphase with hmem | ⟨i, slot, hi, hslot, rfl⟩
    · exact .inr ⟨call, hmem, .inl hphase⟩
    · exact .inr ⟨_, mem_put_self hi _, .inr rfl⟩
  · rcases accept_signal_after h hcall hphase with hmem | ⟨i, slot, hi, hslot, rfl⟩
    · exact .inr ⟨call, hmem, .inr hphase⟩
    · exact .inl ⟨_, getElem?_set_self (List.getElem?_eq_some_iff.mp hslot).1, rfl⟩

theorem AcceptSignals.fired (inv : AcceptSignals e k) (ledger : Ledger e)
    (haccepted : k ∈ e.accepted) : Fired e k := by
  rcases inv with hfired | ⟨call, hcall, hphase⟩
  · exact hfired
  · refine absurd haccepted (ledger.not_accepted hcall ?_)
    rcases hphase with hphase | hphase <;> rw [hphase] <;> exact mem_singleton_self k

/-- An accept in time finds the early cancel of its caller. -/
theorem Kept.signals {replied : Bool}
    (inv : Kept call.goal_id call.verified_caller d e) (orderly : Orderly e)
    (hcall : e.accepts[i]? = some call) (hphase : call.phase = .TakeEarly k) (hin : e.now < d)
    (h : Stepped e (.AcceptStep i replied) e') : AcceptSignals e' k := by
  have hmem := mem_of_getElem? hcall
  rcases inv with ⟨t, ht, -⟩ | hlate | ⟨j, hnamed, hread⟩
  · have hearly : e.early_cancel (call.goal_id, call.verified_caller) ≠ none := by
      rw [early_cancel, ne_eq, Option.map_eq_none_iff, find?_eq_none]
      exact fun hnone => hnone _ ht (decide_eq_true rfl)
    cases h with
    | takeEarly hcall' hphase' =>
      cases hcall'.symm.trans hcall
      cases hphase'.symm.trans hphase
      exact .inr ⟨_, mem_put_self hcall _, .inl rfl⟩
    | noEarly hcall' hphase' hfree hnone =>
      cases hcall'.symm.trans hcall
      exact absurd hnone hearly
    | register hcall' hphase' | acceptSignal hcall' hphase' | adopt hcall' hphase'
    | extend hcall' hphase' | extendEnded hcall' hphase' | takeOn hcall' hphase'
    | forget hcall' hphase' =>
      cases hcall'.symm.trans hcall
      cases hphase'.symm.trans hphase
  · exact absurd hin (Nat.not_lt.mpr hlate)
  have hk : k ∈ call.phase.slot := by
    rw [hphase]
    exact mem_singleton_self k
  cases orderly.distinct.slot_unique hnamed (orderly.routed.calls call hmem k hk).named
  exact absurd hphase (hread.2 call hmem)

end

end Engine

end peppy.actions
