-- How goals end. The first call that sets the flag of a goal gives it its outcome,
-- which is stored once and stays, unless the call is cut between the two.
import Peppy.GoalLedger

open changes tasks runs List

namespace peppy.actions

/-! ## A goal without its waiters and its signal -/

structure Goal where
  goal_id : String
  owner : Option VerifiedCaller
  ended : Option (GoalOutcome × Nat)
  terminal : Bool

def GoalState.ended : GoalState → Option (GoalOutcome × Nat)
  | .Pending _ => none
  | .Terminal outcome evict_at => some (outcome, evict_at)

def GoalSlot.goal (slot : GoalSlot) : Goal :=
  ⟨slot.goal_id, slot.owner, slot.state.ended, slot.terminal⟩

variable {slot slot' : GoalSlot}

open GoalSlot

theorem GoalSlot.SameGoal.goal_eq (h : slot.SameGoal slot') : slot'.goal = slot.goal := by
  rw [goal, goal, h.goal_id, h.owner, h.state, h.terminal]

theorem goal_of_join {waiters : List Nat} (hstate : slot.state = .Pending waiters)
    (responders : List Nat) :
    ({ slot with state := .Pending (waiters ++ responders) } : GoalSlot).goal = slot.goal := by
  rw [goal, goal, hstate]
  rfl

/-- What a goal has stays. -/
structure Goal.Grows (g g' : Goal) : Prop where
  goal_id : g'.goal_id = g.goal_id
  owner : g'.owner = g.owner
  terminal : g.terminal = true → g'.terminal = true
  ended : ∀ x, g.ended = some x → g'.ended = some x

theorem Goal.Grows.refl (g : Goal) : g.Grows g := ⟨rfl, rfl, id, fun _ => id⟩

theorem Goal.Grows.trans {g1 g2 g3 : Goal} (h : g1.Grows g2) (h' : g2.Grows g3) : g1.Grows g3 where
  goal_id := h'.goal_id.trans h.goal_id
  owner := h'.owner.trans h.owner
  terminal hended := h'.terminal (h.terminal hended)
  ended x hx := h'.ended x (h.ended x hx)

/-- The transition set the flag and did not store its result yet. -/
def TransitionPhase.isLock : TransitionPhase → Bool
  | .Lock => true
  | .Swap | .Respond _ => false

/-- Every goal stays, and what it has. -/
def GoalsGrow (l l' : List Goal) : Prop :=
  ∀ (k : Nat) (g : Goal), l[k]? = some g → ∃ g', l'[k]? = some g' ∧ g.Grows g'

theorem GoalsGrow.refl (l : List Goal) : GoalsGrow l l := fun _ g hg => ⟨g, hg, .refl g⟩

theorem GoalsGrow.of_eq {l l' : List Goal} (h : l' = l) : GoalsGrow l l' := h ▸ .refl l

theorem GoalsGrow.trans {l1 l2 l3 : List Goal} (h : GoalsGrow l1 l2) (h' : GoalsGrow l2 l3) :
    GoalsGrow l1 l3 := by
  intro k g hg
  obtain ⟨g2, hg2, hgrows⟩ := h k g hg
  obtain ⟨g3, hg3, hgrows'⟩ := h' k g2 hg2
  exact ⟨g3, hg3, hgrows.trans hgrows'⟩

theorem GoalsGrow.push (l : List Goal) (new : Goal) : GoalsGrow l (l ++ [new]) :=
  fun _ g hg => ⟨g, getElem?_push hg new, .refl g⟩

theorem GoalsGrow.set {l : List Goal} {i : Nat} {g g' : Goal} (hg : l[i]? = some g)
    (h : g.Grows g') : GoalsGrow l (l.set i g') := by
  intro k f hf
  by_cases hk : k = i
  · subst hk
    cases hg.symm.trans hf
    exact ⟨g', getElem?_set_self (List.getElem?_eq_some_iff.mp hg).1, h⟩
  · exact ⟨f, by rwa [getElem?_set_ne (Ne.symm hk)], .refl f⟩

/-- The same transition, with fewer waiters to answer. -/
structure Transition.Continues (t t' : Transition) : Prop where
  slot : t'.slot = t.slot
  outcome : t'.outcome = t.outcome
  phase : t'.phase = t.phase ∨
    ∃ waiters waiters', t.phase = .Respond waiters ∧ t'.phase = .Respond waiters'

theorem Transition.Continues.refl (t : Transition) : t.Continues t := ⟨rfl, rfl, .inl rfl⟩

variable {e : Engine} {t t' : Transition} {k i : Nat} {a : Act} {phase : Option TransitionPhase}

namespace Engine

def goals (e : Engine) : List Goal := e.slots.map GoalSlot.goal

variable {k : Nat}

theorem goals_getElem? (h : e.slots[k]? = some slot) : e.goals[k]? = some slot.goal := by
  rw [goals, getElem?_map, h, Option.map_some]

theorem slot_of_goal {g : Goal} (h : e.goals[k]? = some g) :
    ∃ slot, e.slots[k]? = some slot ∧ slot.goal = g := by
  rw [goals, getElem?_map] at h
  exact Option.map_eq_some_iff.mp h

theorem goals_set {slots : List GoalSlot}
    (hslot : slots[k]? = some slot) (h : slot'.goal = slot.goal) :
    (slots.set k slot').map goal = slots.map goal := by
  obtain ⟨hk, rfl⟩ := List.getElem?_eq_some_iff.mp hslot
  rw [map_set, h, ← getElem_map goal (h := by simpa using hk),
    set_getElem_self]

section
variable {e : Engine}

theorem goals_register (call : AcceptCall) : (e.register call).goals =
    e.goals ++ [⟨call.goal_id, call.verified_caller, none, false⟩] := by
  simp [goals, register, new, goal, GoalState.ended]

theorem goals_win :
    (e.win t slot).goals = e.goals.set t.slot { slot.goal with terminal := true } := by
  simp [goals, win, map_set, goal]

theorem goals_finish : (e.finish t slot).goals = e.goals.set t.slot
      { slot.goal with ended := some (t.outcome, e.now + e.result_retention_grace) } := by
  simp [goals, finish, setSlot, map_set, goal, GoalState.ended]

end

/-! ## One transition for a flag -/

section
variable {e : Engine} (ledger : Ledger e) (once : (e.wins.map Prod.fst).Nodup)
include ledger once

theorem ends_le_one (k : Nat) : e.ends k ≤ 1 := by
  rw [ledger.ends k]
  exact nodup_iff_count_le_one.mp once k

theorem won_unique (ht : t ∈ e.transitions) (ht' : t' ∈ e.transitions)
    (hwon : t.phase.won = true) (hwon' : t'.phase.won = true) (hslot : t'.slot = t.slot) :
    t' = t := by
  have hone := ends_le_one ledger once t.slot
  rw [Engine.ends] at hone
  refine eq_of_count_flatMap_le_one (f := Transition.wonSlot) (b := t.slot) (by omega) ht' ht ?_ ?_
  · rw [wonSlot_of_won rfl hwon', hslot]
    exact mem_singleton_self _
  · rw [wonSlot_of_won rfl hwon]
    exact mem_singleton_self _

/-- While one that won is in progress, no transition of its slot is at its end. -/
theorem won_alone (ht : t ∈ e.transitions) (hwon : t.phase.won = true) :
    t.slot ∉ e.completed ∧ t.slot ∉ e.broken := by
  have hone := ends_le_one ledger once t.slot
  have hcount : 0 < (e.transitions.flatMap Transition.wonSlot).count t.slot := by
    refine count_pos_iff.mpr (mem_flatMap.mpr ⟨t, ht, ?_⟩)
    rw [wonSlot_of_won rfl hwon]
    exact mem_singleton_self _
  rw [Engine.ends] at hone
  rw [← count_eq_zero, ← count_eq_zero]
  omega

theorem completed_not_broken (hcompleted : k ∈ e.completed) : k ∉ e.broken := by
  have hone := ends_le_one ledger once k
  have hcount : 0 < e.completed.count k := count_pos_iff.mpr hcompleted
  rw [Engine.ends] at hone
  rw [← count_eq_zero]
  omega

end

/-! ## The laws of the endings -/

/-- A goal ends once, by the transition that won. -/
structure Ends (e : Engine) : Prop where
  once : (e.wins.map Prod.fst).Nodup
  flag : ∀ k g, e.goals[k]? = some g → (g.terminal = true ↔ k ∈ e.wins.map Prod.fst)
  stored : ∀ k g o evict_at, e.goals[k]? = some g → g.ended = some (o, evict_at) →
    (k, o) ∈ e.wins
  winners : ∀ w ∈ e.wins, w.1 ∈ e.accepted
  contexts : ∀ k ∈ e.contexts, k ∈ e.accepted
  transitions : ∀ t ∈ e.transitions, t.slot ∈ e.accepted
  won : ∀ t ∈ e.transitions, t.phase.won = true → (t.slot, t.outcome) ∈ e.wins
  locked : ∀ t ∈ e.transitions, t.phase = .Lock → ∀ g, e.goals[t.slot]? = some g → g.ended = none
  responding : ∀ t ∈ e.transitions, ∀ waiters, t.phase = .Respond waiters →
    ∃ g evict_at, e.goals[t.slot]? = some g ∧ g.ended = some (t.outcome, evict_at)
  done : ∀ k ∈ e.completed, ∃ g x, e.goals[k]? = some g ∧ g.ended = some x

theorem Ends.start (grace : Nat) : Ends (start grace) := by
  constructor <;> simp [Engine.start, goals]

section
variable {e e' : Engine}

theorem Ends.frame (inv : Ends e) (hgoals : e'.goals = e.goals) (hwins : e'.wins = e.wins)
    (haccepted : ∀ k ∈ e.accepted, k ∈ e'.accepted) (hcontexts : ∀ k ∈ e'.contexts, k ∈ e'.accepted)
    (htransitions : ∀ t' ∈ e'.transitions, (∃ t ∈ e.transitions, t.Continues t') ∨
      (t'.phase = .Swap ∧ t'.slot ∈ e.accepted)) (hcompleted : ∀ k ∈ e'.completed, k ∈ e.completed ∨
      ∃ t ∈ e.transitions, t.slot = k ∧ ∃ waiters, t.phase = .Respond waiters) : Ends e' where
  once := by rw [hwins]; exact inv.once
  flag := by rw [hgoals, hwins]; exact inv.flag
  stored := by rw [hgoals, hwins]; exact inv.stored
  winners := by rw [hwins]; exact fun w hw => haccepted _ (inv.winners w hw)
  contexts := hcontexts
  transitions := by
    intro t' ht'
    rcases htransitions t' ht' with ⟨t, ht, hcont⟩ | ⟨_, hslot⟩
    · rw [hcont.slot]
      exact haccepted _ (inv.transitions t ht)
    · exact haccepted _ hslot
  won := by
    intro t' ht' hwon
    rcases htransitions t' ht' with ⟨t, ht, hcont⟩ | ⟨hswap, _⟩
    · rw [hwins, hcont.slot, hcont.outcome]
      apply inv.won t ht
      rcases hcont.phase with hphase | ⟨waiters, waiters', hphase, _⟩
      · rwa [← hphase]
      · rw [hphase]; rfl
    · rw [hswap] at hwon
      cases hwon
  locked := by
    intro t' ht' hlock
    rcases htransitions t' ht' with ⟨t, ht, hcont⟩ | ⟨hswap, _⟩
    · rw [hgoals, hcont.slot]
      apply inv.locked t ht
      rcases hcont.phase with hphase | ⟨waiters, waiters', _, hphase⟩
      · rwa [← hphase]
      · rw [hphase] at hlock
        cases hlock
    · rw [hswap] at hlock
      cases hlock
  responding := by
    intro t' ht' waiters hrespond
    rcases htransitions t' ht' with ⟨t, ht, hcont⟩ | ⟨hswap, _⟩
    · rw [hgoals, hcont.slot, hcont.outcome]
      rcases hcont.phase with hphase | ⟨waiters, _, hphase, _⟩
      · exact inv.responding t ht waiters (hphase.symm.trans hrespond)
      · exact inv.responding t ht waiters hphase
    · rw [hswap] at hrespond
      cases hrespond
  done := by
    intro k hk
    rw [hgoals]
    rcases hcompleted k hk with hk | ⟨t, ht, rfl, waiters, hphase⟩
    · exact inv.done k hk
    · obtain ⟨g, evict_at, hg, hended⟩ := inv.responding t ht waiters hphase
      exact ⟨g, _, hg, hended⟩

theorem Ends.still (inv : Ends e) (hgoals : e'.goals = e.goals) (hwins : e'.wins = e.wins)
    (haccepted : e'.accepted = e.accepted) (hcontexts : e'.contexts = e.contexts)
    (htransitions : e'.transitions = e.transitions) (hcompleted : e'.completed = e.completed) :
    Ends e' := by
  apply inv.frame hgoals hwins
  · rw [haccepted]
    exact fun k hk => hk
  · rw [haccepted, hcontexts]
    exact inv.contexts
  · rw [htransitions]
    exact fun t ht => .inl ⟨t, ht, .refl t⟩
  · rw [hcompleted]
    exact fun k hk => .inl hk

variable {t : Transition} {i : Nat} {slot : GoalSlot}

theorem Ends.setTransition (inv : Ends e)
    (ht : e.transitions[i]? = some t) (phase : Option TransitionPhase)
    (hphase : ∀ p, phase = some p → t.Continues { t with phase := p }) :
    Ends (e.setTransition i t phase) := by
  refine inv.frame rfl rfl (fun _ => id) inv.contexts ?_ ?_
  · intro t' ht'
    rcases mem_setTransition ht' with ht' | ⟨p, hp, rfl⟩
    · exact .inl ⟨t', ht', .refl t'⟩
    · exact .inl ⟨t, mem_of_getElem? ht, hphase p hp⟩
  · exact fun k hk => .inl hk

theorem Ends.push {outcome : GoalOutcome} {abandon : Bool} (inv : Ends e) (hk : k ∈ e.accepted) :
    Ends { e with transitions := e.transitions ++ [⟨k, outcome, abandon, .Swap⟩] } := by
  refine inv.frame rfl rfl (fun _ => id) inv.contexts ?_ ?_
  · intro t ht
    rcases mem_push ht with ht | rfl
    · exact .inl ⟨t, ht, .refl t⟩
    · exact .inr ⟨rfl, hk⟩
  · exact fun k hk => .inl hk

theorem Ends.slot_lt (inv : Ends e) (ledger : Ledger e) (h : k ∈ e.wins.map Prod.fst) :
    k < e.goals.length := by
  obtain ⟨w, hw, rfl⟩ := mem_map.mp h
  obtain ⟨slot, hslot⟩ := ledger.slot_of_accepted (inv.winners w hw)
  exact (List.getElem?_eq_some_iff.mp (goals_getElem? hslot)).1

theorem Ends.register (inv : Ends e) (ledger : Ledger e) (call : AcceptCall) :
    Ends (e.register call) := by
  have hgoals := goals_register (e := e) call
  refine ⟨inv.once, ?_, ?_, inv.winners, inv.contexts, inv.transitions, inv.won, ?_, ?_, ?_⟩
  · intro k g hg
    rw [hgoals] at hg
    rcases getElem?_push_cases hg with hg | ⟨rfl, rfl⟩
    · exact inv.flag k g hg
    · refine iff_of_false (by simp) fun hwin => ?_
      exact Nat.lt_irrefl _ (inv.slot_lt ledger hwin)
  · intro k g o evict_at hg hended
    rw [hgoals] at hg
    rcases getElem?_push_cases hg with hg | ⟨rfl, rfl⟩
    · exact inv.stored k g o evict_at hg hended
    · cases hended
  · intro t ht hlock g hg
    rw [hgoals] at hg
    rcases getElem?_push_cases hg with hg | ⟨_, rfl⟩
    · exact inv.locked t ht hlock g hg
    · rfl
  · intro t ht waiters hphase
    obtain ⟨g, evict_at, hg, hended⟩ := inv.responding t ht waiters hphase
    exact ⟨g, evict_at, hgoals ▸ getElem?_push hg _, hended⟩
  · intro k hk
    obtain ⟨g, x, hg, hended⟩ := inv.done k hk
    exact ⟨g, x, hgoals ▸ getElem?_push hg _, hended⟩

theorem grow_win (hslot : e.slots[t.slot]? = some slot) :
    GoalsGrow e.goals (e.win t slot).goals := by
  rw [goals_win]
  exact .set (goals_getElem? hslot) ⟨rfl, rfl, fun _ => rfl, fun _ => id⟩

section
variable (inv : Ends e)
include inv

theorem Ends.grow_finish
    (ht : t ∈ e.transitions) (hphase : t.phase = .Lock) (hslot : e.slots[t.slot]? = some slot) :
    GoalsGrow e.goals (e.finish t slot).goals := by
  have hg := goals_getElem? hslot
  rw [goals_finish]
  refine .set hg ⟨rfl, rfl, id, fun x hx => ?_⟩
  rw [inv.locked t ht hphase slot.goal hg] at hx
  cases hx

theorem Ends.win (ht : e.transitions[i]? = some t) (hslot : e.slots[t.slot]? = some slot)
    (hlive : slot.terminal = false) : Ends ((e.win t slot).setTransition i t (some .Lock)) := by
  have hg := goals_getElem? hslot
  have hgoals : ((e.win t slot).setTransition i t (some .Lock)).goals =
      e.goals.set t.slot { slot.goal with terminal := true } := goals_win
  have hlost : t.slot ∉ e.wins.map Prod.fst := by
    rw [← inv.flag t.slot slot.goal hg]
    simp [goal, hlive]
  have hopen : slot.goal.ended = none := by
    rcases hended : slot.goal.ended with _ | ⟨o, evict_at⟩
    · rfl
    · exact absurd (mem_map_of_mem (inv.stored t.slot slot.goal o evict_at hg hended)) hlost
  have hgrow := grow_win hslot
  have haccepted := inv.transitions t (mem_of_getElem? ht)
  refine ⟨nodup_cons.mpr ⟨hlost, inv.once⟩, ?_, ?_, ?_, inv.contexts, ?_, ?_, ?_, ?_, ?_⟩
  · intro k g hk
    rw [hgoals] at hk
    rcases getElem?_set_cases hk with ⟨rfl, rfl⟩ | ⟨hne, hk⟩
    · exact iff_of_true rfl mem_cons_self
    · rw [inv.flag k g hk]
      exact ⟨mem_cons_of_mem _, fun h => (mem_cons.mp h).resolve_left hne⟩
  · intro k g o evict_at hk hended
    rw [hgoals] at hk
    rcases getElem?_set_cases hk with ⟨rfl, rfl⟩ | ⟨_, hk⟩
    · rw [hopen] at hended
      cases hended
    · exact mem_cons_of_mem _ (inv.stored k g o evict_at hk hended)
  · intro w hw
    rcases mem_cons.mp hw with rfl | hw
    · exact haccepted
    · exact inv.winners w hw
  · intro t' ht'
    rcases mem_or_eq_of_mem_set ht' with ht' | rfl
    · exact inv.transitions t' ht'
    · exact haccepted
  · intro t' ht' hwon
    rcases mem_or_eq_of_mem_set ht' with ht' | rfl
    · exact mem_cons_of_mem _ (inv.won t' ht' hwon)
    · exact mem_cons_self
  · intro t' ht' hlock g hk
    rw [hgoals] at hk
    rcases getElem?_set_cases hk with ⟨_, rfl⟩ | ⟨hne, hk⟩
    · exact hopen
    · rcases mem_or_eq_of_mem_set ht' with ht' | rfl
      · exact inv.locked t' ht' hlock g hk
      · exact absurd rfl hne
  · intro t' ht' waiters hphase
    rcases mem_or_eq_of_mem_set ht' with ht' | rfl
    · obtain ⟨g, evict_at, hk, hended⟩ := inv.responding t' ht' waiters hphase
      obtain ⟨g', hk', hgrows⟩ := hgrow _ g hk
      exact ⟨g', evict_at, hk', hgrows.ended _ hended⟩
    · cases hphase
  · intro k hk
    obtain ⟨g, x, hk, hended⟩ := inv.done k hk
    obtain ⟨g', hk', hgrows⟩ := hgrow k g hk
    exact ⟨g', x, hk', hgrows.ended x hended⟩

theorem Ends.finish (ht : e.transitions[i]? = some t) (hphase : t.phase = .Lock)
    (hslot : e.slots[t.slot]? = some slot)
    (ledger : Ledger ((e.finish t slot).setTransition i t (some (.Respond slot.state.waiters)))) :
    Ends ((e.finish t slot).setTransition i t (some (.Respond slot.state.waiters))) := by
  have hmem := mem_of_getElem? ht
  have hg := goals_getElem? hslot
  have hwin := inv.won t hmem (by rw [hphase]; rfl)
  have hgoals : ((e.finish t slot).setTransition i t (some (.Respond slot.state.waiters))).goals =
      e.goals.set t.slot
        { slot.goal with ended := some (t.outcome, e.now + e.result_retention_grace) } :=
    goals_finish
  have hself : { t with phase := .Respond slot.state.waiters } ∈
      ((e.finish t slot).setTransition i t (some (.Respond slot.state.waiters))).transitions :=
    mem_put_self ht _
  have hgrow := inv.grow_finish hmem hphase hslot
  -- a second transition that won this flag would be the one that just stored the result
  have hunique : ∀ t' ∈ ((e.finish t slot).setTransition i t
      (some (.Respond slot.state.waiters))).transitions, t'.phase.won = true →
      t'.slot = t.slot → t' = { t with phase := .Respond slot.state.waiters } :=
    fun t' ht' hwon hslot' => won_unique ledger inv.once hself ht' rfl hwon hslot'
  refine ⟨inv.once, ?_, ?_, inv.winners, inv.contexts, ?_, ?_, ?_, ?_, ?_⟩
  · intro k g hk
    rw [hgoals] at hk
    rcases getElem?_set_cases hk with ⟨rfl, rfl⟩ | ⟨_, hk⟩
    · exact inv.flag t.slot slot.goal hg
    · exact inv.flag k g hk
  · intro k g o evict_at hk hended
    rw [hgoals] at hk
    rcases getElem?_set_cases hk with ⟨rfl, rfl⟩ | ⟨_, hk⟩
    · cases hended
      exact hwin
    · exact inv.stored k g o evict_at hk hended
  · intro t' ht'
    rcases mem_or_eq_of_mem_set ht' with ht' | rfl
    · exact inv.transitions t' ht'
    · exact inv.transitions t hmem
  · intro t' ht' hwon
    rcases mem_or_eq_of_mem_set ht' with ht' | rfl
    · exact inv.won t' ht' hwon
    · exact hwin
  · intro t' ht' hlock g hk
    have hne : t'.slot ≠ t.slot := by
      intro hslot'
      rw [hunique t' ht' (by rw [hlock]; rfl) hslot'] at hlock
      cases hlock
    rw [hgoals, getElem?_set_ne hne.symm] at hk
    rcases mem_or_eq_of_mem_set ht' with ht' | rfl
    · exact inv.locked t' ht' hlock g hk
    · cases hlock
  · intro t' ht' waiters hrespond
    by_cases hslot' : t'.slot = t.slot
    · rw [hunique t' ht' (by rw [hrespond]; rfl) hslot', hgoals]
      exact ⟨_, _, getElem?_set_self (List.getElem?_eq_some_iff.mp hg).1, rfl⟩
    rcases mem_or_eq_of_mem_set ht' with ht' | rfl
    · obtain ⟨g, evict_at, hk, hended⟩ := inv.responding t' ht' waiters hrespond
      obtain ⟨g', hk', hgrows⟩ := hgrow _ g hk
      exact ⟨g', evict_at, hk', hgrows.ended _ hended⟩
    · exact absurd rfl hslot'
  · intro k hk
    obtain ⟨g, x, hk, hended⟩ := inv.done k hk
    obtain ⟨g', hk', hgrows⟩ := hgrow k g hk
    exact ⟨g', x, hk', hgrows.ended x hended⟩

theorem Ends.takeOn (k : Nat) : Ends (e.takeOn k) := by
  refine inv.frame rfl rfl ?_ ?_ ?_ ?_
  · exact fun j hj => mem_cons_of_mem k hj
  · intro j hj
    rcases mem_append.mp hj with hj | hj
    · exact mem_cons_of_mem k (inv.contexts j hj)
    · rw [mem_singleton.mp hj]
      exact mem_cons_self
  · exact fun t ht => .inl ⟨t, ht, .refl t⟩
  · exact fun j hj => .inl hj

theorem Ends.dropContext (k : Nat) : Ends { e with contexts := e.contexts.erase k } := by
  refine inv.frame rfl rfl (fun _ => id) ?_ ?_ ?_
  · exact fun j hj => inv.contexts j (mem_of_mem_erase hj)
  · exact fun t ht => .inl ⟨t, ht, .refl t⟩
  · exact fun j hj => .inl hj

theorem Ends.complete {waiters : List Nat}
    (ht : t ∈ e.transitions) (hphase : t.phase = .Respond waiters) : Ends (e.complete t.slot) := by
  refine inv.frame rfl rfl (fun _ => id) inv.contexts ?_ ?_
  · exact fun t ht => .inl ⟨t, ht, .refl t⟩
  · intro k hk
    rcases mem_cons.mp hk with rfl | hk
    · exact .inr ⟨t, ht, rfl, waiters, hphase⟩
    · exact .inl hk

theorem Ends.step {a : Act} (ledger : Ledger e) (h : Stepped e a e') : Ends e' := by
  have ledger' := ledger.step h
  cases h with
  | register => exact (inv.register ledger _).still rfl rfl rfl rfl rfl rfl
  | acceptSignal hcall hphase hslot | cancelSignal hcall hphase hslot
  | signalled hcall hphase hslot | watchSignal hw hphase hslot =>
    exact inv.still (goals_set hslot (signal_cancel_same ..).goal_eq) rfl rfl rfl rfl rfl
  | link hslot => exact inv.still (goals_set hslot (link_same ..).goal_eq) rfl rfl rfl rfl rfl
  | unlink hslot => exact inv.still (goals_set hslot (unlink_same ..).goal_eq) rfl rfl rfl rfl rfl
  | extend hcall hphase hslot hstate | wait hpoll hphase hslot hstate =>
    exact inv.still (goals_set hslot (goal_of_join hstate _)) rfl rfl rfl rfl rfl
  | takeOn => exact (inv.takeOn _).still rfl rfl rfl rfl rfl rfl
  | deliver hcontext => exact inv.push (inv.contexts _ hcontext)
  | dropContext => exact inv.dropContext _
  | abandon hcontext => exact (inv.dropContext _).push (inv.contexts _ hcontext)
  | lose ht | dropSwap ht => exact inv.setTransition ht none (fun _ h => nomatch h)
  | win ht hphase hslot hlive => exact inv.win ht hslot hlive
  | finish ht hphase hslot => exact inv.finish ht hphase hslot ledger'
  | @respond i t r waiters ht hphase =>
    have h := inv.setTransition ht (some (.Respond waiters)) fun p hp =>
      ⟨rfl, rfl, .inr ⟨_, waiters, hphase, by cases hp; rfl⟩⟩
    exact h.still rfl rfl rfl rfl rfl rfl
  | complete ht hphase =>
    exact (inv.complete (mem_of_getElem? ht) hphase).setTransition ht none
      (fun _ h => nomatch h)
  | dropLock ht | dropRespond ht =>
    have h := inv.setTransition ht none (fun _ h => nomatch h)
    exact h.still rfl rfl rfl rfl rfl rfl
  | _ => exact inv.still rfl rfl rfl rfl rfl rfl

theorem Ends.grow (h : Stepped e a e') : GoalsGrow e.goals e'.goals := by
  cases h with
  | @register i replied call =>
    have h := GoalsGrow.push e.goals ⟨call.goal_id, call.verified_caller, none, false⟩
    rw [← goals_register] at h
    exact h
  | acceptSignal hcall hphase hslot | cancelSignal hcall hphase hslot
  | signalled hcall hphase hslot | watchSignal hw hphase hslot =>
    exact .of_eq (goals_set hslot (signal_cancel_same ..).goal_eq)
  | link hslot => exact .of_eq (goals_set hslot (link_same ..).goal_eq)
  | unlink hslot => exact .of_eq (goals_set hslot (unlink_same ..).goal_eq)
  | extend hcall hphase hslot hstate | wait hpoll hphase hslot hstate =>
    exact .of_eq (goals_set hslot (goal_of_join hstate _))
  | win ht hphase hslot => exact grow_win hslot
  | finish ht hphase hslot => exact inv.grow_finish (mem_of_getElem? ht) hphase hslot
  | _ => exact .refl _

end

end

/-! ## The flag and the stored result -/

/-- No call is dropped between its flag and the state of its slot. -/
def uncut (e : Engine) : Act → Bool
  | .DropTransition i => (e.transitions[i]?).all fun t => !t.phase.isLock
  | _ => true

/-- A flag without a stored result has its transition in progress. -/
def Flagged (e : Engine) : Prop :=
  ∀ (k : Nat) (g : Goal), e.goals[k]? = some g → g.terminal = true → g.ended = none →
    ∃ t ∈ e.transitions, t.slot = k ∧ t.phase = .Lock

section
variable {e e' : Engine}

theorem Flagged.frame (inv : Flagged e) (hgoals : e'.goals = e.goals)
    (htransitions : ∀ t ∈ e.transitions, t.phase = .Lock → t ∈ e'.transitions) : Flagged e' := by
  intro k g hg hflag hopen
  rw [hgoals] at hg
  obtain ⟨t, ht, hslot, hlock⟩ := inv k g hg hflag hopen
  exact ⟨t, htransitions t ht hlock, hslot, hlock⟩

theorem other_stays (ht : e.transitions[i]? = some t)
    (phase : Option TransitionPhase) (ht' : t' ∈ e.transitions) (hne : t' ≠ t) :
    t' ∈ (e.setTransition i t phase).transitions :=
  (eq_or_mem_put ht ht').resolve_left hne

theorem lock_stays (ht : e.transitions[i]? = some t) (hphase : t.phase ≠ .Lock) :
    ∀ t' ∈ e.transitions, t'.phase = .Lock → t' ∈ (e.setTransition i t phase).transitions := by
  intro t' ht' hlock
  refine other_stays ht phase ht' ?_
  rintro rfl
  exact hphase hlock

theorem Flagged.step (inv : Flagged e) (hcut : uncut e a = true) (h : Stepped e a e') :
    Flagged e' := by
  cases h with
  | @register i replied call =>
    intro k g hg hflag hopen
    have hg : (e.register call).goals[k]? = some g := hg
    rw [goals_register] at hg
    rcases getElem?_push_cases hg with hg | ⟨_, rfl⟩
    · exact inv k g hg hflag hopen
    · cases hflag
  | acceptSignal hcall hphase hslot | cancelSignal hcall hphase hslot
  | signalled hcall hphase hslot | watchSignal hw hphase hslot =>
    exact inv.frame (goals_set hslot (signal_cancel_same ..).goal_eq) fun t ht _ => ht
  | link hslot => exact inv.frame (goals_set hslot (link_same ..).goal_eq) fun t ht _ => ht
  | unlink hslot => exact inv.frame (goals_set hslot (unlink_same ..).goal_eq) fun t ht _ => ht
  | extend hcall hphase hslot hstate | wait hpoll hphase hslot hstate =>
    exact inv.frame (goals_set hslot (goal_of_join hstate _)) fun t ht _ => ht
  | deliver | abandon => exact inv.frame rfl fun t ht _ => mem_append_left _ ht
  | lose ht hphase | dropSwap ht hcall hphase | respond ht hphase | complete ht hphase
  | dropRespond ht hcall hphase =>
    exact inv.frame rfl (lock_stays ht (by simp [hphase]))
  | dropLock ht hcall hphase => simp [uncut, ht, hphase, TransitionPhase.isLock] at hcut
  | @win i t slot ht hphase hslot =>
    intro k g hg hflag hopen
    have hg : (e.win t slot).goals[k]? = some g := hg
    rw [goals_win] at hg
    rcases getElem?_set_cases hg with ⟨rfl, _⟩ | ⟨_, hg⟩
    · exact ⟨{ t with phase := .Lock }, mem_put_self ht _, rfl, rfl⟩
    · obtain ⟨t', ht', hslot', hlock⟩ := inv k g hg hflag hopen
      exact ⟨t', lock_stays ht (by simp [hphase]) t' ht' hlock, hslot', hlock⟩
  | @finish i t slot ht hphase hslot =>
    intro k g hg hflag hopen
    have hg : (e.finish t slot).goals[k]? = some g := hg
    rw [goals_finish] at hg
    rcases getElem?_set_cases hg with ⟨_, rfl⟩ | ⟨hne, hg⟩
    · cases hopen
    · obtain ⟨t', ht', hslot', hlock⟩ := inv k g hg hflag hopen
      refine ⟨t', other_stays ht (some _) ht' ?_, hslot', hlock⟩
      rintro rfl
      exact hne hslot'.symm
  | _ => exact inv.frame rfl fun t ht _ => ht

end

/-- An accepted goal has its worker, the task that abandons it, or its
flag. -/
def Owned (e : Engine) : Prop :=
  ∀ k ∈ e.accepted, k ∈ e.contexts ∨
    (∃ t ∈ e.transitions, t.slot = k ∧ t.abandon = true ∧ t.phase = .Swap) ∨
    k ∈ e.wins.map Prod.fst

section
variable {e e' : Engine}

theorem Owned.frame (inv : Owned e) (haccepted : e'.accepted = e.accepted)
    (hcontexts : e'.contexts = e.contexts) (hwins : e'.wins = e.wins)
    (htransitions : ∀ t ∈ e.transitions, t.abandon = true → t.phase = .Swap →
      t ∈ e'.transitions ∨ t.slot ∈ e.wins.map Prod.fst) : Owned e' := by
  intro k hk
  rw [haccepted] at hk
  rw [hcontexts, hwins]
  rcases inv k hk with h | ⟨t, ht, rfl, habandon, hswap⟩ | h
  · exact .inl h
  · rcases htransitions t ht habandon hswap with ht | hwin
    · exact .inr (.inl ⟨t, ht, rfl, habandon, hswap⟩)
    · exact .inr (.inr hwin)
  · exact .inr (.inr h)

theorem swap_stays (ht : e.transitions[i]? = some t)
    (hphase : t.abandon = false ∨ t.phase ≠ .Swap) :
    ∀ t' ∈ e.transitions, t'.abandon = true → t'.phase = .Swap →
      t' ∈ (e.setTransition i t phase).transitions ∨ t'.slot ∈ e.wins.map Prod.fst := by
  intro t' ht' habandon hswap
  refine .inl (other_stays ht phase ht' ?_)
  rintro rfl
  rcases hphase with hcall | hphase
  · rw [hcall] at habandon
    cases habandon
  · exact hphase hswap

theorem Owned.step (inv : Owned e) (ends : Ends e) (h : Stepped e a e') : Owned e' := by
  cases h with
  | takeOn hcall hphase =>
    intro j hj
    rcases mem_cons.mp hj with rfl | hj
    · exact .inl (mem_append_right _ (mem_singleton_self _))
    · rcases inv j hj with h | h
      · exact .inl (mem_append_left _ h)
      · exact .inr h
  | deliver => exact inv.frame rfl rfl rfl fun t ht _ _ => .inl (mem_append_left _ ht)
  | @dropContext k slot hcontext hslot hended =>
    intro j hj
    rcases inv j hj with h | h
    · by_cases hjk : j = k
      · subst hjk
        exact .inr (.inr ((ends.flag j slot.goal (goals_getElem? hslot)).mp hended))
      · exact .inl ((mem_erase_of_ne hjk).mpr h)
    · exact .inr h
  | @abandon k slot hcontext hslot hlive =>
    intro j hj
    rcases inv j hj with h | ⟨t, ht, hrest⟩ | h
    · by_cases hjk : j = k
      · subst hjk
        exact .inr (.inl ⟨_, mem_append_right _ (mem_singleton_self _), rfl, rfl, rfl⟩)
      · exact .inl ((mem_erase_of_ne hjk).mpr h)
    · exact .inr (.inl ⟨t, mem_append_left _ ht, hrest⟩)
    · exact .inr (.inr h)
  | @lose i t slot ht hphase hslot hended =>
    have hwin := (ends.flag t.slot slot.goal (goals_getElem? hslot)).mp hended
    refine inv.frame rfl rfl rfl fun t' ht' _ _ => ?_
    by_cases hne : t' = t
    · exact .inr (hne ▸ hwin)
    · exact .inl (other_stays ht none ht' hne)
  | @win i t slot ht hphase hslot hlive =>
    intro j hj
    rcases inv j hj with h | ⟨t', ht', rfl, habandon, hswap⟩ | h
    · exact .inl h
    · by_cases hne : t' = t
      · exact .inr (.inr (hne ▸ mem_cons_self))
      · exact .inr (.inl ⟨t', other_stays ht (some .Lock) ht' hne, rfl, habandon, hswap⟩)
    · exact .inr (.inr (mem_cons_of_mem _ h))
  | finish ht hphase | respond ht hphase | complete ht hphase =>
    exact inv.frame rfl rfl rfl (swap_stays ht (.inr (by simp [hphase])))
  | dropSwap ht hcall | dropLock ht hcall | dropRespond ht hcall =>
    exact inv.frame rfl rfl rfl (swap_stays ht (.inl hcall))
  | _ => exact inv.frame rfl rfl rfl fun t ht _ _ => .inl ht

end

theorem GoalState.isTerminal_iff {state : GoalState} :
    state.isTerminal = true ↔ state.ended ≠ none := by
  cases state <;> simp [GoalState.isTerminal, GoalState.ended]

/-- With no call in progress, the flag is set exactly when the result is stored, unless a
call is dropped between the two. An accepted goal that no worker holds has its result. -/
theorem the_flag_of_a_goal_is_its_end {grace : Nat} {ops : List Act} {e : Engine}
    (hrun : run step (start grace) ops = some e)
    (hcut : Meets step (fun e a => uncut e a = true) (start grace) ops)
    {k : Nat} {slot : GoalSlot} (hslot : e.slots[k]? = some slot)
    (hidle : ∀ t ∈ e.transitions, t.slot ≠ k) :
    (slot.terminal = true ↔ slot.state.isTerminal = true) ∧
      (k ∈ e.accepted → k ∉ e.contexts → slot.state.isTerminal = true) := by
  have hg := goals_getElem? hslot
  obtain ⟨⟨_, ends⟩, flagged, owned⟩ := run_keeps_where
    (I := fun e => (Ledger e ∧ Ends e) ∧ Flagged e ∧ Owned e)
    (by
      rintro e a e' ⟨⟨ledger, ends⟩, flagged, owned⟩ hcut hstep
      have hstep := step_cases hstep
      exact ⟨⟨ledger.step hstep, ends.step ledger hstep⟩, flagged.step hcut hstep,
        owned.step ends hstep⟩)
    ⟨⟨.start grace, .start grace⟩, by simp [Flagged, goals, start], by simp [Owned, start]⟩
    hcut hrun
  have hstored : slot.terminal = true → slot.state.isTerminal = true := by
    intro hflag
    rw [GoalState.isTerminal_iff]
    intro hopen
    obtain ⟨t, ht, hk, _⟩ := flagged k slot.goal hg hflag hopen
    exact hidle t ht hk
  have hflag : k ∈ e.wins.map Prod.fst → slot.terminal = true :=
    (ends.flag k slot.goal hg).mpr
  refine ⟨⟨hstored, fun hended => ?_⟩, fun haccepted hleft => ?_⟩
  · rw [GoalState.isTerminal_iff, Option.ne_none_iff_exists'] at hended
    obtain ⟨⟨o, evict_at⟩, hended⟩ := hended
    exact hflag (mem_map_of_mem (ends.stored k slot.goal o evict_at hg hended))
  · rcases owned k haccepted with h | ⟨t, ht, hk, _⟩ | hwin
    · exact absurd h hleft
    · exact absurd hk (hidle t ht)
    · exact hstored (hflag hwin)

def polledGoal : List Act :=
  [.Accept "pick" none, .AcceptStep 0 true, .AcceptStep 0 true, .AcceptStep 0 true,
    .AcceptStep 0 true, .Poll "pick" 7, .PollStep 0, .PollStep 0, .Deliver 0 (.Complete "placed"),
    .TransitionStep 0]

theorem the_flag_of_a_completed_goal :
    ∃ e slot, run step (start 30) (polledGoal ++ [.TransitionStep 0, .TransitionStep 0,
        .TransitionStep 0, .DropContext 0]) = some e ∧
      e.slots[0]? = some slot ∧ slot.state = .Terminal (.Completed "placed") 30 ∧
      (slot.terminal = true ↔ slot.state.isTerminal = true) := by
  obtain ⟨e, he⟩ : ∃ e, run step (start 30) (polledGoal ++ [.TransitionStep 0, .TransitionStep 0,
      .TransitionStep 0, .DropContext 0]) = some e := ⟨_, rfl⟩
  obtain ⟨slot, hslot⟩ : ∃ slot, e.slots[0]? = some slot := by cases he; exact ⟨_, rfl⟩
  have hidle : e.transitions = [] := by cases he; rfl
  have h := the_flag_of_a_goal_is_its_end he (by decide) hslot (by simp [hidle])
  refine ⟨e, slot, he, hslot, ?_, h.1⟩
  cases he
  cases hslot
  rfl

/-- The worker drops its call after the flag and before the result. The flag
is set, the poll waits in the slot, and no task is left to answer it. -/
theorem a_call_cut_after_its_flag :
    ∃ e slot, run step (start 30) (polledGoal ++ [.DropTransition 0, .DropContext 0]) = some e ∧
      e.slots[0]? = some slot ∧ e.transitions.length = 0 ∧ e.contexts = [] ∧
      slot.terminal = true ∧ slot.state = .Pending [7] :=
  ⟨_, _, rfl, rfl, rfl, rfl, rfl, rfl⟩

end Engine

end peppy.actions
