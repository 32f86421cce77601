-- The stack after the join of two copies and the removal of the first, against
-- the stack after the join of the second alone.
import Peppy.CopyHistory
import Peppy.CopyOfOne

open keymap results List

namespace peppy.compose

open launcher (Selection LinkValue)

variable {V : Type} {bare : KeyMap String (String × DeploymentInstance V)}

/-- One stack, with set slots compared by members and core node links as a set. -/
structure SameStack (flat flat' : FlatStack V) : Prop where
  ids : ∀ id, flat.instances.get id = none ↔ flat'.instances.get id = none
  instances : ∀ id source inst source' inst', flat.instances.get id = some (source, inst) →
    flat'.instances.get id = some (source', inst') →
    source = source' ∧ SameFields inst inst' ∧
      ∀ slot, alike (inst.links.get slot) (inst'.links.get slot)
  core_nodes : ∀ link, link ∈ flat.core_nodes ↔ link ∈ flat'.core_nodes

/-- The second copy alone gives what both joins and the removal of the first give. -/
def GivenAlone [DecidableEq V] (render : Rendering V) (stack : FlatStack V)
    (second : JoinedCopy V bare) (removed : FlatStack V) : Prop :=
  ∃ alone, join render second stack = .ok alone ∧ SameStack removed alone

/-- Each slot of a stack instance forgets the first copy. -/
def SlotsForget (stack : FlatStack V) (first second : JoinedCopy V bare)
    (recomposed : List (JoinedCopy V bare)) : Prop :=
  ∀ id source inst, stack.instances.get id = some (source, inst) → ∀ slot,
    Forgets (inst.links.get slot) (slot_writes_of first.stack_writes id slot)
      (slot_writes_of second.stack_writes id slot) (second.pairs_into id slot)
      (restored (vacancies bare (recomposed.flatMap JoinedCopy.released_vacancies)) id slot)

/-- Each slot of a stack instance is as it was once the copy has left again. -/
def SlotsReturn (stack : FlatStack V) (copy : JoinedCopy V bare)
    (recomposed : List (JoinedCopy V bare)) : Prop :=
  ∀ id source inst, stack.instances.get id = some (source, inst) → ∀ slot,
    Forgets (inst.links.get slot) (slot_writes_of copy.stack_writes id slot) [] false
      (restored (vacancies bare (recomposed.flatMap JoinedCopy.released_vacancies)) id slot)

/-- The stacks of a history: two joins, and the removal of the first copy. -/
structure History [DecidableEq V] (render : Rendering V) (stack : FlatStack V)
    (first second : JoinedCopy V bare) (recomposed : List (JoinedCopy V bare))
    (once twice removed : FlatStack V) : Prop where
  joins_first : join render first stack = .ok once
  joins_second : join render second once = .ok twice
  removes_first : remove twice first recomposed = .ok removed

/-- What a join leaves of the stack, and what it adds. -/
structure Joins (copy : JoinedCopy V bare) (existing flat : FlatStack V) : Prop where
  name : copy.name ∉ existing.core_nodes
  new : ∀ id ∈ ids copy.deployments, existing.instances.get id = none
  own : ∀ id ∈ ids copy.deployments, flat.instances.get id ≠ none ∧
    flat.instances.get id =
      ((own_entries copy).foldl (fun m entry => KeyMap.insert m entry.1 entry.2) {}).get id
  absent : ∀ id, id ∉ ids copy.deployments → existing.instances.get id = none →
    flat.instances.get id = none
  slots : ∀ id source inst, existing.instances.get id = some (source, inst) →
    ∃ inst', flat.instances.get id = some (source, inst') ∧ SameFields inst inst' ∧
      ∀ slot, slot_writes (copy.pairs_into id slot) copy.owns (inst.links.get slot)
        (slot_writes_of copy.stack_writes id slot) = some (inst'.links.get slot)
  core_nodes : ∀ link, link ∈ flat.core_nodes ↔ link ∈ existing.core_nodes ∨ link = copy.name

theorem joins_of_join [DecidableEq V] {render : Rendering V} {copy : JoinedCopy V bare}
    {existing flat : FlatStack V} (h : join render copy existing = .ok flat) :
    Joins copy existing flat := by
  obtain ⟨hname, attached, hattach, hfree, rfl⟩ := join_ok.mp h
  obtain ⟨-, hmoves⟩ := attach_writes_ok hattach
  have hnew : ∀ id ∈ ids copy.deployments, existing.instances.get id = none :=
    fun id hid => hmoves.domain.mp (hfree id hid)
  have hold := fun id (hid : id ∉ ids copy.deployments) =>
    KeyMap.get_foldl_insert_of_not_mem (f := Prod.snd) (map_own_entries copy ▸ hid) attached
  refine ⟨hname, hnew, fun id hid => ?_, fun id hid hnone => ?_, fun id source inst hinst => ?_,
    fun link => mem_add_core_node_link⟩
  · obtain ⟨entry, -, -, hget⟩ := KeyMap.get_foldl_insert_of_mem (map_own_entries copy ▸ hid)
    exact ⟨hget attached ▸ Option.some_ne_none _, (hget attached).trans (hget {}).symm⟩
  · exact (hold id hid).trans ((hmoves id).1 hnone)
  · have hnot : id ∉ ids copy.deployments := fun hid => by
      cases (hnew id hid).symm.trans hinst
    obtain ⟨inst', hinst', hlaws⟩ := (hmoves id).2 source inst hinst
    exact ⟨inst', (hold id hnot).trans hinst', hlaws⟩

open JoinedCopy

theorem remove_ok {existing flat : FlatStack V} {copy : JoinedCopy V bare}
    {recomposed : List (JoinedCopy V bare)} (h : remove existing copy recomposed = .ok flat) :
    (∀ id, id ∈ ids copy.deployments ∨ existing.instances.get id = none →
      flat.instances.get id = none) ∧ (∀ id source inst, id ∉ ids copy.deployments →
      existing.instances.get id = some (source, inst) →
      ∃ inst', flat.instances.get id = some (source, inst') ∧ SameFields inst inst' ∧
        ∀ slot, inst'.links.get slot =
          (without (added (slot_writes_of copy.stack_writes id slot)) (inst.links.get slot)).or
            (restored (vacancies bare (recomposed.flatMap released_vacancies)) id slot)) ∧
    flat.core_nodes = existing.core_nodes.filter fun link => link ≠ copy.name := by
  obtain ⟨dropped, hdropped, rfl⟩ := detach_ok h
  have hdrops := drop_members_ok hdropped
  have hrestores := restore_vacancies_moves dropped
    (vacancies bare (recomposed.flatMap released_vacancies))
  refine ⟨fun id hid => (hrestores id).1 ((hdrops id).1 ?_), fun id source inst hid hinst => ?_, rfl⟩
  · rw [get_remove_ids]
    split
    · rfl
    · exact hid.resolve_left ‹_›
  · obtain ⟨inst1, hinst1, hfields1, hslots1⟩ := (hdrops id).2 source inst (by
      rw [get_remove_ids, if_neg hid]
      exact hinst)
    obtain ⟨inst2, hinst2, hfields2, hslots2⟩ := (hrestores id).2 source inst1 hinst1
    refine ⟨inst2, hinst2, hfields1.trans hfields2, fun slot => ?_⟩
    rw [hslots2 slot, hslots1 slot, targets_on_set_members]

variable {id slot : String}

theorem slot_writes_of_minted {copy : JoinedCopy V bare} (hid : bare.get id = none)
    : slot_writes_of copy.stack_writes id slot = [] := by
  have hnone : (copy.stack_writes.filter fun entry => entry.instance_id = id) = [] := by
    refine filter_eq_nil_iff.mpr fun entry hentry heq => ?_
    simp only [decide_eq_true_eq] at heq
    exact copy.writes entry hentry (heq ▸ hid)
  rw [slot_writes_of, hnone]
  rfl

variable {source : String}

section
variable [DecidableEq V] {render : Rendering V} {stack once twice removed : FlatStack V}
  {first second : JoinedCopy V bare} {recomposed : List (JoinedCopy V bare)}

/-- What is left of the stack once the first copy is gone. -/
structure Told (render : Rendering V) (stack : FlatStack V) (first second : JoinedCopy V bare)
    (recomposed : List (JoinedCopy V bare)) (removed : FlatStack V) : Prop where
  apart : ∀ id ∈ ids first.deployments, id ∉ ids second.deployments
  second_new : ∀ id ∈ ids second.deployments, stack.instances.get id = none
  absent : ∀ id, id ∉ ids second.deployments → stack.instances.get id = none →
    removed.instances.get id = none
  second_stays : ∀ id ∈ ids second.deployments, ∀ alone, Joins second stack alone →
    ∃ source inst inst', removed.instances.get id = some (source, inst) ∧
      alone.instances.get id = some (source, inst') ∧ SameFields inst inst' ∧
      ∀ slot, inst.links.get slot = inst'.links.get slot
  slots : ∀ id source inst, stack.instances.get id = some (source, inst) →
    ∃ inst', removed.instances.get id = some (source, inst') ∧ SameFields inst inst' ∧
      ∀ slot, ∃ after both,
        slot_writes (first.pairs_into id slot) first.owns (inst.links.get slot)
          (slot_writes_of first.stack_writes id slot) = some after ∧
        slot_writes (second.pairs_into id slot) second.owns after
          (slot_writes_of second.stack_writes id slot) = some both ∧
        inst'.links.get slot =
          (without (added (slot_writes_of first.stack_writes id slot)) both).or
            (restored (vacancies bare (recomposed.flatMap JoinedCopy.released_vacancies)) id slot)
  second_fits : ∃ m m', attach_writes render second m second.stack_writes = .ok m' ∧
    ∀ entry ∈ second.stack_writes, ∃ source inst source' other,
      m.get entry.instance_id = some (source, inst) ∧
      stack.instances.get entry.instance_id = some (source', other) ∧ SameFields inst other
  core_nodes : ∀ link, link ∈ removed.core_nodes ↔ link ∈ stack.core_nodes ∨ link = second.name
  second_name : second.name ∉ stack.core_nodes

/-- The writes of the second copy find their instances in the stack alone. -/
theorem History.second_fits (h : History render stack first second recomposed once twice removed) :
    ∃ m m', attach_writes render second m second.stack_writes = .ok m' ∧
      ∀ entry ∈ second.stack_writes, ∃ source inst source' other,
        m.get entry.instance_id = some (source, inst) ∧
        stack.instances.get entry.instance_id = some (source', other) ∧ SameFields inst other := by
  have hfirst := joins_of_join h.joins_first
  obtain ⟨-, attached, hattach, -⟩ := join_ok.mp h.joins_second
  refine ⟨once.instances, attached, hattach, fun entry hentry => ?_⟩
  have hnot : entry.instance_id ∉ ids first.deployments :=
    fun hid => second.writes entry hentry (first.minted _ hid)
  have hin := (attach_writes_ok hattach).1 entry hentry
  cases hstack : stack.instances.get entry.instance_id with
  | none => exact absurd (hfirst.absent _ hnot hstack) hin
  | some found =>
    obtain ⟨inst', hinst', hfields, -⟩ := hfirst.slots _ found.1 found.2 hstack
    exact ⟨found.1, inst', found.1, found.2, hinst', rfl, hfields.symm⟩

theorem History.told (h : History render stack first second recomposed once twice removed) :
    Told render stack first second recomposed removed := by
  have hfirst := joins_of_join h.joins_first
  have hsecond := joins_of_join h.joins_second
  obtain ⟨hgone, hstays, hcore⟩ := remove_ok h.removes_first
  have hapart : ∀ id ∈ ids first.deployments, id ∉ ids second.deployments :=
    fun id hid hid' => (hfirst.own id hid).1 (hsecond.new id hid')
  have hname : second.name ∉ stack.core_nodes ∧ second.name ≠ first.name := by
    simpa [hfirst.core_nodes] using hsecond.name
  refine ⟨hapart, fun id hid => ?_, fun id hid hnone => ?_, fun id hid alone halone => ?_,
    fun id source inst hinst => ?_, h.second_fits, fun link => ?_, hname.1⟩
  · cases hstack : stack.instances.get id with
    | none => rfl
    | some entry =>
      obtain ⟨inst', hinst', -⟩ := hfirst.slots id entry.1 entry.2 hstack
      cases (hsecond.new id hid).symm.trans hinst'
  · refine hgone id ?_
    by_cases hnot : id ∈ ids first.deployments
    · exact .inl hnot
    · exact .inr (hsecond.absent id hid (hfirst.absent id hnot hnone))
  · have hnot : id ∉ ids first.deployments := fun hfirst => hapart id hfirst hid
    obtain ⟨⟨source, inst⟩, hinst⟩ := Option.ne_none_iff_exists'.mp (hsecond.own id hid).1
    obtain ⟨inst', hinst', hfields, hslots⟩ := hstays id source inst hnot hinst
    have hsame := (halone.own id hid).2.trans (hsecond.own id hid).2.symm
    refine ⟨source, inst', inst, hinst', hsame.trans hinst, hfields.symm, fun slot => ?_⟩
    -- the first copy adds nothing to the instance, and no vacancy is put back to it
    rw [hslots slot, slot_writes_of_minted (second.minted id hid), added, without_nil,
      restored_vacancies.2 (second.minted id hid), Option.or_none]
  · have hnot : id ∉ ids first.deployments := fun hid => by
      cases (hfirst.new id hid).symm.trans hinst
    obtain ⟨inst1, hinst1, hfields1, hslots1⟩ := hfirst.slots id source inst hinst
    obtain ⟨inst2, hinst2, hfields2, hslots2⟩ := hsecond.slots id source inst1 hinst1
    obtain ⟨inst3, hinst3, hfields3, hslots3⟩ := hstays id source inst2 hnot hinst2
    exact ⟨inst3, hinst3, (hfields1.trans hfields2).trans hfields3,
      fun slot => ⟨_, _, hslots1 slot, hslots2 slot, hslots3 slot⟩⟩
  · simp only [hcore, mem_filter, hsecond.core_nodes, hfirst.core_nodes, decide_eq_true_eq]
    constructor
    · rintro ⟨(hstack | rfl) | rfl, hne⟩
      · exact .inl hstack
      · exact absurd rfl hne
      · exact .inr rfl
    · rintro (hstack | rfl)
      · exact ⟨.inl (.inl hstack), fun heq => hfirst.name (heq ▸ hstack)⟩
      · exact ⟨.inr rfl, hname.2⟩

theorem left_again (hjoin : join render first stack = .ok once)
    (hremove : remove once first recomposed = .ok removed) :
    SameStack removed stack ↔ SlotsReturn stack first recomposed := by
  have hfirst := joins_of_join hjoin
  obtain ⟨hgone, hstays, hcore⟩ := remove_ok hremove
  have hslots : ∀ id source inst, stack.instances.get id = some (source, inst) →
      ∃ inst', removed.instances.get id = some (source, inst') ∧ SameFields inst inst' ∧
        ∀ slot, alike (inst'.links.get slot) (inst.links.get slot) ↔
          Forgets (inst.links.get slot) (slot_writes_of first.stack_writes id slot) [] false
            (restored (vacancies bare (recomposed.flatMap released_vacancies)) id slot) := by
    intro id source inst hinst
    have hnot : id ∉ ids first.deployments := fun hid => nomatch (hfirst.new id hid).symm.trans hinst
    obtain ⟨inst1, hinst1, hfields1, hslots1⟩ := hfirst.slots id source inst hinst
    obtain ⟨inst2, hinst2, hfields2, hslots2⟩ := hstays id source inst1 hnot hinst1
    refine ⟨inst2, hinst2, hfields1.trans hfields2, fun slot => ?_⟩
    have hnothing : slot_writes false (fun _ => false) (inst1.links.get slot) [] =
        some (inst1.links.get slot) := rfl
    rw [hslots2 slot, ← compose.forgets_iff (hslots1 slot) hnothing (fun _ _ => rfl)
      restored_vacancies.1]
    constructor
    · exact fun h => ⟨_, rfl, h⟩
    · rintro ⟨alone, halone, h⟩
      cases halone
      exact h
  constructor
  · intro hsame id source inst hinst slot
    obtain ⟨inst', hinst', -, hforgets⟩ := hslots id source inst hinst
    exact (hforgets slot).mp ((hsame.instances id source inst' source inst hinst' hinst).2.2 slot)
  intro hforget
  refine ⟨fun id => ⟨fun hnone => ?_, fun hnone => ?_⟩, ?_, fun link => ?_⟩
  · cases hstack : stack.instances.get id with
    | none => rfl
    | some entry =>
      obtain ⟨inst', hinst', -⟩ := hslots id entry.1 entry.2 hstack
      cases hnone.symm.trans hinst'
  · refine hgone id ?_
    by_cases hid : id ∈ ids first.deployments
    · exact .inl hid
    · exact .inr (hfirst.absent id hid hnone)
  · intro id source inst source' inst' hinst hinst'
    obtain ⟨found, hfound, hfields, hforgets⟩ := hslots id source' inst' hinst'
    cases hinst.symm.trans hfound
    exact ⟨rfl, hfields.symm, fun slot =>
      (hforgets slot).mpr (hforget id source inst' hinst' slot)⟩
  · simp only [hcore, mem_filter, hfirst.core_nodes, decide_eq_true_eq]
    constructor
    · rintro ⟨hin | rfl, hne⟩
      · exact hin
      · exact absurd rfl hne
    · exact fun hin => ⟨.inl hin, fun heq => hfirst.name (heq ▸ hin)⟩

section
variable (h : Told render stack first second recomposed removed)
include h

theorem Told.owns_apart (target : String)
    (howns : first.owns target = true) : second.owns target = false := by
  have hid : (launcher.split_link_target target).1 ∈ ids first.deployments := by
    simpa [owns] using howns
  simpa [owns] using h.apart _ hid

theorem Told.forgets_iff {id source : String} {inst inst' : DeploymentInstance V}
    (hinst : stack.instances.get id = some (source, inst))
    (hinst' : removed.instances.get id = some (source, inst')) (slot : String) :
    (∃ alone, slot_writes (second.pairs_into id slot) second.owns (inst.links.get slot)
        (slot_writes_of second.stack_writes id slot) = some alone ∧
        alike (inst'.links.get slot) alone) ↔
      Forgets (inst.links.get slot) (slot_writes_of first.stack_writes id slot)
        (slot_writes_of second.stack_writes id slot) (second.pairs_into id slot)
        (restored (vacancies bare (recomposed.flatMap released_vacancies)) id slot) := by
  obtain ⟨found, hfound, -, hslots⟩ := h.slots id source inst hinst
  cases hinst'.symm.trans hfound
  obtain ⟨after, both, hafter, hboth, hslot⟩ := hslots slot
  rw [hslot]
  exact compose.forgets_iff hafter hboth h.owns_apart restored_vacancies.1

theorem Told.slots_alone (hforget : SlotsForget stack first second recomposed)
    {inst : DeploymentInstance V} (hinst : stack.instances.get id = some (source, inst))
    (slot : String) :
    ∃ alone, slot_writes (second.pairs_into id slot) second.owns (inst.links.get slot)
      (slot_writes_of second.stack_writes id slot) = some alone ∧
      ∀ inst', removed.instances.get id = some (source, inst') →
        alike (inst'.links.get slot) alone := by
  obtain ⟨inst', hinst', -⟩ := h.slots id source inst hinst
  obtain ⟨alone, halone, halike⟩ :=
    (h.forgets_iff hinst hinst' slot).mpr (hforget id source inst hinst slot)
  refine ⟨alone, halone, fun inst'' hinst'' => ?_⟩
  cases hinst'.symm.trans hinst''
  exact halike

theorem Told.same_stack (hforget : SlotsForget stack first second recomposed) {alone : FlatStack V}
    (hjoins : Joins second stack alone) : SameStack removed alone := by
  refine ⟨fun id => ?_, fun id source inst source' inst' hinst hinst' => ?_, fun link => ?_⟩
  · cases hstack : stack.instances.get id with
    | some entry =>
      obtain ⟨i, hi, -⟩ := h.slots id entry.1 entry.2 hstack
      obtain ⟨i', hi', -⟩ := hjoins.slots id entry.1 entry.2 hstack
      simp [hi, hi']
    | none =>
      by_cases hid : id ∈ ids second.deployments
      · obtain ⟨source, i, i', hi, hi', -⟩ := h.second_stays id hid alone hjoins
        simp [hi, hi']
      · simp [h.absent id hid hstack, hjoins.absent id hid hstack]
  · cases hstack : stack.instances.get id with
    | some entry =>
      obtain ⟨i, hi, hfields, -⟩ := h.slots id entry.1 entry.2 hstack
      obtain ⟨i', hi', hfields', hslots'⟩ := hjoins.slots id entry.1 entry.2 hstack
      cases hinst.symm.trans hi
      cases hinst'.symm.trans hi'
      refine ⟨rfl, hfields.symm.trans hfields', fun slot => ?_⟩
      obtain ⟨value, hvalue, halike⟩ := h.slots_alone hforget hstack slot
      cases (hslots' slot).symm.trans hvalue
      exact halike inst hinst
    | none =>
      by_cases hid : id ∈ ids second.deployments
      · obtain ⟨s, i, i', hi, hi', hfields, hslots⟩ := h.second_stays id hid alone hjoins
        cases hinst.symm.trans hi
        cases hinst'.symm.trans hi'
        refine ⟨rfl, hfields, fun slot => ?_⟩
        rw [hslots slot]
        exact alike_refl _
      · cases (h.absent id hid hstack).symm.trans hinst
  · rw [h.core_nodes, hjoins.core_nodes]

theorem Told.given_alone (hforget : SlotsForget stack first second recomposed) :
    GivenAlone render stack second removed := by
  obtain ⟨m, m', hm, hfits⟩ := h.second_fits
  obtain ⟨attached, hattach⟩ := attach_writes_of hm hfits fun id source inst hinst slot => by
    obtain ⟨alone, halone, -⟩ := h.slots_alone hforget hinst slot
    rw [halone]
    rfl
  have hfree : ∀ id ∈ ids second.deployments, attached.get id = none :=
    fun id hid => (attach_writes_ok hattach).2.domain.mpr (h.second_new id hid)
  have hjoin := join_ok.mpr ⟨h.second_name, attached, hattach, hfree, rfl⟩
  exact ⟨_, hjoin, h.same_stack hforget (joins_of_join hjoin)⟩

theorem Told.slots_forget (halone : GivenAlone render stack second removed) :
    SlotsForget stack first second recomposed := by
  obtain ⟨alone, hjoin, hsame⟩ := halone
  intro id source inst hinst slot
  obtain ⟨inst', hinst', -⟩ := h.slots id source inst hinst
  obtain ⟨other, hother, -, hslots⟩ := (joins_of_join hjoin).slots id source inst hinst
  have halike := (hsame.instances id source inst' source other hinst' hother).2.2 slot
  exact (h.forgets_iff hinst hinst' slot).mp ⟨_, hslots slot, halike⟩

end

end

/-- The join of the second copy alone gives the stack of both joins and the removal of the
first, just when each slot forgets the first copy. A copy that joins and leaves gives back
the stack just when each slot returns. -/
theorem the_stacks_that_forget_a_removed_copy [DecidableEq V] (render : Rendering V)
    (stack once twice removed : FlatStack V) (first second : JoinedCopy V bare)
    (recomposed : List (JoinedCopy V bare))
    (h : History render stack first second recomposed once twice removed) :
    (GivenAlone render stack second removed ↔ SlotsForget stack first second recomposed) ∧
    ∀ others left, remove once first others = .ok left →
      (SameStack left stack ↔ SlotsReturn stack first others) := by
  refine ⟨?_, fun others left hremove => left_again h.joins_first hremove⟩
  constructor
  · intro halone
    exact h.told.slots_forget halone
  · intro hforget
    exact h.told.given_alone hforget

/-! ## The copies that `compose_copy` gives -/

theorem targets_of_apply_adjustments {merged merged' : List (Deployment V)}
    {steps : List (OriginatedAdjustment V)} {applied : List (AppliedAdjustment V)}
    (h : apply_adjustments merged steps = .ok (merged', applied)) :
    ∀ entry ∈ applied, ∃ step ∈ steps, entry.target = step.adjustment.target := by
  induction steps generalizing merged applied with
  | nil =>
    cases h
    exact fun _ h => nomatch h
  | cons step steps ih =>
    rw [apply_adjustments] at h
    split at h
    · cases h
    obtain ⟨⟨inst, changes⟩, -, h⟩ := bind_ok.mp h
    obtain ⟨⟨after, later⟩, hrest, h⟩ := bind_ok.mp h
    cases h
    intro entry hentry
    rcases mem_append.mp hentry with hentry | hentry
    · obtain ⟨change, -, rfl⟩ := mem_map.mp hentry
      exact ⟨step, mem_cons_self, rfl⟩
    · obtain ⟨step', hstep', htarget⟩ := ih hrest entry hentry
      exact ⟨step', mem_cons_of_mem _ hstep', htarget⟩

theorem adjusted_ids {bare expanded : Expanded V} {request : CopyRequest V} {laid : CopyOverStack V}
    (h : expand_unit (copy_unit bare request laid) [] = .ok expanded)
    {entry : AppliedAdjustment V} (hentry : entry ∈ expanded.applied) :
    entry.target ∈ ids bare.deployments ∨ entry.target ∈ node_ids laid.fragments := by
  obtain ⟨-, -, merged, hmerged⟩ := expand_unit_ok h
  obtain ⟨step, hstep, htarget⟩ := targets_of_apply_adjustments hmerged entry hentry
  have hrun := (mem_filter.mp hstep).2
  rw [skip_reason] at hrun
  split at hrun
  · cases hrun
  split at hrun
  · cases hrun
  rename_i hdefined
  rw [not_not, map_definitions, collect_deployments, flatMap_append, map_append,
    mem_append, ← htarget] at hdefined
  refine hdefined.imp (fun h => ?_) fun h => ?_
  · simpa [copy_unit, ids, instances, flatMap_map] using h
  rw [node_ids, mem_dedup, mem_insertionSort]
  simp only [copy_unit, mem_map, mem_flatMap] at h
  obtain ⟨inst, ⟨found, ⟨fragment, hfragment, deployment, hdeployment, rfl⟩, hinst⟩, hid⟩ := h
  refine mem_flatMap.mpr ⟨fragment, hfragment, ?_⟩
  exact mem_map.mpr ⟨inst, mem_flatMap.mpr ⟨deployment, hdeployment, hinst⟩, hid⟩

theorem get_running {bare : Expanded V} :
    bare.running.get id = none ↔ id ∉ ids bare.deployments := by
  have hids : (bare.deployments.flatMap fun deployment => deployment.instances.map fun inst =>
      (inst.instance_id, deployment.source, inst)).map Prod.fst = ids bare.deployments := by
    simp only [ids, instances, map_flatMap, map_map]
    rfl
  rw [← hids, Expanded.running]
  rw [← not_iff_not, ← Ne, ← Option.isSome_iff_ne_none, KeyMap.isSome_get_foldl_insert, not_not]
  exact or_iff_left Bool.false_ne_true

theorem exists_of_forall₂ {α β : Type} {R : α → β → Prop} {l : List α} {l' : List β}
    (h : List.Forall₂ R l l') {b : β} (hb : b ∈ l') : ∃ a ∈ l, R a b := by
  induction h with
  | nil => cases hb
  | @cons a b' l l' hab _ ih =>
    rcases mem_cons.mp hb with rfl | hb
    · exact ⟨a, mem_cons_self, hab⟩
    · obtain ⟨a', ha', hr⟩ := ih hb
      exact ⟨a', mem_cons_of_mem _ ha', hr⟩

/-- What `compose_copy` accepts is a copy that joins, when its fragments declare
no core node link. -/
theorem joined_of_composed {bare : Expanded V} {request : CopyRequest V} {taken : List String}
    {copy : ComposedCopy V} (h : compose_copy bare request taken = .ok copy)
    (hlinks : ∀ laid, request.resolved = .ok laid →
      ∀ fragment ∈ laid.fragments, fragment.core_nodes = []) :
    ∃ joined : JoinedCopy V bare.running, joined.toComposedCopy = copy := by
  obtain ⟨laid, hcomposed⟩ := compose_copy_ok h
  refine ⟨⟨copy, ?_, fun id hid => ?_, fun entry hentry => ?_⟩, rfl⟩
  · have hnone : laid.fragments.flatMap (fun fragment => fragment.core_nodes) = [] :=
      flatMap_eq_nil_iff.mpr (hlinks laid hcomposed.resolved)
    rw [hcomposed.core_nodes, union_core_nodes, copy_unit, hnone]
    rfl
  · obtain ⟨own, hown, rfl⟩ := hcomposed.deployments id hid
    exact (get_running).mpr (hcomposed.minted own hown)
  obtain ⟨expanded, overridden, applied, hexpanded, hoverridden, happlied, hwrites⟩ :=
    hcomposed.writes
  rw [hwrites] at hentry
  obtain ⟨named, hnamed, rfl⟩ := mem_map.mp hentry
  obtain ⟨hnamed, hforeign⟩ := mem_filter.mp hnamed
  obtain ⟨entry, hentry, htarget, -⟩ := exists_of_forall₂ (rewrite_report_ok happlied) hnamed
  simp only [decide_eq_true_eq] at hforeign
  -- an owned target would have been minted
  have hnot : entry.target ∉ node_ids laid.fragments := by
    intro hown
    rw [htarget, mint, if_pos hown] at hforeign
    exact hforeign (mem_map_of_mem hown)
  rw [mint, if_neg hnot] at htarget
  refine fun hnone => (get_running).mp hnone ?_
  dsimp only
  rw [htarget]
  rcases mem_append.mp hentry with hentry | hentry
  · exact (adjusted_ids hexpanded hentry).resolve_right hnot
  · exact absurd (hoverridden entry hentry) hnot

/-! ## A simulation with a vacant arm -/

def simulationStack : Expanded String where
  deployments := [⟨"simulation", [{
    instance_id := "simulation_inst"
    links := ⟨[("arm", .Vacant "no arm in the stack")], by decide⟩ }]⟩]
  core_nodes := []

def simulationRunning : FlatStack String where
  instances := simulationStack.running
  core_nodes := []

def simulationRequest (name option : String) (unset_links : List String)
    (links : KeyMap String LinkValue) : CopyRequest String where
  name
  option
  resolved := .ok {
    selection := [("robot", option)]
    fragments := [{
      origin := "fragments/" ++ option ++ ".json5"
      deployments := [⟨"robot", [{ instance_id := "robot_inst", links }]⟩] }]
    verdict := .ok ⟨⟩
    launcher_adjustments :=
      [⟨{ target := "simulation_inst", unset_links }, "option " ++ option⟩] }

def intoArm : KeyMap String LinkValue :=
  ⟨[("engine", .Bound (.Scalar "simulation_inst/arm"))], by decide⟩

/-- A copy that releases the arm and pairs into it. -/
def alphaArm : JoinedCopy String simulationStack.running where
  name := "alpha"
  option := "arm"
  deployments := [⟨"robot", [{
    instance_id := "alpha_robot_inst", links := intoArm, core_node := some "alpha" }]⟩]
  stack_writes := [⟨"simulation_inst", .LinkRemoved "arm" (.Vacant "no arm in the stack")⟩]
  core_nodes := ["alpha"]
  own_link := rfl
  minted := by decide
  writes := by decide

theorem alpha_is_composed_to_join : ∃ joined : JoinedCopy String simulationStack.running,
      compose_copy simulationStack (simulationRequest "alpha" "arm" ["arm"] intoArm) [] =
        .ok joined.toComposedCopy := by
  have hcomposed : compose_copy simulationStack (simulationRequest "alpha" "arm" ["arm"] intoArm)
      [] = .ok alphaArm.toComposedCopy := rfl
  obtain ⟨joined, hjoined⟩ := joined_of_composed hcomposed (by rintro _ ⟨⟩; simp)
  exact ⟨joined, hjoined ▸ hcomposed⟩

/-- A copy that releases the arm and pairs nothing into it. -/
def bravoWheels : JoinedCopy String simulationStack.running where
  name := "bravo"
  option := "wheels"
  deployments := [⟨"robot", [{ instance_id := "bravo_robot_inst", core_node := some "bravo" }]⟩]
  stack_writes := [⟨"simulation_inst", .LinkRemoved "arm" (.Vacant "no arm in the stack")⟩]
  core_nodes := ["bravo"]
  own_link := rfl
  minted := by decide
  writes := by decide

/-- A copy that leaves the stack as it is. -/
def charlieWheels : JoinedCopy String simulationStack.running where
  name := "charlie"
  option := "wheels"
  deployments := [⟨"robot", [{ instance_id := "charlie_robot_inst", core_node := some "charlie" }]⟩]
  stack_writes := []
  core_nodes := ["charlie"]
  own_link := rfl
  minted := by decide
  writes := by decide

def simulationWith (arm : KeyMap String LinkValue) (copies : List (String × KeyMap String LinkValue)) :
    FlatStack String where
  instances := copies.foldl (fun m copy => m.insert (copy.1 ++ "_robot_inst")
      ("robot", {
        instance_id := copy.1 ++ "_robot_inst", links := copy.2, core_node := some copy.1 }))
    (KeyMap.insert {} "simulation_inst"
      ("simulation", { instance_id := "simulation_inst", links := arm }))
  core_nodes := copies.map Prod.fst

def vacated : FlatStack String :=
  simulationWith ⟨[("arm", .Vacant "no arm in the stack")], by decide⟩ [("charlie", {})]

theorem arm_forgets {inst : DeploymentInstance String}
    (hinst : simulationRunning.instances.get id = some (source, inst)) {pairs : Bool} :
    Forgets (inst.links.get slot) (slot_writes_of alphaArm.stack_writes id slot) [] pairs
      (restored (vacancies simulationStack.running []) id slot) := by
  have hid : id = "simulation_inst" := by
    by_contra hne
    cases (KeyMap.get_insert_of_ne _ _ hne).symm.trans hinst
  subst hid
  cases hinst
  by_cases hslot : slot = "arm"
  · subst hslot
    refine ⟨fun h => absurd rfl h, fun _ _ _ => ⟨fun _ => rfl, fun h => absurd rfl h⟩, ?_⟩
    rintro - - (h | ⟨-, h⟩)
    · cases h
    · cases h
  · have hvacancies : vacancies simulationStack.running [] =
        [("simulation_inst", "arm", .Vacant "no arm in the stack")] := by decide +kernel
    have hlink : (KeyMap.get ⟨[("arm", LinkValue.Vacant "no arm in the stack")], by decide⟩ slot) =
        none := by
      refine Option.eq_none_iff_forall_ne_some.mpr fun value hvalue => ?_
      simpa [hslot] using KeyMap.get_eq_some_iff.mp hvalue
    refine ⟨fun h => ?_, fun _ h => ?_, fun _ _ _ => ?_⟩
    · exact absurd (by simp [slot_writes_of, alphaArm, slot_write_of, Ne.symm hslot, added]) h
    · rw [hlink] at h
      cases h
    · rw [hvacancies]
      simp [restored, Ne.symm hslot]

/-- The arm is vacant again when `alpha` leaves, as it is for `charlie` alone and
before `alpha` joins. -/
theorem the_arm_forgets_alpha : GivenAlone asWritten simulationRunning charlieWheels vacated ∧
    ∃ left, remove (simulationWith {} [("alpha", intoArm)]) alphaArm [] = .ok left ∧
      SameStack left simulationRunning := by
  have hlaws := the_stacks_that_forget_a_removed_copy asWritten simulationRunning
    (simulationWith {} [("alpha", intoArm)])
    (simulationWith {} [("alpha", intoArm), ("charlie", {})]) vacated alphaArm charlieWheels
    [charlieWheels] ⟨rfl, rfl, by decide +kernel⟩
  have hleft : remove (simulationWith {} [("alpha", intoArm)]) alphaArm [] =
      .ok simulationRunning := by decide +kernel
  refine ⟨hlaws.1.mpr fun id source inst hinst slot => ?_, simulationRunning, hleft,
    (hlaws.2 [] _ hleft).mpr fun id source inst hinst slot => ?_⟩
  · exact arm_forgets hinst
  · exact arm_forgets hinst

/-- The arm that `bravo` releases without pairing into it stands released after
`alpha` leaves. `bravo` alone does not join. -/
theorem an_arm_that_does_not_forget_alpha :
    compose_copy simulationStack (simulationRequest "alpha" "arm" ["arm"] intoArm) [] =
      .ok alphaArm.toComposedCopy ∧
    compose_copy simulationStack (simulationRequest "bravo" "wheels" ["arm"] {}) [] =
      .ok bravoWheels.toComposedCopy ∧
    History asWritten simulationRunning alphaArm bravoWheels [bravoWheels]
      (simulationWith {} [("alpha", intoArm)])
      (simulationWith {} [("alpha", intoArm), ("bravo", {})]) (simulationWith {} [("bravo", {})]) ∧
    join asWritten bravoWheels simulationRunning =
      .error (.JoinReleasesUnpairedVacancy "bravo" "simulation_inst" "arm") ∧
    ¬ GivenAlone asWritten simulationRunning bravoWheels (simulationWith {} [("bravo", {})]) := by
  have hrefused : join asWritten bravoWheels simulationRunning =
      .error (.JoinReleasesUnpairedVacancy "bravo" "simulation_inst" "arm") := rfl
  refine ⟨rfl, rfl, ⟨rfl, rfl, by decide +kernel⟩, hrefused, ?_⟩
  rintro ⟨alone, hjoin, -⟩
  cases hrefused.symm.trans hjoin

end peppy.compose
