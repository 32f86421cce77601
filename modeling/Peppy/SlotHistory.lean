-- One slot of a stack instance, over the join of two copies and the removal of the
-- first, and when it forgets the first.
import Peppy.CopyFoldLaws

open List Option

namespace peppy.compose

open launcher (Selection LinkValue)

inductive SlotWrite where
  | Set (new : LinkValue)
  | Add (target : String)
  | Remove
  deriving DecidableEq

def added : List SlotWrite → List String
  | [] => []
  | .Add target :: writes => target :: added writes
  | _ :: writes => added writes

/-- What a join makes of a slot. `owns` tells the targets of the copy. -/
def slot_write (pairs : Bool) (owns : String → Bool) (slot : Option LinkValue) :
    SlotWrite → Option (Option LinkValue)
  | .Set new => if slot = some new then some slot else none
  | .Add target =>
    if owns target then do
      let targets ← array_of slot
      if (targets ++ [target]).Nodup then some (some (.Bound (.Array (targets ++ [target]))))
      else none
    else none
  | .Remove =>
    match slot with
    | none => some none
    | some (.Vacant _) => if pairs then some none else none
    | some (.Bound _) => none

def slot_writes (pairs : Bool) (owns : String → Bool) :
    Option LinkValue → List SlotWrite → Option (Option LinkValue)
  | slot, [] => some slot
  | slot, write :: writes => do
    let slot ← slot_write pairs owns slot write
    slot_writes pairs owns slot writes

def without (members : List String) : Option LinkValue → Option LinkValue
  | some (.Bound (.Array targets)) =>
    some (.Bound (.Array (targets.filter fun target => target ∉ members)))
  | slot => slot

/-- Set slots with the same members, absent as empty, or the same entry. -/
def alike (slot slot' : Option LinkValue) : Prop :=
  match array_of slot, array_of slot' with
  | some targets, some targets' => ∀ target, target ∈ targets ↔ target ∈ targets'
  | none, none => slot = slot'
  | _, _ => False

def vacant : Option LinkValue → Bool
  | some (.Vacant _) => true
  | _ => false

/-- A first copy that adds members did not release the slot, and the second does not
write it as a whole. One that releases it leaves it to a second that does not write it,
when the vacancy is put back, or that releases it and pairs into it. -/
structure Forgets (slot : Option LinkValue) (first second : List SlotWrite) (pairs : Bool)
    (restored : Option LinkValue) : Prop where
  grown : added first ≠ [] → vacant slot = false ∧ ∀ new, .Set new ∉ second
  released : added first = [] → vacant slot = true → .Remove ∈ first →
    (second = [] → restored = slot) ∧
      (second ≠ [] → second.head? = some .Remove ∧ pairs = true)
  absent : added first = [] → added second = [] →
    (slot = none ∨ vacant slot = true ∧ .Remove ∈ second) → restored = none

section
variable {pairs : Bool} {owns : String → Bool} {slot slot' : Option LinkValue}
  {writes : List SlotWrite}

theorem slot_writes_cons {write : SlotWrite} {result : Option LinkValue} :
    slot_writes pairs owns slot (write :: writes) = some result ↔
      ∃ between, slot_write pairs owns slot write = some between ∧
        slot_writes pairs owns between writes = some result :=
  bind_eq_some_iff

theorem slot_write_set {new : LinkValue} :
    slot_write pairs owns slot (.Set new) = some slot' ↔ slot = some new ∧ slot' = slot := by
  rw [slot_write]
  split
  · rename_i h
    simp [h, eq_comm]
  · rename_i h
    simp [h]

theorem slot_write_add {target : String} : slot_write pairs owns slot (.Add target) = some slot' ↔
      owns target = true ∧ ∃ targets, array_of slot = some targets ∧ (targets ++ [target]).Nodup ∧
        slot' = some (.Bound (.Array (targets ++ [target]))) := by
  rw [slot_write]
  split
  · rename_i howns
    refine bind_eq_some_iff.trans ?_
    simp only [howns, true_and]
    refine exists_congr fun targets => and_congr_right fun _ => ?_
    split
    · rename_i hnodup
      simp [hnodup, eq_comm]
    · rename_i hnodup
      simp [hnodup]
  · rename_i howns
    simp [howns]

theorem slot_write_remove : slot_write pairs owns slot .Remove = some slot' ↔
    (slot = none ∨ vacant slot = true ∧ pairs = true) ∧ slot' = none := by
  have hnone : (some none = some slot') ↔ slot' = none := by
    rw [Option.some.injEq]
    exact eq_comm
  rcases slot with _ | _ | _
  · exact hnone.trans (by simp)
  · simp [slot_write, vacant]
  · cases pairs
    · simp [slot_write, vacant]
    · exact hnone.trans (by simp [vacant])

variable {targets : List String}

/-- A set slot takes the added targets at its end, each of them new. -/
theorem array_of_slot_writes (hslot : array_of slot = some targets)
    (h : slot_writes pairs owns slot writes = some slot') :
    array_of slot' = some (targets ++ added writes) ∧
      (targets.Nodup → (targets ++ added writes).Nodup) := by
  induction writes generalizing slot targets with
  | nil =>
    cases h
    rw [added, append_nil]
    exact ⟨hslot, id⟩
  | cons write writes ih =>
    obtain ⟨between, hwrite, hrest⟩ := slot_writes_cons.mp h
    cases write with
    | Set new =>
      obtain ⟨-, rfl⟩ := slot_write_set.mp hwrite
      exact ih hslot hrest
    | Add target =>
      obtain ⟨-, targets', hslot', hnodup, rfl⟩ := slot_write_add.mp hwrite
      cases hslot.symm.trans hslot'
      have hadded := ih rfl hrest
      rw [append_assoc, singleton_append] at hadded
      exact ⟨hadded.1, fun _ => hadded.2 hnodup⟩
    | Remove =>
      obtain ⟨hnone, rfl⟩ := slot_write_remove.mp hwrite
      rcases hnone with rfl | ⟨hvacant, -⟩
      · exact ih hslot hrest
      · rcases slot with _ | _ | _
        · cases hvacant
        · cases hvacant
        · cases hslot

theorem slot_writes_none (hadded : added writes = [])
    (h : slot_writes pairs owns none writes = some slot') : slot' = none := by
  induction writes with
  | nil =>
    cases h
    rfl
  | cons write writes ih =>
    obtain ⟨between, hwrite, hrest⟩ := slot_writes_cons.mp h
    cases write with
    | Set new =>
      obtain ⟨hnone, -⟩ := slot_write_set.mp hwrite
      cases hnone
    | Add target => cases hadded
    | Remove =>
      obtain ⟨-, rfl⟩ := slot_write_remove.mp hwrite
      exact ih hadded hrest

theorem slot_writes_of_added_nil (hadded : added writes = [])
    (h : slot_writes pairs owns slot writes = some slot') :
    slot' = if vacant slot = true ∧ .Remove ∈ writes then none else slot := by
  induction writes generalizing slot with
  | nil =>
    cases h
    simp
  | cons write writes ih =>
    obtain ⟨between, hwrite, hrest⟩ := slot_writes_cons.mp h
    cases write with
    | Set new =>
      obtain ⟨-, rfl⟩ := slot_write_set.mp hwrite
      rw [ih hadded hrest]
      simp
    | Add target => cases hadded
    | Remove =>
      obtain ⟨hnone, rfl⟩ := slot_write_remove.mp hwrite
      rw [slot_writes_none hadded hrest]
      rcases hnone with rfl | ⟨hvacant, -⟩
      · simp
      · simp [hvacant]

theorem slot_writes_of_added (hadded : added writes ≠ [])
    (h : slot_writes pairs owns slot writes = some slot') :
    ∃ targets, (array_of slot = some targets ∨ vacant slot = true ∧ targets = []) ∧
      slot' = some (.Bound (.Array (targets ++ added writes))) := by
  have harray : ∀ targets, array_of slot' = some (targets ++ added writes) →
      slot' = some (.Bound (.Array (targets ++ added writes))) := by
    intro targets hslot'
    rcases slot' with _ | ⟨_ | _ | _⟩ | _ <;> simp_all [array_of]
  induction writes generalizing slot with
  | nil => exact absurd rfl hadded
  | cons write writes ih =>
    obtain ⟨between, hwrite, hrest⟩ := slot_writes_cons.mp h
    cases hslot : array_of slot with
    | some targets => exact ⟨targets, .inl rfl, harray _ (array_of_slot_writes hslot h).1⟩
    | none =>
      cases write with
      | Set new =>
        obtain ⟨-, rfl⟩ := slot_write_set.mp hwrite
        obtain ⟨targets, htargets, hslot'⟩ := ih hadded hrest harray
        rw [hslot] at htargets
        exact ⟨targets, htargets, hslot'⟩
      | Add target =>
        obtain ⟨-, targets, htargets, -⟩ := slot_write_add.mp hwrite
        cases hslot.symm.trans htargets
      | Remove =>
        obtain ⟨hnone, rfl⟩ := slot_write_remove.mp hwrite
        rcases hnone with rfl | ⟨hvacant, -⟩
        · cases hslot
        · refine ⟨[], .inr ⟨hvacant, rfl⟩, harray [] ?_⟩
          have hnil : array_of none = some [] := rfl
          exact (array_of_slot_writes hnil hrest).1

theorem owns_added (h : slot_writes pairs owns slot writes = some slot') :
    ∀ target ∈ added writes, owns target = true := by
  induction writes generalizing slot with
  | nil => exact fun _ h => nomatch h
  | cons write writes ih =>
    obtain ⟨between, hwrite, hrest⟩ := slot_writes_cons.mp h
    cases write with
    | Add target => exact forall_mem_cons.mpr ⟨(slot_write_add.mp hwrite).1, ih hrest⟩
    | _ => exact ih hrest

theorem nodup_of_added (hadded : added writes ≠ [])
    (h : slot_writes pairs owns slot writes = some slot')
    (hslot' : array_of slot' = some targets) : targets.Nodup := by
  induction writes generalizing slot with
  | nil => exact absurd rfl hadded
  | cons write writes ih =>
    obtain ⟨between, hwrite, hrest⟩ := slot_writes_cons.mp h
    cases write with
    | Add target =>
      obtain ⟨-, before, -, hnodup, rfl⟩ := slot_write_add.mp hwrite
      rw [(array_of_slot_writes rfl hrest).1] at hslot'
      cases hslot'
      exact (array_of_slot_writes rfl hrest).2 hnodup
    | _ => exact ih hadded hrest

theorem only_adds (hset : ∀ new, .Set new ∉ writes)
    (h : slot_writes pairs owns (some (.Bound (.Array targets))) writes = some slot') :
    ∀ write ∈ writes, ∃ target, write = .Add target := by
  induction writes generalizing targets with
  | nil => exact fun _ h => nomatch h
  | cons write writes ih =>
    obtain ⟨between, hwrite, hrest⟩ := slot_writes_cons.mp h
    have hset' : ∀ new, .Set new ∉ writes := fun new hnew => hset new (mem_cons_of_mem _ hnew)
    cases write with
    | Set new => exact absurd mem_cons_self (hset new)
    | Add target =>
      obtain ⟨-, before, -, -, rfl⟩ := slot_write_add.mp hwrite
      exact forall_mem_cons.mpr ⟨⟨target, rfl⟩, ih hset' hrest⟩
    | Remove =>
      obtain ⟨hnone | ⟨hvacant, -⟩, -⟩ := slot_write_remove.mp hwrite
      · cases hnone
      · cases hvacant

theorem slot_writes_adds (hadds : ∀ write ∈ writes, ∃ target, write = .Add target)
    (howns : ∀ target ∈ added writes, owns target = true) (hslot : array_of slot = some targets)
    (hnodup : (targets ++ added writes).Nodup) :
    ∃ slot', slot_writes pairs owns slot writes = some slot' := by
  induction writes generalizing slot targets with
  | nil => exact ⟨slot, rfl⟩
  | cons write writes ih =>
    rw [forall_mem_cons] at hadds
    obtain ⟨⟨target, rfl⟩, hadds⟩ := hadds
    rw [added, forall_mem_cons] at howns
    rw [added] at hnodup
    have happ : (targets ++ [target] ++ added writes).Nodup := by
      rwa [append_assoc, singleton_append]
    obtain ⟨slot', h⟩ := @ih (some (.Bound (.Array (targets ++ [target])))) _ hadds howns.2 rfl happ
    refine ⟨slot', slot_writes_cons.mpr ⟨_, slot_write_add.mpr ⟨howns.1, targets, hslot, ?_, rfl⟩, h⟩⟩
    exact happ.sublist (sublist_append_left _ _)

theorem same_start {start start' result result' : Option LinkValue} {targets' : List String}
    {new : LinkValue} (hset : .Set new ∈ writes) (hstart : array_of start = some targets)
    (hstart' : array_of start' = some targets')
    (h : slot_writes pairs owns start writes = some result)
    (h' : slot_writes pairs owns start' writes = some result') : targets = targets' := by
  induction writes generalizing start start' targets targets' with
  | nil => cases hset
  | cons write writes ih =>
    obtain ⟨between, hwrite, hrest⟩ := slot_writes_cons.mp h
    obtain ⟨between', hwrite', hrest'⟩ := slot_writes_cons.mp h'
    cases write with
    | Set new' =>
      obtain ⟨rfl, -⟩ := slot_write_set.mp hwrite
      obtain ⟨rfl, -⟩ := slot_write_set.mp hwrite'
      exact Option.some.inj (hstart.symm.trans hstart')
    | Add target =>
      obtain ⟨-, t, ht, -, rfl⟩ := slot_write_add.mp hwrite
      obtain ⟨-, t', ht', -, rfl⟩ := slot_write_add.mp hwrite'
      cases hstart.symm.trans ht
      cases hstart'.symm.trans ht'
      have hset : .Set new ∈ writes := (mem_cons.mp hset).resolve_left nofun
      exact append_cancel_right (ih hset rfl rfl hrest hrest')
    | Remove =>
      have habsent : ∀ {s s' : Option LinkValue} {t : List String}, array_of s = some t →
          slot_write pairs owns s .Remove = some s' → s = none := by
        intro s s' t hs hremove
        obtain ⟨hnone | ⟨hvacant, -⟩, -⟩ := slot_write_remove.mp hremove
        · exact hnone
        · rcases s with _ | _ | _ <;> cases hvacant
          cases hs
      cases habsent hstart hwrite
      cases habsent hstart' hwrite'
      exact Option.some.inj (hstart.symm.trans hstart')

end

/-! ## The law of one slot -/

variable {slot : Option LinkValue}

theorem array_of_vacant (h : vacant slot = true) : array_of slot = none := by
  rcases slot with _ | _ | _ <;> cases h
  rfl

theorem alike_vacant {slot' : Option LinkValue} (h : vacant slot' = true) :
    alike slot slot' ↔ slot = slot' := by
  rw [alike, array_of_vacant h]
  constructor
  · intro halike
    split at halike
    · rename_i hnone
      cases hnone
    · exact halike
    · cases halike
  · rintro rfl
    rw [array_of_vacant h]

theorem alike_refl (slot : Option LinkValue) : alike slot slot := by
  rw [alike]
  split
  · rename_i h h'
    cases h.symm.trans h'
    exact fun _ => Iff.rfl
  · rfl
  · rename_i hno hno'
    cases hslot : array_of slot with
    | none => exact hno' hslot hslot
    | some targets => exact hno targets targets hslot hslot

/-- A vacancy put back where the second copy left none is not its doing. -/
theorem alike_or_restored {restored : Option LinkValue}
    (hrestored : restored = none ∨ vacant restored = true) :
    alike (slot.or restored) slot ↔ (slot = none → restored = none) := by
  cases slot with
  | some value =>
    rw [some_or]
    exact ⟨fun _ h => (nomatch h), fun _ => alike_refl _⟩
  | none =>
    rw [none_or]
    rcases hrestored with rfl | hvacant
    · exact ⟨fun _ _ => rfl, fun _ => alike_refl _⟩
    constructor
    · intro halike
      rw [alike, array_of_vacant hvacant] at halike
      cases halike
    · intro h
      rw [h rfl] at hvacant
      cases hvacant

theorem without_nil (slot : Option LinkValue) : without [] slot = slot := by
  rcases slot with _ | ⟨_ | _ | _⟩ | _ <;> simp [without]

section
variable {pairs pairs' : Bool} {owns owns' : String → Bool}
  {slot once twice restored : Option LinkValue} {first second : List SlotWrite}

theorem slot_writes_eq_none (h : slot_writes pairs owns slot second = some twice) : twice = none ↔
      added second = [] ∧ (slot = none ∨ vacant slot = true ∧ .Remove ∈ second) := by
  by_cases hadded : added second = []
  · rw [slot_writes_of_added_nil hadded h]
    constructor
    · intro hnone
      split at hnone
      · rename_i hreleased
        exact ⟨hadded, .inr hreleased⟩
      · exact ⟨hadded, .inl hnone⟩
    · rintro ⟨-, rfl | hreleased⟩
      · simp
      · rw [if_pos hreleased]
  · obtain ⟨targets, -, rfl⟩ := slot_writes_of_added hadded h
    simp [hadded]

theorem forgets_of_kept (hrestored : restored = none ∨ vacant restored = true)
    (hadded : added first = []) (hkept : ¬ (vacant slot = true ∧ .Remove ∈ first))
    (hsecond : slot_writes pairs' owns' slot second = some twice) :
    (∃ alone, slot_writes pairs' owns' slot second = some alone ∧
      alike ((without (added first) twice).or restored) alone) ↔
      Forgets slot first second pairs' restored := by
  rw [hadded, without_nil]
  have hiff : (∃ alone, slot_writes pairs' owns' slot second = some alone ∧
      alike (twice.or restored) alone) ↔ (twice = none → restored = none) := by
    rw [← alike_or_restored hrestored]
    constructor
    · rintro ⟨alone, halone, halike⟩
      cases hsecond.symm.trans halone
      exact halike
    · exact fun halike => ⟨twice, hsecond, halike⟩
  rw [hiff, slot_writes_eq_none hsecond]
  constructor
  · intro h
    refine ⟨fun hne => absurd hadded hne, fun _ hvacant hremove => ?_, fun _ hnil hslot => ?_⟩
    · exact absurd ⟨hvacant, hremove⟩ hkept
    · exact h ⟨hnil, hslot⟩
  · intro h
    exact fun ⟨hnil, hslot⟩ => h.absent hadded hnil hslot

theorem forgets_of_released (hrestored : restored = none ∨ vacant restored = true)
    (hadded : added first = []) (hvacant : vacant slot = true) (hremove : .Remove ∈ first)
    (hsecond : slot_writes pairs' owns' none second = some twice) :
    (∃ alone, slot_writes pairs' owns' slot second = some alone ∧
      alike ((without (added first) twice).or restored) alone) ↔
      Forgets slot first second pairs' restored := by
  rw [hadded, without_nil]
  have hnone : slot ≠ none := by
    rintro rfl
    cases hvacant
  cases second with
  | nil =>
    cases hsecond
    constructor
    · rintro ⟨alone, halone, halike⟩
      cases halone
      rw [none_or, alike_vacant hvacant] at halike
      refine ⟨fun hne => absurd hadded hne, fun _ _ _ => ⟨fun _ => halike, fun h => absurd rfl h⟩, ?_⟩
      rintro - - (hslot | ⟨-, hin⟩)
      · exact absurd hslot hnone
      · cases hin
    · intro h
      refine ⟨slot, rfl, ?_⟩
      rw [none_or, alike_vacant hvacant]
      exact (h.released hadded hvacant hremove).1 rfl
  | cons write writes =>
    obtain ⟨between, hwrite, hrest⟩ := slot_writes_cons.mp hsecond
    cases write with
    | Set new =>
      obtain ⟨hset, -⟩ := slot_write_set.mp hwrite
      cases hset
    | Add target =>
      constructor
      · rintro ⟨alone, halone, -⟩
        obtain ⟨_, hadd, -⟩ := slot_writes_cons.mp halone
        obtain ⟨-, targets, htargets, -⟩ := slot_write_add.mp hadd
        cases (array_of_vacant hvacant).symm.trans htargets
      · intro h
        have hhead := ((h.released hadded hvacant hremove).2 (cons_ne_nil _ _)).1
        cases hhead
    | Remove =>
      obtain ⟨-, rfl⟩ := slot_write_remove.mp hwrite
      have habsent : twice = none ↔ added writes = [] := by
        rw [slot_writes_eq_none hrest]
        exact ⟨fun h => h.1, fun h => ⟨h, .inl rfl⟩⟩
      constructor
      · rintro ⟨alone, halone, halike⟩
        obtain ⟨_, hremoved, halone⟩ := slot_writes_cons.mp halone
        obtain ⟨hpairs, rfl⟩ := slot_write_remove.mp hremoved
        cases hrest.symm.trans halone
        rw [alike_or_restored hrestored, habsent] at halike
        refine ⟨fun hne => absurd hadded hne, fun _ _ _ => ⟨nofun, fun _ => ⟨rfl, ?_⟩⟩,
          fun _ hnil _ => halike hnil⟩
        exact (hpairs.resolve_left hnone).2
      · intro h
        have hpairs := ((h.released hadded hvacant hremove).2 (cons_ne_nil _ _)).2
        refine ⟨twice, slot_writes_cons.mpr ⟨none,
          slot_write_remove.mpr ⟨.inr ⟨hvacant, hpairs⟩, rfl⟩, hrest⟩, ?_⟩
        rw [alike_or_restored hrestored, habsent]
        exact fun hnil => h.absent hadded hnil (.inr ⟨hvacant, mem_cons_self⟩)

theorem not_vacant_of_array {targets members : List String} {alone : Option LinkValue}
    (harray : slot_writes pairs' owns' (some (.Bound (.Array targets))) second = some twice)
    (halone : slot_writes pairs' owns' slot second = some alone)
    (halike : alike ((without members twice).or restored) alone) : vacant slot = false := by
  by_contra hvacant
  have hvacant : vacant slot = true := by simpa using hvacant
  cases second with
  | nil =>
    cases harray
    cases halone
    rw [without, some_or, alike_vacant hvacant] at halike
    rw [← halike] at hvacant
    cases hvacant
  | cons write writes =>
    obtain ⟨_, hwrite, -⟩ := slot_writes_cons.mp harray
    obtain ⟨_, hwrite', -⟩ := slot_writes_cons.mp halone
    cases write with
    | Set new =>
      obtain ⟨hset, -⟩ := slot_write_set.mp hwrite
      obtain ⟨hset', -⟩ := slot_write_set.mp hwrite'
      rw [hset', ← hset] at hvacant
      cases hvacant
    | Add target =>
      obtain ⟨-, t, ht, -⟩ := slot_write_add.mp hwrite'
      cases (array_of_vacant hvacant).symm.trans ht
    | Remove =>
      obtain ⟨hnone | ⟨hv, -⟩, -⟩ := slot_write_remove.mp hwrite
      · cases hnone
      · cases hv

theorem mem_filter_between {targets firsts seconds : List String}
    (htargets : ∀ target ∈ targets, target ∉ firsts)
    (hseconds : ∀ target ∈ seconds, target ∉ firsts) (target : String) :
    target ∈ (targets ++ firsts ++ seconds).filter (fun t => t ∉ firsts) ↔
      target ∈ targets ++ seconds := by
  simp only [mem_filter, mem_append, decide_eq_true_eq]
  constructor
  · rintro ⟨(hin | hin) | hin, hnot⟩
    · exact .inl hin
    · exact absurd hin hnot
    · exact .inr hin
  · rintro (hin | hin)
    · exact ⟨.inl (.inl hin), htargets target hin⟩
    · exact ⟨.inr hin, hseconds target hin⟩

theorem forgets_of_grown (hadded : added first ≠ [])
    (hfirst : slot_writes pairs owns slot first = some once)
    (hsecond : slot_writes pairs' owns' once second = some twice)
    (hothers : ∀ target, owns target = true → owns' target = false) :
    (∃ alone, slot_writes pairs' owns' slot second = some alone ∧
      alike ((without (added first) twice).or restored) alone) ↔
      Forgets slot first second pairs' restored := by
  obtain ⟨targets, htargets, rfl⟩ := slot_writes_of_added hadded hfirst
  have hslot : vacant slot = false → array_of slot = some targets := by
    intro hvacant
    rcases htargets with hslot | ⟨hv, -⟩
    · exact hslot
    · rw [hvacant] at hv
      cases hv
  constructor
  · rintro ⟨alone, halone, halike⟩
    have hvacant := not_vacant_of_array hsecond halone halike
    refine ⟨fun _ => ⟨hvacant, fun new hset => ?_⟩, fun h => absurd h hadded,
      fun h => absurd h hadded⟩
    have hsame := same_start hset (hslot hvacant) rfl halone hsecond
    exact hadded (self_eq_append_right.mp hsame)
  · intro h
    obtain ⟨hvacant, hset⟩ := h.grown hadded
    have hslot := hslot hvacant
    have hnodup : (targets ++ added first).Nodup := nodup_of_added hadded hfirst rfl
    obtain ⟨htwice, hall⟩ := array_of_slot_writes rfl hsecond
    have howns := owns_added hfirst
    have howns' := owns_added hsecond
    have hsub : (targets ++ added second).Nodup :=
      (hall hnodup).sublist ((sublist_append_left _ _).append_right _)
    obtain ⟨alone, halone⟩ := @slot_writes_adds pairs' _ _ _ _ (only_adds hset hsecond) howns' hslot hsub
    obtain ⟨members, rfl⟩ : ∃ members, twice = some (.Bound (.Array members)) := by
      rcases twice with _ | ⟨_ | members | _⟩ | _
      · simp [array_of, hadded] at htwice
      · cases htwice
      · exact ⟨members, rfl⟩
      · cases htwice
      · cases htwice
    obtain rfl : members = targets ++ added first ++ added second := Option.some.inj htwice
    refine ⟨alone, halone, ?_⟩
    rw [without, some_or, alike, (array_of_slot_writes hslot halone).1]
    refine mem_filter_between (fun target hin hfirst => ?_) fun target hin hfirst => ?_
    · exact (nodup_append.mp hnodup).2.2 target hin target hfirst rfl
    · exact Bool.noConfusion ((howns' target hin).symm.trans (hothers target (howns target hfirst)))

/-- The slot is as after the second join alone, just when it forgets the first. -/
theorem forgets_iff (hfirst : slot_writes pairs owns slot first = some once)
    (hsecond : slot_writes pairs' owns' once second = some twice)
    (hothers : ∀ target, owns target = true → owns' target = false)
    (hrestored : restored = none ∨ vacant restored = true) :
    (∃ alone, slot_writes pairs' owns' slot second = some alone ∧
      alike ((without (added first) twice).or restored) alone) ↔
      Forgets slot first second pairs' restored := by
  by_cases hadded : added first = []
  · have honce := slot_writes_of_added_nil hadded hfirst
    by_cases hreleased : vacant slot = true ∧ .Remove ∈ first
    · rw [if_pos hreleased] at honce
      subst honce
      exact forgets_of_released hrestored hadded hreleased.1 hreleased.2 hsecond
    · rw [if_neg hreleased] at honce
      subst honce
      exact forgets_of_kept hrestored hadded hreleased hsecond
  · exact forgets_of_grown hadded hfirst hsecond hothers

end

end peppy.compose
