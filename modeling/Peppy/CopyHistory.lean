-- Joins and removals against history, instance by instance and slot by slot.
import Peppy.CopyJoin
import Peppy.SlotHistory

open keymap results List

namespace peppy.compose

open launcher (Selection LinkValue split_link_target)

variable {V : Type} {bare : KeyMap String (String × DeploymentInstance V)}

/-- Two instances that differ in their links alone. -/
def SameFields (inst inst' : DeploymentInstance V) : Prop :=
  { inst with links := inst'.links } = inst'

theorem SameFields.refl (inst : DeploymentInstance V) : SameFields inst inst := rfl

variable {inst inst' : DeploymentInstance V} {existing flat : FlatStack V}
  {copy : JoinedCopy V bare} {id slot : String} {released : List (String × String)}

theorem SameFields.symm (h : SameFields inst inst') : SameFields inst' inst := by
  rw [SameFields] at h ⊢
  rw [← h]

theorem SameFields.trans {inst'' : DeploymentInstance V} (h : SameFields inst inst')
    (h' : SameFields inst' inst'') : SameFields inst inst'' := by
  rw [SameFields] at h h' ⊢
  rw [← h', ← h]

theorem sameFields_links {links : KeyMap String LinkValue} :
    SameFields inst { inst with links } := rfl

def slot_write_of (slot : String) : AppliedChange V → List SlotWrite
  | .LinkSet s _ new => if s = slot then [.Set new] else []
  | .LinkAdded s target => if s = slot then [.Add target] else []
  | .LinkRemoved s _ => if s = slot then [.Remove] else []
  | _ => []

def slot_writes_of (entries : List (StackWriteEntry V)) (id slot : String) : List SlotWrite :=
  (entries.filter fun entry => entry.instance_id = id).flatMap fun entry =>
    slot_write_of slot entry.write

/-- A step keeps the ids and the fields but the links, and moves slots as `step` says. -/
def Moves (step : String → String → Option LinkValue → Option LinkValue → Prop)
    (m m' : KeyMap String (String × DeploymentInstance V)) : Prop :=
  ∀ id, (m.get id = none → m'.get id = none) ∧
    ∀ source inst, m.get id = some (source, inst) → ∃ inst', m'.get id = some (source, inst') ∧
      SameFields inst inst' ∧ ∀ slot, step id slot (inst.links.get slot) (inst'.links.get slot)

section
variable {step step' step'' : String → String → Option LinkValue → Option LinkValue → Prop}
  {m m' m'' : KeyMap String (String × DeploymentInstance V)}

variable {id : String}

theorem Moves.domain (h : Moves step m m') : m'.get id = none ↔ m.get id = none := by
  refine ⟨fun hnone => ?_, (h id).1⟩
  cases hget : m.get id with
  | none => rfl
  | some entry =>
    obtain ⟨inst', hinst', -⟩ := (h id).2 entry.1 entry.2 hget
    cases hnone.symm.trans hinst'

theorem Moves.refl (h : ∀ id source inst, m.get id = some (source, inst) →
    ∀ slot, step id slot (inst.links.get slot) (inst.links.get slot)) : Moves step m m :=
  fun id => ⟨fun hnone => hnone, fun source inst hinst =>
    ⟨inst, hinst, .refl inst, h id source inst hinst⟩⟩

theorem Moves.trans (h : Moves step m m') (h' : Moves step' m' m'')
    (hsteps : ∀ id slot value value' value'', step id slot value value' →
      step' id slot value' value'' → step'' id slot value value'') : Moves step'' m m'' := by
  refine fun id => ⟨fun hnone => (h' id).1 ((h id).1 hnone), fun source inst hinst => ?_⟩
  obtain ⟨inst1, hinst1, hfields1, hslots1⟩ := (h id).2 source inst hinst
  obtain ⟨inst2, hinst2, hfields2, hslots2⟩ := (h' id).2 source inst1 hinst1
  exact ⟨inst2, hinst2, hfields1.trans hfields2,
    fun slot => hsteps id slot _ _ _ (hslots1 slot) (hslots2 slot)⟩

theorem Moves.insert {source : String} {inst inst' : DeploymentInstance V}
    (hget : m.get id = some (source, inst)) (hfields : SameFields inst inst')
    (hslots : ∀ slot, step id slot (inst.links.get slot) (inst'.links.get slot))
    (hothers : ∀ other, other ≠ id → ∀ slot value, step other slot value value) :
    Moves step m (m.insert id (source, inst')) := by
  intro other
  by_cases heq : other = id
  · subst heq
    refine ⟨(fun hnone => nomatch hnone.symm.trans hget), fun source' inst'' hinst => ?_⟩
    cases hget.symm.trans hinst
    exact ⟨inst', KeyMap.get_insert_self _ _ _, hfields, hslots⟩
  · rw [KeyMap.get_insert_of_ne _ _ heq]
    exact ⟨fun hnone => hnone, fun source' inst'' hinst =>
      ⟨inst'', hinst, .refl inst'', fun slot => hothers other heq slot _⟩⟩

end

/-! ## The join -/

variable {α : Type} {pairs : Bool} {writes writes' : List SlotWrite}

section
variable [DecidableEq V] {render : Rendering V} {copy : JoinedCopy V bare}

variable {inst inst' : DeploymentInstance V} {id : String}

variable {field : String} {write : AppliedChange V} {entries : List (StackWriteEntry V)}
  {m m' : KeyMap String (String × DeploymentInstance V)}

omit [DecidableEq V] in
theorem held_ok [DecidableEq α] {text : α → String} {old : Option α} {new : α}
    (h : held copy id inst field text old new = .ok inst') : old = some new ∧ inst' = inst := by
  rw [held] at h
  split at h
  · cases h
    exact ⟨by assumption, rfl⟩
  · cases h

omit [DecidableEq V] in
theorem held_link_ok {slot : String}
    {new : LinkValue} : held_link render copy id inst field slot new = .ok inst' ↔
      inst.links.get slot = some new ∧ inst' = inst := by
  have hheld : ∀ old : Option LinkValue, held copy id inst field render.link old new = .ok inst' ↔
      old = some new ∧ inst' = inst := by
    intro old
    refine ⟨held_ok, ?_⟩
    rintro ⟨rfl, rfl⟩
    rw [held, if_pos rfl]
  rw [held_link]
  split
  · rename_i reason hslot
    rw [hslot, Option.some.injEq]
    split
    · rename_i heq
      simp [heq, eq_comm]
    · rename_i heq
      simp [heq]
  · exact hheld _

theorem slot_write_of_one (owns : String → Bool) {slot slot' : Option LinkValue}
    {write : SlotWrite} : slot_writes pairs owns slot [write] = some slot' ↔
      slot_write pairs owns slot write = some slot' := by
  rw [slot_writes_cons]
  constructor
  · rintro ⟨between, hwrite, h⟩
    cases h
    exact hwrite
  · exact fun h => ⟨slot', h, rfl⟩

theorem attach_write_ok (h : attach_write render copy id inst write = .ok inst') :
    SameFields inst inst' ∧ ∀ slot, slot_writes (copy.pairs_into id slot) copy.owns
    (inst.links.get slot) (slot_write_of slot write) = some (inst'.links.get slot) := by
  cases write with
  | LinkSet s old new =>
    obtain ⟨hold, rfl⟩ := held_link_ok.mp h
    refine ⟨.refl _, fun slot => ?_⟩
    rw [slot_write_of]
    split
    · rename_i heq
      subst heq
      rw [slot_write_of_one, slot_write_set]
      exact ⟨hold, rfl⟩
    · rfl
  | LinkAdded s target =>
    rw [attach_write] at h
    split at h
    · rename_i howns
      obtain ⟨bound, hbound, h⟩ := bind_ok.mp h
      cases h
      obtain ⟨targets, htargets, hnodup, rfl⟩ := append_links_ok.mp hbound
      refine ⟨sameFields_links, fun slot => ?_⟩
      rw [slot_write_of]
      dsimp only
      rw [KeyMap.get_insert]
      split
      · rename_i heq
        subst heq
        rw [slot_write_of_one, if_pos rfl, slot_write_add]
        exact ⟨howns, targets, htargets, hnodup, rfl⟩
      · rename_i heq
        rw [if_neg (Ne.symm heq)]
        rfl
    · cases h
  | LinkRemoved s old =>
    rw [attach_write] at h
    split at h
    · rename_i hnone
      cases h
      refine ⟨.refl _, fun slot => ?_⟩
      rw [slot_write_of]
      split
      · rename_i heq
        subst heq
        rw [slot_write_of_one, slot_write_remove]
        exact ⟨.inl hnone, hnone⟩
      · rfl
    · rename_i reason hvacant
      split at h
      · rename_i hpairs
        cases h
        refine ⟨sameFields_links, fun slot => ?_⟩
        rw [slot_write_of]
        dsimp only
        rw [KeyMap.get_remove]
        split
        · rename_i heq
          subst heq
          rw [slot_write_of_one, if_pos rfl, slot_write_remove, hvacant]
          exact ⟨.inr ⟨rfl, hpairs⟩, rfl⟩
        · rename_i heq
          rw [if_neg (Ne.symm heq)]
          rfl
      · cases h
    · cases h
  | _ =>
    obtain ⟨-, rfl⟩ := held_ok h
    exact ⟨.refl _, fun _ => rfl⟩

theorem attach_write_of {other : DeploymentInstance V}
    (h : attach_write render copy id inst write = .ok inst') (hsame : SameFields inst other)
    (hslots : ∀ slot, (slot_writes (copy.pairs_into id slot) copy.owns (other.links.get slot)
    (slot_write_of slot write)).isSome) :
    ∃ other', attach_write render copy id other write = .ok other' := by
  cases write with
  | LinkSet s old new =>
    obtain ⟨slot', hslot⟩ := Option.isSome_iff_exists.mp (hslots s)
    rw [slot_write_of, if_pos rfl, slot_write_of_one, slot_write_set] at hslot
    exact ⟨other, held_link_ok.mpr ⟨hslot.1, rfl⟩⟩
  | LinkAdded s target =>
    obtain ⟨slot', hslot⟩ := Option.isSome_iff_exists.mp (hslots s)
    rw [slot_write_of, if_pos rfl, slot_write_of_one, slot_write_add] at hslot
    obtain ⟨howns, targets, htargets, hnodup, -⟩ := hslot
    rw [attach_write, if_pos howns]
    exact ⟨_, bind_ok.mpr ⟨_, append_links_ok.mpr ⟨targets, htargets, hnodup, rfl⟩, rfl⟩⟩
  | LinkRemoved s old =>
    obtain ⟨slot', hslot⟩ := Option.isSome_iff_exists.mp (hslots s)
    rw [slot_write_of, if_pos rfl, slot_write_of_one, slot_write_remove] at hslot
    rw [attach_write]
    rcases hslot.1 with hnone | ⟨hvacant, hpairs⟩
    · rw [hnone]
      exact ⟨_, rfl⟩
    cases hget : other.links.get s with
    | none => exact ⟨_, rfl⟩
    | some value =>
      rw [hget] at hvacant
      cases value with
      | Bound selection => cases hvacant
      | Vacant reason => exact ⟨_, if_pos hpairs⟩
  | _ =>
    rw [SameFields] at hsame
    rw [← hsame]
    obtain ⟨hold, -⟩ := held_ok h
    exact ⟨_, if_pos hold⟩

theorem slot_writes_append {owns : String → Bool} {slot : Option LinkValue} :
    slot_writes pairs owns slot (writes ++ writes') =
      (slot_writes pairs owns slot writes).bind fun between =>
        slot_writes pairs owns between writes' := by
  induction writes generalizing slot with
  | nil => rfl
  | cons write writes ih =>
    rw [cons_append, slot_writes, slot_writes]
    cases slot_write pairs owns slot write with
    | none => rfl
    | some between => exact ih

omit [DecidableEq V] in
theorem slot_writes_of_cons {entry : StackWriteEntry V}
    : slot_writes_of (entry :: entries) id slot =
      (if entry.instance_id = id then slot_write_of slot entry.write else []) ++
        slot_writes_of entries id slot := by
  rw [slot_writes_of, filter_cons]
  split
  · rename_i h
    rw [if_pos (by simpa using h)]
    rfl
  · rename_i h
    rw [if_neg (by simpa using h)]
    rfl

theorem attach_writes_ok (h : attach_writes render copy m entries = .ok m') :
    (∀ entry ∈ entries, m.get entry.instance_id ≠ none) ∧
    Moves (fun id slot value value' => slot_writes (copy.pairs_into id slot) copy.owns value
    (slot_writes_of entries id slot) = some value') m m' := by
  induction entries generalizing m with
  | nil =>
    cases h
    exact ⟨(fun _ h => nomatch h), .refl fun _ _ _ _ _ => rfl⟩
  | cons entry entries ih =>
    rw [attach_writes] at h
    split at h
    · cases h
    rename_i source inst hget
    obtain ⟨inst1, hwrite, h⟩ := bind_ok.mp h
    obtain ⟨hfields, hslots⟩ := attach_write_ok hwrite
    obtain ⟨hin, hmoves⟩ := ih h
    have hfirst : Moves (fun id slot value value' => slot_writes (copy.pairs_into id slot) copy.owns
        value (if entry.instance_id = id then slot_write_of slot entry.write else []) =
          some value') m (m.insert entry.instance_id (source, inst1)) := by
      refine .insert hget hfields (fun slot => ?_) fun other hne slot value => ?_
      · rw [if_pos rfl]
        exact hslots slot
      · rw [if_neg (Ne.symm hne)]
        rfl
    refine ⟨forall_mem_cons.mpr ⟨?_, fun e he hnone => ?_⟩, ?_⟩
    · rw [hget]
      exact Option.some_ne_none _
    · exact hin e he (hfirst.domain.mpr hnone)
    · refine hfirst.trans hmoves fun id slot value value' value'' hvalue hvalue' => ?_
      rw [slot_writes_of_cons, slot_writes_append, hvalue]
      exact hvalue'

theorem attach_writes_of {n : KeyMap String (String × DeploymentInstance V)}
    (h : attach_writes render copy m entries = .ok m')
    (hsame : ∀ entry ∈ entries, ∃ source inst source' other,
      m.get entry.instance_id = some (source, inst) ∧
      n.get entry.instance_id = some (source', other) ∧ SameFields inst other)
    (hslots : ∀ id source other, n.get id = some (source, other) → ∀ slot,
    (slot_writes (copy.pairs_into id slot) copy.owns (other.links.get slot)
        (slot_writes_of entries id slot)).isSome) :
    ∃ n', attach_writes render copy n entries = .ok n' := by
  induction entries generalizing m n with
  | nil => exact ⟨n, rfl⟩
  | cons entry entries ih =>
    obtain ⟨source, inst, source', other, hinst, hother, hfields⟩ := hsame entry mem_cons_self
    rw [attach_writes, hinst] at h
    obtain ⟨inst1, hwrite, h⟩ := bind_ok.mp h
    have hfirst : ∀ slot, ∃ between, slot_writes (copy.pairs_into entry.instance_id slot) copy.owns
        (other.links.get slot) (slot_write_of slot entry.write) = some between ∧
        (slot_writes (copy.pairs_into entry.instance_id slot) copy.owns between
          (slot_writes_of entries entry.instance_id slot)).isSome := by
      intro slot
      have hslot := hslots entry.instance_id source' other hother slot
      rw [slot_writes_of_cons, if_pos rfl, slot_writes_append] at hslot
      obtain ⟨result, hresult⟩ := Option.isSome_iff_exists.mp hslot
      obtain ⟨between, hbetween, hrest⟩ := Option.bind_eq_some_iff.mp hresult
      exact ⟨between, hbetween, by rw [hrest]; rfl⟩
    obtain ⟨other1, hother1⟩ := attach_write_of hwrite hfields fun slot => by
      obtain ⟨between, hbetween, -⟩ := hfirst slot
      rw [hbetween]
      rfl
    obtain ⟨hfields1, hslots1⟩ := attach_write_ok hother1
    have hfields2 := (attach_write_ok hwrite).1
    rw [attach_writes, hother]
    suffices hrest : ∃ n', attach_writes render copy
        (n.insert entry.instance_id (source', other1)) entries = .ok n' by
      obtain ⟨n', hn'⟩ := hrest
      exact ⟨n', bind_ok.mpr ⟨other1, hother1, hn'⟩⟩
    refine ih h (fun e he => ?_) fun id source'' other'' hget slot => ?_
    · by_cases heq : e.instance_id = entry.instance_id
      · rw [heq]
        refine ⟨source, inst1, source', other1, KeyMap.get_insert_self _ _ _,
          KeyMap.get_insert_self _ _ _, ?_⟩
        exact (hfields2.symm.trans hfields).trans hfields1
      · rw [KeyMap.get_insert_of_ne _ _ heq, KeyMap.get_insert_of_ne _ _ heq]
        exact hsame e (mem_cons_of_mem _ he)
    · by_cases heq : id = entry.instance_id
      · subst heq
        rw [KeyMap.get_insert_self] at hget
        cases hget
        obtain ⟨between, hbetween, hrest⟩ := hfirst slot
        cases (hslots1 slot).symm.trans hbetween
        exact hrest
      · rw [KeyMap.get_insert_of_ne _ _ heq] at hget
        have hslot := hslots id source'' other'' hget slot
        rwa [slot_writes_of_cons, if_neg (Ne.symm heq)] at hslot

end

/-! ## The instances of a copy -/

theorem map_own_entries (copy : JoinedCopy V bare) :
    (own_entries copy).map Prod.fst = ids copy.deployments := by
  simp only [own_entries, ids, instances, map_flatMap, map_map]
  rfl

theorem mem_add_core_node_link {links : List String} {link other : String} :
    other ∈ add_core_node_link links link ↔ other ∈ links ∨ other = link := by
  rw [add_core_node_link]
  split
  · rename_i hin
    refine ⟨.inl, ?_⟩
    rintro (h | rfl)
    · exact h
    · exact hin
  · rw [mem_append, mem_singleton]

theorem join_ok [DecidableEq V] {render : Rendering V} : join render copy existing = .ok flat ↔
      copy.name ∉ existing.core_nodes ∧
      ∃ attached, attach_writes render copy existing.instances copy.stack_writes = .ok attached ∧
        (∀ id ∈ ids copy.deployments, attached.get id = none) ∧ flat = {
          instances := (own_entries copy).foldl (fun m entry => m.insert entry.1 entry.2) attached
          core_nodes := add_core_node_link existing.core_nodes copy.name } := by
  have hcontains : ∀ attached : KeyMap String (String × DeploymentInstance V),
      ((ids copy.deployments).find? fun id => attached.contains id) = none ↔
        ∀ id ∈ ids copy.deployments, attached.get id = none := by
    intro attached
    rw [find?_eq_none]
    refine forall_congr' fun id => imp_congr_right fun _ => ?_
    simp [KeyMap.contains]
  simp only [join, copy.own_link, foldl_cons, foldl_nil]
  split
  · rename_i hname
    constructor
    · intro h
      cases h
    · exact fun h => absurd hname h.1
  · rename_i hname
    simp only [hname, not_false_eq_true, true_and]
    refine bind_ok.trans (exists_congr fun attached => and_congr_right fun _ => ?_)
    rw [← hcontains attached]
    cases (ids copy.deployments).find? fun id => attached.contains id with
    | some id => simp
    | none => simp [eq_comm]

/-! ## The removal -/

variable (m : KeyMap String (String × DeploymentInstance V))
  (found : List (String × String × LinkValue))

theorem get_remove_ids (removed : List String)
    (id : String) : (remove_ids m removed).get id = if id ∈ removed then none else m.get id := by
  rw [remove_ids]
  induction removed generalizing m with
  | nil => simp
  | cons other removed ih =>
    rw [foldl_cons, ih, KeyMap.get_remove]
    by_cases heq : id = other <;> simp [heq]

def targets_on (members : List (String × String × String)) (id slot : String) : List String :=
  (members.filter fun member => member.1 = id ∧ member.2.1 = slot).map fun member => member.2.2

theorem added_append : added (writes ++ writes') = added writes ++ added writes' := by
  induction writes with
  | nil => rfl
  | cons write writes ih => cases write <;> simp [added, ih]

theorem targets_on_set_members (copy : JoinedCopy V bare) (id slot : String) :
    targets_on copy.set_members id slot = added (slot_writes_of copy.stack_writes id slot) := by
  rw [JoinedCopy.set_members]
  generalize copy.stack_writes = entries
  induction entries with
  | nil => rfl
  | cons entry entries ih =>
    rw [slot_writes_of_cons, added_append, ← ih, filterMap_cons]
    obtain ⟨other, write⟩ := entry
    by_cases hid : other = id
    · rw [if_pos hid]
      cases write with
      | LinkAdded s target =>
        by_cases hslot : s = slot
        · simp [targets_on, slot_write_of, hid, hslot, added]
        · simp [targets_on, slot_write_of, hid, hslot, added]
      | LinkSet s | LinkRemoved s =>
        by_cases hslot : s = slot <;> simp [slot_write_of, hslot, added]
      | _ => rfl
    · rw [if_neg hid]
      cases write with
      | LinkAdded s target => simp [targets_on, hid, added]
      | _ => rfl

theorem without_cons {target : String} {members : List String} {slot : Option LinkValue} :
    without (target :: members) slot = without members (without [target] slot) := by
  rcases slot with _ | ⟨_ | targets | _⟩ | _
  · rfl
  · rfl
  · have hfilter : targets.filter (fun t => t ∉ target :: members) =
        (targets.filter fun t => t ∉ [target]).filter fun t => t ∉ members := by
      rw [filter_filter]
      refine filter_congr fun t _ => ?_
      by_cases h : t = target <;> simp [h]
    rw [without, hfilter]
    rfl
  · rfl
  · rfl

variable {members : List (String × String × String)}

theorem targets_on_cons {member : String × String × String} :
    targets_on (member :: members) id slot =
      (if member.1 = id ∧ member.2.1 = slot then [member.2.2] else []) ++
        targets_on members id slot := by
  by_cases h : member.1 = id ∧ member.2.1 = slot <;> simp [targets_on, h]

theorem drop_members_ok {m m' : KeyMap String (String × DeploymentInstance V)}
    (h : drop_members m members = .ok m') :
    Moves (fun id slot value value' => value' = without (targets_on members id slot) value) m m' := by
  induction members generalizing m with
  | nil =>
    cases h
    exact .refl fun _ _ _ _ _ => (without_nil _).symm
  | cons member members ih =>
    obtain ⟨other, s, target⟩ := member
    rw [drop_members] at h
    split at h
    · cases h
    rename_i source inst hget
    obtain ⟨inst1, hdrop, h⟩ := bind_ok.mp h
    rw [drop_member] at hdrop
    split at hdrop
    case h_2 => cases hdrop
    rename_i targets hslot
    cases hdrop
    have hfirst : Moves (fun id slot value value' => value' =
        without (if other = id ∧ s = slot then [target] else []) value) m
        (m.insert other (source, { inst with
          links := inst.links.insert s (.Bound (.Array (targets.filter fun t => t ≠ target))) })) := by
      refine .insert hget (sameFields_links) (fun slot => ?_) fun id hne slot value => ?_
      · dsimp only
        rw [KeyMap.get_insert]
        by_cases hs : slot = s
        · subst hs
          simp [hslot, without]
        · rw [if_neg hs, if_neg fun h => hs h.2.symm, without_nil]
      · rw [if_neg fun h => hne h.1.symm, without_nil]
    refine hfirst.trans (ih h) fun id slot value value' value'' hvalue hvalue' => ?_
    rw [hvalue', hvalue, targets_on_cons]
    split
    · exact (without_cons).symm
    · rw [without_nil]
      rfl

/-- The vacancy that is put back to an absent slot. -/
def restored (id slot : String) : Option LinkValue :=
  (found.find? fun vacancy => vacancy.1 = id ∧ vacancy.2.1 = slot).map fun vacancy => vacancy.2.2

theorem restored_cons {vacancy : String × String × LinkValue}
    {found : List (String × String × LinkValue)} : restored (vacancy :: found) id slot =
      (if vacancy.1 = id ∧ vacancy.2.1 = slot then some vacancy.2.2 else none).or
        (restored found id slot) := by
  by_cases h : vacancy.1 = id ∧ vacancy.2.1 = slot <;> simp [restored, h]

theorem restore_vacancy_moves (vacancy : String × String × LinkValue) :
    Moves (fun id slot value value' => value' = value.or
    (if vacancy.1 = id ∧ vacancy.2.1 = slot then some vacancy.2.2 else none)) m
    (restore_vacancy m vacancy) := by
  obtain ⟨other, s, value⟩ := vacancy
  rw [restore_vacancy]
  dsimp only
  cases hget : m.get other with
  | none =>
    refine .refl fun id source inst hinst slot => ?_
    rw [if_neg (fun h => nomatch (h.1 ▸ hget).symm.trans hinst), Option.or_none]
  | some entry =>
    obtain ⟨source, inst⟩ := entry
    dsimp only
    cases hslot : inst.links.get s with
    | some old =>
      refine .refl fun id source' inst' hinst' slot => ?_
      split
      · rename_i heq
        obtain ⟨rfl, rfl⟩ := heq
        cases hget.symm.trans hinst'
        rw [hslot, Option.some_or]
      · rw [Option.or_none]
    | none =>
      refine .insert hget (sameFields_links) (fun slot => ?_) fun id hne slot value' => ?_
      · dsimp only
        rw [KeyMap.get_insert]
        by_cases hs : slot = s
        · subst hs
          rw [if_pos rfl, if_pos ⟨rfl, rfl⟩, hslot, Option.none_or]
        · rw [if_neg hs, if_neg fun h => hs h.2.symm, Option.or_none]
      · rw [if_neg fun h => hne h.1.symm, Option.or_none]

theorem restore_vacancies_moves :
    Moves (fun id slot value value' => value' = value.or (restored found id slot)) m
    (found.foldl restore_vacancy m) := by
  induction found generalizing m with
  | nil => exact .refl fun _ _ _ _ _ => Option.or_none.symm
  | cons vacancy found ih =>
    refine (restore_vacancy_moves m vacancy).trans (ih _)
      fun id slot value value' value'' hvalue hvalue' => ?_
    rw [hvalue', hvalue, restored_cons, Option.or_assoc]

theorem mem_of_restored {found : List (String × String × LinkValue)}
    {value : LinkValue} (h : restored found id slot = some value) : (id, slot, value) ∈ found := by
  obtain ⟨⟨_, _, _⟩, hfind, rfl⟩ := Option.map_eq_some_iff.mp h
  have hkeys := find?_some hfind
  simp only [decide_eq_true_eq] at hkeys
  obtain ⟨rfl, rfl⟩ := hkeys
  exact mem_of_find?_eq_some hfind

/-- What is put back is a vacancy of an instance of the bare stack. -/
theorem restored_vacancies : (restored (vacancies bare released) id slot = none ∨
      vacant (restored (vacancies bare released) id slot) = true) ∧
    (bare.get id = none → restored (vacancies bare released) id slot = none) := by
  cases hvalue : restored (vacancies bare released) id slot with
  | none => exact ⟨.inl rfl, fun _ => rfl⟩
  | some value =>
    obtain ⟨entry, hentry, hlink⟩ := mem_flatMap.mp (mem_of_restored hvalue)
    obtain ⟨link, -, hlink⟩ := mem_filterMap.mp hlink
    split at hlink
    · rename_i hvacant
      cases hlink
      refine ⟨.inr ?_, fun hnone => ?_⟩
      · obtain ⟨name, value⟩ := link
        cases value with
        | Bound selection => cases hvacant.1
        | Vacant reason => rfl
      · cases hnone.symm.trans (KeyMap.get_eq_some_iff.mpr hentry)
    · cases hlink

theorem detach_ok (h : detach existing copy released = .ok flat) :
    ∃ dropped, drop_members (remove_ids existing.instances (ids copy.deployments))
        copy.set_members = .ok dropped ∧
      flat = { instances := restore_vacancies dropped bare released
               core_nodes := existing.core_nodes.filter fun link => link ≠ copy.name } := by
  obtain ⟨dropped, hdropped, h⟩ := bind_ok.mp h
  split at h
  · cases h
    exact ⟨dropped, hdropped, rfl⟩
  · cases h

end peppy.compose
