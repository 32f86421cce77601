-- A copy that is folded into the stack leaves on each stack instance what its
-- adjustments leave on it. The fold refuses a copy that writes one field twice.
import Peppy.CopyFold

open changes keymap results List

namespace peppy.compose

open launcher (Selection LinkValue split_link_target)

variable {V : Type}

/-! ## The targets of a slot -/

variable {additions targets : List String} {copy origin slot target : String}
  {inst inst' : DeploymentInstance V} {changes : List (AppliedChange V)}

theorem repeated_eq_none {seen : List String} :
    repeated seen targets = none ↔ targets.Nodup ∧ ∀ target ∈ targets, target ∉ seen := by
  induction targets generalizing seen with
  | nil => simp [repeated]
  | cons target targets ih =>
    rw [repeated]
    split
    · rename_i hseen
      simp [hseen]
    rename_i hseen
    rw [ih, nodup_cons, forall_mem_cons]
    constructor
    · rintro ⟨hnodup, hnot⟩
      refine ⟨⟨fun hin => hnot target hin mem_cons_self, hnodup⟩, hseen, fun t ht hs => ?_⟩
      exact hnot t ht (mem_cons_of_mem _ hs)
    rintro ⟨⟨hin, hnodup⟩, -, hnot⟩
    refine ⟨hnodup, fun t ht hs => ?_⟩
    rcases mem_cons.mp hs with rfl | hs
    · exact hin ht
    · exact hnot t ht hs

theorem link_targets_ok {targets' : List String} :
    link_targets targets = .ok targets' ↔ targets.Nodup ∧ targets' = targets := by
  have hiff : repeated [] targets = none ↔ targets.Nodup := by
    rw [repeated_eq_none]
    exact ⟨fun h => h.1, fun h => ⟨h, fun _ _ hs => by cases hs⟩⟩
  rw [link_targets]
  split
  · rename_i target hsome
    constructor
    · intro h
      cases h
    · rintro ⟨hnodup, -⟩
      cases hsome.symm.trans (hiff.mpr hnodup)
  · rename_i hnone
    constructor
    · intro h
      cases h
      exact ⟨hiff.mp hnone, rfl⟩
    · rintro ⟨-, rfl⟩
      rfl

def array_of : Option LinkValue → Option (List String)
  | none => some []
  | some (.Bound (.Array targets)) => some targets
  | some _ => none

theorem appendable_ok : appendable inst slot target origin = .ok targets ↔
      array_of (inst.links.get slot) = some targets := by
  rw [appendable]
  rcases inst.links.get slot with _ | ⟨_ | _ | _⟩ | _ <;> simp [array_of]

theorem append_links_ok {bound : List String} :
    append_links inst slot additions target origin = .ok bound ↔
      ∃ targets, array_of (inst.links.get slot) = some targets ∧ (targets ++ additions).Nodup ∧
        bound = targets ++ additions := by
  rw [append_links, bind_ok]
  refine exists_congr fun targets => ?_
  rw [appendable_ok, mapError_ok, link_targets_ok]

/-! ## The writes of one instance -/

def apply_writes (origin : String) : DeploymentInstance V → List (AppliedChange V) →
    Except CompositionError (DeploymentInstance V)
  | inst, [] => .ok inst
  | inst, write :: writes => do
    let inst ← apply_write inst write origin
    apply_writes origin inst writes

theorem apply_writes_append {writes writes' : List (AppliedChange V)}
    (h : apply_writes origin inst (writes ++ writes') = .ok inst') :
    ∃ between, apply_writes origin inst writes = .ok between ∧
      apply_writes origin between writes' = .ok inst' := by
  induction writes generalizing inst with
  | nil => exact ⟨inst, rfl, h⟩
  | cons write writes ih =>
    obtain ⟨made, hwrite, h⟩ := bind_ok.mp h
    obtain ⟨between, hwrites, h⟩ := ih h
    exact ⟨between, bind_ok.mpr ⟨made, hwrite, hwrites⟩, h⟩

theorem apply_additions (hadds : additions ≠ [])
    (h : apply_writes origin inst (additions.map (.LinkAdded slot)) = .ok inst') :
    ∃ targets, array_of (inst.links.get slot) = some targets ∧ (targets ++ additions).Nodup ∧
      inst' = { inst with
        links := inst.links.insert slot (.Bound (.Array (targets ++ additions))) } := by
  induction additions generalizing inst with
  | nil => exact absurd rfl hadds
  | cons addition additions ih =>
    obtain ⟨made, hwrite, h⟩ := bind_ok.mp h
    obtain ⟨bound, hbound, hmade⟩ := bind_ok.mp hwrite
    obtain ⟨targets, hold, hnodup, rfl⟩ := append_links_ok.mp hbound
    cases hmade
    cases additions with
    | nil =>
      cases h
      exact ⟨targets, hold, hnodup, rfl⟩
    | cons next additions =>
      obtain ⟨targets', hold', hnodup', rfl⟩ := ih (cons_ne_nil _ _) h
      rw [KeyMap.get_insert_self] at hold'
      cases hold'
      rw [append_assoc, singleton_append] at hnodup'
      refine ⟨targets, hold, hnodup', ?_⟩
      simp only [KeyMap.insert_insert, append_assoc, singleton_append]

/-! ## The names of the copy in the writes -/

section
variable (rw' : String → String)

def renamed : LinkValue → LinkValue
  | .Bound (.Scalar target) => .Bound (.Scalar (rw' target))
  | .Bound (.Array targets) => .Bound (.Array (targets.map rw'))
  | .Bound (.Flags targets) => .Bound (.Flags (targets.map rw'))
  | .Vacant reason => .Vacant reason

def Verb.renamed : Verb V → Verb V
  | .SetLink slot value => .SetLink slot (compose.renamed rw' value)
  | .AddLinks slot additions => .AddLinks slot (additions.map rw')
  | verb => verb

def Adjustment.renamed (adjustment : Adjustment V) : Adjustment V :=
  { adjustment with
    set_links := adjustment.set_links.map fun e => (e.1, compose.renamed rw' e.2)
    add_links := adjustment.add_links.map fun e => (e.1, e.2.map rw')
    adds := by
      intro entry hentry
      obtain ⟨e, he, rfl⟩ := mem_map.mp hentry
      simpa using adjustment.adds e he }

def OriginatedAdjustment.renamed (step : OriginatedAdjustment V) : OriginatedAdjustment V :=
  { step with adjustment := step.adjustment.renamed rw' }

theorem verbs_renamed (adjustment : Adjustment V) :
    (adjustment.renamed rw').verbs = adjustment.verbs.map (Verb.renamed rw') := by
  simp [Adjustment.verbs, Adjustment.renamed, Verb.renamed, Function.comp_def]

theorem writes_on_renamed (id : String) (steps : List (OriginatedAdjustment V)) :
    writes_on id (steps.map (OriginatedAdjustment.renamed rw')) =
      (writes_on id steps).map fun entry => (entry.1, entry.2.renamed rw') := by
  rw [writes_on, writes_on, filter_map, flatMap_map, map_flatMap]
  congr 1
  funext step
  simp [OriginatedAdjustment.writes, OriginatedAdjustment.renamed, verbs_renamed]

end

variable {rw' : String → String}

theorem rewrite_link_ok {value value' : LinkValue} (h : rewrite_link rw' value = .ok value') :
    value' = renamed rw' value := by
  rcases value with ⟨target | targets | targets⟩ | reason
  · cases h
    rfl
  · obtain ⟨bound, hbound, h⟩ := bind_ok.mp h
    cases h
    rw [(link_targets_ok.mp hbound).2]
    rfl
  · obtain ⟨bound, hbound, h⟩ := bind_ok.mp h
    cases h
    rw [(link_targets_ok.mp hbound).2]
    rfl
  · cases h
    rfl

/-- Every entry of `add_links` adds a target. -/
def Verb.Adds : Verb V → Prop
  | .AddLinks _ additions => additions ≠ []
  | _ => True

/-- The same slots have a link. -/
def SameSlots (inst inst' : DeploymentInstance V) : Prop :=
  ∀ slot, (inst.links.get slot).isSome = (inst'.links.get slot).isSome

theorem SameSlots.insert (h : SameSlots inst inst') (slot : String) (value value' : LinkValue) :
    SameSlots { inst with links := inst.links.insert slot value }
      { inst' with links := inst'.links.insert slot value' } := by
  intro s
  dsimp only
  rw [KeyMap.get_insert, KeyMap.get_insert]
  split
  · rfl
  · exact h s

theorem SameSlots.remove (h : SameSlots inst inst') (slot : String) :
    SameSlots { inst with links := inst.links.remove slot }
      { inst' with links := inst'.links.remove slot } := by
  intro s
  dsimp only
  rw [KeyMap.get_remove, KeyMap.get_remove]
  split
  · rfl
  · exact h s

theorem renamed_additions
    (h : List.Forall₂ (fun c c' => rewrite_change rw' c = .ok c') (additions.map (.LinkAdded slot))
      changes) : changes = (additions.map rw').map (.LinkAdded slot) := by
  induction additions generalizing changes with
  | nil => exact forall₂_nil_left_iff.mp h
  | cons addition additions ih =>
    obtain ⟨change, rest, hchange, hrest, rfl⟩ := forall₂_cons_left_iff.mp h
    cases hchange
    rw [ih hrest]
    rfl

variable {changes' : List (AppliedChange V)} {id name : String}
  {named named' : DeploymentInstance V} {applied applied' : List (AppliedAdjustment V)}
  {owned : List String}

/-- The recorded changes of one write, replayed, are the write under the new names. -/
theorem replay_verb {verb : Verb V} (hadds : verb.Adds) (hslots : SameSlots inst named)
    (hverb : apply_verb inst target origin verb = .ok (inst', changes))
    (hrenamed : List.Forall₂ (fun c c' => rewrite_change rw' c = .ok c') changes changes')
    (hreplay : apply_writes name named changes' = .ok named') :
    (∃ recorded, apply_verb named target origin (verb.renamed rw') = .ok (named', recorded)) ∧
      SameSlots inst' named' := by
  cases verb with
  | SetLink slot value =>
    cases hverb
    obtain ⟨change, rest, hchange, hrest, rfl⟩ := forall₂_cons_left_iff.mp hrenamed
    cases forall₂_nil_left_iff.mp hrest
    obtain ⟨old, -, hchange⟩ := bind_ok.mp hchange
    obtain ⟨new, hnew, hchange⟩ := bind_ok.mp hchange
    cases hchange
    cases hreplay
    cases rewrite_link_ok hnew
    exact ⟨⟨_, rfl⟩, hslots.insert _ _ _⟩
  | AddLinks slot additions =>
    obtain ⟨bound, -, hverb⟩ := bind_ok.mp hverb
    cases hverb
    have hchanges := renamed_additions hrenamed
    subst hchanges
    obtain ⟨targets, hold, hnodup, rfl⟩ :=
      apply_additions (by simpa [Verb.Adds] using hadds) hreplay
    refine ⟨⟨_, bind_ok.mpr ⟨_, append_links_ok.mpr ⟨targets, hold, hnodup, rfl⟩, rfl⟩⟩, ?_⟩
    exact hslots.insert _ _ _
  | UnsetLink slot =>
    have hslot := hslots slot
    cases hold : inst.links.get slot with
    | none =>
      rw [apply_verb, hold] at hverb
      rw [hold] at hslot
      have hvalue : named.links.get slot = none := by simpa using hslot.symm
      cases hverb
      cases forall₂_nil_left_iff.mp hrenamed
      cases hreplay
      refine ⟨⟨[], ?_⟩, hslots⟩
      change apply_verb named target origin (.UnsetLink slot) = _
      rw [apply_verb, hvalue]
    | some old =>
      rw [apply_verb, hold] at hverb
      rw [hold] at hslot
      obtain ⟨value, hvalue⟩ := Option.isSome_iff_exists.mp hslot.symm
      cases hverb
      obtain ⟨change, rest, hchange, hrest, rfl⟩ := forall₂_cons_left_iff.mp hrenamed
      cases forall₂_nil_left_iff.mp hrest
      obtain ⟨old', -, hchange⟩ := bind_ok.mp hchange
      cases hchange
      cases hreplay
      refine ⟨⟨[.LinkRemoved slot value], ?_⟩, hslots.remove slot⟩
      change apply_verb named target origin (.UnsetLink slot) = _
      rw [apply_verb, hvalue]
  | _ =>
    cases hverb
    obtain ⟨change, rest, hchange, hrest, rfl⟩ := forall₂_cons_left_iff.mp hrenamed
    cases forall₂_nil_left_iff.mp hrest
    cases hchange
    cases hreplay
    exact ⟨⟨_, rfl⟩, hslots⟩

theorem forall₂_append_left {α β : Type} {R : α → β → Prop} {l1 l2 : List α} {l : List β}
    (h : List.Forall₂ R (l1 ++ l2) l) :
    ∃ l1' l2', l = l1' ++ l2' ∧ List.Forall₂ R l1 l1' ∧ List.Forall₂ R l2 l2' := by
  induction l1 generalizing l with
  | nil => exact ⟨[], l, rfl, .nil, h⟩
  | cons a l1 ih =>
    obtain ⟨b, rest, hab, hrest, rfl⟩ := forall₂_cons_left_iff.mp h
    obtain ⟨l1', l2', rfl, h1, h2⟩ := ih hrest
    exact ⟨b :: l1', l2', rfl, .cons hab h1, h2⟩

theorem replay_verbs {verbs : List (String × Verb V)}
    (hadds : ∀ entry ∈ verbs, entry.2.Adds) (hslots : SameSlots inst named)
    (hverbs : apply_verbs target inst verbs = .ok (inst', changes))
    (hrenamed : List.Forall₂ (fun c c' => rewrite_change rw' c = .ok c') changes changes')
    (hreplay : apply_writes name named changes' = .ok named') :
    ∃ recorded, apply_verbs target named (verbs.map fun entry => (entry.1, entry.2.renamed rw')) =
      .ok (named', recorded) := by
  induction verbs generalizing inst named changes changes' with
  | nil =>
    cases hverbs
    cases forall₂_nil_left_iff.mp hrenamed
    cases hreplay
    exact ⟨[], rfl⟩
  | cons entry verbs ih =>
    obtain ⟨⟨inst1, changes1⟩, hverb, h⟩ := bind_ok.mp hverbs
    obtain ⟨⟨inst2, changes2⟩, hrest, h⟩ := bind_ok.mp h
    cases h
    obtain ⟨changes1', changes2', rfl, hrenamed1, hrenamed2⟩ := forall₂_append_left hrenamed
    obtain ⟨between, hfirst, hsecond⟩ := apply_writes_append hreplay
    rw [forall_mem_cons] at hadds
    obtain ⟨⟨recorded, hnamed⟩, hslots⟩ := replay_verb hadds.1 hslots hverb hrenamed1 hfirst
    obtain ⟨later, hlater⟩ := ih hadds.2 hslots hrest hrenamed2 hsecond
    exact ⟨recorded ++ later, bind_ok.mpr ⟨(between, recorded), hnamed,
      bind_ok.mpr ⟨(named', later), hlater, rfl⟩⟩⟩

theorem adds_writes_on (id : String) (steps : List (OriginatedAdjustment V)) :
    ∀ entry ∈ writes_on id steps, entry.2.Adds := by
  intro entry hentry
  obtain ⟨step, -, hentry⟩ := mem_flatMap.mp hentry
  obtain ⟨verb, hverb, rfl⟩ := mem_map.mp hentry
  simp only [Adjustment.verbs, mem_append, mem_map] at hverb
  rcases hverb with
    ((((((⟨_, _, rfl⟩ | ⟨_, _, rfl⟩) | ⟨_, _, rfl⟩) | ⟨_, _, rfl⟩) | ⟨e, he, rfl⟩) | ⟨_, _, rfl⟩) |
      ⟨_, _, rfl⟩) | ⟨_, _, rfl⟩
  case inl.inl.inl.inr => exact step.adjustment.adds e he
  all_goals trivial

/-! ## The writes of the copy to the stack -/

theorem rewrite_report_ok (h : rewrite_report rw' copy owned applied = .ok applied') :
    List.Forall₂ (fun entry entry' => entry'.target = mint copy owned entry.target ∧
      rewrite_change rw' entry.change = .ok entry'.change) applied applied' := by
  induction applied generalizing applied' with
  | nil =>
    cases h
    exact .nil
  | cons entry applied ih =>
    obtain ⟨change, hchange, h⟩ := bind_ok.mp h
    obtain ⟨rest, hrest, h⟩ := bind_ok.mp h
    cases h
    exact .cons ⟨rfl, mapError_ok.mp hchange⟩ (ih hrest)

theorem changes_of_report (h : rewrite_report rw' copy owned applied = .ok applied')
    (hmint : ∀ other, mint copy owned other = id ↔ other = id) :
    List.Forall₂ (fun c c' => rewrite_change rw' c = .ok c')
    ((applied.filter fun entry => entry.target = id).map AppliedAdjustment.change)
    ((applied'.filter fun entry => entry.target = id).map AppliedAdjustment.change) := by
  have hreport := rewrite_report_ok h
  clear h
  induction hreport with
  | nil => exact .nil
  | cons hentry _ ih =>
    obtain ⟨htarget, hchange⟩ := hentry
    rw [filter_cons, filter_cons]
    simp only [htarget, hmint, decide_eq_true_eq]
    split
    · exact .cons hchange ih
    · exact ih

def apply_entries (copy : String) : List (Deployment V) → List (StackWriteEntry V) →
    Except CompositionError (List (Deployment V))
  | deployments, [] => .ok deployments
  | deployments, entry :: entries => do
    let deployments ← write_entry copy deployments entry
    apply_entries copy deployments entries

theorem instance_id_of_apply_write {write : AppliedChange V}
    (h : apply_write inst write origin = .ok inst') : inst'.instance_id = inst.instance_id := by
  cases write with
  | LinkAdded slot target =>
    obtain ⟨bound, -, h⟩ := bind_ok.mp h
    cases h
    rfl
  | _ => cases h; rfl

theorem written_instance {deployments deployments' : List (Deployment V)}
    {entries : List (StackWriteEntry V)}
    (h : apply_entries copy deployments entries = .ok deployments')
    (hinst : instance_named deployments id = some inst) :
    ∃ inst', apply_writes ("copy `" ++ copy ++ "`") inst
        ((entries.filter fun entry => entry.instance_id = id).map StackWriteEntry.write) = .ok inst' ∧
      instance_named deployments' id = some inst' := by
  induction entries generalizing deployments inst with
  | nil =>
    cases h
    exact ⟨inst, rfl, hinst⟩
  | cons entry entries ih =>
    obtain ⟨between, hentry, h⟩ := bind_ok.mp h
    rw [write_entry] at hentry
    split at hentry
    · cases hentry
    rename_i old hold
    obtain ⟨new, hnew, hentry⟩ := bind_ok.mp hentry
    cases hentry
    have hid : new.instance_id = entry.instance_id :=
      (instance_id_of_apply_write hnew).trans (by simpa using find?_some hold)
    have hput := instance_named_put hid (by rw [hold]; exact Option.some_ne_none _) id
    by_cases heq : id = entry.instance_id
    · subst heq
      rw [if_pos rfl] at hput
      cases hinst.symm.trans hold
      obtain ⟨inst', hwrites, hnamed⟩ := ih h hput
      refine ⟨inst', ?_, hnamed⟩
      rw [filter_cons_of_pos (by simp), map_cons]
      exact bind_ok.mpr ⟨new, hnew, hwrites⟩
    · rw [if_neg heq] at hput
      obtain ⟨inst', hwrites, hnamed⟩ := ih h (hput.trans hinst)
      refine ⟨inst', ?_, hnamed⟩
      rw [filter_cons_of_neg (by simpa using Ne.symm heq)]
      exact hwrites

end peppy.compose
