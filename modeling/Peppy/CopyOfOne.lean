-- One copy alone in the fold, which goes through when each write of the copy agrees
-- with its write to the same field before it.
import Peppy.CopyFoldLaws

open changes keymap results List

namespace peppy.compose

variable {V : Type} {render : Rendering V}

/-! ## The claims of one copy -/

/-- Whether a write takes over the claim that an earlier write of its field
made. -/
def agrees (render : Rendering V) : AppliedChange V → AppliedChange V → Bool
  | .LinkAdded _ _, .LinkAdded _ _ => true
  | .LinkAdded _ _, _ => false
  | first, later => first.written render = later.written render

variable {entry : StackWriteEntry V} {copy : String} {α : Type}
  {deployments deployments' : List (Deployment V)} {claims : Claims}
  {before entries : List (StackWriteEntry V)} {inst : DeploymentInstance V} {flat : PeppyLauncher V}
  {owned : List String} {rw' : String → String} {request : CopyRequest V} {bare : Expanded V}

theorem conflict_claim_of {copy' : String} {first : AppliedChange V} :
    conflict render copy entry (some (claim_of render copy' first)) = none ↔
      agrees render first entry.write = true := by
  obtain ⟨id, write⟩ := entry
  cases first with
  | LinkAdded slot target => cases write <;> simp [conflict, claim_of, agrees]
  | _ => simp [conflict, claim_of, agrees]

/-- The error is one of two copies. -/
def IsCopiesConflict {α : Type} : Except CompositionError α → Prop
  | .error (.CopiesConflict _ _ _ _) => True
  | _ => False

theorem isCopiesConflict_iff {x : Except CompositionError α} : IsCopiesConflict x ↔
    ∃ first second target difference, x = .error (.CopiesConflict first second target difference) := by
  constructor
  · intro h
    unfold IsCopiesConflict at h
    split at h
    · exact ⟨_, _, _, _, rfl⟩
    · cases h
  · rintro ⟨_, _, _, _, rfl⟩
    trivial

theorem isCopiesConflict_bind {β : Type} {x : Except CompositionError α}
    {f : α → Except CompositionError β} :
    IsCopiesConflict (x >>= f) ↔ IsCopiesConflict x ∨ ∃ a, x = .ok a ∧ IsCopiesConflict (f a) := by
  cases x with
  | error e =>
    simp only [bind, Except.bind, reduceCtorEq, false_and, exists_false, or_false]
    cases e <;> exact Iff.rfl
  | ok a => simp [bind, Except.bind, IsCopiesConflict]

theorem isCopiesConflict_of_conflict {claim : Option Claim} {error : CompositionError}
    (h : conflict render copy entry claim = some error) :
    IsCopiesConflict (.error error : Except CompositionError α) := by
  unfold conflict at h
  split at h
  · split at h
    · cases h
      trivial
    · cases h
  · split at h
    · cases h
    · cases h
      trivial
  · cases h

theorem write_entry_no_conflict : ¬ IsCopiesConflict (write_entry copy deployments entry) := by
  rw [write_entry]
  split
  · exact id
  rename_i inst _
  cases hwrite : entry.write with
  | LinkAdded slot target =>
    simp only [apply_write, append_links]
    cases happ : appendable inst slot inst.instance_id ("copy `" ++ copy ++ "`") with
    | error e =>
      rw [appendable] at happ
      split at happ <;> cases happ <;> exact id
    | ok targets =>
      simp only [bind, Except.bind]
      cases link_targets (targets ++ [target]) <;> exact id
  | _ => exact id

def last_write (entries : List (StackWriteEntry V)) (key : String × String) :
    Option (StackWriteEntry V) :=
  entries.reverse.find? fun entry => entry.key = key

theorem last_write_append (entry : StackWriteEntry V)
    {key : String × String} : last_write (entries ++ [entry]) key =
      if key = entry.key then some entry else last_write entries key := by
  rw [last_write, reverse_append, reverse_singleton, singleton_append,
    find?_cons, ← last_write]
  by_cases h : key = entry.key
  · simp [h]
  · simp [h, Ne.symm h]

/-- Each write agrees with the copy's last one to its field, up to a refusal. -/
def Agree (render : Rendering V) (copy : String) (before : List (StackWriteEntry V))
    (deployments : List (Deployment V)) (entries : List (StackWriteEntry V)) : Prop :=
  ∀ earlier entry later reached, entries = earlier ++ entry :: later →
    apply_entries copy deployments earlier = .ok reached →
    ∀ last, last_write (before ++ earlier) entry.key = some last →
      agrees render last.write entry.write = true

/-- Each claim is the one of the last write to its field. -/
def ClaimsOf (render : Rendering V) (copy : String) (before : List (StackWriteEntry V))
    (claims : Claims) : Prop :=
  ∀ key, claims key = (last_write before key).map fun last => claim_of render copy last.write

theorem ClaimsOf.snoc (h : ClaimsOf render copy before claims) :
    ClaimsOf render copy (before ++ [entry]) fun key =>
      if key = entry.key then some (claim_of render copy entry.write) else claims key := by
  intro key
  dsimp only
  rw [last_write_append]
  by_cases hkey : key = entry.key
  · rw [if_pos hkey, if_pos hkey, Option.map_some]
  · rw [if_neg hkey, if_neg hkey]
    exact h key

/-- The next write conflicts just when it does not agree with the last one. -/
theorem ClaimsOf.conflict_iff (h : ClaimsOf render copy before claims) :
    conflict render copy entry (claims entry.key) = none ↔
      ∀ last, last_write before entry.key = some last →
        agrees render last.write entry.write = true := by
  rw [h entry.key]
  cases last_write before entry.key with
  | none => simp [conflict]
  | some last =>
    rw [Option.map_some, conflict_claim_of]
    simp

theorem agree_cons : Agree render copy before deployments (entry :: entries) ↔
    (∀ last, last_write before entry.key = some last →
        agrees render last.write entry.write = true) ∧
      ∀ reached, write_entry copy deployments entry = .ok reached →
        Agree render copy (before ++ [entry]) reached entries := by
  constructor
  · intro h
    refine ⟨fun last hlast => ?_, fun reached hentry earlier next later at_ hsplit hearlier => ?_⟩
    · exact h [] entry entries deployments rfl rfl last (by simpa using hlast)
    · have happ := h (entry :: earlier) next later at_ (by rw [hsplit]; rfl)
        (bind_ok.mpr ⟨reached, hentry, hearlier⟩)
      rw [append_assoc]
      exact happ
  · rintro ⟨hfirst, hrest⟩ earlier next later reached hsplit hearlier
    cases earlier with
    | nil =>
      cases hsplit
      rw [append_nil]
      exact hfirst
    | cons e earlier =>
      cases hsplit
      obtain ⟨between, hentry, hearlier⟩ := bind_ok.mp hearlier
      have happ := hrest between hentry earlier next later reached rfl hearlier
      rw [append_assoc] at happ
      exact happ

theorem fold_conflict_iff (hclaims : ClaimsOf render copy before claims) :
    ¬ IsCopiesConflict (fold_writes render copy deployments claims entries) ↔
      Agree render copy before deployments entries := by
  induction entries generalizing before claims deployments with
  | nil =>
    refine ⟨fun _ earlier entry later _ hsplit => ?_, fun _ h => h⟩
    simp at hsplit
  | cons entry entries ih =>
    rw [agree_cons, ← hclaims.conflict_iff, fold_writes]
    split
    · rename_i error hconflict
      have hconflict' : IsCopiesConflict (.error error : Except CompositionError
          (List (Deployment V) × Claims)) := isCopiesConflict_of_conflict hconflict
      simp [hconflict, hconflict']
    · rename_i hnone
      cases hwrite : write_entry copy deployments entry with
      | error e =>
        have hno : ¬ IsCopiesConflict (write_entry copy deployments entry) :=
          write_entry_no_conflict
        rw [hwrite] at hno
        simp only [hnone, true_and, reduceCtorEq, false_implies, implies_true, iff_true]
        cases e <;> first | exact absurd trivial hno | exact id
      | ok reached =>
        simp only [hnone, true_and, Except.ok.injEq, forall_eq']
        exact ih (hclaims.snoc)

theorem apply_entries_of_fold {claims' : Claims}
    (h : fold_writes render copy deployments claims entries = .ok (deployments', claims')) :
    apply_entries copy deployments entries = .ok deployments' := by
  induction entries generalizing deployments claims with
  | nil =>
    cases h
    rfl
  | cons entry entries ih =>
    rw [fold_writes] at h
    split at h
    · cases h
    · obtain ⟨reached, hentry, h⟩ := bind_ok.mp h
      exact bind_ok.mpr ⟨reached, hentry, ih h⟩

/-! ## The instances of the stack -/

theorem instance_named_merge_deployment {deployment : Deployment V} {id : String}
    (hid : ∀ inst ∈ deployment.instances, inst.instance_id ≠ id) :
    instance_named (merge_deployment deployments deployment) id =
      instance_named deployments id := by
  have hnone : deployment.instances.find? (fun inst => inst.instance_id = id) = none := by
    simpa using hid
  rw [merge_deployment]
  split
  · rename_i hany
    obtain ⟨entry, hfind⟩ := Option.isSome_iff_exists.mp (find?_isSome.mpr
      (any_eq_true.mp hany))
    obtain ⟨l1, l2, rfl, hentry, hl1⟩ := find?_split hfind
    rw [editFirst_split hl1 hentry]
    simp [instance_named, instances, find?_append, hnone]
  · simp [instance_named, instances, find?_append, hnone]

theorem instance_named_merge_deployments {added : List (Deployment V)} {id : String}
    (hid : id ∉ ids added) : instance_named (added.foldl merge_deployment deployments) id =
      instance_named deployments id := by
  induction added generalizing deployments with
  | nil => rfl
  | cons deployment added ih =>
    have hmem : ∀ inst ∈ deployment.instances ++ instances added, inst.instance_id ≠ id := by
      intro inst hinst heq
      refine hid (mem_map.mpr ⟨inst, ?_, heq⟩)
      simpa [instances] using hinst
    rw [foldl_cons, ih, instance_named_merge_deployment]
    · exact fun inst hinst => hmem inst (mem_append_left _ hinst)
    · intro hin
      obtain ⟨inst, hinst, heq⟩ := mem_map.mp hin
      exact hmem inst (mem_append_right _ hinst) heq

theorem add_copy_ok {flat' : PeppyLauncher V} {copy : ComposedCopy V}
    (h : add_copy flat copy = .ok flat') {id : String}
    (hinst : instance_named flat.deployments id = some inst) :
    instance_named flat'.deployments id = some inst := by
  rw [add_copy] at h
  split at h
  · cases h
  rename_i hnone
  cases h
  have hid : id ∉ ids copy.deployments := by
    intro hin
    have hout : id ∉ ids flat.deployments := by simpa using find?_eq_none.mp hnone id hin
    refine hout (mem_map.mpr ⟨inst, mem_of_find?_eq_some hinst, ?_⟩)
    simpa using find?_some hinst
  rw [instance_named_merge_deployments hid]
  exact hinst

/-! ## The composition of one copy -/

theorem expand_unit_ok {unit : Unit V} {core_nodes : List String} {expanded : Expanded V}
    (h : expand_unit unit core_nodes = .ok expanded) :
    (((collect_deployments unit).flatMap fun entry => entry.1.instances).map
      fun inst => inst.instance_id).Nodup ∧ expanded.core_nodes = union_core_nodes unit core_nodes ∧
    ∃ merged, apply_adjustments (merge_by_source (collect_deployments unit))
      (plan_adjustments unit ((definitions (collect_deployments unit)).map Prod.fst)).1 =
        .ok (merged, expanded.applied) := by
  obtain ⟨defined, hdefined, h⟩ := bind_ok.mp h
  obtain ⟨⟨merged, applied⟩, hmerged, h⟩ := bind_ok.mp h
  obtain ⟨_, -, h⟩ := bind_ok.mp h
  cases h
  obtain ⟨rfl, hnodup⟩ := defined_once_ok (by simp) hdefined
  rw [nil_append, map_definitions] at hnodup
  exact ⟨hnodup, rfl, merged, hmerged⟩

theorem targets_of_overrides {origin : String} {overrides : List (String × V)} :
    (override_arguments origin inst overrides).1.instance_id = inst.instance_id ∧
      ∀ entry ∈ (override_arguments origin inst overrides).2, entry.target = inst.instance_id := by
  induction overrides generalizing inst with
  | nil => exact ⟨rfl, fun _ h => nomatch h⟩
  | cons entry overrides ih =>
    obtain ⟨hid, htargets⟩ := @ih { inst with arguments := inst.arguments.insert entry.1 entry.2 }
    refine ⟨hid, ?_⟩
    rw [override_arguments, forall_mem_cons]
    exact ⟨rfl, htargets⟩

theorem targets_of_apply_overrides {name : String} {arguments : List (String × List (String × V))}
    {overridden : List (AppliedAdjustment V)}
    (h : apply_overrides name owned deployments arguments = .ok (deployments', overridden)) :
    ∀ entry ∈ overridden, entry.target ∈ owned := by
  induction arguments generalizing deployments overridden with
  | nil =>
    cases h
    exact fun _ h => nomatch h
  | cons argument arguments ih =>
    rw [apply_overrides] at h
    split at h
    · rename_i howned
      split at h
      · cases h
      rename_i inst hinst
      obtain ⟨⟨after, later⟩, hrest, h⟩ := bind_ok.mp h
      cases h
      intro entry hentry
      rcases mem_append.mp hentry with hentry | hentry
      · have hid : inst.instance_id = argument.1 := by simpa using find?_some hinst
        rw [targets_of_overrides.2 entry hentry, hid]
        exact howned
      · exact ih hrest entry hentry
    · cases h

theorem ids_of_mint_instances {insts minted : List (DeploymentInstance V)}
    (h : mint_instances rw' copy owned insts = .ok minted) :
    ∀ inst ∈ minted, ∃ id ∈ owned, inst.instance_id = instance_id_in_copy copy id := by
  induction insts generalizing minted with
  | nil =>
    cases h
    exact fun _ h => nomatch h
  | cons inst insts ih =>
    rw [mint_instances] at h
    split at h
    · rename_i howned
      obtain ⟨first, hfirst, h⟩ := bind_ok.mp h
      obtain ⟨rest, hrest, h⟩ := bind_ok.mp h
      cases h
      refine forall_mem_cons.mpr ⟨⟨inst.instance_id, howned, ?_⟩, ih hrest⟩
      rw [mint_instance] at hfirst
      split at hfirst
      · cases hfirst
      · split at hfirst <;> cases hfirst
        rfl
    · exact ih h

theorem ids_of_mint_deployments {minted : List (Deployment V)}
    (h : mint_deployments rw' copy owned deployments = .ok minted) :
    ∀ id ∈ ids minted, ∃ own ∈ owned, id = instance_id_in_copy copy own := by
  induction deployments generalizing minted with
  | nil =>
    cases h
    exact fun _ h => nomatch h
  | cons deployment deployments ih =>
    obtain ⟨insts, hinsts, h⟩ := bind_ok.mp h
    obtain ⟨rest, hrest, h⟩ := bind_ok.mp h
    split at h <;> cases h
    · exact ih hrest
    intro id hid
    rw [ids, instances, flatMap_cons, map_append, mem_append] at hid
    rcases hid with hid | hid
    · obtain ⟨inst, hinst, rfl⟩ := mem_map.mp hid
      exact ids_of_mint_instances hinsts inst hinst
    · exact ih hrest id hid

/-- What an accepted copy is made of. -/
structure Composed (bare : Expanded V) (request : CopyRequest V) (copy : ComposedCopy V)
    (laid : CopyOverStack V) : Prop where
  resolved : request.resolved = .ok laid
  name : copy.name = request.name
  foreign : ∀ id ∈ node_ids laid.fragments, id ∉ ids bare.deployments
  minted : ∀ id ∈ node_ids laid.fragments,
    instance_id_in_copy request.name id ∉ ids bare.deployments
  deployments : ∀ id ∈ ids copy.deployments, ∃ own ∈ node_ids laid.fragments,
    id = instance_id_in_copy request.name own
  core_nodes : copy.core_nodes = union_core_nodes (copy_unit bare request laid) [] ++ [copy.name]
  writes : ∃ expanded overridden applied,
    expand_unit (copy_unit bare request laid) [] = .ok expanded ∧
    (∀ entry ∈ overridden, entry.target ∈ node_ids laid.fragments) ∧
    rewrite_report (rewrite request.name (node_ids laid.fragments)) request.name
      (node_ids laid.fragments) (expanded.applied ++ overridden) = .ok applied ∧
    copy.stack_writes = (applied.filter fun entry =>
      entry.target ∉ (node_ids laid.fragments).map (instance_id_in_copy request.name)).map
        fun entry => ⟨entry.target, entry.change⟩

theorem check_copy_ok {laid : CopyOverStack V} (h : check_copy bare request laid = .ok owned) :
    owned = node_ids laid.fragments ∧ ∀ id ∈ owned, id ∉ ids bare.deployments := by
  simp only [check_copy] at h
  split at h
  · cases h
  obtain ⟨_, -, h⟩ := bind_ok.mp h
  split at h
  · cases h
  split at h
  · cases h
  rename_i hnone
  obtain ⟨_, -, h⟩ := bind_ok.mp h
  cases h
  have hnone := Option.eq_none_iff_forall_ne_some.mpr hnone
  exact ⟨rfl, fun id hid => by simpa using find?_eq_none.mp hnone id hid⟩

theorem compose_copy_ok {taken : List String}
    {copy : ComposedCopy V} (h : compose_copy bare request taken = .ok copy) :
    ∃ laid, Composed bare request copy laid := by
  simp only [compose_copy] at h
  split at h
  · cases h
  obtain ⟨laid, hover, h⟩ := bind_ok.mp h
  obtain ⟨owned, howned, h⟩ := bind_ok.mp h
  obtain ⟨rfl, hforeign⟩ := check_copy_ok howned
  obtain ⟨expanded, hexpanded, h⟩ := bind_ok.mp h
  obtain ⟨⟨deployments, overridden⟩, hoverridden, h⟩ := bind_ok.mp h
  dsimp only at h
  split at h
  · cases h
  rename_i hnone
  obtain ⟨minted, hminted, h⟩ := bind_ok.mp h
  obtain ⟨applied, happlied, h⟩ := bind_ok.mp h
  obtain ⟨_, -, h⟩ := bind_ok.mp h
  cases h
  refine ⟨laid, hover, rfl, hforeign, fun id hid => ?_, ids_of_mint_deployments hminted, ?_,
    expanded, overridden, applied, hexpanded, targets_of_apply_overrides hoverridden, happlied, rfl⟩
  · have hnone := Option.eq_none_iff_forall_ne_some.mpr hnone
    simpa using find?_eq_none.mp hnone _ (mem_map_of_mem hid)
  · dsimp only
    rw [(expand_unit_ok hexpanded).2.1]

def copy_adjustments (bare : Expanded V) (request : CopyRequest V) (laid : CopyOverStack V) :
    List (OriginatedAdjustment V) :=
  let unit := copy_unit bare request laid
  (plan_adjustments unit ((definitions (collect_deployments unit)).map Prod.fst)).1.map
    (OriginatedAdjustment.renamed (rewrite request.name (node_ids laid.fragments)))

/-- What the copy leaves on a stack instance. The later of two writes stands. -/
def left_on (bare : Expanded V) (request : CopyRequest V) (laid : CopyOverStack V)
    (inst : DeploymentInstance V) :
    Except CompositionError (DeploymentInstance V × List (AppliedChange V)) :=
  apply_verbs inst.instance_id inst
    (writes_on inst.instance_id (copy_adjustments bare request laid))

section
variable {bare : Expanded V} {request : CopyRequest V} {copy : ComposedCopy V}
  {laid : CopyOverStack V}

variable {inst : DeploymentInstance V}

theorem Composed.mint_iff (h : Composed bare request copy laid)
    (hinst : inst ∈ instances bare.deployments) (other : String) :
    mint request.name (node_ids laid.fragments) other = inst.instance_id ↔
      other = inst.instance_id := by
  have hid : inst.instance_id ∈ ids bare.deployments := mem_map_of_mem hinst
  rw [mint]
  split
  · rename_i howned
    constructor
    · intro heq
      exact absurd (heq ▸ hid) (h.minted other howned)
    · rintro rfl
      exact absurd hid (h.foreign _ howned)
  · exact Iff.rfl

theorem Composed.left_on (h : Composed bare request copy laid) {inst' : DeploymentInstance V}
    (hinst : inst ∈ instances bare.deployments) {origin : String}
    (hwrites : apply_writes origin inst ((copy.stack_writes.filter fun entry =>
      entry.instance_id = inst.instance_id).map StackWriteEntry.write) = .ok inst') :
    ∃ recorded, compose.left_on bare request laid inst = .ok (inst', recorded) := by
  obtain ⟨expanded, overridden, applied, hexpanded, htargets, hreport, hstack⟩ := h.writes
  obtain ⟨hnodup, -, merged, hmerged⟩ := expand_unit_ok hexpanded
  have hperm := instances_merge_by_source (collect_deployments (copy_unit bare request laid))
  -- the instance is one of the unit, under its own id
  have hnamed : instance_named (merge_by_source (collect_deployments (copy_unit bare request laid)))
      inst.instance_id = some inst := by
    refine (instance_named_eq_some ((hperm.map _).nodup_iff.mpr hnodup)).mpr ⟨hperm.mem_iff.mpr ?_, rfl⟩
    obtain ⟨deployment, hdeployment, hinst⟩ := mem_flatMap.mp hinst
    refine mem_flatMap.mpr ⟨(deployment, "the stack"), mem_append_left _ ?_, hinst⟩
    exact mem_map.mpr ⟨deployment, hdeployment, rfl⟩
  obtain ⟨left, changes, hverbs, -, hchanges⟩ := adjusted_instance hmerged hnamed
  have hrenamed := changes_of_report hreport (h.mint_iff hinst)
  -- the arguments of the copy are written to its own instances alone
  have howned : overridden.filter (fun entry => entry.target = inst.instance_id) = [] := by
    refine filter_eq_nil_iff.mpr fun entry hentry heq => ?_
    have heq : entry.target = inst.instance_id := by simpa using heq
    exact h.foreign _ (htargets entry hentry) (heq ▸ mem_map_of_mem hinst)
  rw [filter_append, howned, append_nil, hchanges] at hrenamed
  have hwritten : (copy.stack_writes.filter fun entry =>
      entry.instance_id = inst.instance_id).map StackWriteEntry.write =
      (applied.filter fun entry => entry.target = inst.instance_id).map
        AppliedAdjustment.change := by
    rw [hstack, filter_map, map_map, filter_filter]
    refine congrArg _ (filter_congr fun entry _ => ?_)
    by_cases heq : entry.target = inst.instance_id
    · have hnot : entry.target ∉
          (node_ids laid.fragments).map (instance_id_in_copy request.name) := by
        intro hin
        obtain ⟨id, hid, hmint⟩ := mem_map.mp hin
        exact h.minted id hid (hmint ▸ heq ▸ mem_map_of_mem hinst)
      simp [heq ▸ hnot, heq]
    · simp [heq]
  rw [hwritten] at hwrites
  rw [compose.left_on, copy_adjustments, writes_on_renamed]
  exact replay_verbs (adds_writes_on _ _) (fun _ => rfl) hverbs hrenamed hwrites

end

theorem add_copy_no_conflict {copy : ComposedCopy V} : ¬ IsCopiesConflict (add_copy flat copy) := by
  rw [add_copy]
  split <;> exact id

theorem combine_conflict_iff {validate : PeppyLauncher V → Option String} {copy : ComposedCopy V} :
    IsCopiesConflict (combine render validate bare [copy]) ↔
      IsCopiesConflict (fold_writes render copy.name bare.deployments (fun _ => none)
        copy.stack_writes) := by
  rw [combine, isCopiesConflict_bind, fold_copies, isCopiesConflict_bind]
  constructor
  · rintro ((hfold | ⟨made, -, hadd⟩) | ⟨flat, -, hvalid⟩)
    · exact hfold
    · rcases isCopiesConflict_bind.mp hadd with hadd | ⟨flat, -, hdone⟩
      · exact absurd hadd add_copy_no_conflict
      · cases hdone
    · split at hvalid <;> cases hvalid
  · exact fun hfold => .inl (.inl hfold)

/-- The fold does not fail with a conflict, and leaves what the expansion leaves. -/
def Reproduces (render : Rendering V) (validate : PeppyLauncher V → Option String)
    (bare : Expanded V) (request : CopyRequest V) (copy : ComposedCopy V) : Prop :=
  (∀ first second target difference, combine render validate bare [copy] ≠
    .error (.CopiesConflict first second target difference)) ∧
  ∀ flat laid, combine render validate bare [copy] = .ok flat → request.resolved = .ok laid →
    ∀ inst ∈ instances bare.deployments, ∃ left recorded,
      left_on bare request laid inst = .ok (left, recorded) ∧
      instance_named flat.deployments inst.instance_id = some left

/-- Folding a copy alone into the stack reproduces its expansion just when each write of
it appends after its write to the same field before, or reads the same. -/
theorem the_fold_of_a_copy_that_agrees_with_itself (render : Rendering V)
    (validate : PeppyLauncher V → Option String) (bare : Expanded V) (request : CopyRequest V)
    (taken : List String) (copy : ComposedCopy V)
    (hcopy : compose_copy bare request taken = .ok copy) :
    Reproduces render validate bare request copy ↔
      Agree render copy.name [] bare.deployments copy.stack_writes := by
  have hclaims : ClaimsOf render copy.name [] fun _ => none := fun _ => rfl
  rw [← fold_conflict_iff hclaims, ← @combine_conflict_iff V render bare validate copy]
  constructor
  · rintro ⟨hno, -⟩ hconflict
    obtain ⟨first, second, target, difference, hcombine⟩ := isCopiesConflict_iff.mp hconflict
    exact hno first second target difference hcombine
  intro hno
  constructor
  · intro first second target difference hcombine
    exact hno (isCopiesConflict_iff.mpr ⟨first, second, target, difference, hcombine⟩)
  intro flat laid hcombine hover inst hinst
  obtain ⟨laid', hcomposed⟩ := compose_copy_ok hcopy
  cases hover.symm.trans hcomposed.resolved
  obtain ⟨flat', hfold, hvalid⟩ := bind_ok.mp hcombine
  have hflat : flat' = flat := by
    split at hvalid <;> cases hvalid
    rfl
  subst hflat
  obtain ⟨⟨deployments, claims⟩, hwrites, hadd⟩ := bind_ok.mp hfold
  obtain ⟨added, hadd, hdone⟩ := bind_ok.mp hadd
  cases hdone
  have hids : (ids bare.deployments).Nodup := by
    obtain ⟨expanded, -, -, hexpanded, -⟩ := hcomposed.writes
    refine (expand_unit_ok hexpanded).1.sublist ?_
    rw [collect_deployments, flatMap_append, map_append]
    refine List.Sublist.trans ?_ (sublist_append_left _ _)
    simp [copy_unit, ids, instances, flatMap_map]
  have hnamed := (instance_named_eq_some hids).mpr ⟨hinst, rfl⟩
  obtain ⟨inst', hinst', hwritten⟩ := written_instance (apply_entries_of_fold hwrites) hnamed
  obtain ⟨recorded, hleft⟩ := hcomposed.left_on hinst hinst'
  exact ⟨inst', recorded, hleft, add_copy_ok hadd hwritten⟩

/-! ## An engine that two adjustments of a copy write -/

def engineStack : Expanded String where
  deployments := [⟨"engine", [{
    instance_id := "engine_inst"
    arguments := ⟨[("hardware", "none")], by decide⟩ }]⟩]
  core_nodes := []

theorem adds_nil : ∀ entry ∈ ([] : List (String × List String)), entry.2 ≠ [] := by decide

def hardware (value origin : String) : OriginatedAdjustment String :=
  ⟨{ target := "engine_inst", set_arguments := [("hardware", value)], adds := adds_nil }, origin⟩

def alphaRequest (launcher_adjustments : List (OriginatedAdjustment String)) :
    CopyRequest String where
  name := "alpha"
  option := "v1"
  resolved := .ok {
    selection := [("robot", "v1")]
    fragments := [{
      origin := "fragments/v1.json5"
      deployments := [⟨"arm", [{ instance_id := "arm_inst" }]⟩] }]
    verdict := .ok ⟨⟩
    launcher_adjustments }

def alphaCopy (stack_writes : List (StackWriteEntry String)) : ComposedCopy String where
  name := "alpha"
  option := "v1"
  deployments := [⟨"arm", [{ instance_id := "alpha_arm_inst", core_node := some "alpha" }]⟩]
  stack_writes
  core_nodes := ["alpha"]

def asWritten : Rendering String where
  value := id
  link := fun _ => "a link"
  restart := fun _ => "a policy"
  launch_variables := fun _ => "a list"

/-- The option and the top level write the hardware of the engine alike, and the fold
keeps it. -/
theorem the_fold_of_an_engine : Reproduces asWritten (fun _ => none) engineStack
      (alphaRequest [hardware "v1" "option v1", hardware "v1" "top-level adjustments"])
      (alphaCopy [⟨"engine_inst", .Argument "hardware" (some "none") "v1"⟩,
        ⟨"engine_inst", .Argument "hardware" (some "v1") "v1"⟩]) := by
  refine (the_fold_of_a_copy_that_agrees_with_itself asWritten (fun _ => none) engineStack
    (alphaRequest [hardware "v1" "option v1", hardware "v1" "top-level adjustments"]) []
    (alphaCopy [⟨"engine_inst", .Argument "hardware" (some "none") "v1"⟩,
      ⟨"engine_inst", .Argument "hardware" (some "v1") "v1"⟩]) rfl).mpr ?_
  intro earlier entry later reached hsplit _ last hlast
  match earlier with
  | [] => cases hlast
  | [first] =>
    simp only [alphaCopy, cons_append, nil_append, cons.injEq] at hsplit
    obtain ⟨rfl, rfl, -⟩ := hsplit
    cases hlast
    rfl
  | _ :: _ :: _ => simp [alphaCopy] at hsplit

/-- The option writes the hardware of the engine, and the top level of the
launcher overrides it. The fold refuses the copy as one that disagrees with
itself. -/
theorem a_copy_that_conflicts_with_itself : compose_copy engineStack
        (alphaRequest [hardware "v1" "option v1", hardware "v2" "top-level adjustments"]) [] =
      .ok (alphaCopy [⟨"engine_inst", .Argument "hardware" (some "none") "v1"⟩,
        ⟨"engine_inst", .Argument "hardware" (some "v1") "v2"⟩]) ∧
    combine asWritten (fun _ => none) engineStack
        [alphaCopy [⟨"engine_inst", .Argument "hardware" (some "none") "v1"⟩,
          ⟨"engine_inst", .Argument "hardware" (some "v1") "v2"⟩]] =
      .error (.CopiesConflict "alpha" "alpha" "engine_inst.arguments.hardware"
        "alpha writes v1, alpha writes v2") :=
  ⟨rfl, rfl⟩

end peppy.compose
