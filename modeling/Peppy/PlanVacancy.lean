-- The links of a plan as one: which keys name a slot, and which slots may be written
-- vacant. A slot that its own instance writes vacant is still taken by a link from
-- the other side.
import Peppy.PlanPairingLaws

open peppy.node_config stable_sort List

namespace peppy.launcher

/-! ## The slots of a manifest -/

inductive LinkSlotKind where
  | Binding (cardinality : Cardinality)
  | Participant (cardinality : Cardinality)
  | Observer (cardinality : Cardinality)

inductive VacancyRefusal where
  | ManifestRequires (declare_emptiable : String)
  | NoEmptyState (requirement : String)
  | SpelledDifferently (empty_spelling : String)

def PARTICIPANT_EMPTIABLE_KEY : String :=
  "`cardinality: \"zero_or_one\"` on its `depends_on.pairings` entry"

def OBSERVER_EMPTIABLE_KEY : String :=
  "`cardinality: \"zero_or_one\"` on its `depends_on.pairing_observers` entry"

def BINDING_EMPTIABLE_KEY : String :=
  "`cardinality: \"zero_or_one\"` on its `depends_on.nodes` / `depends_on.contracts` entry"

def multi_slot_empty_set : VacancyRefusal :=
  .SpelledDifferently "an empty array `[]`, or omitting the key entirely"

/-- Why the slot refuses a vacancy: only a `zero_or_one` slot takes one. -/
def LinkSlotKind.refuse_vacancy : LinkSlotKind → Option VacancyRefusal
  | .Participant .ZeroOrOne | .Observer .ZeroOrOne | .Binding .ZeroOrOne => none
  | .Participant .One => some (.ManifestRequires PARTICIPANT_EMPTIABLE_KEY)
  | .Participant .ZeroOrMore => some multi_slot_empty_set
  | .Participant .OneOrMore => some (.NoEmptyState
      ("at least one peer, or `cardinality: \"zero_or_more\"` on its " ++
        "`depends_on.pairings` entry"))
  | .Observer .One => some (.ManifestRequires OBSERVER_EMPTIABLE_KEY)
  | .Binding .One => some (.ManifestRequires BINDING_EMPTIABLE_KEY)
  | .Observer .ZeroOrMore | .Binding .ZeroOrMore => some multi_slot_empty_set
  | .Observer .OneOrMore => some (.NoEmptyState
      ("at least one source, or `cardinality: \"zero_or_more\"` on its " ++
        "`depends_on.pairing_observers` entry"))
  | .Binding .OneOrMore => some (.NoEmptyState
      ("at least one bound producer, or `cardinality: \"zero_or_more\"` on " ++
        "its `depends_on.nodes` / `depends_on.contracts` entry"))

def LinkSlotKind.describe : LinkSlotKind → String
  | .Binding cardinality =>
    "a producer-binding slot (cardinality `" ++ cardinality.as_str ++ "`)"
  | .Participant cardinality =>
    "a participant pairing slot (cardinality `" ++ cardinality.as_str ++ "`)"
  | .Observer cardinality => "an observer slot (cardinality `" ++ cardinality.as_str ++ "`)"

def DeclaredLinkSlots (depends_on : DependsOn) : List (String × LinkSlotKind) :=
  depends_on.nodes.map (fun dependency => (dependency.link_id, .Binding dependency.cardinality)) ++
  depends_on.contracts.map
    (fun dependency => (dependency.link_id, .Binding dependency.cardinality)) ++
  depends_on.pairings.map (fun dep => (dep.link_id, .Participant dep.cardinality)) ++
  depends_on.pairing_observers.map fun dep => (dep.link_id, .Observer dep.cardinality)

/-- A later insert of a key replaces the slot of an earlier one. -/
def kind_of (depends_on : DependsOn) (link : String) : Option LinkSlotKind :=
  (DeclaredLinkSlots depends_on).reverse.lookup link

def declared_csv (depends_on : DependsOn) : String :=
  ", ".intercalate (sortByKey id ((DeclaredLinkSlots depends_on).map Prod.fst).dedup)

/-! ## The passes over the plan -/

/-- The instances of a node, with its dependencies unless they run already. -/
structure BindingValidationItem where
  node_name : String
  node_tag : String
  instances : List DeploymentInstance
  depends_on : Option DependsOn

/-- The errors of the passes. `ε` are those of the passes that no pair depends on. -/
inductive LinkPlanError (ε : Type) where
  | LinkToDaemonTarget (owner_instance_id link : String)
  | LinkUnknownSlot (owner_instance_id link declared_link_ids : String)
  | LinkVacantInvalid (owner_instance_id link_id slot_kind : String) (refusal : VacancyRefusal)
  | DuplicateInstanceIdAcrossStack (instance_id name_a tag_a name_b tag_b : String)
  | Pairing (error : ParsingError)
  | Other (error : ε)

variable {ε : Type}

def validate_link_slot (depends_on : DependsOn) (owner_id : String) :
    String × LinkValue → Option (LinkPlanError ε)
  | (link, value) =>
    if depends_on.daemon.any fun target => target.link_id = link then
      some (.LinkToDaemonTarget owner_id link)
    else
      match kind_of depends_on link with
      | none => some (.LinkUnknownSlot owner_id link (declared_csv depends_on))
      | some kind =>
        match value.vacancy with
        | none => none
        | some _ => kind.refuse_vacancy.map (.LinkVacantInvalid owner_id link kind.describe)

variable (items : List BindingValidationItem)

def validate_link_slots : List (LinkPlanError ε) :=
  items.flatMap fun item =>
    match item.depends_on with
    | none => []
    | some depends_on =>
      item.instances.flatMap fun entry =>
        entry.links.filterMap (validate_link_slot depends_on entry.instance_id)

structure SeenId where
  instance_id : String
  node_name : String
  node_tag : String

def all_ids : List SeenId :=
  items.flatMap fun item =>
    item.instances.map fun entry => ⟨entry.instance_id, item.node_name, item.node_tag⟩

/-- The ids that an instance before has. `seen` has the first of each. -/
def duplicate_ids (seen : List SeenId) : List SeenId → List (LinkPlanError ε)
  | [] => []
  | next :: rest =>
    match seen.find? fun first => first.instance_id = next.instance_id with
    | some first => .DuplicateInstanceIdAcrossStack next.instance_id first.node_name
        first.node_tag next.node_name next.node_tag :: duplicate_ids seen rest
    | none => duplicate_ids (seen ++ [next]) rest

def check_stack_wide_instance_id_uniqueness : List (LinkPlanError ε) :=
  duplicate_ids [] (all_ids items)

/-- The errors of the other passes: producers, observations and clocks. -/
structure OtherPasses (ε : Type) where
  resolve_instance_slots : List BindingValidationItem → List ε
  validate_observations : List PairingValidationItem → List PlannedPairing →
    AlreadyPairedSlots → List ε
  validate_clock_connections : List BindingValidationItem → List PairingValidationItem →
    List PlannedPairing → List ε

structure LinkPlan where
  binding_items : List BindingValidationItem
  pairing_items : List PairingValidationItem
  /-- The pairing items are made of the instances of the binding items. -/
  same_instances : (pairing_items.flatMap (·.instances)).Sublist
    (binding_items.flatMap (·.instances))
  already_paired : AlreadyPairedSlots
  externally_covered : ExternallyCoveredSlots

structure ValidatedLinkPlan (ε : Type) where
  errors : List (LinkPlanError ε) := []
  planned_pairings : List PlannedPairing := []

def validate_link_plan (passes : OtherPasses ε) (plan : LinkPlan) : ValidatedLinkPlan ε :=
  let slot_errors := validate_link_slots plan.binding_items
  if slot_errors ≠ [] then { errors := slot_errors }
  else
    let binding_errors := check_stack_wide_instance_id_uniqueness plan.binding_items ++
      (passes.resolve_instance_slots plan.binding_items).map .Other
    if binding_errors ≠ [] then { errors := binding_errors }
    else
      let pairings := validate_pairings plan.pairing_items plan.already_paired
        plan.externally_covered
      let errors := pairings.errors.map .Pairing ++
        (passes.validate_observations plan.pairing_items pairings.planned
          plan.already_paired).map .Other
      if errors ≠ [] then { errors }
      else
        let clock_errors := (passes.validate_clock_connections plan.binding_items
          plan.pairing_items pairings.planned).map .Other
        if clock_errors ≠ [] then { errors := clock_errors }
        else { planned_pairings := pairings.planned }

/-! ## What the passes give -/

theorem ids_of_no_duplicate {seen ids : List SeenId}
    (h : (duplicate_ids seen ids : List (LinkPlanError ε)) = []) : (ids.map (·.instance_id)).Nodup ∧
      ∀ next ∈ ids, ∀ first ∈ seen, first.instance_id ≠ next.instance_id := by
  induction ids generalizing seen with
  | nil => simp
  | cons next ids ih =>
    rw [duplicate_ids] at h
    split at h
    · cases h
    next hnone =>
    obtain ⟨hnodup, hfresh⟩ := ih h
    have hseen : ∀ first ∈ seen, first.instance_id ≠ next.instance_id := by
      simpa using hnone
    refine ⟨nodup_cons.mpr ⟨fun hmem => ?_, hnodup⟩, ?_⟩
    · obtain ⟨other, hother, hid⟩ := mem_map.mp hmem
      exact hfresh other hother next (by simp) hid.symm
    · intro other hother first hfirst
      rcases mem_cons.mp hother with rfl | hother
      · exact hseen first hfirst
      · exact hfresh other hother first (by simp [hfirst])

/-- The pairing items repeat no id that the binding items do not. -/
theorem LinkPlan.ids_nodup (plan : LinkPlan)
    (h : (check_stack_wide_instance_id_uniqueness plan.binding_items :
      List (LinkPlanError ε)) = []) : (instanceIds plan.pairing_items).Nodup := by
  have hids := (ids_of_no_duplicate h).1
  have hbinding : (all_ids plan.binding_items).map (·.instance_id) =
      (plan.binding_items.flatMap (·.instances)).map (·.instance_id) := by
    simp [all_ids, map_flatMap, Function.comp_def]
  have hpairing : instanceIds plan.pairing_items =
      (plan.pairing_items.flatMap (·.instances)).map (·.instance_id) := by
    simp [instanceIds, map_flatMap]
  rw [hpairing]
  rw [hbinding] at hids
  exact hids.sublist (plan.same_instances.map _)

theorem accepted_plan {passes : OtherPasses ε} {plan : LinkPlan}
    (h : (validate_link_plan passes plan).errors = []) : (instanceIds plan.pairing_items).Nodup ∧
      (pairPlan plan.pairing_items plan.already_paired).errors = [] ∧
      (validate_link_plan passes plan).planned_pairings =
        (pairPlan plan.pairing_items plan.already_paired).planned := by
  unfold validate_link_plan at h ⊢
  dsimp only at h ⊢
  split at h
  · next hslots => exact absurd h hslots
  next hslots =>
  split at h
  · next hbindings => exact absurd h hbindings
  next hbindings =>
  have hunique := (append_eq_nil_iff.mp (not_not.mp hbindings)).1
  rw [if_neg hslots, if_neg hbindings]
  split at h
  · next herrors => exact absurd h herrors
  next herrors =>
  have hpairs : (pairPlan plan.pairing_items plan.already_paired).errors = [] := by
    have hnone := map_eq_nil_iff.mp (append_eq_nil_iff.mp (not_not.mp herrors)).1
    exact (append_eq_nil_iff.mp (append_eq_nil_iff.mp hnone).1).2
  refine ⟨plan.ids_nodup hunique, hpairs, ?_⟩
  split at h
  · next hclocks => exact absurd h hclocks
  · next hclocks =>
    rw [if_neg herrors, if_neg hclocks]
    rfl

/-! ## The links that pair -/

variable {items : List PairingValidationItem} {already_paired : AlreadyPairedSlots}

/-- The slot is one that the target of the declaration may mean. -/
def PairDeclaration.Names (items : List PairingValidationItem) (declaration : PairDeclaration)
    (slot : Slot) : Prop :=
  slot.1 = declaration.targetInstance ∧ (∀ link ∈ declaration.requested, link = slot.2) ∧
    ∃ item ∈ items, (∃ entry ∈ item.instances, entry.instance_id = slot.1) ∧
      ∃ dep ∈ complementary declaration.own_dep item, dep.link_id = slot.2

instance (declaration : PairDeclaration) (slot : Slot) : Decidable (declaration.Names items slot) :=
  inferInstanceAs (Decidable (_ ∧ _ ∧ _))

/-- The pair of the first declaration is one that the other asks for. -/
def Answers (items : List PairingValidationItem) (first other : PairDeclaration) : Prop :=
  (first.slot = other.slot ∧ first.targetInstance = other.targetInstance) ∨
    first.owner_id = other.targetInstance ∧ first.Names items other.slot

instance (first other : PairDeclaration) : Decidable (Answers items first other) :=
  inferInstanceAs (Decidable (_ ∨ _))

def keep (items : List PairingValidationItem) (kept : List PairDeclaration)
    (declaration : PairDeclaration) : List PairDeclaration :=
  if declaration.requested.isSome ∨ ∀ first ∈ kept, ¬ Answers items first declaration then
    kept ++ [declaration]
  else kept

/-- The declarations that name a slot, and of those that name an instance only the ones
that no kept one before answers. -/
def makers (items : List PairingValidationItem) : List PairDeclaration :=
  (declarations items).foldl (keep items) []

/-- The declaration has its pair, and each slot that it names has a peer. -/
structure Served (items : List PairingValidationItem) (already_paired : AlreadyPairedSlots)
    (plan : PairPlan) (declaration : PairDeclaration) : Prop where
  met : Realised declaration plan.planned
  taken : ∀ slot dep, declaration.Names items slot → SlotOf items slot dep →
    (∃ pair ∈ plan.planned, pair.Between declaration.slot slot) ∨
      dep.cardinality.is_scalar = true ∧ peers_of slot plan.claims already_paired ≠ []

/-- The kept declarations are those that make the pairs. -/
structure Tracks (items : List PairingValidationItem) (already_paired : AlreadyPairedSlots)
    (kept : List PairDeclaration) (plan : PairPlan) : Prop where
  made : ∀ pair ∈ plan.planned, ∃ declaration ∈ kept,
    pair.a.slot = declaration.slot ∧ declaration.Names items pair.b.slot
  served : ∀ declaration ∈ kept, Served items already_paired plan declaration

variable {plan : PairPlan} {declaration : PairDeclaration} {kept : List PairDeclaration}
  {target_item : PairingValidationItem} {peer_dep : PairingParticipantDependency}

theorem agrees_bare (hrequested : declaration.requested = none) {peer : Slot} :
    agrees declaration.targetInstance declaration.requested peer = true ↔
      peer.1 = declaration.targetInstance := by
  simp [agrees, hrequested]

theorem peers_of_append {claims more : Claims} {slot : Slot}
    (h : peers_of slot claims already_paired ≠ []) :
    peers_of slot (claims ++ more) already_paired ≠ [] := by
  simp only [peers_of, Claims.get, filter_append, map_append, ne_eq, append_eq_nil_iff] at h ⊢
  tauto

/-- A declaration that makes a pair is kept. -/
theorem Tracks.keep_of_fits (h : Tracks items already_paired kept plan)
    (hsound : Sound items already_paired plan) (hdeclared : Declared items declaration)
    (hfits : Fits declaration plan.claims already_paired target_item peer_dep) :
    keep items kept declaration = kept ++ [declaration] := by
  refine if_pos ?_
  cases hrequested : declaration.requested with
  | some link => exact .inl rfl
  | none =>
    refine .inr fun first hfirst hanswers => ?_
    have hclash : ∀ pair ∈ plan.planned, ∀ peer : Slot, pair.Between declaration.slot peer →
        peer.1 ≠ declaration.targetInstance := by
      intro pair hpair peer hbetween hpeer
      have hclaim := hsound.claims ▸ mem_get_claimsOf.mpr ⟨pair, hpair, hbetween⟩
      exact Bool.eq_false_iff.mp (hfits.unmatched peer hclaim) ((agrees_bare hrequested).mpr hpeer)
    rcases hanswers with ⟨hslot, htarget⟩ | ⟨howner, hnames⟩
    · obtain ⟨pair, hpair, link, -, hbetween⟩ := (h.served first hfirst).met
      exact hclash pair hpair _ (hslot ▸ hbetween) htarget
    · rcases (h.served first hfirst).taken _ _ hnames hdeclared.slotOf with
        ⟨pair, hpair, hbetween⟩ | ⟨hscalar, hpeers⟩
      · exact hclash pair hpair first.slot (hbetween.symm.imp And.symm And.symm) howner
      · exact hpeers (hfits.own_free hscalar)

/-- A declaration that names an instance only and agrees with a pair is not kept. -/
theorem Tracks.requested_of_agrees (h : Tracks items already_paired kept plan)
    (hsound : Sound items already_paired plan) {peer : Slot}
    (hpeer : peer ∈ plan.claims.get declaration.slot)
    (hagrees : agrees declaration.targetInstance declaration.requested peer = true)
    (hkept : ∀ first ∈ kept, ¬ Answers items first declaration) :
    declaration.requested.isSome = true := by
  by_contra hnone
  have hinstance := (agrees_bare (by simpa using hnone)).mp hagrees
  rw [hsound.claims] at hpeer
  obtain ⟨pair, hpair, ⟨ha, rfl⟩ | ⟨hb, rfl⟩⟩ := mem_get_claimsOf.mp hpeer
  · obtain ⟨first, hfirst, hslot, hnames⟩ := h.made pair hpair
    exact hkept first hfirst (.inl ⟨hslot.symm.trans ha, hnames.1.symm.trans hinstance⟩)
  · obtain ⟨first, hfirst, hslot, hnames⟩ := h.made pair hpair
    refine hkept first hfirst (.inr ⟨?_, hb ▸ hnames⟩)
    exact (congrArg Prod.fst hslot).symm.trans hinstance

/-- A step that keeps one more declaration. -/
theorem Tracks.push {next : PairPlan} {more : Claims} {pairs : List PlannedPairing}
    (h : Tracks items already_paired kept plan) (hclaims : next.claims = plan.claims ++ more)
    (hplanned : next.planned = plan.planned ++ pairs)
    (hmade : ∀ pair ∈ pairs, pair.a.slot = declaration.slot ∧ declaration.Names items pair.b.slot)
    (hserved : Served items already_paired next declaration) :
    Tracks items already_paired (kept ++ [declaration]) next := by
  have hmore : ∀ pair ∈ plan.planned, pair ∈ next.planned := fun pair hpair => by
    simp [hplanned, hpair]
  refine ⟨fun pair hpair => ?_, fun first hfirst => ?_⟩
  · rcases mem_append.mp (hplanned ▸ hpair) with hpair | hpair
    · obtain ⟨first, hfirst, hfirst_made⟩ := h.made pair hpair
      exact ⟨first, by simp [hfirst], hfirst_made⟩
    · exact ⟨declaration, by simp, hmade pair hpair⟩
  · rcases changes.mem_push hfirst with hfirst | rfl
    · obtain ⟨hmet, htaken⟩ := h.served first hfirst
      refine ⟨hmet.mono hmore, fun slot dep hnames hslot => ?_⟩
      refine (htaken slot dep hnames hslot).imp ?_ (And.imp_right fun hpeers => ?_)
      · exact fun ⟨pair, hpair, hbetween⟩ => ⟨pair, hmore pair hpair, hbetween⟩
      · exact hclaims ▸ peers_of_append hpeers
    · exact hserved

theorem Tracks.declare (h : Tracks items already_paired kept plan)
    (hsound : Sound items already_paired plan) (hids : (instanceIds items).Nodup)
    (hdeclared : Declared items declaration)
    (herrors : (plan.declare items already_paired declaration).errors = []) :
    Tracks items already_paired (keep items kept declaration)
      (plan.declare items already_paired declaration) := by
  have hrealised := ((hsound.declare hids hdeclared).2.2 herrors).2
  unfold PairPlan.declare at herrors hrealised ⊢
  cases hresolve : resolve_pair_declaration declaration plan.claims already_paired items with
  | error e => simp [hresolve] at herrors
  | ok result =>
  obtain ⟨target_item, hitem, ⟨rfl, peer, hpeer, hagrees⟩ | ⟨peer_dep, rfl, hfits⟩⟩ :=
    resolve_cases hresolve
  · simp only [hresolve] at hrealised ⊢
    unfold keep
    split
    · next hkept =>
      refine h.push (append_nil _).symm (append_nil _).symm (by simp) ⟨hrealised, ?_⟩
      rintro ⟨slot_instance, slot_link⟩ dep ⟨rfl, hrequested, -⟩ -
      obtain ⟨link, hlink⟩ := Option.isSome_iff_exists.mp
        (hkept.elim id (h.requested_of_agrees hsound hpeer hagrees))
      obtain ⟨pair, hpair, link', hwanted, hbetween⟩ := hrealised
      obtain rfl := (hwanted link hlink).trans (hrequested link hlink)
      exact .inl ⟨pair, hpair, hbetween⟩
    · exact h
  · simp only [hresolve] at hrealised ⊢
    rw [h.keep_of_fits hsound hdeclared hfits]
    obtain ⟨htarget, entry, hentry, hid⟩ := lookup_mem hitem
    refine h.push rfl rfl (forall_mem_singleton.mpr ⟨rfl, rfl, ?_, ?_⟩) ⟨hrealised, ?_⟩
    · exact fun link hlink => (hfits.requested link hlink).symm
    · refine ⟨target_item, htarget, ⟨entry, hentry, hid⟩, peer_dep, ?_, rfl⟩
      simpa [complementary, and_assoc] using ⟨hfits.mem, hfits.same.1, hfits.same.2, hfits.role⟩
    · rintro ⟨slot_instance, slot_link⟩ dep hnames hslot
      obtain ⟨rfl, hrequested, item, hmem, ⟨entry', hentry', hid'⟩, dep', hdep', rfl⟩ := hnames
      obtain ⟨rfl, -⟩ := item_unique hids hmem htarget hentry' hentry (hid'.trans hid.symm)
      have hsame := dep_unique hids hslot
        ⟨item, hmem, entry', hentry', hid', (mem_complementary hdep').1, rfl⟩
      by_cases hopen : slot_open declaration.targetInstance plan.claims already_paired dep' = true
      · rw [hfits.only dep' hdep' hrequested hopen]
        exact .inl ⟨declaration.pairWith peer_dep, by simp, .inl ⟨rfl, rfl⟩⟩
      · refine .inr ⟨?_, peers_of_append ?_⟩ <;> simp_all [slot_open]

theorem Tracks.loop {declared : List PairDeclaration} (h : Tracks items already_paired kept plan)
    (hsound : Sound items already_paired plan) (hids : (instanceIds items).Nodup)
    (hdeclared : ∀ declaration ∈ declared, Declared items declaration)
    (herrors : (declared.foldl (PairPlan.declare items already_paired) plan).errors = []) :
    Tracks items already_paired (declared.foldl (keep items) kept)
      (declared.foldl (PairPlan.declare items already_paired) plan) := by
  induction declared generalizing kept plan with
  | nil => exact h
  | cons first declared ih =>
    obtain ⟨hfirst, hrest⟩ := forall_mem_cons.mp hdeclared
    have hnext := (hsound.declare hids hfirst).1
    exact ih (h.declare hsound hids hfirst ((hnext.loop hids hrest).2.2 herrors).1) hnext hrest
      herrors

theorem makers_subset (h : declaration ∈ makers items) : declaration ∈ declarations items := by
  have hloop : ∀ declared kept, declaration ∈ foldl (keep items) kept declared →
      declaration ∈ kept ∨ declaration ∈ declared := by
    intro declared
    induction declared with
    | nil => exact fun kept => .inl
    | cons first declared ih =>
      intro kept hmem
      rcases ih _ hmem with hnext | hrest
      · unfold keep at hnext
        split at hnext
        · exact (changes.mem_push hnext).imp_right fun heq => by simp [heq]
        · exact .inl hnext
      · exact .inr (by simp [hrest])
  simpa using hloop _ _ h

theorem link_of_declaration {declaration : PairDeclaration} (h : declaration ∈ declarations items) :
    ∃ planned ∈ plan_links items, ∃ dep ∈ planned.item.pairing_deps, ∃ selection,
      planned.link = (dep.link_id, .Bound selection) ∧ declaration.target ∈ selection.targets ∧
      declaration.slot = (planned.entry.instance_id, dep.link_id) := by
  obtain ⟨declared, hdeclared, hdeclaration⟩ := mem_flatMap.mp (mem_sortByKey.mp h)
  obtain ⟨planned, hplanned, rfl⟩ := mem_map.mp hdeclared
  refine ⟨planned, hplanned, ?_⟩
  unfold link_declarations at hdeclaration
  split at hdeclaration
  · cases hdeclaration
  next own_dep hdep =>
  have hlink : own_dep.link_id = planned.link.1 := by simpa using find?_some hdep
  split at hdeclaration
  · cases hdeclaration
  next selection hselection =>
  split at hdeclaration
  · cases hdeclaration
  obtain ⟨target, htarget, rfl⟩ := mem_map.mp hdeclaration
  refine ⟨own_dep, mem_of_find?_eq_some hdep, selection, ?_, htarget, ?_⟩
  · obtain ⟨_, _, ⟨link, value⟩⟩ := planned
    cases value with
    | Bound bound =>
      cases hselection
      exact congrArg (·, _) hlink.symm
    | Vacant reason => cases hselection
  · exact congrArg (planned.entry.instance_id, ·) hlink.symm

/-! ## The slots written vacant -/

/-- The instance writes the slot vacant. -/
def Vacated (items : List PairingValidationItem) (slot : Slot) : Prop :=
  ∃ item ∈ items, ∃ entry ∈ item.instances, ∃ dep ∈ item.pairing_deps, ∃ reason,
    (dep.link_id, .Vacant reason) ∈ entry.links ∧ slot = (entry.instance_id, dep.link_id)

/-- No slot with a target is written vacant: a key of an instance has one value. -/
theorem not_vacated_of_bound (hids : (instanceIds items).Nodup) {planned : PlanLink}
    (hplanned : planned ∈ plan_links items) {link_id : String} {selection : Selection}
    (hlink : planned.link = (link_id, .Bound selection)) :
    ¬ Vacated items (planned.entry.instance_id, link_id) := by
  rintro ⟨item, hitem, entry, hentry, dep, -, reason, hvacant, hslot⟩
  obtain ⟨hplannedItem, -, hplannedEntry, hmem⟩ := mem_plan_links.mp hplanned
  obtain ⟨hid, rfl⟩ := Prod.mk.inj hslot
  obtain ⟨-, rfl⟩ := item_unique hids hplannedItem hitem hplannedEntry hentry hid
  rw [hlink] at hmem
  have hsame := inj_on_of_nodup_map planned.entry.keys_nodup hmem hvacant rfl
  cases hsame

/-- The declaration may mean the slot, which no running pair holds if it takes one peer. -/
def PairDeclaration.Takes (items : List PairingValidationItem) (already_paired : AlreadyPairedSlots)
    (declaration : PairDeclaration) (slot : Slot) : Prop :=
  declaration.Names items slot ∧ ∀ dep, SlotOf items slot dep →
    dep.cardinality.is_scalar = true → already_paired slot = []

/-- In an accepted plan the slots written vacant have no peer exactly when no link that
pairs takes one. -/
theorem no_peer_of_a_vacancy_iff (passes : OtherPasses ε) (plan : LinkPlan)
    (haccepted : (validate_link_plan passes plan).errors = []) :
    (∀ slot, Vacated plan.pairing_items slot →
      ∀ pair ∈ (validate_link_plan passes plan).planned_pairings, ¬ pair.Touches slot) ↔
    ∀ declaration ∈ makers plan.pairing_items, ∀ slot, Vacated plan.pairing_items slot →
      ¬ declaration.Takes plan.pairing_items plan.already_paired slot := by
  obtain ⟨hids, herrors, hplanned⟩ := accepted_plan haccepted
  rw [hplanned]
  have hdeclared : ∀ declaration ∈ declarations plan.pairing_items,
      Declared plan.pairing_items declaration := fun declaration => declared_of_mem
  have hsound : Sound plan.pairing_items plan.already_paired
      (pairPlan plan.pairing_items plan.already_paired) := (sound_pairPlan hids).1
  have hstart : Tracks plan.pairing_items plan.already_paired [] {} :=
    ⟨by simp, by simp⟩
  have htracks : Tracks plan.pairing_items plan.already_paired (makers plan.pairing_items)
      (pairPlan plan.pairing_items plan.already_paired) :=
    hstart.loop Sound.new hids hdeclared herrors
  constructor
  · -- A slot that a maker names is paired, with it or before it.
    rintro hno_peer declaration hmaker slot hvacated ⟨hnames, hfree⟩
    obtain ⟨item, hitem, entry, hentry, dep, hdep, -, -, rfl⟩ := id hvacated
    have hslot : SlotOf plan.pairing_items (entry.instance_id, dep.link_id) dep :=
      ⟨item, hitem, entry, hentry, rfl, hdep, rfl⟩
    rcases (htracks.served declaration hmaker).taken _ dep hnames hslot with
      ⟨pair, hpair, hbetween⟩ | ⟨hscalar, hpeers⟩
    · exact hno_peer _ hvacated pair hpair (hbetween.elim (fun h => .inr h.2) fun h => .inl h.2)
    · refine hpeers (append_eq_nil_iff.mpr ⟨?_, hfree dep hslot hscalar⟩)
      rw [hsound.claims]
      exact get_claimsOf_eq_nil.mpr (hno_peer _ hvacated)
  · intro hmakers slot hvacated pair hpair htouches
    obtain ⟨declaration, hmaker, ha, hnames⟩ := htracks.made pair hpair
    rcases htouches with rfl | rfl
    · -- The declaring side has a target, so it is not vacant.
      obtain ⟨link, hlink, dep, -, selection, hvalue, -, hslot⟩ :=
        link_of_declaration (makers_subset hmaker)
      rw [ha, hslot] at hvacated
      exact not_vacated_of_bound hids hlink hvalue hvacated
    · refine hmakers declaration hmaker _ hvacated ⟨hnames, fun dep hdep hscalar => ?_⟩
      by_contra hheld
      exact (hsound.scalar _ dep hdep hscalar).2 hheld pair hpair (.inr rfl)

def gripperItems (links : List (String × LinkValue)) (hkeys : (links.map Prod.fst).Nodup) :
    List PairingValidationItem :=
  [{ node_name := "gripper", node_tag := "v1", instances := [⟨"gripper_1", links, hkeys⟩],
     pairing_deps := [mountSlot "tool" "mount" .ZeroOrOne, mountSlot "tool" "spare" .ZeroOrOne],
     preexisting := false },
   { node_name := "arm", node_tag := "v1",
     instances := [⟨"arm_1", [("tool", .Bound (.Scalar "gripper_1/mount"))], by decide⟩],
     pairing_deps := [mountSlot "carrier" "tool" .One], link_ids_nodup := nodup_singleton "tool"
     preexisting := false }]

def gripperPlan (links : List (String × LinkValue)) (hkeys : (links.map Prod.fst).Nodup) :
    LinkPlan where
  binding_items := (gripperItems links hkeys).map fun item =>
    { node_name := item.node_name, node_tag := item.node_tag, instances := item.instances,
      depends_on := some { pairings := item.pairing_deps } }
  pairing_items := gripperItems links hkeys
  same_instances := .refl _
  already_paired := fun _ => []
  externally_covered := []

def silentPasses : OtherPasses Empty where
  resolve_instance_slots := fun _ => []
  validate_observations := fun _ _ _ => []
  validate_clock_connections := fun _ _ _ => []

def spareVacant : LinkPlan := gripperPlan [("spare", .Vacant "one arm only")] (by decide)

theorem the_pair_beside_the_spare_mount :
    (validate_link_plan silentPasses spareVacant).errors = [] ∧
      (validate_link_plan silentPasses spareVacant).planned_pairings.length = 1 ∧
      Vacated spareVacant.pairing_items ("gripper_1", "spare") ∧
      ∀ slot, Vacated spareVacant.pairing_items slot →
        ∀ pair ∈ (validate_link_plan silentPasses spareVacant).planned_pairings,
          ¬ pair.Touches slot := by
  have haccepted : (validate_link_plan silentPasses spareVacant).errors = [] := by decide +kernel
  have hvacated : ∀ slot, Vacated spareVacant.pairing_items slot →
      slot = ("gripper_1", "spare") := by
    rintro slot ⟨item, hitem, entry, hentry, dep, -, reason, hlink, rfl⟩
    simp only [spareVacant, gripperPlan, gripperItems, mem_cons, not_mem_nil,
      or_false] at hitem
    rcases hitem with rfl | rfl <;> simp_all
  have hnames : ∀ declaration ∈ makers spareVacant.pairing_items,
      ¬ declaration.Names spareVacant.pairing_items ("gripper_1", "spare") := by decide +kernel
  refine ⟨haccepted, by decide +kernel, ?_, ?_⟩
  · exact ⟨_, mem_cons_self, _, mem_cons_self, mountSlot "tool" "spare" .ZeroOrOne,
      by simp, "one arm only", mem_cons_self, rfl⟩
  refine (no_peer_of_a_vacancy_iff silentPasses spareVacant haccepted).mpr ?_
  intro declaration hmaker slot hslot htakes
  exact hnames declaration hmaker (hvacated slot hslot ▸ htakes.1)

def mountVacant : LinkPlan :=
  gripperPlan [("mount", .Vacant "no arm here"), ("spare", .Vacant "one arm only")] (by decide)

/-- The plan is accepted, and pairs the arm with the mount that the gripper writes
vacant. -/
theorem the_arm_in_a_vacant_mount : (validate_link_plan silentPasses mountVacant).errors = [] ∧
      Vacated mountVacant.pairing_items ("gripper_1", "mount") ∧
      ∃ pair ∈ (validate_link_plan silentPasses mountVacant).planned_pairings,
        pair.Touches ("gripper_1", "mount") := by
  refine ⟨by decide +kernel, ?_, by decide +kernel⟩
  exact ⟨_, mem_cons_self, _, mem_cons_self, mountSlot "tool" "mount" .ZeroOrOne,
    by simp, "no arm here", mem_cons_self, rfl⟩

end peppy.launcher
