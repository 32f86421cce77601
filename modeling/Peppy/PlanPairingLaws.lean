-- The pairs of a plan that the validator accepts: each joins two slots that fit,
-- no slot holds more than it may, every declared pair is planned, and every
-- slot is covered.
import Mathlib.Data.List.Lattice
import Mathlib.Data.List.Pairwise
import Peppy.PlanPairings
import Peppy.Lib.Changes
import Peppy.Lib.Results

open peppy.node_config stable_sort results List

namespace peppy.launcher

/-! ## One declaration -/

section
variable (declaration : PairDeclaration) (claims : Claims) (already_paired : AlreadyPairedSlots)

def PairDeclaration.slot : Slot := (declaration.owner_id, declaration.key)

def PairDeclaration.targetInstance : String := (split_link_target declaration.target).1

def PairDeclaration.requested : Option String := (split_link_target declaration.target).2

def PairDeclaration.pairWith (peer_dep : PairingParticipantDependency) : PlannedPairing where
  pairing_name := declaration.own_dep.name.as_str
  pairing_tag := declaration.own_dep.tag
  a := { instance_id := declaration.owner_id, link_id := declaration.key,
         role := declaration.own_dep.role, cardinality := declaration.own_dep.cardinality }
  b := { instance_id := declaration.targetInstance, link_id := peer_dep.link_id,
         role := peer_dep.role, cardinality := peer_dep.cardinality }

/-- The rules that a new pair must keep. -/
structure Fits (target_item : PairingValidationItem) (peer_dep : PairingParticipantDependency) :
    Prop where
  mem : peer_dep ∈ target_item.pairing_deps
  same : peer_dep.name = declaration.own_dep.name ∧ peer_dep.tag = declaration.own_dep.tag
  role : peer_dep.role ≠ declaration.own_dep.role
  requested : ∀ link, declaration.requested = some link → peer_dep.link_id = link
  own_free : declaration.own_dep.cardinality.is_scalar = true →
    peers_of declaration.slot claims already_paired = []
  peer_free : peer_dep.cardinality.is_scalar = true →
    peers_of (declaration.targetInstance, peer_dep.link_id) claims already_paired = []
  peer_new :
    declaration.slot ∉ peers_of (declaration.targetInstance, peer_dep.link_id) claims already_paired
  own_new :
    (declaration.targetInstance, peer_dep.link_id) ∉ peers_of declaration.slot claims already_paired
  pins : ∀ own peer, declaration.own_dep.sha256 = some own → peer_dep.sha256 = some peer → own = peer
  unmatched : ∀ peer ∈ claims.get declaration.slot,
    agrees declaration.targetInstance declaration.requested peer = false
  /-- No other slot that the target may mean is open. -/
  only : ∀ dep ∈ complementary declaration.own_dep target_item,
    (∀ link ∈ declaration.requested, link = dep.link_id) →
      slot_open declaration.targetInstance claims already_paired dep = true →
        dep.link_id = peer_dep.link_id

end

variable {declaration : PairDeclaration} {claims : Claims} {already_paired : AlreadyPairedSlots}
  {items : List PairingValidationItem}

variable {item target_item : PairingValidationItem} {dep peer_dep : PairingParticipantDependency}
  {target_instance : String} {entry : DeploymentInstance} {slot : Slot} {plan : PairPlan}

theorem mem_complementary {own_dep : PairingParticipantDependency}
    (h : dep ∈ complementary own_dep target_item) :
    dep ∈ target_item.pairing_deps ∧ (dep.name = own_dep.name ∧ dep.tag = own_dep.tag) ∧
      dep.role ≠ own_dep.role := by
  unfold complementary at h
  simpa [and_assoc] using h

variable {link : String}

theorem resolve_peer_link_ok {requested : Option String}
    (h : resolve_peer_link declaration claims already_paired target_instance requested target_item =
      .ok link) : ∃ dep ∈ complementary declaration.own_dep target_item,
      dep.link_id = link ∧ (∀ wanted, requested = some wanted → link = wanted) ∧
        ∀ other ∈ complementary declaration.own_dep target_item,
          (∀ wanted ∈ requested, wanted = other.link_id) →
            slot_open target_instance claims already_paired other = true →
              other.link_id = link := by
  unfold resolve_peer_link at h
  cases requested with
  | some peer_link =>
    dsimp only at h
    split at h
    · cases h
    next dep hfind =>
    cases h
    have hlink : dep.link_id = peer_link := by simpa using find?_some hfind
    refine ⟨dep, mem_of_find?_eq_some hfind, rfl, ?_, fun other _ hother _ => ?_⟩
    · intro wanted hwanted
      cases hwanted
      exact hlink
    · exact (hother peer_link rfl).symm.trans hlink.symm
  | none =>
    dsimp only at h
    split at h
    · cases h
    · next single hsingle =>
      cases h
      have hmem : single ∈ (complementary declaration.own_dep target_item).filter
          (slot_open target_instance claims already_paired) := by simp [hsingle]
      refine ⟨single, (mem_filter.mp hmem).1, rfl, by simp, fun other hother _ hopen => ?_⟩
      have hother := mem_filter.mpr ⟨hother, hopen⟩
      rw [hsingle] at hother
      rw [mem_singleton.mp hother]
    · cases h

theorem find?_link_id (h : dep ∈ target_item.pairing_deps) :
    target_item.pairing_deps.find? (fun other => other.link_id = dep.link_id) = some dep :=
  changes.find?_key target_item.link_ids_nodup h

open PairDeclaration

theorem check_exclusive_ok
    (h : check_exclusive declaration claims already_paired target_instance link peer_dep = .ok ()) :
    (peer_dep.cardinality.is_scalar = true →
        peers_of (target_instance, link) claims already_paired = []) ∧
      declaration.slot ∉ peers_of (target_instance, link) claims already_paired ∧
    (target_instance, link) ∉ peers_of declaration.slot claims already_paired := by
  unfold check_exclusive at h
  dsimp only at h
  split at h
  · cases h
  next hfree =>
  have hempty : peer_dep.cardinality.is_scalar = true →
      peers_of (target_instance, link) claims already_paired = [] := by
    intro hscalar
    simpa [hscalar] using hfree
  split at h
  · cases h
  next hheld =>
  split at h
  · cases h
  next hown =>
  refine ⟨hempty, fun hmem => ?_, fun hmem => hown (by simpa [slot] using hmem)⟩
  cases hscalar : peer_dep.cardinality.is_scalar with
  | true => simp [hempty hscalar] at hmem
  | false => exact hheld (by simpa [hscalar, slot] using hmem)

theorem check_pins_ok (h : check_pins declaration target_instance peer_dep = .ok ()) :
    ∀ own peer, declaration.own_dep.sha256 = some own → peer_dep.sha256 = some peer →
      own = peer := by
  intro own peer hown hpeer
  simp only [check_pins, hown, hpeer] at h
  split at h
  · cases h
  · next heq => simpa using heq

/-- A declaration that breaks no rule agrees with a pair, or makes one. -/
theorem resolve_cases {result : Option PlannedPairing}
    (h : resolve_pair_declaration declaration claims already_paired items = .ok result) :
    ∃ target_item, build_instance_lookup items declaration.targetInstance = some target_item ∧
      ((result = none ∧ ∃ peer ∈ claims.get declaration.slot,
          agrees declaration.targetInstance declaration.requested peer = true) ∨
        ∃ peer_dep, result = some (declaration.pairWith peer_dep) ∧
          Fits declaration claims already_paired target_item peer_dep) := by
  unfold resolve_pair_declaration at h
  dsimp only at h
  split at h
  · cases h
  next target_item hitem =>
  refine ⟨target_item, hitem, ?_⟩
  split at h
  · next hagrees =>
    cases h
    obtain ⟨peer, hpeer, hagree⟩ := any_eq_true.mp hagrees
    exact .inl ⟨rfl, peer, hpeer, hagree⟩
  next hagrees =>
  · split at h
    · cases h
    next hclaims =>
    split at h
    · cases h
    next hheld =>
    obtain ⟨link, hlink, h⟩ := bind_ok.mp h
    obtain ⟨dep, hdep, rfl, hrequested, honly⟩ := resolve_peer_link_ok hlink
    obtain ⟨hmem, hsame, hrole⟩ := mem_complementary hdep
    rw [find?_link_id hmem] at h
    obtain ⟨_, hexclusive, h⟩ := bind_ok.mp h
    obtain ⟨_, hpins, h⟩ := bind_ok.mp h
    cases h
    obtain ⟨hpeer_free, hpeer_new, hown_new⟩ := check_exclusive_ok hexclusive
    refine .inr ⟨dep, rfl, hmem, hsame, hrole, hrequested, fun hscalar => ?_, hpeer_free,
      hpeer_new, hown_new, check_pins_ok hpins,
      fun peer hpeer => ?_, honly⟩
    · simp only [hscalar, if_true, head?_eq_none_iff] at hclaims hheld
      simp [peers_of, slot, hclaims, hheld]
    · exact Bool.eq_false_iff.mpr fun hagree => hagrees (any_eq_true.mpr ⟨peer, hpeer, hagree⟩)

/-! ## The slots of the plan -/

/-- The slot of an instance, with its dependency. -/
def SlotOf (items : List PairingValidationItem) (slot : Slot) (dep : PairingParticipantDependency) :
    Prop :=
  ∃ item ∈ items, ∃ entry ∈ item.instances,
    entry.instance_id = slot.1 ∧ dep ∈ item.pairing_deps ∧ dep.link_id = slot.2

def instanceIds (items : List PairingValidationItem) : List String :=
  items.flatMap fun item => item.instances.map (·.instance_id)

variable {other : PairingValidationItem}

theorem item_unique (hids : (instanceIds items).Nodup)
    (hitem : item ∈ items) (hother : other ∈ items) {entry' : DeploymentInstance}
    (hentry : entry ∈ item.instances) (hentry' : entry' ∈ other.instances)
    (hid : entry.instance_id = entry'.instance_id) : item = other ∧ entry = entry' := by
  obtain ⟨hinside, hacross⟩ := nodup_flatMap.mp hids
  have hsame : item = other := by
    by_contra hne
    have : Std.Symm (Function.onFun List.Disjoint
        fun item : PairingValidationItem => item.instances.map (·.instance_id)) :=
      ⟨fun _ _ h => List.Disjoint.symm h⟩
    have hdisjoint := hacross.forall hitem hother hne
    exact hdisjoint (mem_map_of_mem hentry) (hid ▸ mem_map_of_mem hentry')
  subst hsame
  exact ⟨rfl, inj_on_of_nodup_map (hinside item hitem) hentry hentry' hid⟩

theorem dep_unique (hids : (instanceIds items).Nodup)
    {other : PairingParticipantDependency} (hdep : SlotOf items slot dep)
    (hother : SlotOf items slot other) : dep = other := by
  obtain ⟨item, hitem, entry, hentry, hid, hmem, hlink⟩ := hdep
  obtain ⟨item', hitem', entry', hentry', hid', hmem', hlink'⟩ := hother
  obtain ⟨rfl, -⟩ := item_unique hids hitem hitem' hentry hentry' (hid.trans hid'.symm)
  exact inj_on_of_nodup_map item.link_ids_nodup hmem hmem' (hlink.trans hlink'.symm)

variable {instance_id : String}

theorem lookup_mem (h : build_instance_lookup items instance_id = some item) :
    item ∈ items ∧ ∃ entry ∈ item.instances, entry.instance_id = instance_id := by
  refine ⟨mem_of_find?_eq_some h, ?_⟩
  have hany := find?_some h
  simpa using hany

/-! ## The declarations -/

/-- The declaration is of a slot of a new instance. -/
def Declared (items : List PairingValidationItem) (declaration : PairDeclaration) : Prop :=
  ∃ item ∈ items, item.preexisting = false ∧ ∃ entry ∈ item.instances,
    entry.instance_id = declaration.owner_id ∧
    declaration.own_dep ∈ item.pairing_deps ∧ declaration.own_dep.link_id = declaration.key

theorem mem_plan_links {planned : PlanLink} :
    planned ∈ plan_links items ↔ planned.item ∈ items ∧ planned.item.preexisting = false ∧
      planned.entry ∈ planned.item.instances ∧ planned.link ∈ planned.entry.links := by
  obtain ⟨item, entry, link⟩ := planned
  simp only [plan_links, mem_flatMap, mem_filter, mem_map, Bool.not_eq_true',
    PlanLink.mk.injEq]
  constructor
  · rintro ⟨_, ⟨hitem, hnew⟩, _, hentry, _, hlink, rfl, rfl, rfl⟩
    exact ⟨hitem, hnew, hentry, hlink⟩
  · rintro ⟨hitem, hnew, hentry, hlink⟩
    exact ⟨item, ⟨hitem, hnew⟩, entry, hentry, link, hlink, rfl, rfl, rfl⟩

theorem mem_declarationsOf {owner_id : String} {deps : List PairingParticipantDependency}
    {link : String × LinkValue}
    (h : declaration ∈ declarationsOf (link_declarations owner_id deps link)) :
    declaration.owner_id = owner_id ∧ declaration.key = link.1 ∧
      declaration.own_dep ∈ deps ∧ declaration.own_dep.link_id = link.1 := by
  unfold link_declarations at h
  split at h
  · cases h
  next own_dep hdep =>
  split at h
  · cases h
  · split at h
    · cases h
    · obtain ⟨target, -, rfl⟩ := mem_map.mp h
      exact ⟨rfl, rfl, mem_of_find?_eq_some hdep, by simpa using find?_some hdep⟩

theorem declared_of_mem (h : declaration ∈ declarations items) : Declared items declaration := by
  have hmem := mem_sortByKey.mp h
  obtain ⟨declared, hdeclared, hdeclaration⟩ := mem_flatMap.mp hmem
  obtain ⟨planned, hplanned, rfl⟩ := mem_map.mp hdeclared
  obtain ⟨hitem, hnew, hentry, -⟩ := mem_plan_links.mp hplanned
  obtain ⟨howner, hkey, hdep, hlink⟩ := mem_declarationsOf hdeclaration
  exact ⟨_, hitem, hnew, _, hentry, howner.symm, hdep, hlink.trans hkey.symm⟩

theorem Declared.slotOf (h : Declared items declaration) :
    SlotOf items declaration.slot declaration.own_dep := by
  obtain ⟨item, hitem, -, entry, hentry, howner, hdep, hlink⟩ := h
  exact ⟨item, hitem, entry, hentry, howner, hdep, hlink⟩

theorem declaration_of_target (hshapes : (plan_declarations items).filterMap errorOf = [])
    {planned : PlanLink} (hplanned : planned ∈ plan_links items)
    (hdep : dep ∈ planned.item.pairing_deps)
    (hlink : dep.link_id = planned.link.1) {selection : Selection}
    (hselection : planned.link.2.selection = some selection) {target : String}
    (htarget : target ∈ selection.targets) :
    { owner_id := planned.entry.instance_id, own_dep := dep, key := planned.link.1,
      target := target : PairDeclaration } ∈ declarations items := by
  refine mem_sortByKey.mpr (mem_flatMap.mpr ⟨_, mem_map_of_mem hplanned, ?_⟩)
  have hfind : planned.item.pairing_deps.find? (fun other => other.link_id = planned.link.1) =
      some dep := by
    rw [← hlink]
    exact find?_link_id hdep
  have hok : errorOf (link_declarations planned.entry.instance_id planned.item.pairing_deps
      planned.link) = none := by
    by_contra hne
    obtain ⟨e, he⟩ := Option.ne_none_iff_exists'.mp hne
    have hmem : e ∈ (plan_declarations items).filterMap errorOf :=
      mem_filterMap.mpr ⟨_, mem_map_of_mem hplanned, he⟩
    simp [hshapes] at hmem
  simp only [link_declarations, hfind, hselection] at hok ⊢
  split at hok
  · cases hok
  · exact mem_map_of_mem htarget

/-! ## The pairs of the plan -/

def claimsOf (planned : List PlannedPairing) : Claims :=
  planned.flatMap fun pair => [(pair.a.slot, pair.b.slot), (pair.b.slot, pair.a.slot)]

/-- The pair joins the two slots. -/
def PlannedPairing.Between (pair : PlannedPairing) (slot other : Slot) : Prop :=
  pair.a.slot = slot ∧ pair.b.slot = other ∨ pair.b.slot = slot ∧ pair.a.slot = other

/-- The slot is an end of the pair. -/
def PlannedPairing.Touches (pair : PlannedPairing) (slot : Slot) : Prop :=
  pair.a.slot = slot ∨ pair.b.slot = slot

instance (pair : PlannedPairing) (slot : Slot) : Decidable (pair.Touches slot) :=
  inferInstanceAs (Decidable (_ ∨ _))

variable {planned : List PlannedPairing}

theorem mem_get_claimsOf {other : Slot} :
    other ∈ Claims.get (claimsOf planned) slot ↔ ∃ pair ∈ planned, pair.Between slot other := by
  simp only [Claims.get, claimsOf, mem_map, mem_filter, mem_flatMap,
    decide_eq_true_eq, PlannedPairing.Between]
  constructor
  · rintro ⟨claim, ⟨⟨pair, hpair, hclaim⟩, rfl⟩, rfl⟩
    rcases mem_cons.mp hclaim with rfl | hclaim
    · exact ⟨pair, hpair, .inl ⟨rfl, rfl⟩⟩
    · cases mem_singleton.mp hclaim
      exact ⟨pair, hpair, .inr ⟨rfl, rfl⟩⟩
  · rintro ⟨pair, hpair, ⟨rfl, rfl⟩ | ⟨rfl, rfl⟩⟩
    · exact ⟨(pair.a.slot, pair.b.slot), ⟨⟨pair, hpair, by simp⟩, rfl⟩, rfl⟩
    · exact ⟨(pair.b.slot, pair.a.slot), ⟨⟨pair, hpair, by simp⟩, rfl⟩, rfl⟩

theorem get_claimsOf_eq_nil :
    Claims.get (claimsOf planned) slot = [] ↔ ∀ pair ∈ planned, ¬ pair.Touches slot := by
  rw [eq_nil_iff_forall_not_mem]
  constructor
  · rintro h pair hpair (rfl | rfl)
    · exact h pair.b.slot (mem_get_claimsOf.mpr ⟨pair, hpair, .inl ⟨rfl, rfl⟩⟩)
    · exact h pair.a.slot (mem_get_claimsOf.mpr ⟨pair, hpair, .inr ⟨rfl, rfl⟩⟩)
  · intro h other hother
    obtain ⟨pair, hpair, ⟨rfl, -⟩ | ⟨rfl, -⟩⟩ := mem_get_claimsOf.mp hother
    · exact h pair hpair (.inl rfl)
    · exact h pair hpair (.inr rfl)

/-- Two slots of instances, of one pairing, two roles and no different pins. -/
def Joins (items : List PairingValidationItem) (pair : PlannedPairing) : Prop :=
  ∃ own peer, SlotOf items pair.a.slot own ∧ SlotOf items pair.b.slot peer ∧
    (own.name = peer.name ∧ own.tag = peer.tag) ∧ own.role ≠ peer.role ∧
    (∀ pin pin', own.sha256 = some pin → peer.sha256 = some pin' → pin = pin') ∧
    pair = { pairing_name := own.name.as_str, pairing_tag := own.tag,
             a := { pair.a with role := own.role, cardinality := own.cardinality }
             b := { pair.b with role := peer.role, cardinality := peer.cardinality } }

/-- The rules that the loop keeps. -/
structure Sound (items : List PairingValidationItem) (already_paired : AlreadyPairedSlots)
    (plan : PairPlan) : Prop where
  claims : plan.claims = claimsOf plan.planned
  joins : ∀ pair ∈ plan.planned, Joins items pair
  unheld : ∀ pair ∈ plan.planned,
    pair.b.slot ∉ already_paired pair.a.slot ∧ pair.a.slot ∉ already_paired pair.b.slot
  once : plan.planned.Pairwise fun pair other => ¬ other.Between pair.a.slot pair.b.slot
  scalar : ∀ slot dep, SlotOf items slot dep → dep.cardinality.is_scalar = true →
    (plan.planned.filter (·.Touches slot)).length ≤ 1 ∧
      (already_paired slot ≠ [] → ∀ pair ∈ plan.planned, ¬ pair.Touches slot)

theorem Sound.new : Sound items already_paired {} where
  claims := rfl
  joins := by simp
  unheld := by simp
  once := .nil
  scalar := by simp

theorem Sound.untouched (h : Sound items already_paired plan)
    {slot : String × String} (hpeers : peers_of slot plan.claims already_paired = []) :
    already_paired slot = [] ∧ ∀ pair ∈ plan.planned, ¬ pair.Touches slot := by
  obtain ⟨hplan, halready⟩ := append_eq_nil_iff.mp hpeers
  rw [h.claims] at hplan
  exact ⟨halready, get_claimsOf_eq_nil.mp hplan⟩

theorem Sound.add (h : Sound items already_paired plan)
    (hids : (instanceIds items).Nodup) (hdeclared : Declared items declaration)
    (hitem : build_instance_lookup items declaration.targetInstance = some target_item)
    (hfits : Fits declaration plan.claims already_paired target_item peer_dep) :
    Sound items already_paired { plan with
        claims := plan.claims ++ [(declaration.slot, (declaration.targetInstance, peer_dep.link_id)),
          ((declaration.targetInstance, peer_dep.link_id), declaration.slot)]
        planned := plan.planned ++ [declaration.pairWith peer_dep] } := by
  have hclaims := h.claims
  obtain ⟨htarget, entry, hentry, hid⟩ := lookup_mem hitem
  have hown := hdeclared.slotOf
  have hpeer : SlotOf items (declaration.targetInstance, peer_dep.link_id) peer_dep :=
    ⟨target_item, htarget, entry, hentry, hid, hfits.mem, rfl⟩
  exact {
    claims := by simp [hclaims, claimsOf, pairWith, slot,
      PlannedPairEndpoint.slot]
    joins := by
      intro pair hpair
      rcases changes.mem_push hpair with hpair | rfl
      · exact h.joins pair hpair
      · exact ⟨declaration.own_dep, peer_dep, hown, hpeer, ⟨hfits.same.1.symm, hfits.same.2.symm⟩,
          hfits.role.symm, hfits.pins, rfl⟩
    unheld := by
      intro pair hpair
      rcases changes.mem_push hpair with hpair | rfl
      · exact h.unheld pair hpair
      · exact ⟨fun hmem => hfits.own_new (mem_append_right _ hmem),
          fun hmem => hfits.peer_new (mem_append_right _ hmem)⟩
    once := by
      refine pairwise_append.mpr ⟨h.once, pairwise_singleton _ _, ?_⟩
      intro pair hpair other hother hbetween
      cases mem_singleton.mp hother
      have hclaim : (declaration.targetInstance, peer_dep.link_id) ∈
          Claims.get (claimsOf plan.planned) declaration.slot := by
        refine mem_get_claimsOf.mpr ⟨pair, hpair, ?_⟩
        rcases hbetween with ⟨ha, hb⟩ | ⟨ha, hb⟩
        · exact .inl ⟨ha.symm, hb.symm⟩
        · exact .inr ⟨hb.symm, ha.symm⟩
      rw [← hclaims] at hclaim
      exact hfits.own_new (mem_append_left _ hclaim)
    scalar := by
      intro slot dep hslot hscalar
      obtain ⟨hcount, hheld⟩ := h.scalar slot dep hslot hscalar
      rw [filter_append, length_append]
      by_cases htouches : (declaration.pairWith peer_dep).Touches slot
      · -- The slot is one of the two that the new pair takes.
        have hpeers : peers_of slot plan.claims already_paired = [] := by
          rcases htouches with rfl | rfl
          · exact hfits.own_free (dep_unique hids hslot hown ▸ hscalar)
          · exact hfits.peer_free (dep_unique hids hslot hpeer ▸ hscalar)
        obtain ⟨halready, huntouched⟩ := h.untouched hpeers
        have hnone : plan.planned.filter (·.Touches slot) = [] := by
          simpa [filter_eq_nil_iff] using huntouched
        refine ⟨?_, fun hne => absurd halready hne⟩
        rw [hnone, length_nil, Nat.zero_add]
        exact length_filter_le _ [declaration.pairWith peer_dep]
      · have hnone : [declaration.pairWith peer_dep].filter (·.Touches slot) = [] := by
          simp [htouches]
        refine ⟨by simpa [hnone] using hcount, fun hne pair hpair => ?_⟩
        rcases changes.mem_push hpair with hpair | rfl
        · exact hheld hne pair hpair
        · exact htouches }

/-! ## The loop over the declarations -/

/-- A pair of the plan is the one declared. -/
def Realised (declaration : PairDeclaration) (planned : List PlannedPairing) : Prop :=
  ∃ pair ∈ planned, ∃ link, (∀ wanted, declaration.requested = some wanted → link = wanted) ∧
    pair.Between declaration.slot (declaration.targetInstance, link)

theorem Realised.mono {more : List PlannedPairing} (h : Realised declaration planned)
    (hmore : ∀ pair ∈ planned, pair ∈ more) : Realised declaration more := by
  obtain ⟨pair, hpair, link, hwanted, hbetween⟩ := h
  exact ⟨pair, hmore pair hpair, link, hwanted, hbetween⟩

/-- A step keeps the plan sound, and plans the pair or gives an error. -/
theorem Sound.declare (h : Sound items already_paired plan)
    (hids : (instanceIds items).Nodup) (hdeclared : Declared items declaration) :
    Sound items already_paired (plan.declare items already_paired declaration) ∧
    (∀ pair ∈ plan.planned, pair ∈ (plan.declare items already_paired declaration).planned) ∧
    ((plan.declare items already_paired declaration).errors = [] → plan.errors = [] ∧
        Realised declaration (plan.declare items already_paired declaration).planned) := by
  unfold PairPlan.declare
  split
  · next pair hresolve =>
    obtain ⟨target_item, hitem, ⟨hnone, -⟩ | ⟨peer_dep, hpair, hfits⟩⟩ := resolve_cases hresolve
    · cases hnone
    · cases hpair
      refine ⟨h.add hids hdeclared hitem hfits, fun other hother => by simp [hother], ?_⟩
      exact fun herrors => ⟨herrors, declaration.pairWith peer_dep, by simp, peer_dep.link_id,
        fun wanted hwanted => hfits.requested wanted hwanted, .inl ⟨rfl, rfl⟩⟩
  · next hresolve =>
    obtain ⟨target_item, hitem, ⟨-, peer, hpeer, hagrees⟩ | ⟨peer_dep, hpair, -⟩⟩ :=
      resolve_cases hresolve
    · refine ⟨h, fun _ => id, fun herrors => ⟨herrors, ?_⟩⟩
      rw [h.claims] at hpeer
      obtain ⟨pair, hpair, hbetween⟩ := mem_get_claimsOf.mp hpeer
      obtain ⟨hinstance, hlink⟩ : peer.1 = declaration.targetInstance ∧
          ∀ wanted, declaration.requested = some wanted → wanted = peer.2 := by
        cases hrequested : declaration.requested <;> simpa [agrees, hrequested] using hagrees
      refine ⟨pair, hpair, peer.2, fun wanted hwanted => (hlink wanted hwanted).symm, ?_⟩
      rw [← hinstance]
      exact hbetween
    · cases hpair
  · exact ⟨⟨h.claims, h.joins, h.unheld, h.once, h.scalar⟩, fun _ => id, by simp⟩

theorem Sound.loop (h : Sound items already_paired plan)
    (hids : (instanceIds items).Nodup) {declared : List PairDeclaration}
    (hdeclared : ∀ declaration ∈ declared, Declared items declaration) :
    Sound items already_paired (declared.foldl (PairPlan.declare items already_paired) plan) ∧
    (∀ pair ∈ plan.planned,
        pair ∈ (declared.foldl (PairPlan.declare items already_paired) plan).planned) ∧
    ((declared.foldl (PairPlan.declare items already_paired) plan).errors = [] →
        plan.errors = [] ∧ ∀ declaration ∈ declared, Realised declaration
          (declared.foldl (PairPlan.declare items already_paired) plan).planned) := by
  induction declared generalizing plan with
  | nil => exact ⟨h, fun _ => id, fun herrors => ⟨herrors, by simp⟩⟩
  | cons first declared ih =>
    obtain ⟨hsound, hkept, hfirst⟩ := h.declare hids (hdeclared first (by simp))
    obtain ⟨hrest, hkeptRest, hrealised⟩ :=
      ih hsound fun declaration hmem => hdeclared declaration (by simp [hmem])
    refine ⟨hrest, fun pair hpair => hkeptRest pair (hkept pair hpair), fun herrors => ?_⟩
    obtain ⟨hnext, hall⟩ := hrealised herrors
    obtain ⟨hplan, hrealisedFirst⟩ := hfirst hnext
    refine ⟨hplan, fun declaration hmem => ?_⟩
    rcases mem_cons.mp hmem with rfl | hmem
    · exact hrealisedFirst.mono hkeptRest
    · exact hall declaration hmem

theorem sound_pairPlan (hids : (instanceIds items).Nodup) :
    Sound items already_paired (pairPlan items already_paired) ∧
      ((pairPlan items already_paired).errors = [] → ∀ declaration ∈ declarations items,
        Realised declaration (pairPlan items already_paired).planned) := by
  have hnew : Sound items already_paired {} := Sound.new
  obtain ⟨hsound, -, hrealised⟩ :=
    hnew.loop hids fun declaration (hmem : declaration ∈ declarations items) => declared_of_mem hmem
  exact ⟨hsound, fun herrors => (hrealised herrors).2⟩

/-! ## The order of the items -/

/-- The same node, with its instances in another order. -/
def SameNode (item other : PairingValidationItem) : Prop :=
  ∃ instances, item.instances.Perm instances ∧ other = { item with instances }

theorem SameNode.mem (h : SameNode item other)
    : entry ∈ other.instances ↔ entry ∈ item.instances := by
  obtain ⟨instances, hperm, rfl⟩ := h
  exact hperm.mem_iff.symm

/-- The same nodes and instances, in another order. -/
def Reordered (items others : List PairingValidationItem) : Prop :=
  ∃ mid, items.Perm mid ∧ List.Forall₂ SameNode mid others

theorem plan_declarations_eq :
    plan_declarations items = (items.filter fun item => !item.preexisting).flatMap fun item =>
      item.instances.flatMap fun entry =>
        entry.links.map (link_declarations entry.instance_id item.pairing_deps) := by
  simp [plan_declarations, plan_links, map_flatMap, Function.comp_def]

theorem plan_declarations_distinct (hids : (instanceIds items).Nodup) :
    (plan_declarations items).Pairwise fun x y =>
      ∀ a ∈ declarationsOf x, ∀ b ∈ declarationsOf y, a.order ≠ b.order := by
  obtain ⟨hinside, hacross⟩ := nodup_flatMap.mp hids
  rw [plan_declarations_eq, pairwise_flatMap]
  have horder : ∀ a b : PairDeclaration, a.order = b.order →
      a.owner_id = b.owner_id ∧ a.key = b.key := by
    intro a b h
    simpa [order] using h
  refine ⟨fun item hitem => pairwise_flatMap.mpr ⟨fun entry hentry => ?_, ?_⟩, ?_⟩
  · refine pairwise_map.mpr ((pairwise_map.mp entry.keys_nodup).imp ?_)
    intro link link' hne a ha b hb horders
    obtain ⟨-, hkey, -⟩ := mem_declarationsOf ha
    obtain ⟨-, hkey', -⟩ := mem_declarationsOf hb
    exact hne (hkey.symm.trans ((horder a b horders).2.trans hkey'))
  · refine (pairwise_map.mp (hinside item (mem_filter.mp hitem).1)).imp ?_
    intro entry entry' hne x hx y hy a ha b hb horders
    obtain ⟨link, -, rfl⟩ := mem_map.mp hx
    obtain ⟨link', -, rfl⟩ := mem_map.mp hy
    obtain ⟨howner, -⟩ := mem_declarationsOf ha
    obtain ⟨howner', -⟩ := mem_declarationsOf hb
    exact hne (howner.symm.trans ((horder a b horders).1.trans howner'))
  · refine (hacross.filter _).imp ?_
    intro item item' hdisjoint x hx y hy a ha b hb horders
    obtain ⟨entry, hentry, hx⟩ := mem_flatMap.mp hx
    obtain ⟨entry', hentry', hy⟩ := mem_flatMap.mp hy
    obtain ⟨link, -, rfl⟩ := mem_map.mp hx
    obtain ⟨link', -, rfl⟩ := mem_map.mp hy
    obtain ⟨howner, -⟩ := mem_declarationsOf ha
    obtain ⟨howner', -⟩ := mem_declarationsOf hb
    have hid : entry.instance_id = entry'.instance_id :=
      howner.symm.trans ((horder a b horders).1.trans howner')
    exact hdisjoint (mem_map_of_mem hentry) (hid ▸ mem_map_of_mem hentry')

section
variable {others : List PairingValidationItem}

/-- Reading the items one by one commutes with reordering, up to order. -/
theorem Reordered.flatMap_perm {β : Type} {f : PairingValidationItem → List β}
    (h : Reordered items others) (hf : ∀ item other, SameNode item other → (f item).Perm (f other)) :
    (items.flatMap f).Perm (others.flatMap f) := by
  obtain ⟨mid, hperm, hsame⟩ := h
  refine (hperm.flatMap_right f).trans ?_
  clear hperm
  induction hsame with
  | nil => exact .nil
  | cons hitem _ ih => exact (hf _ _ hitem).append ih

theorem Reordered.ids (h : Reordered items others) :
    (instanceIds items).Perm (instanceIds others) := by
  refine h.flatMap_perm ?_
  rintro item _ ⟨instances, hperm, rfl⟩
  exact hperm.map _

theorem Reordered.plan_declarations (h : Reordered items others) :
    (plan_declarations items).Perm (plan_declarations others) := by
  have hflat : ∀ items : List PairingValidationItem, launcher.plan_declarations items =
      items.flatMap fun item => if item.preexisting then [] else
        item.instances.flatMap fun entry =>
          entry.links.map (link_declarations entry.instance_id item.pairing_deps) := by
    intro items
    rw [plan_declarations_eq]
    induction items with
    | nil => rfl
    | cons item items ih =>
      cases hitem : item.preexisting <;> simp [hitem, ih]
  rw [hflat, hflat]
  refine h.flatMap_perm ?_
  rintro item _ ⟨instances, hperm, rfl⟩
  dsimp only
  split
  · exact .nil
  · exact hperm.flatMap_right _

theorem Reordered.mem (h : Reordered items others) :
    (∀ item ∈ items, ∃ other ∈ others, SameNode item other) ∧
      ∀ other ∈ others, ∃ item ∈ items, SameNode item other := by
  obtain ⟨mid, hperm, hsame⟩ := h
  constructor
  · intro item hitem
    have hmid := hperm.mem_iff.mp hitem
    clear hperm hitem
    induction hsame with
    | nil => cases hmid
    | cons hfirst _ ih =>
      rcases mem_cons.mp hmid with rfl | hmid
      · exact ⟨_, by simp, hfirst⟩
      · obtain ⟨other, hother, hsame⟩ := ih hmid
        exact ⟨other, by simp [hother], hsame⟩
  · intro other hother
    have hmid : ∃ item ∈ mid, SameNode item other := by
      clear hperm
      induction hsame with
      | nil => cases hother
      | cons hfirst _ ih =>
        rcases mem_cons.mp hother with rfl | hother
        · exact ⟨_, by simp, hfirst⟩
        · obtain ⟨item, hitem, hsame⟩ := ih hother
          exact ⟨item, by simp [hitem], hsame⟩
    obtain ⟨item, hitem, hsame⟩ := hmid
    exact ⟨item, hperm.mem_iff.mpr hitem, hsame⟩

theorem lookup_isSome {item : PairingValidationItem} (hitem : item ∈ items)
    {entry : DeploymentInstance} (hentry : entry ∈ item.instances)
    (hid : entry.instance_id = instance_id) :
    ∃ found, build_instance_lookup items instance_id = some found := by
  refine Option.isSome_iff_exists.mp (find?_isSome.mpr ⟨item, hitem, ?_⟩)
  simpa using ⟨entry, hentry, hid⟩

theorem Reordered.lookup (h : Reordered items others) (hids : (instanceIds items).Nodup)
    (instance_id : String) : (build_instance_lookup items instance_id = none ∧
        build_instance_lookup others instance_id = none) ∨
      ∃ item other, build_instance_lookup items instance_id = some item ∧
        build_instance_lookup others instance_id = some other ∧ SameNode item other := by
  cases hitem : build_instance_lookup items instance_id with
  | none =>
    refine .inl ⟨rfl, ?_⟩
    by_contra hne
    obtain ⟨other, hother⟩ := Option.ne_none_iff_exists'.mp hne
    obtain ⟨hmem, entry, hentry, hid⟩ := lookup_mem hother
    obtain ⟨item, hmem', hsame⟩ := h.mem.2 other hmem
    obtain ⟨found, hfound⟩ := lookup_isSome hmem' (hsame.mem.mp hentry) hid
    simp [hitem] at hfound
  | some item =>
    obtain ⟨hmem, entry, hentry, hid⟩ := lookup_mem hitem
    obtain ⟨other, hother, hsame⟩ := h.mem.1 item hmem
    obtain ⟨found, hfound⟩ := lookup_isSome hother (hsame.mem.mpr hentry) hid
    obtain ⟨hfoundMem, entry', hentry', hid'⟩ := lookup_mem hfound
    obtain ⟨rfl, -⟩ := item_unique (h.ids.nodup_iff.mp hids) hother hfoundMem
      (hsame.mem.mpr hentry) hentry' (hid.trans hid'.symm)
    exact .inr ⟨item, other, rfl, hfound, hsame⟩

theorem Reordered.resolve (h : Reordered items others) (hids : (instanceIds items).Nodup)
    (declaration : PairDeclaration) (claims : Claims) (already_paired : AlreadyPairedSlots) :
    resolve_pair_declaration declaration claims already_paired others =
      resolve_pair_declaration declaration claims already_paired items := by
  unfold resolve_pair_declaration
  dsimp only
  rcases h.lookup hids (split_link_target declaration.target).1 with
    ⟨hitem, hother⟩ | ⟨item, other, hitem, hother, instances, -, rfl⟩
  · rw [hitem, hother]
  · rw [hitem, hother]
    rfl

theorem Reordered.pairPlan (h : Reordered items others) (hids : (instanceIds items).Nodup)
    (already_paired : AlreadyPairedSlots) :
    pairPlan others already_paired = pairPlan items already_paired := by
  have hdeclarations : declarations others = declarations items := by
    refine sortByKey_congr fun k => (filter_flatMap_perm h.plan_declarations ?_ k).symm
    exact plan_declarations_distinct hids
  have hdeclare : PairPlan.declare others already_paired = PairPlan.declare items already_paired := by
    funext plan declaration
    unfold PairPlan.declare
    rw [h.resolve hids]
  unfold launcher.pairPlan
  rw [hdeclarations, hdeclare]

end

/-! ## What an accepted plan keeps -/

/-- What the pairs of an accepted plan are. -/
structure PairsOfPlan (items : List PairingValidationItem) (already_paired : AlreadyPairedSlots)
    (externally_covered : ExternallyCoveredSlots) (planned : List PlannedPairing) : Prop where
  joins : ∀ pair ∈ planned, Joins items pair
  once : planned.Pairwise fun pair other => ¬ other.Between pair.a.slot pair.b.slot
  unheld : ∀ pair ∈ planned,
    pair.b.slot ∉ already_paired pair.a.slot ∧ pair.a.slot ∉ already_paired pair.b.slot
  /-- A scalar slot has one pair at most, unless the running stack already has
  more. -/
  scalar : ∀ slot dep, SlotOf items slot dep → dep.cardinality.is_scalar = true →
    (planned.filter (·.Touches slot)).length + (already_paired slot).length ≤
      max 1 (already_paired slot).length
  realised : ∀ item ∈ items, item.preexisting = false → ∀ entry ∈ item.instances,
    ∀ dep ∈ item.pairing_deps, ∀ selection, (dep.link_id, .Bound selection) ∈ entry.links →
    ∀ target ∈ selection.targets, ∃ pair ∈ planned, ∃ link,
      (∀ wanted, (split_link_target target).2 = some wanted → link = wanted) ∧
      pair.Between (entry.instance_id, dep.link_id) ((split_link_target target).1, link)
  covered : ∀ item ∈ items, item.preexisting = false → ∀ entry ∈ item.instances,
    ∀ dep ∈ item.pairing_deps, allows_empty dep.cardinality = false →
    (∃ pair ∈ planned, pair.Touches (entry.instance_id, dep.link_id)) ∨
      (entry.links.lookup dep.link_id).any (·.vacancy.isSome) = true ∨
      (entry.instance_id, dep.link_id) ∈ externally_covered

theorem Sound.scalar_count (h : Sound items already_paired plan) (hslot : SlotOf items slot dep)
    (hscalar : dep.cardinality.is_scalar = true) :
    (plan.planned.filter (·.Touches slot)).length + (already_paired slot).length ≤
      max 1 (already_paired slot).length := by
  obtain ⟨hcount, hheld⟩ := h.scalar slot dep hslot hscalar
  by_cases halready : already_paired slot = []
  · simpa [halready] using hcount
  · have hnone : plan.planned.filter (·.Touches slot) = [] := by
      simpa [filter_eq_nil_iff] using hheld halready
    simp [hnone]

theorem covered_of_no_error {claims : Claims} {externally_covered : ExternallyCoveredSlots}
    (h : validate_coverage items claims externally_covered = [])
    (hitem : item ∈ items) (hnew : item.preexisting = false) (hentry : entry ∈ item.instances)
    (hdep : dep ∈ item.pairing_deps) (hempty : allows_empty dep.cardinality = false) :
    claims.get (entry.instance_id, dep.link_id) ≠ [] ∨
    (entry.links.lookup dep.link_id).any (·.vacancy.isSome) = true ∨
    (entry.instance_id, dep.link_id) ∈ externally_covered := by
  by_contra hnot
  obtain ⟨hclaims, hnot⟩ := not_or.mp hnot
  obtain ⟨hvacant, hexternal⟩ := not_or.mp hnot
  have hmem : ParsingError.PairingSlotUncovered entry.instance_id dep.link_id dep.name.as_str
      dep.tag dep.role dep.cardinality ∈ validate_coverage items claims externally_covered := by
    refine mem_flatMap.mpr ⟨item, mem_filter.mpr ⟨hitem, by simp [hnew]⟩, ?_⟩
    refine mem_flatMap.mpr ⟨entry, hentry, mem_filterMap.mpr ⟨dep, hdep, ?_⟩⟩
    simp_all
  simp [h] at hmem

/-- The pairs of a plan that the validator accepts keep the rules, and do not
depend on the order of the items or of their instances. -/
theorem the_pairs_of_an_accepted_plan (items : List PairingValidationItem)
    (already_paired : AlreadyPairedSlots) (externally_covered : ExternallyCoveredSlots)
    (hids : (instanceIds items).Nodup)
    (herrors : (validate_pairings items already_paired externally_covered).errors = []) :
    PairsOfPlan items already_paired externally_covered
        (validate_pairings items already_paired externally_covered).planned ∧
      ∀ others, Reordered items others →
        (validate_pairings others already_paired externally_covered).planned =
          (validate_pairings items already_paired externally_covered).planned := by
  obtain ⟨herrors, hcoverage⟩ := append_eq_nil_iff.mp herrors
  obtain ⟨hshapes, hresolved⟩ := append_eq_nil_iff.mp herrors
  obtain ⟨hsound, hrealised⟩ := sound_pairPlan hids
  have hrealised := hrealised hresolved
  refine ⟨?_, fun others hreordered => ?_⟩
  · exact {
      joins := hsound.joins
      once := hsound.once
      unheld := hsound.unheld
      scalar := fun _ _ hslot hscalar => hsound.scalar_count hslot hscalar
      realised := by
        intro item hitem hnew entry hentry dep hdep selection hlink target htarget
        have hplanned : ⟨item, entry, (dep.link_id, .Bound selection)⟩ ∈ plan_links items :=
          mem_plan_links.mpr ⟨hitem, hnew, hentry, hlink⟩
        have hpair := hrealised _ (declaration_of_target hshapes hplanned hdep rfl rfl htarget)
        exact hpair
      covered := by
        intro item hitem hnew entry hentry dep hdep hempty
        rcases covered_of_no_error hcoverage hitem hnew hentry hdep hempty with hclaims | hother
        · refine .inl ?_
          by_contra hnone
          refine hclaims ?_
          rw [hsound.claims, get_claimsOf_eq_nil]
          intro pair hpair htouches
          exact hnone ⟨pair, hpair, htouches⟩
        · exact .inr hother }
  · exact congrArg PairPlan.planned (hreordered.pairPlan hids already_paired)

def mountName : Name where
  as_str := "tool_mount"
  not_empty := by decide
  allowed := allowed_of_all (by decide)

def mountSlot (role link_id : String) (cardinality : Cardinality) :
    PairingParticipantDependency where
  name := mountName
  tag := "v1"
  role
  link_id
  sha256 := none
  cardinality

def armPlan : List PairingValidationItem :=
  [{ node_name := "gripper", node_tag := "v1", instances := [⟨"gripper_1", [], nodup_nil⟩],
     pairing_deps := [mountSlot "tool" "mount" .One], preexisting := false },
   { node_name := "arm", node_tag := "v1",
     instances := [⟨"arm_1", [("tool", .Bound (.Scalar "gripper_1"))], nodup_singleton "tool"⟩],
     pairing_deps := [mountSlot "carrier" "tool" .One], link_ids_nodup := nodup_singleton "tool"
     preexisting := false }]

theorem the_pair_of_an_arm_and_a_gripper :
    (instanceIds armPlan).Nodup ∧ (validate_pairings armPlan (fun _ => []) []).errors = [] ∧
      PairsOfPlan armPlan (fun _ => []) [] (validate_pairings armPlan (fun _ => []) []).planned ∧
      (validate_pairings armPlan (fun _ => []) []).planned.length = 1 := by
  have hids : (instanceIds armPlan).Nodup := by decide
  have herrors : (validate_pairings armPlan (fun _ => []) []).errors = [] := by decide +kernel
  refine ⟨hids, herrors,
    (the_pairs_of_an_accepted_plan armPlan (fun _ => []) [] hids herrors).1, ?_⟩
  decide +kernel

end peppy.launcher
