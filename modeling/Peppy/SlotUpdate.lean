-- The updates the daemon delivers into a node's slots. One gate, which the three slot
-- update services share, judges each: the slot's cardinality first, the sequence
-- then.
import Mathlib.Data.List.Induction
import Peppy.Lib.KeyMap
import Peppy.NodeConfig

open List

namespace peppy.node_config

/-- Whether a slot may hold `len` pairs: only the ceiling applies while it runs. -/
def Cardinality.admits_pairs : Cardinality → Nat → Bool
  | .One, len | .ZeroOrOne, len => len ≤ 1
  | .OneOrMore, _ | .ZeroOrMore, _ => true

end peppy.node_config

namespace peppy.slot_update

open keymap
open peppy.node_config (Cardinality)

/-! ## The services -/

/-- A slot update service. An asserted state holds its request's sequence. -/
structure SlotUpdate (U S : Type) where
  SERVICE : String
  SLOT_NOUN : String
  link_id : U → String
  sequence : U → Nat
  state_sequence : S → Nat
  to_state : U → S
  member_count : S → Nat
  admits : Cardinality → Nat → Bool
  state_sequence_to_state : ∀ request, state_sequence (to_state request) = sequence request

/-- The slot, the sequence and the complete set of members. -/
structure SetUpdateRequest (M : Type) where
  link_id : String
  sequence : Nat
  members : List M

structure SetState (M : Type) where
  sequence : Nat
  members : List M
  deriving DecidableEq

def set_update (M : Type) (SERVICE SLOT_NOUN : String) (admits : Cardinality → Nat → Bool) :
    SlotUpdate (SetUpdateRequest M) (SetState M) where
  SERVICE
  SLOT_NOUN
  link_id request := request.link_id
  sequence request := request.sequence
  state_sequence state := state.sequence
  to_state request := ⟨request.sequence, request.members⟩
  member_count state := state.members.length
  admits
  state_sequence_to_state _ := rfl

def peer_update (PeerMember : Type) :=
  set_update PeerMember "peer_update" "pairing slot" Cardinality.admits_pairs

def observation_update (ObservedMember : Type) :=
  set_update ObservedMember "observation_update" "observer slot" Cardinality.admits

def binding_update (ProducerRef : Type) :=
  set_update ProducerRef "binding_update" "`one_or_more` or `zero_or_more` producer slot"
    Cardinality.admits

/-! ## One delivery -/

structure SlotChannel (S : Type) where
  cardinality : Cardinality
  state : S
  deriving DecidableEq

structure SlotUpdateResponse where
  stale_sequence : Bool
  deriving DecidableEq

def SlotUpdateResponse.taken : SlotUpdateResponse := ⟨false⟩

def SlotUpdateResponse.stale : SlotUpdateResponse := ⟨true⟩

inductive Failure where
  | Rejected (reason : String)
  deriving DecidableEq

def DISAGREEMENT_REMEDY : String :=
  "the plan and this node's manifest disagree; run `peppy node sync` then `peppy node build` " ++
    "for this node and launch again"

def members_phrase : Nat → String
  | 1 => "1 member"
  | members => toString members ++ " members"

inductive SequenceGate where
  | Applied
  | Repeated
  | Stale
  | Conflicting

variable {U S : Type} [DecidableEq S]

/-- What the sequence gate makes of a delivery, and the state after. -/
def SlotUpdate.gate (service : SlotUpdate U S) (state : S) (request : U) : SequenceGate × S :=
  let asserted := service.to_state request
  match compare (service.sequence request) (service.state_sequence state) with
  | .lt => (.Stale, state)
  | .eq => if state = asserted then (.Repeated, state) else (.Conflicting, state)
  | .gt => (.Applied, asserted)

def SlotUpdate.answer (service : SlotUpdate U S) (request : U) :
    SequenceGate → Except Failure SlotUpdateResponse
  | .Stale => .ok .stale
  | .Conflicting =>
    .error (.Rejected (s!"{service.SERVICE} for {service.SLOT_NOUN} " ++
      s!"`{service.link_id request}` repeats sequence {service.sequence request} " ++
      "asserting different state"))
  | .Applied | .Repeated => .ok .taken

def apply_slot_update (service : SlotUpdate U S) (slots : KeyMap String (SlotChannel S))
    (request : U) : Except Failure SlotUpdateResponse × KeyMap String (SlotChannel S) :=
  let link_id := service.link_id request
  match slots.get link_id with
  | none =>
    (.error (.Rejected (s!"this node holds no {service.SLOT_NOUN} " ++
      s!"`{link_id}`; {DISAGREEMENT_REMEDY}")), slots)
  | some slot =>
    let members := service.member_count (service.to_state request)
    if service.admits slot.cardinality members = false then
      (.error (.Rejected (s!"`{slot.cardinality.as_str}` admits no set of " ++
        s!"{members_phrase members}; {DISAGREEMENT_REMEDY}")), slots)
    else
      let (gate, state) := service.gate slot.state request
      (service.answer request gate, slots.insert link_id { slot with state })

def deliver (service : SlotUpdate U S) (slots : KeyMap String (SlotChannel S))
    (deliveries : List U) : KeyMap String (SlotChannel S) :=
  deliveries.foldl (fun slots request => (apply_slot_update service slots request).2) slots

theorem deliver_concat {service : SlotUpdate U S} {slots : KeyMap String (SlotChannel S)}
    {deliveries : List U} {request : U} : deliver service slots (deliveries ++ [request]) =
      (apply_slot_update service (deliver service slots deliveries) request).2 := by
  unfold deliver
  rw [foldl_append]
  rfl

/-! ## The gate -/

omit [DecidableEq S] in
/-- The slot takes that many members. -/
def Admitted (service : SlotUpdate U S) (slot : SlotChannel S) (request : U) : Prop :=
  service.admits slot.cardinality (service.member_count (service.to_state request)) = true

instance (service : SlotUpdate U S) (slot : SlotChannel S) (request : U) :
    Decidable (Admitted service slot request) :=
  inferInstanceAs (Decidable (_ = true))

def SlotUpdate.held_after (service : SlotUpdate U S) (slot : SlotChannel S) (request : U) : S :=
  if Admitted service slot request then (service.gate slot.state request).2 else slot.state

/-- What the answer says of the state then. -/
structure Judged (service : SlotUpdate U S) (slot : SlotChannel S) (request : U)
    (answer : Except Failure SlotUpdateResponse) (now : S) : Prop where
  grows : service.state_sequence slot.state ≤ service.state_sequence now
  taken : Admitted service slot request → (answer = .ok .taken ↔ now = service.to_state request)
  stale : Admitted service slot request →
    (answer = .ok .stale ↔ service.sequence request < service.state_sequence now)
  refused : ¬ Admitted service slot request →
    (∃ reason, answer = .error (.Rejected reason)) ∧ now = slot.state

variable {request : U} {state : S} {service : SlotUpdate U S} {seed slot : SlotChannel S}
  {slots : KeyMap String (SlotChannel S)}

open SlotUpdate

theorem gate_lt (h : service.sequence request < service.state_sequence state) :
    service.gate state request = (.Stale, state) := by
  unfold gate
  rw [Nat.compare_eq_lt.mpr h]

theorem gate_gt (h : service.state_sequence state < service.sequence request) :
    service.gate state request = (.Applied, service.to_state request) := by
  unfold gate
  rw [Nat.compare_eq_gt.mpr h]

theorem gate_eq (h : service.sequence request = service.state_sequence state) :
    service.gate state request =
    (if state = service.to_state request then .Repeated else .Conflicting, state) := by
  unfold gate
  rw [Nat.compare_eq_eq.mpr h]
  by_cases hs : state = service.to_state request
  · simp [← hs]
  · simp [hs]

variable {gate : SequenceGate} {k link_id : String} {s : S} {deliveries ds : List U}

omit [DecidableEq S] in
theorem answer_taken :
    service.answer request gate = .ok .taken ↔ gate = .Applied ∨ gate = .Repeated := by
  cases gate <;> simp [answer, SlotUpdateResponse.taken, SlotUpdateResponse.stale]

omit [DecidableEq S] in
theorem answer_stale : service.answer request gate = .ok .stale ↔ gate = .Stale := by
  cases gate <;> simp [answer, SlotUpdateResponse.taken, SlotUpdateResponse.stale]

/-- The state after a delivery is the newer of the two, and the held one on a
tie. -/
theorem held_after_eq : service.held_after slot request = if Admitted service slot request ∧
        service.state_sequence slot.state < service.sequence request
      then service.to_state request else slot.state := by
  unfold held_after
  by_cases had : Admitted service slot request
  · rcases Nat.lt_trichotomy (service.sequence request) (service.state_sequence slot.state)
      with h | h | h
    · rw [if_pos had, gate_lt h, if_neg fun hc => Nat.lt_asymm h hc.2]
    · have hnot : ¬ (Admitted service slot request ∧
          service.state_sequence slot.state < service.sequence request) :=
        fun hc => Nat.lt_irrefl _ (h ▸ hc.2)
      rw [if_pos had, if_neg hnot, gate_eq h]
    · rw [if_pos had, gate_gt h, if_pos ⟨had, h⟩]
  · rw [if_neg had, if_neg fun hc => had hc.1]

section
variable (hslot : slots.get (service.link_id request) = some slot)
include hslot

theorem apply_admitted
    (had : Admitted service slot request) : apply_slot_update service slots request =
    (service.answer request (service.gate slot.state request).1,
        slots.insert (service.link_id request)
          { slot with state := service.held_after slot request }) := by
  have hheld : service.held_after slot request = (service.gate slot.state request).2 :=
    if_pos had
  rw [hheld]
  unfold Admitted at had
  simp [apply_slot_update, hslot, had]

theorem apply_refused (had : ¬ Admitted service slot request) :
    ∃ reason, apply_slot_update service slots request = (.error (.Rejected reason), slots) := by
  unfold Admitted at had
  simp [apply_slot_update, hslot, had]

theorem apply_get : (apply_slot_update service slots request).2.get (service.link_id request) =
      some { slot with state := service.held_after slot request } := by
  by_cases had : Admitted service slot request
  · rw [apply_admitted hslot had, KeyMap.get_insert_self]
  · obtain ⟨reason, happly⟩ := apply_refused hslot had
    have hheld : service.held_after slot request = slot.state := if_neg had
    rw [happly, hslot, hheld]

end

theorem apply_get_other (hk : k ≠ service.link_id request) :
    (apply_slot_update service slots request).2.get k = slots.get k := by
  rcases hslot : slots.get (service.link_id request) with _ | slot
  · simp [apply_slot_update, hslot]
  by_cases had : Admitted service slot request
  · rw [apply_admitted hslot had]
    exact KeyMap.get_insert_of_ne _ _ hk
  · obtain ⟨reason, happly⟩ := apply_refused hslot had
    rw [happly]

theorem apply_judged (hslot : slots.get (service.link_id request) = some slot) :
    Judged service slot request (apply_slot_update service slots request).1
    (service.held_after slot request) := by
  have hsequence := service.state_sequence_to_state request
  by_cases had : Admitted service slot request
  · have hheld : service.held_after slot request = (service.gate slot.state request).2 :=
      if_pos had
    rw [apply_admitted hslot had, hheld]
    refine ⟨?_, fun _ => answer_taken.trans ?_, fun _ => answer_stale.trans ?_,
      fun hno => absurd had hno⟩
    all_goals
      rcases Nat.lt_trichotomy (service.sequence request) (service.state_sequence slot.state)
        with h | h | h
    · rw [gate_lt h]
    · rw [gate_eq h]
    · rw [gate_gt h, hsequence]
      exact Nat.le_of_lt h
    · -- an older delivery cannot assert the state that the slot holds
      have hne : slot.state ≠ service.to_state request :=
        fun hc => Nat.lt_irrefl _ (hsequence ▸ hc ▸ h)
      simp [gate_lt h, hne]
    · rw [gate_eq h]
      by_cases hs : slot.state = service.to_state request <;> simp [hs]
    · simp [gate_gt h]
    · simp [gate_lt h, h]
    · rw [gate_eq h, h]
      by_cases hs : slot.state = service.to_state request <;> simp [hs]
    · simp [gate_gt h, hsequence]
  · have hheld : service.held_after slot request = slot.state := if_neg had
    obtain ⟨reason, happly⟩ := apply_refused hslot had
    rw [hheld, happly]
    exact ⟨Nat.le_refl _, fun h => absurd h had, fun h => absurd h had,
      fun _ => ⟨⟨reason, rfl⟩, rfl⟩⟩

/-! ## Every delivery -/

omit [DecidableEq S] in
/-- The request is newer than the seed, and admitted. -/
def Lands (service : SlotUpdate U S) (seed : SlotChannel S) (request : U) : Prop :=
  Admitted service seed request ∧ service.state_sequence seed.state < service.sequence request

omit [DecidableEq S] in
/-- The state is the one of the newest delivery that lands, or the seed's. -/
def Settles (service : SlotUpdate U S) (seed : SlotChannel S) (deliveries : List U) (state : S) :
    Prop :=
  ((∀ d ∈ deliveries, ¬ Lands service seed d) ∧ state = seed.state) ∨
    ∃ d ∈ deliveries, Lands service seed d ∧ state = service.to_state d ∧
      ∀ e ∈ deliveries, Lands service seed e → service.sequence e ≤ service.sequence d

omit [DecidableEq S] in
/-- One sequence number has one state. -/
def Coherent (service : SlotUpdate U S) (deliveries : List U) : Prop :=
  ∀ d ∈ deliveries, ∀ e ∈ deliveries, service.sequence d = service.sequence e →
    service.to_state d = service.to_state e

omit [DecidableEq S] in
/-- Neither the order nor the number of times each delivery comes matters. -/
theorem Settles.unique {es : List U}
    {t : S} (hsame : ∀ d, d ∈ es ↔ d ∈ ds) (hds : Coherent service ds)
    (hs : Settles service seed ds s) (ht : Settles service seed es t) : t = s := by
  rcases hs with ⟨hnone, rfl⟩ | ⟨d, hd, hland, rfl, hmax⟩
  · rcases ht with ⟨_, rfl⟩ | ⟨e, he, heland, _⟩
    · rfl
    · exact absurd heland (hnone e ((hsame e).mp he))
  rcases ht with ⟨hnone, _⟩ | ⟨e, he, heland, rfl, hemax⟩
  · exact absurd hland (hnone d ((hsame d).mpr hd))
  · have he' := (hsame e).mp he
    exact hds e he' d hd (Nat.le_antisymm (hmax e he' heland)
      (hemax d ((hsame d).mpr hd) hland))

/-- A newer delivery replaces the state, every other one leaves it. -/
theorem Settles.concat (hs : Settles service seed ds s) {r : U} :
    Settles service seed (ds ++ [r]) (service.held_after { seed with state := s } r) := by
  rw [held_after_eq]
  have hmem : ∀ d, d ∈ ds ++ [r] ↔ d ∈ ds ∨ d = r := by simp
  change Settles service seed (ds ++ [r])
    (if Admitted service seed r ∧ service.state_sequence s < service.sequence r then
      service.to_state r else s)
  rcases hs with ⟨hnone, rfl⟩ | ⟨d, hd, hland, rfl, hmax⟩
  · by_cases hr : Lands service seed r
    · rw [if_pos ⟨hr.1, hr.2⟩]
      refine Or.inr ⟨r, (hmem r).mpr (.inr rfl), hr, rfl, fun e he hel => ?_⟩
      rcases (hmem e).mp he with he | rfl
      · exact absurd hel (hnone e he)
      · exact Nat.le_refl _
    · rw [if_neg fun hc => hr ⟨hc.1, hc.2⟩]
      refine Or.inl ⟨fun e he => ?_, rfl⟩
      rcases (hmem e).mp he with he | rfl
      · exact hnone e he
      · exact hr
  · rw [service.state_sequence_to_state]
    by_cases hr : Admitted service seed r ∧ service.sequence d < service.sequence r
    · rw [if_pos hr]
      refine Or.inr ⟨r, (hmem r).mpr (.inr rfl), ⟨hr.1, Nat.lt_trans hland.2 hr.2⟩, rfl,
        fun e he hel => ?_⟩
      rcases (hmem e).mp he with he | rfl
      · exact Nat.le_trans (hmax e he hel) (Nat.le_of_lt hr.2)
      · exact Nat.le_refl _
    · rw [if_neg hr]
      refine Or.inr ⟨d, (hmem d).mpr (.inl hd), hland, rfl, fun e he hel => ?_⟩
      rcases (hmem e).mp he with he | rfl
      · exact hmax e he hel
      · exact Nat.not_lt.mp fun hlt => hr ⟨hel.1, hlt⟩

theorem deliver_settles (hseed : slots.get link_id = some seed)
    (hlink : ∀ d ∈ deliveries, service.link_id d = link_id) :
    ∃ state, (deliver service slots deliveries).get link_id = some { seed with state } ∧
      Settles service seed deliveries state := by
  induction deliveries using List.reverseRecOn with
  | nil => exact ⟨seed.state, hseed, .inl ⟨fun _ hd => absurd hd not_mem_nil, rfl⟩⟩
  | append_singleton ds r ih =>
    obtain ⟨s, hget, hs⟩ := ih fun d hd => hlink d (mem_append_left _ hd)
    have hr : service.link_id r = link_id := hlink r (by simp)
    subst hr
    exact ⟨_, by rw [deliver_concat, apply_get hget], hs.concat⟩

theorem deliver_get_other
    (hlink : ∀ d ∈ deliveries, service.link_id d = link_id) (hk : k ≠ link_id) :
    (deliver service slots deliveries).get k = slots.get k := by
  induction deliveries using List.reverseRecOn with
  | nil => rfl
  | append_singleton ds r ih =>
    have hr : service.link_id r = link_id := hlink r (by simp)
    rw [deliver_concat, apply_get_other (hr ▸ hk)]
    exact ih fun d hd => hlink d (mem_append_left _ hd)

/-- In any order and repetition of deliveries, the slot ends with the newest state that its
cardinality admits, no other slot changes, and each delivery is judged against the state it
meets. -/
theorem the_slot_after_every_delivery (service : SlotUpdate U S)
    (slots : KeyMap String (SlotChannel S)) (link_id : String) (seed : SlotChannel S)
    (deliveries : List U) (hseed : slots.get link_id = some seed)
    (hlink : ∀ d ∈ deliveries, service.link_id d = link_id) (hequal : Coherent service deliveries) :
    (∃ state, (deliver service slots deliveries).get link_id = some { seed with state } ∧
        Settles service seed deliveries state) ∧
      (∀ others : List U, (∀ d, d ∈ others ↔ d ∈ deliveries) →
        (deliver service slots others).get link_id =
          (deliver service slots deliveries).get link_id) ∧
      (∀ k, k ≠ link_id → (deliver service slots deliveries).get k = slots.get k) ∧
      ∀ earlier d later, deliveries = earlier ++ d :: later → ∃ held now,
        (deliver service slots earlier).get link_id = some { seed with state := held } ∧
        (deliver service slots (earlier ++ [d])).get link_id = some { seed with state := now } ∧
        Judged service { seed with state := held } d
          (apply_slot_update service (deliver service slots earlier) d).1 now := by
  obtain ⟨state, hget, hsettles⟩ := deliver_settles hseed hlink
  refine ⟨⟨state, hget, hsettles⟩, ?_, fun k hk => deliver_get_other hlink hk, ?_⟩
  · intro others hsame
    obtain ⟨state', hget', hsettles'⟩ :=
      deliver_settles hseed fun d hd => hlink d ((hsame d).mp hd)
    rw [hget, hget', Settles.unique hsame hequal hsettles hsettles']
  · rintro earlier d later rfl
    have hearlier : ∀ e ∈ earlier, service.link_id e = link_id :=
      fun e he => hlink e (mem_append_left _ he)
    obtain ⟨held, hheld, _⟩ := deliver_settles hseed hearlier
    have hd : service.link_id d = link_id := hlink d (by simp)
    subst hd
    refine ⟨held, _, hheld, ?_, apply_judged hheld⟩
    rw [deliver_concat, apply_get hheld]

/-- Three deliveries to an observer slot, the newest of them inadmissible. -/
theorem the_slot_after_three_deliveries : ∃ state, (deliver (observation_update Nat)
        (KeyMap.insert KeyMap.empty "arm" ⟨.One, ⟨0, []⟩⟩)
        [⟨"arm", 2, [7]⟩, ⟨"arm", 1, [8]⟩, ⟨"arm", 3, [7, 8]⟩]).get "arm" = some ⟨.One, state⟩ ∧
      Settles (observation_update Nat) ⟨.One, ⟨0, []⟩⟩
        [⟨"arm", 2, [7]⟩, ⟨"arm", 1, [8]⟩, ⟨"arm", 3, [7, 8]⟩] state :=
  (the_slot_after_every_delivery (observation_update Nat)
    (KeyMap.insert KeyMap.empty "arm" ⟨.One, ⟨0, []⟩⟩) "arm" ⟨.One, ⟨0, []⟩⟩
    [⟨"arm", 2, [7]⟩, ⟨"arm", 1, [8]⟩, ⟨"arm", 3, [7, 8]⟩]
    (KeyMap.get_insert_self _ _ _) (by simp [observation_update, set_update])
    (by simp [Coherent, observation_update, set_update])).1

/-- A late delivery of two pairs to a slot that holds one pair of a newer
sequence is refused by the cardinality and not answered stale. -/
theorem a_late_delivery_that_is_refused :
    (deliver (peer_update Nat) (KeyMap.insert KeyMap.empty "arm" ⟨.One, ⟨0, []⟩⟩)
        [⟨"arm", 5, [7]⟩]).get "arm" = some ⟨.One, ⟨5, [7]⟩⟩ ∧
      apply_slot_update (peer_update Nat)
        (deliver (peer_update Nat) (KeyMap.insert KeyMap.empty "arm" ⟨.One, ⟨0, []⟩⟩)
          [⟨"arm", 5, [7]⟩]) ⟨"arm", 3, [7, 8]⟩ =
        (.error (.Rejected ("`one` admits no set of 2 members; " ++ DISAGREEMENT_REMEDY)),
          KeyMap.insert KeyMap.empty "arm" ⟨.One, ⟨5, [7]⟩⟩) := by
  decide +kernel

end peppy.slot_update
