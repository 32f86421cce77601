-- The members of a document under a `refine` block: each has its formats in slots,
-- and the problems of all the slots are reported at once.
import Peppy.Refine

open List

namespace peppy.refine

open peppy.message_format

/-! ## The format slots of a member -/

variable {path : String}

theorem parses_apply {refinement : ParsedRefinement} {format : MessageFormat} :
    (refinement.fields.apply_to_fields format.fields path).1.parses = true := by
  have hshape := (fields_applied refinement.parsed (entries_applied _ refinement.parsed)
    format.fields false path).shape
  rw [forget, forget] at hshape
  rw [← parses_forgetFields, (SchemaType.Object.inj hshape).1, parses_forgetFields]
  exact format.parsed

def apply_to_slot (refinement : Option ParsedRefinement) (format : Option MessageFormat)
    (path : String) : Option MessageFormat × List RefinementProblem :=
  match refinement, format with
  | none, format => (format, [])
  | some _, none => (none, [⟨path, .FormatAbsent⟩])
  | some refinement, some format =>
    (some ⟨(refinement.fields.apply_to_fields format.fields path).1,
      parses_apply⟩,
      (refinement.fields.apply_to_fields format.fields path).2)

def finish {T : Type} (value : T) (problems : List RefinementProblem) :
    Except (List RefinementProblem) T :=
  if problems.isEmpty then .ok value else .error problems

structure Slot where
  path : String
  refinement : Option ParsedRefinement
  format : Option MessageFormat

variable {problems : List RefinementProblem}

namespace Slot

variable (slot : Slot)

def apply : Option MessageFormat × List RefinementProblem :=
  apply_to_slot slot.refinement slot.format slot.path

def pins : List (Path × Nat) :=
  match slot.refinement with
  | none => []
  | some refinement => refinement.fields.pins

/-- The path lands in the format of the slot. -/
def Lands (path : Path) : Prop :=
  ∃ format, slot.format = some format ∧ refine.Lands (.Object format.fields false) path

/-- Only the pinned lengths change, and arrays of scalars stay such. -/
def Pinned (after : Option MessageFormat) : Prop :=
  match slot.format, after with
  | none, none => True
  | some format, some refined =>
    forgetFields refined.fields = forgetFields format.fields ∧
    (∀ pin ∈ slot.pins, length_at (.Object refined.fields false) pin.1 = some pin.2) ∧
    (∀ path, (∀ pin ∈ slot.pins, pin.1 ≠ path) →
      length_at (.Object refined.fields false) path =
        length_at (.Object format.fields false) path) ∧
    (validate_fixed_length_array_items format = .ok () →
      validate_fixed_length_array_items refined = .ok ())
  | _, _ => False

/-- The problems of the slot: one for each block at which pins leave the
document. -/
def Reported (problems : List RefinementProblem) : Prop :=
  ∃ blocks : List Path, blocks.Nodup ∧
    problems.map RefinementProblem.path = blocks.map (render slot.path) ∧
    (∀ block ∈ blocks, ∃ pin ∈ slot.pins, block <+: pin.1 ∧ ¬ slot.Lands pin.1) ∧
    ∀ pin ∈ slot.pins, ¬ slot.Lands pin.1 →
      ∃ block ∈ blocks, block <+: pin.1 ∧ ∀ block' ∈ blocks, block' <+: pin.1 → block' = block

theorem Reported.nil_iff {slot : Slot}
    (h : slot.Reported problems) : problems = [] ↔ ∀ pin ∈ slot.pins, slot.Lands pin.1 := by
  obtain ⟨blocks, _, hpaths, hinside, honce⟩ := h
  have hnil : problems = [] ↔ blocks = [] := by
    rw [← map_eq_nil_iff, hpaths, map_eq_nil_iff]
  rw [hnil]
  constructor
  · rintro rfl pin hpin
    by_contra hno
    obtain ⟨block, hblock, _⟩ := honce pin hpin hno
    cases hblock
  · intro hall
    refine eq_nil_iff_forall_not_mem.mpr fun block hblock => ?_
    obtain ⟨pin, hpin, _, hno⟩ := hinside block hblock
    exact hno (hall pin hpin)

theorem reported : slot.Reported slot.apply.2 := by
  obtain ⟨path, refinement, format⟩ := slot
  cases refinement with
  | none => exact ⟨[], nodup_nil, rfl, by simp, by simp [pins]⟩
  | some refinement =>
    cases format with
    | none =>
      have hpins := pins_fields_ne_nil refinement.fields
        (by simpa using refinement.not_empty) refinement.parsed
      obtain ⟨pin, hpin⟩ := exists_mem_of_ne_nil _ hpins
      have hno : ∀ inner, ¬ Slot.Lands ⟨path, some refinement, none⟩ inner := by
        rintro inner ⟨format, hformat, _⟩
        cases hformat
      refine ⟨[[]], nodup_singleton _, rfl, ?_, fun pin _ _ => ?_⟩
      · rintro block (_ | ⟨_, ⟨⟩⟩)
        exact ⟨pin, hpin, nil_prefix, hno _⟩
      · exact ⟨[], mem_singleton_self _, nil_prefix,
          fun b hb _ => mem_singleton.mp hb⟩
    | some format =>
      obtain ⟨blocks, hblocks⟩ := (fields_applied refinement.parsed
        (entries_applied _ refinement.parsed) format.fields false path).named
      have hlands : ∀ inner, Slot.Lands ⟨path, some refinement, some format⟩ inner ↔
          refine.Lands (.Object format.fields false) inner := by
        intro inner
        simp [Slot.Lands]
      refine ⟨blocks, hblocks.nodup, hblocks.paths, fun block hblock => ?_, fun pin hpin hno => ?_⟩
      · obtain ⟨pin, hpin, hpre, hno⟩ := hblocks.inside block hblock
        exact ⟨pin, hpin, hpre, fun hl => hno ((hlands _).mp hl)⟩
      · exact hblocks.once pin hpin fun hl => hno ((hlands _).mpr hl)

theorem pinned {slot : Slot} (h : slot.apply.2 = []) : slot.Pinned slot.apply.1 := by
  have hall := (reported slot).nil_iff.mp h
  obtain ⟨path, refinement, format⟩ := slot
  cases format with
  | none => cases refinement <;> trivial
  | some format =>
    cases refinement with
    | none => exact ⟨rfl, by simp [pins], fun _ _ => rfl, id⟩
    | some refinement =>
      have hentries := entries_applied _ refinement.parsed
      have happlied := fields_applied refinement.parsed hentries format.fields false path
      have hshape := happlied.shape
      rw [forget, forget] at hshape
      refine ⟨(SchemaType.Object.inj hshape).1, fun pin hpin => ?_, fun inner hinner => ?_,
        apply_checked hentries path⟩
      · obtain ⟨format', hformat, hlands⟩ := hall pin hpin
        cases hformat
        exact happlied.pinned pin hpin hlands
      · exact happlied.kept inner fun pin hpin heq => absurd heq (hinner pin hpin)

end Slot

/-! ## The members -/

/-- Refined exactly when every pin lands; otherwise the problems of each slot. -/
structure Refined {M : Type} (slots : List Slot) (after : M → List (Option MessageFormat))
    (same : M → Prop) (result : Except (List RefinementProblem) M) : Prop where
  ok_iff : (∃ member, result = .ok member) ↔
    ∀ slot ∈ slots, ∀ pin ∈ slot.pins, slot.Lands pin.1
  ok : ∀ member, result = .ok member →
    same member ∧ List.Forall₂ Slot.Pinned slots (after member)
  error : ∀ problems, result = .error problems →
    ∃ parts, problems = parts.flatten ∧ List.Forall₂ Slot.Reported slots parts

variable {T : Type}

theorem finish_eq_ok {value value' : T} :
    finish value problems = .ok value' ↔ problems = [] ∧ value' = value := by
  unfold finish
  cases problems <;> simp [eq_comm]

theorem finish_eq_error {value : T} {problems' : List RefinementProblem} :
    finish value problems = .error problems' ↔ problems ≠ [] ∧ problems' = problems := by
  unfold finish
  cases problems <;> simp [eq_comm]

theorem refined_finish {M : Type} {slots : List Slot} {after : M → List (Option MessageFormat)}
    {same : M → Prop} {member : M} (hafter : after member = slots.map fun slot => slot.apply.1)
    (hsame : same member) :
    Refined slots after same (finish member (slots.flatMap fun slot => slot.apply.2)) := by
  have hnil : (slots.flatMap fun slot => slot.apply.2) = [] ↔
      ∀ slot ∈ slots, slot.apply.2 = [] := flatMap_eq_nil_iff
  refine ⟨?_, fun m hm => ?_, fun problems hproblems => ?_⟩
  · simp only [finish_eq_ok, hnil, exists_and_left, exists_eq, and_true]
    exact forall₂_congr fun slot _ => (Slot.reported slot).nil_iff
  · obtain ⟨hempty, rfl⟩ := finish_eq_ok.mp hm
    refine ⟨hsame, ?_⟩
    rw [hafter, forall₂_map_right_iff, forall₂_same]
    exact fun slot hslot => Slot.pinned (hnil.mp hempty slot hslot)
  · refine ⟨slots.map fun slot => slot.apply.2, ?_, ?_⟩
    · rw [(finish_eq_error.mp hproblems).2, flatMap_def]
    · rw [forall₂_map_right_iff, forall₂_same]
      exact fun slot _ => Slot.reported slot

section
variable {D E : Type}

structure TopicRefinement where
  message_format : ParsedRefinement

/-- At least one side is named. -/
structure ServiceRefinement where
  request_message_format : Option ParsedRefinement
  response_message_format : Option ParsedRefinement
  named : (request_message_format.isSome || response_message_format.isSome) = true := by rfl

structure ResultServiceRefinement where
  response_message_format : ParsedRefinement

/-- At least one endpoint is named. -/
structure ActionRefinement where
  goal_service : Option ServiceRefinement
  feedback_topic : Option TopicRefinement
  result_service : Option ResultServiceRefinement
  named : (goal_service.isSome || feedback_topic.isSome || result_service.isSome) = true := by rfl

/-- A topic of a document; `declared` is what it has besides its format. -/
structure NativeEmittedTopic (D : Type) where
  declared : D
  message_format : Option MessageFormat

structure NativeExposedService (D : Type) where
  declared : D
  request_message_format : Option MessageFormat
  response_message_format : Option MessageFormat

structure GoalServiceEndpoint where
  request_message_format : Option MessageFormat
  response_message_format : Option MessageFormat

structure ActionTopicEndpoint (E : Type) where
  declared : E
  message_format : MessageFormat

structure ResultServiceEndpoint where
  response_message_format : Option MessageFormat

structure NativeExposedAction (D E : Type) where
  declared : D
  goal_service : Option GoalServiceEndpoint
  feedback_topic : Option (ActionTopicEndpoint E)
  result_service : Option ResultServiceEndpoint

def TopicRefinement.apply (refinement : TopicRefinement) (topic : NativeEmittedTopic D) :
    Except (List RefinementProblem) (NativeEmittedTopic D) :=
  let (message_format, problems) :=
    apply_to_slot (some refinement.message_format) topic.message_format "message_format"
  finish { topic with message_format } problems

def ServiceRefinement.apply (refinement : ServiceRefinement) (service : NativeExposedService D) :
    Except (List RefinementProblem) (NativeExposedService D) :=
  let (request_message_format, problems) := apply_to_slot refinement.request_message_format
    service.request_message_format "request_message_format"
  let (response_message_format, problems') := apply_to_slot refinement.response_message_format
    service.response_message_format "response_message_format"
  finish { service with request_message_format, response_message_format } (problems ++ problems')

def apply_to_goal (refinement : Option ServiceRefinement) (endpoint : Option GoalServiceEndpoint) :
    Option GoalServiceEndpoint × List RefinementProblem :=
  match refinement with
  | none => (endpoint, [])
  | some goal =>
    let (request_message_format, problems) := apply_to_slot goal.request_message_format
      (endpoint.bind GoalServiceEndpoint.request_message_format)
      "goal_service.request_message_format"
    let (response_message_format, problems') := apply_to_slot goal.response_message_format
      (endpoint.bind GoalServiceEndpoint.response_message_format)
      "goal_service.response_message_format"
    (endpoint.map fun _ => { request_message_format, response_message_format }, problems ++ problems')

def apply_to_feedback (refinement : Option TopicRefinement)
    (endpoint : Option (ActionTopicEndpoint E)) :
    Option (ActionTopicEndpoint E) × List RefinementProblem :=
  match refinement with
  | none => (endpoint, [])
  | some feedback =>
    let (format, problems) := apply_to_slot (some feedback.message_format)
      (endpoint.map ActionTopicEndpoint.message_format) "feedback_topic.message_format"
    (endpoint.map fun slot => { slot with message_format := format.getD slot.message_format },
      problems)

def apply_to_result (refinement : Option ResultServiceRefinement)
    (endpoint : Option ResultServiceEndpoint) :
    Option ResultServiceEndpoint × List RefinementProblem :=
  match refinement with
  | none => (endpoint, [])
  | some result =>
    let (response_message_format, problems) := apply_to_slot (some result.response_message_format)
      (endpoint.bind ResultServiceEndpoint.response_message_format)
      "result_service.response_message_format"
    (endpoint.map fun _ => { response_message_format }, problems)

variable (refinement : ActionRefinement)

def ActionRefinement.apply (action : NativeExposedAction D E) :
    Except (List RefinementProblem) (NativeExposedAction D E) :=
  let (goal_service, problems) := apply_to_goal refinement.goal_service action.goal_service
  let (feedback_topic, problems') :=
    apply_to_feedback refinement.feedback_topic action.feedback_topic
  let (result_service, problems'') :=
    apply_to_result refinement.result_service action.result_service
  finish { action with goal_service, feedback_topic, result_service }
    (problems ++ problems' ++ problems'')

def TopicRefinement.slots (refinement : TopicRefinement) (topic : NativeEmittedTopic D) :
    List Slot :=
  [⟨"message_format", some refinement.message_format, topic.message_format⟩]

def ServiceRefinement.slots (refinement : ServiceRefinement) (service : NativeExposedService D) :
    List Slot :=
  [⟨"request_message_format", refinement.request_message_format, service.request_message_format⟩,
    ⟨"response_message_format", refinement.response_message_format,
      service.response_message_format⟩]

def NativeExposedAction.formats (action : NativeExposedAction D E) : List (Option MessageFormat) :=
  [action.goal_service.bind GoalServiceEndpoint.request_message_format,
    action.goal_service.bind GoalServiceEndpoint.response_message_format,
    action.feedback_topic.map ActionTopicEndpoint.message_format,
    action.result_service.bind ResultServiceEndpoint.response_message_format]

def ActionRefinement.slots (action : NativeExposedAction D E) : List Slot :=
  [⟨"goal_service.request_message_format",
      refinement.goal_service.bind ServiceRefinement.request_message_format,
      action.goal_service.bind GoalServiceEndpoint.request_message_format⟩,
    ⟨"goal_service.response_message_format",
      refinement.goal_service.bind ServiceRefinement.response_message_format,
      action.goal_service.bind GoalServiceEndpoint.response_message_format⟩,
    ⟨"feedback_topic.message_format",
      refinement.feedback_topic.map TopicRefinement.message_format,
      action.feedback_topic.map ActionTopicEndpoint.message_format⟩,
    ⟨"result_service.response_message_format",
      refinement.result_service.map ResultServiceRefinement.response_message_format,
      action.result_service.bind ResultServiceEndpoint.response_message_format⟩]

/-- Only formats differ. -/
def NativeExposedAction.SameBut (action refined : NativeExposedAction D E) : Prop :=
  refined.declared = action.declared ∧
    refined.goal_service.isSome = action.goal_service.isSome ∧
    refined.feedback_topic.map ActionTopicEndpoint.declared =
      action.feedback_topic.map ActionTopicEndpoint.declared ∧
    refined.result_service.isSome = action.result_service.isSome

theorem apply_to_slot_none {refinement : Option ParsedRefinement} :
    (apply_to_slot refinement none path).1 = none := by
  cases refinement <;> rfl

open ServiceRefinement GoalServiceEndpoint ActionTopicEndpoint

theorem apply_to_goal_formats {refinement : Option ServiceRefinement}
    {endpoint : Option GoalServiceEndpoint} :
    (apply_to_goal refinement endpoint).1.bind request_message_format =
        (apply_to_slot (refinement.bind request_message_format)
          (endpoint.bind request_message_format) "goal_service.request_message_format").1 ∧
      (apply_to_goal refinement endpoint).1.bind response_message_format =
        (apply_to_slot (refinement.bind response_message_format)
          (endpoint.bind response_message_format)
          "goal_service.response_message_format").1 ∧ (apply_to_goal refinement endpoint).2 =
        (apply_to_slot (refinement.bind request_message_format)
          (endpoint.bind request_message_format) "goal_service.request_message_format").2 ++
        (apply_to_slot (refinement.bind response_message_format)
          (endpoint.bind response_message_format) "goal_service.response_message_format").2 ∧
      (apply_to_goal refinement endpoint).1.isSome = endpoint.isSome := by
  cases refinement with
  | none => exact ⟨rfl, rfl, rfl, rfl⟩
  | some goal =>
    cases endpoint with
    | none => exact ⟨(apply_to_slot_none ..).symm, (apply_to_slot_none ..).symm, rfl, rfl⟩
    | some slot => exact ⟨rfl, rfl, rfl, rfl⟩

theorem apply_to_feedback_format {refinement : Option TopicRefinement}
    {endpoint : Option (ActionTopicEndpoint E)} :
    (apply_to_feedback refinement endpoint).1.map message_format =
        (apply_to_slot (refinement.map TopicRefinement.message_format)
          (endpoint.map message_format) "feedback_topic.message_format").1 ∧
      (apply_to_feedback refinement endpoint).2 =
        (apply_to_slot (refinement.map TopicRefinement.message_format)
          (endpoint.map message_format) "feedback_topic.message_format").2 ∧
      (apply_to_feedback refinement endpoint).1.map declared = endpoint.map declared := by
  cases refinement with
  | none => exact ⟨rfl, rfl, rfl⟩
  | some feedback => cases endpoint <;> exact ⟨rfl, rfl, rfl⟩

theorem apply_to_result_format {refinement : Option ResultServiceRefinement}
    {endpoint : Option ResultServiceEndpoint} :
    (apply_to_result refinement endpoint).1.bind ResultServiceEndpoint.response_message_format =
        (apply_to_slot (refinement.map ResultServiceRefinement.response_message_format)
          (endpoint.bind ResultServiceEndpoint.response_message_format)
          "result_service.response_message_format").1 ∧ (apply_to_result refinement endpoint).2 =
        (apply_to_slot (refinement.map ResultServiceRefinement.response_message_format)
          (endpoint.bind ResultServiceEndpoint.response_message_format)
          "result_service.response_message_format").2 ∧
      (apply_to_result refinement endpoint).1.isSome = endpoint.isSome := by
  cases refinement with
  | none => exact ⟨rfl, rfl, rfl⟩
  | some result => cases endpoint <;> exact ⟨rfl, rfl, rfl⟩

theorem action_refined (action : NativeExposedAction D E) :
    Refined (refinement.slots action) NativeExposedAction.formats action.SameBut
      (refinement.apply action) := by
  obtain ⟨hrequest, hresponse, hgoal, hgoalSome⟩ :=
    apply_to_goal_formats
  obtain ⟨hfeedback, hfeedbackProblems, hdeclared⟩ :=
    apply_to_feedback_format
  obtain ⟨hresult, hresultProblems, hresultSome⟩ :=
    apply_to_result_format
  have happly : refinement.apply action =
      finish { action with
        goal_service := (apply_to_goal refinement.goal_service action.goal_service).1
        feedback_topic := (apply_to_feedback refinement.feedback_topic action.feedback_topic).1
        result_service := (apply_to_result refinement.result_service action.result_service).1 }
        ((refinement.slots action).flatMap fun slot => slot.apply.2) := by
    unfold ActionRefinement.apply
    dsimp only
    rw [hgoal, hfeedbackProblems, hresultProblems]
    simp [ActionRefinement.slots, Slot.apply]
  rw [happly]
  refine refined_finish ?_ ⟨rfl, hgoalSome, hdeclared, hresultSome⟩
  unfold NativeExposedAction.formats
  rw [hrequest, hresponse, hfeedback, hresult]
  rfl

end

end peppy.refine
