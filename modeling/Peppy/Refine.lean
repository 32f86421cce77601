-- The `refine` block of a document-backed entry, which pins lengths on the arrays of
-- the document. The refinement and the schema are walked together.
import Mathlib.Data.List.Nodup
import Mathlib.Data.List.Infix
import Peppy.MessageFormat

open List

namespace peppy.refine

open peppy.message_format

/-! ## The refinements -/

mutual

/-- What a `refine` block says about one field of the document's format. -/
inductive FieldRefinement where
  | Length (length : Nat)
  | Items (nested : FormatRefinement)
  | Object (nested : FormatRefinement)

inductive FormatRefinement where
  | nil
  | cons (field_name : String) (refinement : FieldRefinement) (rest : FormatRefinement)

end

def FormatRefinement.entries : FormatRefinement → List (String × FieldRefinement)
  | .nil => []
  | .cons field_name refinement rest => (field_name, refinement) :: rest.entries

mutual

/-- No empty block, no modifier as a field name, and no field named twice. -/
def FieldRefinement.parses : FieldRefinement → Bool
  | .Length _ => true
  | .Items nested | .Object nested => !nested.entries.isEmpty && nested.parses

def FormatRefinement.parses : FormatRefinement → Bool
  | .nil => true
  | .cons field_name refinement rest =>
    field_name.toList.head? != some '$' && !(rest.entries.map Prod.fst).contains field_name &&
      refinement.parses && rest.parses

end

structure ParsedRefinement where
  fields : FormatRefinement
  not_empty : fields.entries.isEmpty = false := by rfl
  parsed : fields.parses = true := by rfl

/-! ## The problems -/

inductive RefinementProblemKind where
  | FormatAbsent
  | UnknownField
  | NotAnArray (declared : String)
  | NotAnObject (declared : String)
  | AlreadyFixed (length : Nat)
  | UnsupportedItems (declared : String)
  | ItemsNotObjects (declared : String)

structure RefinementProblem where
  path : String
  kind : RefinementProblemKind

def describe_items : SchemaType → String
  | .Token token | .Primitive token _ => "`" ++ type_token_name token ++ "`"
  | .Array .. => "array"
  | .Object .. => "object"

def describe (schema : SchemaType) : String :=
  let article := match schema with
    | .Array .. | .Object .. => "an"
    | .Token _ | .Primitive .. => "a"
  article ++ " " ++ describe_items schema

/-! ## Applying a refinement -/

def get (field_name : String) : Fields → Option SchemaType
  | .nil => none
  | .cons name schema rest => if field_name = name then some schema else get field_name rest

def put (field_name : String) (schema : SchemaType) : Fields → Fields
  | .nil => .nil
  | .cons name old rest =>
    if field_name = name then .cons name schema rest else .cons name old (put field_name schema rest)

/-- The turn of `apply_to_schema` for `$length`. -/
def pin_length (length : Nat) (schema : SchemaType) (path : String) :
    SchemaType × List RefinementProblem :=
  match schema with
  | .Array items (some existing) optional =>
    (.Array items (some existing) optional, [⟨path, .AlreadyFixed existing⟩])
  | .Array items none optional =>
    if items.as_type_token.any is_scalar then (.Array items (some length) optional, [])
    else (.Array items none optional, [⟨path, .UnsupportedItems (describe_items items)⟩])
  | other => (other, [⟨path, .NotAnArray (describe other)⟩])

mutual

def FieldRefinement.apply_to_schema : FieldRefinement → SchemaType → String →
    SchemaType × List RefinementProblem
  | .Length length, schema, path => pin_length length schema path
  | .Items nested, schema, path =>
    match schema with
    | .Array (.Object fields opt) length optional =>
      let (fields, problems) := nested.apply_to_fields fields (path ++ "[]")
      (.Array (.Object fields opt) length optional, problems)
    | .Array other length optional =>
      (.Array other length optional, [⟨path, .ItemsNotObjects (describe_items other)⟩])
    | other => (other, [⟨path, .NotAnArray (describe other)⟩])
  | .Object nested, schema, path =>
    match schema with
    | .Object fields optional =>
      let (fields, problems) := nested.apply_to_fields fields path
      (.Object fields optional, problems)
    | other => (other, [⟨path, .NotAnObject (describe other)⟩])

/-- The loop over the named fields. Pins that land apply even if others fail. -/
def FormatRefinement.apply_to_fields : FormatRefinement → Fields → String →
    Fields × List RefinementProblem
  | .nil, fields, _ => (fields, [])
  | .cons field_name refinement rest, fields, pre =>
    let path := pre ++ "." ++ field_name
    match get field_name fields with
    | none =>
      let (fields, problems) := rest.apply_to_fields fields pre
      (fields, ⟨path, .UnknownField⟩ :: problems)
    | some schema =>
      let (schema, problems) := refinement.apply_to_schema schema path
      let (fields, problems') := rest.apply_to_fields (put field_name schema fields) pre
      (fields, problems ++ problems')

end

/-! ## The pins and where they land -/

inductive Step where
  | field (field_name : String)
  | items

abbrev Path := List Step

def reach : SchemaType → Path → Option SchemaType
  | schema, [] => some schema
  | .Object fields _, .field field_name :: path => (get field_name fields).bind (reach · path)
  | .Array items _ _, .items :: path => reach items path
  | _, _ :: _ => none

def render (pre : String) : Path → String
  | [] => pre
  | .field field_name :: path => render (pre ++ "." ++ field_name) path
  | .items :: path => render (pre ++ "[]") path

mutual

def FieldRefinement.pins : FieldRefinement → List (Path × Nat)
  | .Length length => [([], length)]
  | .Items nested => nested.pins.map fun pin => (.items :: pin.1, pin.2)
  | .Object nested => nested.pins

def FormatRefinement.pins : FormatRefinement → List (Path × Nat)
  | .nil => []
  | .cons field_name refinement rest =>
    (refinement.pins.map fun pin => (.field field_name :: pin.1, pin.2)) ++ rest.pins

end

/-- An array of scalar tokens that the document leaves without a length. -/
def isOpenArray : SchemaType → Bool
  | .Array items none _ => items.as_type_token.any is_scalar
  | _ => false

/-- The path leads to an array without a length. -/
def Lands (schema : SchemaType) (path : Path) : Prop :=
  ∃ array, reach schema path = some array ∧ isOpenArray array = true

def length_at (schema : SchemaType) (path : Path) : Option Nat :=
  match reach schema path with
  | some (.Array _ length _) => length
  | _ => none

mutual

def forget : SchemaType → SchemaType
  | .Token token => .Token token
  | .Primitive kind optional => .Primitive kind optional
  | .Array items _ optional => .Array (forget items) none optional
  | .Object fields optional => .Object (forgetFields fields) optional

def forgetFields : Fields → Fields
  | .nil => .nil
  | .cons field_name schema rest => .cons field_name (forget schema) (forgetFields rest)

end

/-- The blocks where pins leave the document, once each, one for each such pin. -/
structure NamedBy (blocks : List Path) (pins : List (Path × Nat)) (schema : SchemaType)
    (pre : String) (problems : List RefinementProblem) : Prop where
  nodup : blocks.Nodup
  paths : problems.map RefinementProblem.path = blocks.map (render pre)
  inside : ∀ block ∈ blocks, ∃ pin ∈ pins, block <+: pin.1 ∧ ¬ Lands schema pin.1
  once : ∀ pin ∈ pins, ¬ Lands schema pin.1 →
    ∃ block ∈ blocks, block <+: pin.1 ∧ ∀ block' ∈ blocks, block' <+: pin.1 → block' = block

/-- Each problem names a pin that does not land. -/
def Named (pins : List (Path × Nat)) (schema : SchemaType) (pre : String)
    (problems : List RefinementProblem) : Prop :=
  ∃ blocks, NamedBy blocks pins schema pre problems

/-- What a refinement makes of a schema, and the problems that it reports. -/
structure Applied (pins : List (Path × Nat)) (schema : SchemaType) (pre : String)
    (refined : SchemaType) (problems : List RefinementProblem) : Prop where
  shape : forget refined = forget schema
  pinned : ∀ pin ∈ pins, Lands schema pin.1 → length_at refined pin.1 = some pin.2
  kept : ∀ path, (∀ pin ∈ pins, pin.1 = path → ¬ Lands schema path) →
    length_at refined path = length_at schema path
  checked : ∀ field, check_fixed_array schema field = .ok () →
    check_fixed_array refined field = .ok ()
  named : Named pins schema pre problems

/-! ## The fields -/

theorem get_put_self {field_name : String} {old : SchemaType} (schema : SchemaType) :
    (fields : Fields) → get field_name fields = some old →
      get field_name (put field_name schema fields) = some schema
  | .nil, h => by cases h
  | .cons name s rest, h => by
    unfold put
    by_cases hn : field_name = name
    · simp [hn, get]
    · rw [get, if_neg hn] at h
      rw [if_neg hn, get, if_neg hn, get_put_self schema rest h]

theorem get_put_of_ne {field_name other : String} (hne : other ≠ field_name) (schema : SchemaType)
    (fields : Fields) : get other (put field_name schema fields) = get other fields := by
  cases fields with
  | nil => rfl
  | cons name s rest =>
    unfold put
    by_cases hn : field_name = name
    · subst hn
      simp [get, hne]
    · rw [if_neg hn, get, get, get_put_of_ne hne schema rest]

theorem forgetFields_put {field_name : String} {old schema : SchemaType}
    (hforget : forget schema = forget old) : (fields : Fields) → get field_name fields = some old →
      forgetFields (put field_name schema fields) = forgetFields fields
  | .nil, h => by cases h
  | .cons name s rest, h => by
    unfold put
    by_cases hn : field_name = name
    · rw [get, if_pos hn] at h
      cases h
      rw [if_pos hn, forgetFields, forgetFields, hforget]
    · rw [get, if_neg hn] at h
      rw [if_neg hn, forgetFields, forgetFields, forgetFields_put hforget rest h]

theorem check_of_get {field_name : String} {schema : SchemaType} {pathOf : String → String} :
    (fields : Fields) → get field_name fields = some schema →
      check_fixed_array_fields pathOf fields = .ok () →
      check_fixed_array schema (pathOf field_name) = .ok ()
  | .nil, h, _ => by cases h
  | .cons name s rest, h, hcheck => by
    rw [check_fixed_array_fields] at hcheck
    obtain ⟨_, hs, hrest⟩ := results.bind_ok.mp hcheck
    by_cases hn : field_name = name
    · rw [get, if_pos hn] at h
      cases h
      rw [hn]
      exact hs
    · rw [get, if_neg hn] at h
      exact check_of_get rest h hrest

theorem check_put {field_name : String} {schema : SchemaType} {pathOf : String → String}
    (hschema : check_fixed_array schema (pathOf field_name) = .ok ()) :
    (fields : Fields) → check_fixed_array_fields pathOf fields = .ok () →
      check_fixed_array_fields pathOf (put field_name schema fields) = .ok ()
  | .nil, _ => rfl
  | .cons name s rest, hcheck => by
    rw [check_fixed_array_fields] at hcheck
    obtain ⟨_, hs, hrest⟩ := results.bind_ok.mp hcheck
    unfold put
    by_cases hn : field_name = name
    · rw [if_pos hn, check_fixed_array_fields]
      rw [hn] at hschema
      exact results.bind_ok.mpr ⟨(), hschema, hrest⟩
    · rw [if_neg hn, check_fixed_array_fields]
      exact results.bind_ok.mpr ⟨(), hs, check_put hschema rest hrest⟩

mutual

theorem parses_forget : (schema : SchemaType) → (forget schema).parses = schema.parses
  | .Token _ => rfl
  | .Primitive .. => rfl
  | .Array items _ _ => by
    have harray : (forget items).isArray = items.isArray := by cases items <;> rfl
    have hoptional : (forget items).is_optional = items.is_optional := by cases items <;> rfl
    rw [forget, SchemaType.parses, SchemaType.parses, harray, hoptional, parses_forget items]
  | .Object fields _ => parses_forgetFields fields

theorem parses_forgetFields : (fields : Fields) → (forgetFields fields).parses = fields.parses
  | .nil => rfl
  | .cons _ schema rest => by
    rw [forgetFields, Fields.parses, Fields.parses, parses_forget schema, parses_forgetFields rest]

end

/-! ## The entries of a refinement -/

variable {field_name : String}

open FormatRefinement

theorem parses_cons {refinement : FieldRefinement} {rest : FormatRefinement}
    (h : (cons field_name refinement rest).parses = true) :
    field_name ∉ rest.entries.map Prod.fst ∧ refinement.parses = true ∧ rest.parses = true := by
  rw [parses] at h
  simp only [Bool.and_eq_true, Bool.not_eq_true', contains_eq_mem,
    decide_eq_false_iff_not] at h
  obtain ⟨⟨⟨_, hfresh⟩, hrefinement⟩, hrest⟩ := h
  exact ⟨hfresh, hrefinement, hrest⟩

theorem mem_pins {pin : Path × Nat} : (fields : FormatRefinement) → (pin ∈ fields.pins ↔
    ∃ e ∈ fields.entries, ∃ inner ∈ e.2.pins, pin = (.field e.1 :: inner.1, inner.2))
  | .nil => by simp [pins, entries]
  | .cons field_name refinement rest => by
    rw [pins, mem_append, mem_pins rest, entries]
    simp only [mem_map, mem_cons, exists_eq_or_imp, eq_comm]

/-- The loop refines each named field by its own refinement, and no other. -/
theorem get_apply : (refinement : FormatRefinement) → refinement.parses = true →
    (fields : Fields) → (pre field_name : String) → (field_name ∉ refinement.entries.map Prod.fst →
      get field_name (refinement.apply_to_fields fields pre).1 = get field_name fields) ∧
    ∀ r, (field_name, r) ∈ refinement.entries →
      get field_name (refinement.apply_to_fields fields pre).1 =
        (get field_name fields).map fun schema =>
          (r.apply_to_schema schema (pre ++ "." ++ field_name)).1
  | .nil, _, fields, pre, field_name => ⟨fun _ => rfl, fun r h => by cases h⟩
  | .cons name refinement rest, h, fields, pre, field_name => by
    obtain ⟨hfresh, -, hrest⟩ := parses_cons h
    rw [apply_to_fields, entries]
    cases hget : get name fields with
    | none =>
      obtain ⟨hother, hown⟩ := get_apply rest hrest fields pre field_name
      refine ⟨fun hno => hother fun hmem => hno (mem_cons_of_mem _ hmem), ?_⟩
      rintro r (_ | ⟨_, hr⟩)
      · rw [hget]
        exact (hother hfresh).trans hget
      · exact hown r hr
    | some schema =>
      dsimp only
      obtain ⟨hother, hown⟩ := get_apply rest hrest
        (put name (refinement.apply_to_schema schema (pre ++ "." ++ name)).1 fields) pre field_name
      constructor
      · intro hno
        rw [map_cons, mem_cons, not_or] at hno
        rw [hother hno.2, get_put_of_ne hno.1]
      rintro r (_ | ⟨_, hr⟩)
      · rw [hother hfresh, get_put_self _ fields hget, hget]
        rfl
      · have hne : field_name ≠ name := by
          rintro rfl
          exact hfresh (mem_map.mpr ⟨_, hr, rfl⟩)
        rw [hown r hr, get_put_of_ne hne]

def entryProblems (fields : Fields) (pre : String) (e : String × FieldRefinement) :
    List RefinementProblem :=
  match get e.1 fields with
  | none => [⟨pre ++ "." ++ e.1, .UnknownField⟩]
  | some schema => (e.2.apply_to_schema schema (pre ++ "." ++ e.1)).2

theorem problems_apply : (refinement : FormatRefinement) → refinement.parses = true →
    (fields : Fields) → (pre : String) → (refinement.apply_to_fields fields pre).2 =
      refinement.entries.flatMap (entryProblems fields pre)
  | .nil, _, _, _ => rfl
  | .cons name refinement rest, h, fields, pre => by
    obtain ⟨hfresh, -, hrest⟩ := parses_cons h
    rw [apply_to_fields, entries, flatMap_cons]
    cases hget : get name fields with
    | none =>
      dsimp only
      rw [problems_apply rest hrest fields pre, entryProblems, hget]
      rfl
    | some schema =>
      dsimp only
      rw [problems_apply rest hrest, entryProblems, hget]
      dsimp only
      congr 1
      -- no later entry reads the field that this one changed
      refine flatMap_congr fun e he => ?_
      have hne : e.1 ≠ name := by
        intro hname
        exact hfresh (mem_map.mpr ⟨e, he, hname⟩)
      unfold entryProblems
      rw [get_put_of_ne hne]

/-- What holds of the fields is kept, if each put of the loop keeps it. -/
theorem apply_keeps {P : Fields → Prop} : (refinement : FormatRefinement) → (pre : String) →
    (∀ e ∈ refinement.entries, ∀ fields schema, P fields → get e.1 fields = some schema →
      P (put e.1 (e.2.apply_to_schema schema (pre ++ "." ++ e.1)).1 fields)) →
    (fields : Fields) → P fields → P (refinement.apply_to_fields fields pre).1
  | .nil, _, _, _, h => h
  | .cons name refinement rest, pre, hput, fields, h => by
    have hrest := apply_keeps rest pre fun e he => hput e (mem_cons_of_mem _ he)
    rw [apply_to_fields]
    cases hget : get name fields with
    | none => exact hrest fields h
    | some schema =>
      exact hrest _ (hput (name, refinement) mem_cons_self fields schema h hget)

/-! ## Where the pins of a block land -/

variable {schema : SchemaType} {path : Path}

theorem not_lands_of_reach_none {path : Path}
    (h : reach schema path = none) : ¬ Lands schema path := by
  rintro ⟨array, hreach, _⟩
  rw [h] at hreach
  cases hreach

variable {fields : Fields} {optional : Bool}

theorem lands_field : Lands (.Object fields optional) (.field field_name :: path) ↔
      ∃ schema, get field_name fields = some schema ∧ Lands schema path := by
  unfold Lands
  rw [reach]
  cases get field_name fields <;> simp

theorem length_at_field : length_at (.Object fields optional) (.field field_name :: path) =
      (get field_name fields).bind (length_at · path) := by
  unfold length_at
  rw [reach]
  cases get field_name fields <;> rfl

variable {items : SchemaType} {length : Option Nat}

mutual

theorem pins_ne_nil : (refinement : FieldRefinement) → refinement.parses = true →
    refinement.pins ≠ []
  | .Length _, _ => by simp [FieldRefinement.pins]
  | .Items nested, h => by
    rw [FieldRefinement.parses, Bool.and_eq_true] at h
    rw [FieldRefinement.pins, Ne, map_eq_nil_iff]
    exact pins_fields_ne_nil nested (by simpa using h.1) h.2
  | .Object nested, h => by
    rw [FieldRefinement.parses, Bool.and_eq_true] at h
    exact pins_fields_ne_nil nested (by simpa using h.1) h.2

theorem pins_fields_ne_nil : (refinement : FormatRefinement) → refinement.entries ≠ [] →
    refinement.parses = true → refinement.pins ≠ []
  | .nil, hne, _ => absurd rfl hne
  | .cons _ refinement rest, _, h => by
    rw [parses] at h
    simp only [Bool.and_eq_true] at h
    rw [pins, Ne, append_eq_nil_iff, map_eq_nil_iff, not_and]
    exact fun hnil => absurd hnil (pins_ne_nil refinement h.1.2)

end

theorem Applied.stuck {pins : List (Path × Nat)} (hpins : pins ≠ [])
    (hno : ∀ pin ∈ pins, ¬ Lands schema pin.1) (pre : String) (kind : RefinementProblemKind) :
    Applied pins schema pre schema [⟨pre, kind⟩] where
  shape := rfl
  pinned pin hpin hlands := absurd hlands (hno pin hpin)
  kept _ _ := rfl
  checked _ h := h
  named := by
    obtain ⟨pin, hpin⟩ := exists_mem_of_ne_nil pins hpins
    refine ⟨[[]], nodup_singleton _, rfl, ?_, fun pin _ _ => ?_⟩
    · rintro block (_ | ⟨_, ⟨⟩⟩)
      exact ⟨pin, hpin, nil_prefix, hno pin hpin⟩
    · exact ⟨[], mem_singleton_self _, nil_prefix, fun b hb _ => mem_singleton.mp hb⟩

variable {pre : String}

theorem pin_length_applied {length : Nat} :
    Applied [([], length)] schema pre (pin_length length schema pre).1
      (pin_length length schema pre).2 := by
  have hstuck : isOpenArray schema = false → ∀ kind,
      Applied [([], length)] schema pre schema [⟨pre, kind⟩] := by
    intro hopen kind
    refine .stuck (by simp) (fun pin hpin => ?_) pre kind
    obtain rfl := mem_singleton.mp hpin
    rintro ⟨array, hreach, harray⟩
    cases hreach
    rw [hopen] at harray
    cases harray
  cases schema with
  | Token token | Primitive kind optional | Object fields optional => exact hstuck rfl _
  | Array items existing optional =>
    cases existing with
    | some existing => exact hstuck rfl _
    | none =>
      unfold pin_length
      dsimp only
      by_cases hscalar : items.as_type_token.any is_scalar = true
      · rw [if_pos hscalar]
        have hlands : Lands (.Array items none optional) [] := ⟨_, rfl, hscalar⟩
        refine ⟨rfl, fun pin hpin _ => ?_, fun path hpath => ?_, fun field _ => ?_,
          [], nodup_nil, rfl, by simp, fun pin hpin hno => ?_⟩
        · obtain rfl := mem_singleton.mp hpin
          rfl
        · cases path with
          | nil => exact absurd hlands (hpath _ mem_cons_self rfl)
          | cons step path => cases step <;> rfl
        · -- the items of a pinned array are scalar tokens, as the check asks
          rw [check_fixed_array]
          cases htoken : items.as_type_token with
          | none => simp [htoken] at hscalar
          | some token =>
            rw [htoken] at hscalar
            exact if_pos hscalar
        · obtain rfl := mem_singleton.mp hpin
          exact absurd hlands hno
      · rw [if_neg hscalar]
        exact hstuck (by simpa [isOpenArray] using hscalar) _

theorem NamedBy.step {blocks : List Path} {pins : List (Path × Nat)} {schema outer : SchemaType}
    {pre inner : String} {problems : List RefinementProblem} (step : Step)
    (h : NamedBy blocks pins schema inner problems)
    (hlands : ∀ path, Lands outer (step :: path) ↔ Lands schema path)
    (hrender : ∀ path, render pre (step :: path) = render inner path) :
    NamedBy (blocks.map (step :: ·)) (pins.map fun pin => (step :: pin.1, pin.2)) outer pre
      problems where
  nodup := h.nodup.map fun _ _ heq => (List.cons.inj heq).2
  paths := by
    rw [h.paths, map_map]
    exact map_congr_left fun path _ => (hrender path).symm
  inside := by
    intro block hblock
    obtain ⟨block, hb, rfl⟩ := mem_map.mp hblock
    obtain ⟨pin, hpin, hpre, hno⟩ := h.inside block hb
    exact ⟨_, mem_map_of_mem hpin, cons_prefix_cons.mpr ⟨rfl, hpre⟩,
      fun hl => hno ((hlands _).mp hl)⟩
  once := by
    intro pin hpin hno
    obtain ⟨pin, hp, rfl⟩ := mem_map.mp hpin
    obtain ⟨block, hb, hpre, honly⟩ := h.once pin hp fun hl => hno ((hlands _).mpr hl)
    refine ⟨_, mem_map_of_mem hb, cons_prefix_cons.mpr ⟨rfl, hpre⟩, fun b' hb' hpre' => ?_⟩
    obtain ⟨block', hmem, rfl⟩ := mem_map.mp hb'
    rw [honly block' hmem (cons_prefix_cons.mp hpre').2]

variable {problems : List RefinementProblem}

theorem NamedBy.append {blocks blocks' : List Path} {pins pins' : List (Path × Nat)}
    {problems' : List RefinementProblem}
    (h : NamedBy blocks pins schema pre problems) (h' : NamedBy blocks' pins' schema pre problems')
    (hapart : ∀ block ∈ blocks, ∀ pin ∈ pins', ¬ block <+: pin.1)
    (hapart' : ∀ block ∈ blocks', ∀ pin ∈ pins, ¬ block <+: pin.1) :
    NamedBy (blocks ++ blocks') (pins ++ pins') schema pre (problems ++ problems') where
  nodup := by
    refine nodup_append.mpr ⟨h.nodup, h'.nodup, fun block hb block' hb' heq => ?_⟩
    subst heq
    obtain ⟨pin, hpin, hpre, _⟩ := h'.inside block hb'
    exact hapart block hb pin hpin hpre
  paths := by rw [map_append, map_append, h.paths, h'.paths]
  inside := by
    intro block hblock
    rcases mem_append.mp hblock with hb | hb
    · obtain ⟨pin, hpin, hrest⟩ := h.inside block hb
      exact ⟨pin, mem_append_left _ hpin, hrest⟩
    · obtain ⟨pin, hpin, hrest⟩ := h'.inside block hb
      exact ⟨pin, mem_append_right _ hpin, hrest⟩
  once := by
    intro pin hpin hno
    rcases mem_append.mp hpin with hp | hp
    · obtain ⟨block, hb, hpre, honly⟩ := h.once pin hp hno
      refine ⟨block, mem_append_left _ hb, hpre, fun b hb' hpre' => ?_⟩
      exact (mem_append.mp hb').elim (honly b · hpre')
        fun hb' => absurd hpre' (hapart' b hb' pin hp)
    · obtain ⟨block, hb, hpre, honly⟩ := h'.once pin hp hno
      refine ⟨block, mem_append_right _ hb, hpre, fun b hb' hpre' => ?_⟩
      exact (mem_append.mp hb').elim (fun hb' => absurd hpre' (hapart b hb' pin hp))
        (honly b · hpre')

theorem named_entry {e : String × FieldRefinement} (hpins : e.2.pins ≠ [])
    (hnamed : ∀ schema pre, Named e.2.pins schema pre (e.2.apply_to_schema schema pre).2)
    (fields : Fields) (optional : Bool) (pre : String) :
    ∃ blocks : List Path, NamedBy (blocks.map (.field e.1 :: ·))
      (e.2.pins.map fun pin => (.field e.1 :: pin.1, pin.2)) (.Object fields optional) pre
      (entryProblems fields pre e) := by
  unfold entryProblems
  cases hget : get e.1 fields with
  | none =>
    have hno : ∀ path, ¬ Lands (.Object fields optional) (.field e.1 :: path) := by
      intro path
      rw [lands_field, hget]
      simp
    obtain ⟨pin, hpin⟩ := exists_mem_of_ne_nil _ hpins
    refine ⟨[[]], nodup_singleton _, rfl, ?_, ?_⟩
    · rintro block (_ | ⟨_, ⟨⟩⟩)
      exact ⟨_, mem_map_of_mem hpin, cons_prefix_cons.mpr ⟨rfl, nil_prefix⟩, hno _⟩
    · intro p hp _
      obtain ⟨inner, _, rfl⟩ := mem_map.mp hp
      exact ⟨_, mem_cons_self, cons_prefix_cons.mpr ⟨rfl, nil_prefix⟩,
        fun b hb _ => mem_singleton.mp hb⟩
  | some schema =>
    obtain ⟨blocks, hblocks⟩ := hnamed schema (pre ++ "." ++ e.1)
    refine ⟨blocks, hblocks.step (.field e.1) (fun path => ?_) fun _ => rfl⟩
    rw [lands_field, hget]
    simp

theorem named_fields (fields : Fields) (optional : Bool) (pre : String) :
    (refinement : FormatRefinement) → refinement.parses = true →
    (∀ e ∈ refinement.entries, ∀ schema pre,
      Named e.2.pins schema pre (e.2.apply_to_schema schema pre).2) →
    ∃ blocks : List Path, NamedBy blocks refinement.pins (.Object fields optional) pre
        (refinement.entries.flatMap (entryProblems fields pre)) ∧
      ∀ block ∈ blocks, ∃ e ∈ refinement.entries, ∃ path, block = .field e.1 :: path
  | .nil, _, _ => ⟨[], ⟨nodup_nil, rfl, by simp, by simp [pins]⟩, by simp⟩
  | .cons name refinement rest, hparses, hnamed => by
    obtain ⟨hfresh, hparses, hrest⟩ := parses_cons hparses
    obtain ⟨blocks', hblocks', hheads⟩ := named_fields fields optional pre rest hrest
      fun e he => hnamed e (mem_cons_of_mem _ he)
    obtain ⟨blocks, hblocks⟩ := named_entry (e := (name, refinement))
      (pins_ne_nil refinement hparses)
      (hnamed (name, refinement) mem_cons_self) fields optional pre
    refine ⟨blocks.map (.field name :: ·) ++ blocks', ?_, ?_⟩
    · refine hblocks.append hblocks' ?_ ?_
      · intro block hb pin hpin hpre
        obtain ⟨path, _, rfl⟩ := mem_map.mp hb
        obtain ⟨e, he, inner, _, rfl⟩ := (mem_pins rest).mp hpin
        obtain ⟨hstep, _⟩ := cons_prefix_cons.mp hpre
        cases hstep
        exact hfresh (mem_map.mpr ⟨e, he, rfl⟩)
      · intro block hb pin hpin hpre
        obtain ⟨inner, _, rfl⟩ := mem_map.mp hpin
        obtain ⟨e, he, path, rfl⟩ := hheads block hb
        obtain ⟨hstep, _⟩ := cons_prefix_cons.mp hpre
        cases hstep
        exact hfresh (mem_map.mpr ⟨e, he, rfl⟩)
    · intro block hb
      rcases mem_append.mp hb with hb | hb
      · obtain ⟨path, _, rfl⟩ := mem_map.mp hb
        exact ⟨(name, refinement), mem_cons_self, path, rfl⟩
      · obtain ⟨e, he, hpath⟩ := hheads block hb
        exact ⟨e, mem_cons_of_mem _ he, hpath⟩

/-! ## Whole refinements -/

/-- Every entry of the refinement does what it should. -/
def EntriesApplied (refinement : FormatRefinement) : Prop :=
  ∀ e ∈ refinement.entries, ∀ schema pre, Applied e.2.pins schema pre
    (e.2.apply_to_schema schema pre).1 (e.2.apply_to_schema schema pre).2

variable {refinement : FormatRefinement}

theorem apply_checked (hentries : EntriesApplied refinement)
    {pathOf : String → String} (pre : String)
    (hcheck : check_fixed_array_fields pathOf fields = .ok ()) :
    check_fixed_array_fields pathOf (refinement.apply_to_fields fields pre).1 = .ok () := by
  refine apply_keeps (P := fun fields' => check_fixed_array_fields pathOf fields' = .ok ())
    refinement pre (fun e he fields' schema h hget => ?_) fields hcheck
  exact check_put ((hentries e he schema _).checked _ (check_of_get fields' hget h)) fields' h

theorem fields_applied (hparses : refinement.parses = true)
    (hentries : EntriesApplied refinement) (fields : Fields) (optional : Bool) (pre : String) :
    Applied refinement.pins (.Object fields optional) pre
      (.Object (refinement.apply_to_fields fields pre).1 optional)
      (refinement.apply_to_fields fields pre).2 where
  shape := by
    rw [forget, forget]
    congr 1
    refine apply_keeps (P := fun fields' => forgetFields fields' = forgetFields fields)
      refinement pre (fun e he fields' schema h hget => ?_) fields rfl
    rw [forgetFields_put (hentries e he schema _).shape fields' hget, h]
  pinned := by
    intro pin hpin hlands
    obtain ⟨e, he, inner, hinner, rfl⟩ := (mem_pins refinement).mp hpin
    obtain ⟨schema, hget, hlands⟩ := lands_field.mp hlands
    rw [length_at_field, (get_apply refinement hparses fields pre e.1).2 e.2 he, hget]
    exact (hentries e he schema _).pinned inner hinner hlands
  kept := by
    intro path hpath
    match path with
    | [] => rfl
    | .items :: path => rfl
    | .field field_name :: path =>
      rw [length_at_field, length_at_field]
      by_cases hname : field_name ∈ refinement.entries.map Prod.fst
      · obtain ⟨e, he, rfl⟩ := mem_map.mp hname
        rw [(get_apply refinement hparses fields pre e.1).2 e.2 he]
        cases hget : get e.1 fields with
        | none => rfl
        | some schema =>
          refine (hentries e he schema _).kept path fun inner hinner heq hlands => ?_
          refine hpath _ ((mem_pins refinement).mpr ⟨e, he, inner, hinner, rfl⟩) (by rw [heq]) ?_
          exact lands_field.mpr ⟨schema, hget, hlands⟩
      · rw [(get_apply refinement hparses fields pre field_name).1 hname]
  checked := by
    intro field hcheck
    rw [check_fixed_array] at hcheck ⊢
    exact apply_checked hentries pre hcheck
  named := by
    rw [problems_apply refinement hparses fields pre]
    obtain ⟨blocks, hblocks, _⟩ := named_fields fields optional pre refinement hparses
      fun e he schema pre => (hentries e he schema pre).named
    exact ⟨blocks, hblocks⟩

theorem items_applied {pins : List (Path × Nat)} {refined : SchemaType}
    (h : Applied pins items (pre ++ "[]") refined problems) (hobject : items.as_type_token = none) :
    Applied (pins.map fun pin => (.items :: pin.1, pin.2)) (.Array items length optional) pre
      (.Array refined length optional) problems where
  shape := by rw [forget, forget, h.shape]
  pinned := by
    intro pin hpin hlands
    obtain ⟨inner, hinner, rfl⟩ := mem_map.mp hpin
    exact h.pinned inner hinner hlands
  kept := by
    intro path hpath
    match path with
    | [] => rfl
    | .field _ :: _ => rfl
    | .items :: path =>
      refine h.kept path fun inner hinner heq hlands => ?_
      exact hpath _ (mem_map_of_mem hinner) (by rw [heq]) hlands
  checked := by
    intro field hcheck
    cases length with
    | some length =>
      rw [check_fixed_array, hobject] at hcheck
      cases hcheck
    | none =>
      rw [check_fixed_array] at hcheck ⊢
      exact h.checked field hcheck
  named := by
    obtain ⟨blocks, hblocks⟩ := h.named
    exact ⟨_, hblocks.step .items (fun _ => Iff.rfl) fun _ => rfl⟩

def isObject : SchemaType → Bool
  | .Object .. => true
  | _ => false

def isArrayOfObjects : SchemaType → Bool
  | .Array items _ _ => isObject items
  | _ => false

theorem reach_field (h : isObject schema = false)
    : reach schema (.field field_name :: path) = none := by
  cases schema <;> first | rfl | cases h

variable {nested : FormatRefinement}

theorem object_no_land {schema : SchemaType}
    (h : isObject schema = false) : ∀ pin ∈ nested.pins, ¬ Lands schema pin.1 := by
  intro pin hpin
  obtain ⟨e, _, inner, _, rfl⟩ := (mem_pins nested).mp hpin
  exact not_lands_of_reach_none (reach_field h)

theorem items_no_land (h : isArrayOfObjects schema = false) :
    ∀ pin ∈ (FieldRefinement.Items nested).pins, ¬ Lands schema pin.1 := by
  intro pin hpin
  obtain ⟨inner, hinner, rfl⟩ := mem_map.mp hpin
  cases schema with
  | Array items length optional =>
    exact object_no_land h inner hinner
  | _ => exact not_lands_of_reach_none rfl

mutual

/-- Refining sets the lengths that pins land on, and reports each misfit once. -/
theorem apply_to_schema_applied : (refinement : FieldRefinement) → refinement.parses = true →
    (schema : SchemaType) → (pre : String) → Applied refinement.pins schema pre
      (refinement.apply_to_schema schema pre).1 (refinement.apply_to_schema schema pre).2
  | .Length length, _, schema, pre => pin_length_applied
  | .Items nested, h, schema, pre => by
    have hpins := pins_ne_nil _ h
    rw [FieldRefinement.parses, Bool.and_eq_true] at h
    match schema with
    | .Array (.Object fields opt) length optional =>
      exact items_applied (fields_applied h.2 (entries_applied nested h.2) fields opt _) rfl
    | .Array (.Token _) _ _ | .Array (.Primitive ..) _ _ | .Array (.Array ..) _ _
    | .Token _ | .Primitive .. | .Object .. => exact .stuck hpins (items_no_land rfl) pre _
  | .Object nested, h, schema, pre => by
    have hpins := pins_ne_nil _ h
    rw [FieldRefinement.parses, Bool.and_eq_true] at h
    match schema with
    | .Object fields optional =>
      exact fields_applied h.2 (entries_applied nested h.2) fields optional pre
    | .Token _ | .Primitive .. | .Array .. => exact .stuck hpins (object_no_land rfl) pre _

theorem entries_applied : (refinement : FormatRefinement) → refinement.parses = true →
    EntriesApplied refinement
  | .nil, _ => by simp [EntriesApplied, entries]
  | .cons name refinement rest, h => by
    rw [parses, Bool.and_eq_true, Bool.and_eq_true] at h
    rintro e (_ | ⟨_, he⟩)
    · exact apply_to_schema_applied refinement h.1.2
    · exact entries_applied rest h.2 e he

end

end peppy.refine
