-- The structs that the generator declares for the objects of a message
-- format, and when every object keeps a struct of its own.
import Mathlib.Data.List.SplitBy
import Peppy.MessageFormat
import Peppy.Lib.Changes
import Peppy.Lib.Recut

open peppy.message_format changes results recut List

namespace peppy.generator

/-! ## The generation context -/

inductive RustType where
  | Primitive (token : TypeToken)
  | Vec (item : RustType)
  | Fixed (item : RustType) (length : Nat)
  | Struct (ident : String)
  | Optional (ty : RustType)

structure StructDefinition where
  ident : String
  fields : List (String × RustType)

structure GenerationContext where
  structs : List StructDefinition := []

/-- A struct with the ident of an existing one takes its place. -/
def GenerationContext.add_struct (context : GenerationContext) (new : StructDefinition) :
    GenerationContext :=
  if context.structs.any (·.ident == new.ident) then
    { structs := editFirst (·.ident == new.ident) (fun _ => new) context.structs }
  else { structs := context.structs ++ [new] }

def optionalType (optional : Bool) (ty : RustType) : RustType :=
  if optional then .Optional ty else ty

def arrayType (length : Option Nat) (item_ty : RustType) : RustType :=
  match length with
  | some length => .Fixed item_ty length
  | none => .Vec item_ty

def declare_struct (optional : Bool) (struct_name : String)
    (done : List (String × RustType) × GenerationContext) : RustType × GenerationContext :=
  (optionalType optional (.Struct struct_name),
    done.2.add_struct { ident := struct_name, fields := done.1 })

mutual

def schema_type_to_tokens :
    SchemaType → String → String → GenerationContext → Except Error (RustType × GenerationContext)
  | .Token token, _, _, context => .ok (.Primitive token, context)
  | .Primitive kind optional, _, _, context =>
    .ok (optionalType optional (.Primitive kind), context)
  | .Array (.Object fields item_optional) length optional, pre, field_name, context => do
    let struct_name := nested_type_name pre (array_item_field_name field_name)
    let done ← fields_to_tokens fields struct_name context
    let (item_ty, context) := declare_struct item_optional struct_name done
    .ok (optionalType optional (arrayType length item_ty), context)
  | .Array items length optional, _, field_name, context =>
    match items.as_type_token with
    | none => .error (.UnsupportedArrayItemSchema field_name)
    | some token => .ok (optionalType optional (arrayType length (.Primitive token)), context)
  | .Object fields optional, pre, field_name, context => do
    let struct_name := nested_type_name pre field_name
    let done ← fields_to_tokens fields struct_name context
    .ok (declare_struct optional struct_name done)

def fields_to_tokens : Fields → String → GenerationContext →
      Except Error (List (String × RustType) × GenerationContext)
  | .nil, _, context => .ok ([], context)
  | .cons field_name schema rest, pre, context => do
    let (ty, context) ← schema_type_to_tokens schema pre field_name context
    let (types, context) ← fields_to_tokens rest pre context
    .ok ((sanitize_rust_identifier field_name, ty) :: types, context)

end

/-! ## The structs of a format -/

def typeOf (pre field_name : String) : SchemaType → RustType
  | .Token token => .Primitive token
  | .Primitive kind optional => optionalType optional (.Primitive kind)
  | .Array (.Object _ item_optional) length optional =>
    optionalType optional (arrayType length (optionalType item_optional
      (.Struct (nested_type_name pre (array_item_field_name field_name)))))
  | .Array items length optional =>
    optionalType optional (arrayType length (.Primitive (items.as_type_token.getD .Bool)))
  | .Object _ optional => optionalType optional (.Struct (nested_type_name pre field_name))

def fieldTypes (pre : String) : Fields → List (String × RustType)
  | .nil => []
  | .cons field_name schema rest =>
    (sanitize_rust_identifier field_name, typeOf pre field_name schema) :: fieldTypes pre rest

mutual

def SchemaType.structs : SchemaType → String → String → List StructDefinition
  | .Object fields _, pre, field_name =>
    let struct_name := nested_type_name pre field_name
    Fields.structs fields struct_name ++ [⟨struct_name, fieldTypes struct_name fields⟩]
  | .Array (.Object fields _) _ _, pre, field_name =>
    let struct_name := nested_type_name pre (array_item_field_name field_name)
    Fields.structs fields struct_name ++ [⟨struct_name, fieldTypes struct_name fields⟩]
  | _, _, _ => []

def Fields.structs : Fields → String → List StructDefinition
  | .nil, _ => []
  | .cons field_name schema rest, pre =>
    SchemaType.structs schema pre field_name ++ Fields.structs rest pre

end

def GenerationContext.add_structs (context : GenerationContext) (structs : List StructDefinition) :
    GenerationContext :=
  structs.foldl GenerationContext.add_struct context

mutual

open GenerationContext

theorem schema_type_to_tokens_eq (schema : SchemaType) (hparses : schema.parses = true)
    (pre field_name : String) (context : GenerationContext) :
    schema_type_to_tokens schema pre field_name context = .ok (typeOf pre field_name schema,
        context.add_structs (SchemaType.structs schema pre field_name)) := by
  match schema with
  | .Token _ | .Primitive .. => simp [schema_type_to_tokens, typeOf, SchemaType.structs,
      add_structs]
  | .Object fields optional =>
    have hfields : fields.parses = true := by simpa [SchemaType.parses] using hparses
    simp [schema_type_to_tokens, fields_to_tokens_eq fields hfields, typeOf, SchemaType.structs,
      declare_struct, add_structs, Except.bind, bind]
  | .Array (.Object fields item_optional) length optional =>
    have hfields : fields.parses = true := by
      simp [SchemaType.parses] at hparses
      exact hparses.2
    simp [schema_type_to_tokens, fields_to_tokens_eq fields hfields, typeOf, SchemaType.structs,
      declare_struct, add_structs, Except.bind, bind]
  | .Array (.Token _) _ _ | .Array (.Primitive ..) _ _ => simp [schema_type_to_tokens, typeOf,
      SchemaType.structs, add_structs, SchemaType.as_type_token]
  | .Array (.Array ..) length optional => simp [SchemaType.parses, SchemaType.isArray] at hparses

theorem fields_to_tokens_eq (fields : Fields) (hparses : fields.parses = true) (pre : String)
    (context : GenerationContext) : fields_to_tokens fields pre context =
      .ok (fieldTypes pre fields, context.add_structs (Fields.structs fields pre)) := by
  match fields with
  | .nil => simp [fields_to_tokens, fieldTypes, Fields.structs, add_structs]
  | .cons field_name schema rest =>
    obtain ⟨hschema, hrest⟩ : schema.parses = true ∧ rest.parses = true := by
      simpa [Fields.parses] using hparses
    simp [fields_to_tokens, schema_type_to_tokens_eq schema hschema, fields_to_tokens_eq rest hrest,
      fieldTypes, Fields.structs, add_structs, Except.bind, bind]

end

/-! ## The struct table -/

def GenerationContext.idents (context : GenerationContext) : List String :=
  context.structs.map (·.ident)

open GenerationContext (add_struct add_structs idents)

variable {new : StructDefinition}

theorem editFirst_idents {structs : List StructDefinition} :
    (editFirst (·.ident == new.ident) (fun _ => new) structs).map (·.ident) =
      structs.map (·.ident) := by
  induction structs with
  | nil => rfl
  | cons first structs ih =>
    unfold editFirst
    split
    · next h => simp [beq_iff_eq.mp h]
    · simp [ih]

variable {context : GenerationContext} {other path : List (List (List Char))}
  {paths : List (List (List (List Char)))}

theorem add_struct_of_new (h : new.ident ∉ context.idents) :
    context.add_struct new = { structs := context.structs ++ [new] } := by
  have hany : ¬ context.structs.any (·.ident == new.ident) := by
    simpa [idents] using h
  simp [add_struct, hany]

theorem add_struct_nodup (h : context.idents.Nodup) : (context.add_struct new).idents.Nodup := by
  by_cases hnew : new.ident ∈ context.idents
  · have hany : context.structs.any (·.ident == new.ident) := by
      simpa [idents] using hnew
    simp only [add_struct, hany, if_true, idents,
      editFirst_idents]
    exact h
  · rw [add_struct_of_new hnew]
    have hnodup : (context.structs.map (·.ident)).Nodup := h
    simpa [idents, nodup_append, hnodup] using hnew

theorem add_structs_nodup (h : context.idents.Nodup)
    {structs : List StructDefinition} : (context.add_structs structs).idents.Nodup := by
  induction structs generalizing context with
  | nil => exact h
  | cons first structs ih => exact ih (add_struct_nodup h)

theorem add_structs_of_new {structs : List StructDefinition}
    (h : (context.idents ++ structs.map (·.ident)).Nodup) :
    (context.add_structs structs).structs = context.structs ++ structs := by
  induction structs generalizing context with
  | nil => simp [add_structs]
  | cons first structs ih =>
    have hnew : first.ident ∉ context.idents := fun hmem =>
      (nodup_append.mp h).2.2 _ hmem _ (by simp) rfl
    have hrest := @ih (context.add_struct first) (by
      rw [add_struct_of_new hnew]
      simpa [idents] using h)
    rw [add_struct_of_new hnew] at hrest
    simpa [add_structs, add_struct_of_new hnew] using hrest

/-- The table keeps every struct exactly when no two have one name. -/
theorem add_structs_eq_iff {structs : List StructDefinition} :
    (add_structs {} structs).structs = structs ↔ (structs.map (·.ident)).Nodup := by
  constructor
  · intro h
    have hnodup : (add_structs {} structs).idents.Nodup :=
      add_structs_nodup (by simp [idents])
    rwa [idents, h] at hnodup
  · intro h
    have hnew : (idents {} ++ structs.map (·.ident)).Nodup := by
      simpa [idents] using h
    simpa using add_structs_of_new hnew

/-! ## The names of the positions -/

/-- The words of a field's type name, from one capital letter to the next. -/
def words (field_name : String) : List (List Char) :=
  (to_camel_case field_name).toList.splitBy fun _ c => !c.isUpper

mutual

/-- The words of the fields on the way to each object position, in the order of its structs. -/
def SchemaType.paths : SchemaType → String → List (List (List (List Char)))
  | .Object fields _, field_name =>
    (Fields.paths fields).map (words field_name :: ·) ++ [[words field_name]]
  | .Array (.Object fields _) _ _, field_name =>
    let field := words (array_item_field_name field_name)
    (Fields.paths fields).map (field :: ·) ++ [[field]]
  | _, _ => []

def Fields.paths : Fields → List (List (List (List Char)))
  | .nil => []
  | .cons field_name schema rest => SchemaType.paths schema field_name ++ Fields.paths rest

end

def spell (path : List (List (List Char))) : String := String.ofList path.flatten.flatten

theorem spell_nil : spell [] = "" := rfl

theorem spell_cons (field_name : String) :
    spell (words field_name :: path) = to_camel_case field_name ++ spell path := by
  simp [spell, words, String.ofList_append]

mutual

theorem SchemaType.structs_idents (schema : SchemaType) (pre field_name : String) :
    (SchemaType.structs schema pre field_name).map (·.ident) =
      (SchemaType.paths schema field_name).map (pre ++ spell ·) := by
  match schema with
  | .Token _ | .Primitive .. | .Array (.Token _) _ _ | .Array (.Primitive ..) _ _
  | .Array (.Array ..) _ _ => simp [SchemaType.structs, SchemaType.paths]
  | .Object fields _ | .Array (.Object fields _) _ _ =>
    simp [SchemaType.structs, SchemaType.paths, Fields.structs_idents fields, nested_type_name,
      spell_cons, spell_nil, String.append_assoc]

theorem Fields.structs_idents (fields : Fields) (pre : String) :
    (Fields.structs fields pre).map (·.ident) = (Fields.paths fields).map (pre ++ spell ·) := by
  match fields with
  | .nil => simp [Fields.structs, Fields.paths]
  | .cons field_name schema rest =>
    simp [Fields.structs, Fields.paths, SchemaType.structs_idents schema,
      Fields.structs_idents rest]

end

/-- A way to a position, each of its fields by its words. -/
def Worded (path : List (List (List Char))) : Prop :=
  path ≠ [] ∧ ∀ field ∈ path, ∃ name, field = words name

variable {name : String} {field : List (List Char)}

theorem mem_below (h : path ∈ paths.map (field :: ·) ++ [[field]]) :
    ∃ rest, path = field :: rest ∧ (rest = [] ∨ rest ∈ paths) := by
  rcases mem_append.mp h with h | h
  · obtain ⟨rest, hmem, rfl⟩ := mem_map.mp h
    exact ⟨rest, rfl, .inr hmem⟩
  · exact ⟨[], mem_singleton.mp h, .inl rfl⟩

theorem worded_below (h : ∀ path ∈ paths, Worded path) :
    ∀ path ∈ paths.map (words name :: ·) ++ [[words name]], Worded path := by
  intro path hmem
  obtain ⟨rest, rfl, rfl | hrest⟩ := mem_below hmem
  · exact ⟨by simp, by simp⟩
  · exact ⟨by simp, forall_mem_cons.mpr ⟨⟨name, rfl⟩, (h rest hrest).2⟩⟩

theorem nodup_below (h : paths.Nodup) (hworded : ∀ path ∈ paths, Worded path) :
    (paths.map (field :: ·) ++ [[field]]).Nodup := by
  have hbelow : (paths.map (field :: ·)).Nodup := h.map fun _ _ heq => (List.cons.inj heq).2
  have hne : ∀ path ∈ paths, path ≠ [] := fun path hmem => (hworded path hmem).1
  simpa [nodup_append, hbelow] using hne

/-- What the paths through one field have in common. -/
theorem SchemaType.paths_of_typeWord (schema : SchemaType) (field_name : String) :
    match typeWord field_name schema with
    | none => SchemaType.paths schema field_name = []
    | some word => ∀ path ∈ SchemaType.paths schema field_name,
        ∃ field rest, path = field :: rest ∧ spell [field] = word := by
  match schema with
  | .Token _ | .Primitive .. | .Array (.Token _) _ _ | .Array (.Primitive ..) _ _
  | .Array (.Array ..) _ _ => simp [typeWord, SchemaType.paths]
  | .Object .. | .Array (.Object ..) _ _ =>
    intro path hmem
    rw [SchemaType.paths] at hmem
    obtain ⟨rest, heq, -⟩ := mem_below hmem
    exact ⟨_, rest, heq, by rw [spell_cons, spell_nil, String.append_empty]⟩

mutual

theorem SchemaType.paths_worded (schema : SchemaType) (field_name : String) :
    ∀ path ∈ SchemaType.paths schema field_name, Worded path := by
  match schema with
  | .Token _ | .Primitive .. | .Array (.Token _) _ _ | .Array (.Primitive ..) _ _
  | .Array (.Array ..) _ _ => simp [SchemaType.paths]
  | .Object fields _ | .Array (.Object fields _) _ _ =>
    rw [SchemaType.paths]
    exact worded_below (Fields.paths_worded fields)

theorem Fields.paths_worded (fields : Fields) : ∀ path ∈ Fields.paths fields, Worded path := by
  match fields with
  | .nil => simp [Fields.paths]
  | .cons field_name schema rest =>
    intro path hmem
    rw [Fields.paths, mem_append] at hmem
    exact hmem.elim (SchemaType.paths_worded schema field_name path)
      (Fields.paths_worded rest path)

end

mutual

theorem SchemaType.paths_nodup (schema : SchemaType) (field_name generated_name : String)
    (h : validate_child_type_name_collisions schema generated_name = .ok ()) :
    (SchemaType.paths schema field_name).Nodup := by
  match schema with
  | .Token _ | .Primitive .. | .Array (.Token _) _ _ | .Array (.Primitive ..) _ _
  | .Array (.Array ..) _ _ => simp [SchemaType.paths]
  | .Object fields _ | .Array (.Object fields _) _ _ =>
    unfold validate_child_type_name_collisions at h
    rw [SchemaType.paths]
    exact nodup_below (Fields.paths_nodup fields _ _ h).1 (Fields.paths_worded fields)

/-- Two positions with the same words have one name, which is refused. -/
theorem Fields.paths_nodup (fields : Fields) (pre : String) (seen : Seen)
    (h : validate_sibling_type_name_collisions fields pre seen = .ok ()) :
    (Fields.paths fields).Nodup ∧ ∀ field rest, field :: rest ∈ Fields.paths fields →
      seen.lookup (pre ++ spell [field]) = none := by
  match fields with
  | .nil => simp [Fields.paths]
  | .cons field_name schema rest =>
    unfold validate_sibling_type_name_collisions at h
    rw [generated_type_name_eq] at h
    have hpaths := SchemaType.paths_of_typeWord schema field_name
    cases hword : typeWord field_name schema with
    | none =>
      rw [hword] at h hpaths
      dsimp only at hpaths
      simpa [Fields.paths, hpaths] using Fields.paths_nodup rest pre seen h
    | some word =>
      rw [hword] at h hpaths
      simp only [Option.map_some] at h hpaths
      split at h
      · cases h
      next hseen =>
      obtain ⟨_, hchild, h⟩ := bind_ok.mp h
      have hschema := SchemaType.paths_nodup schema field_name _ hchild
      obtain ⟨hrest, hfree⟩ := Fields.paths_nodup rest pre _ h
      -- The words of the later siblings are new, so no path of theirs is one
      -- of this field.
      have hlater : ∀ field below, field :: below ∈ Fields.paths rest →
          spell [field] ≠ word ∧ seen.lookup (pre ++ spell [field]) = none := by
        intro field below hmem
        have hlookup := hfree field below hmem
        rw [lookup_cons] at hlookup
        split at hlookup
        · cases hlookup
        · next hne =>
          refine ⟨?_, hlookup⟩
          rintro rfl
          simp at hne
      constructor
      · rw [Fields.paths, nodup_append]
        refine ⟨hschema, hrest, ?_⟩
        rintro path hmem other hother rfl
        obtain ⟨field, below, rfl, hfield⟩ := hpaths path hmem
        exact (hlater field below hother).1 hfield
      · intro field below hmem
        rw [Fields.paths, mem_append] at hmem
        rcases hmem with hmem | hmem
        · obtain ⟨_, _, heq, hfield⟩ := hpaths _ hmem
          obtain ⟨rfl, -⟩ := List.cons.inj heq
          rw [hfield]
          exact hseen
        · exact (hlater field below hmem).2

end

/-! ## A struct for each position -/

/-- The words of the fields on the way are read back from the name: each starts with a
capital letter, and no other letter is one. -/
theorem splitBy_spell (h : ∀ field ∈ path, ∃ name, field = words name) :
    (spell path).toList.splitBy (fun _ c => !c.isUpper) = path.flatten := by
  induction path with
  | nil => rfl
  | cons field path ih =>
    obtain ⟨⟨name, hname⟩, h⟩ := forall_mem_cons.mp h
    rw [hname, spell_cons, String.toList_append, splitBy_append, ih h, flatten_cons, words]
    intro _ _ c hc
    cases path with
    | nil => simp [spell] at hc
    | cons next path =>
      obtain ⟨name, hname⟩ := h next mem_cons_self
      obtain ⟨first, chars, hfirst, hupper⟩ := to_camel_case_capital name
      simp only [hname, spell_cons, String.toList_append, hfirst, cons_append, head?_cons,
        Option.mem_some_iff] at hc
      simp [← hc, hupper]

theorem spell_eq_iff (hpath : Worded path) (hother : Worded other) :
    spell path = spell other ↔ path = other ∨ Recut path other ∨ Recut other path := by
  have hne : ∀ {path}, Worded path → [] ∉ path := by
    intro path h hnil
    obtain ⟨name, hwords⟩ := h.2 _ hnil
    obtain ⟨c, chars, hchars, -⟩ := to_camel_case_capital name
    exact splitBy_ne_nil.mpr (by simp [hchars]) hwords.symm
  rw [← flatten_eq_iff (hne hpath) (hne hother), ← splitBy_spell hpath.2,
    ← splitBy_spell hother.2]
  refine ⟨fun h => by rw [h], fun h => ?_⟩
  have htext := congrArg flatten h
  rwa [flatten_splitBy, flatten_splitBy, String.toList_inj] at htext

theorem idents_nodup_iff {fields : Fields} (hnodup : (Fields.paths fields).Nodup) {pre : String} :
    ((Fields.structs fields pre).map (·.ident)).Nodup ↔
      ∀ path ∈ Fields.paths fields, ∀ other ∈ Fields.paths fields, ¬ Recut path other := by
  have hworded := Fields.paths_worded fields
  rw [Fields.structs_idents]
  constructor
  · intro h path hpath other hother hrecut
    have hspell := (spell_eq_iff (hworded path hpath) (hworded other hother)).mpr
      (.inr (.inl hrecut))
    exact hrecut.ne (inj_on_of_nodup_map h hpath hother (by rw [hspell]))
  intro h
  refine hnodup.map_on fun path hpath other hother heq => ?_
  have hspell : spell path = spell other := by simpa using heq
  rcases (spell_eq_iff (hworded path hpath) (hworded other hother)).mp hspell with
    heq | hrecut | hrecut
  · exact heq
  · exact absurd hrecut (h path hpath other hother)
  · exact absurd hrecut (h other hother path hpath)

/-- In every accepted format the object positions have names and structs of their own
exactly when the words on the way to no position are those to another, cut again. -/
theorem each_position_has_its_struct (format : MessageFormat) (pre : String)
    (haccepted : validate_declared_message_format format = .ok ()) :
    (((Fields.structs format.fields pre).map (·.ident)).Nodup ∧
      ∃ types context, fields_to_tokens format.fields pre {} = .ok (types, context) ∧
        context.structs = Fields.structs format.fields pre) ↔
      ∀ path ∈ Fields.paths format.fields, ∀ other ∈ Fields.paths format.fields,
        ¬ Recut path other := by
  have hnodup := (Fields.paths_nodup format.fields _ _ (siblings_of_accepted haccepted)).1
  rw [← idents_nodup_iff hnodup, fields_to_tokens_eq format.fields format.parsed]
  constructor
  · exact fun h => h.1
  · exact fun h => ⟨h, _, _, rfl, (add_structs_eq_iff).mpr h⟩

def framesFormat : MessageFormat where
  fields :=
    .cons "pose" (.Object (.cons "x" (.Token .F64) .nil) false) <|
    .cons "frames" (.Array (.Object
      (.cons "origin" (.Object (.cons "x" (.Token .F64) .nil) false) .nil) false) none false) .nil

theorem the_structs_of_the_frames : validate_declared_message_format framesFormat = .ok () ∧
      ∀ path ∈ Fields.paths framesFormat.fields, ∀ other ∈ Fields.paths framesFormat.fields,
        ¬ Recut path other := by
  refine ⟨rfl, (each_position_has_its_struct framesFormat "Message" rfl).mp ⟨?_, _, _, rfl, rfl⟩⟩
  decide +kernel

def runningFormat : MessageFormat where
  fields :=
    .cons "a" (.Object
      (.cons "b_c" (.Object (.cons "x" (.Token .U8) .nil) false) .nil) false) <|
    .cons "a_b" (.Object
      (.cons "c" (.Object (.cons "y" (.Token .Bool) .nil) false) .nil) false) .nil

/-- The struct of `a_b.c` takes the place of the struct of `a.b_c`. -/
theorem a_struct_that_takes_the_place_of_another :
    validate_declared_message_format runningFormat = .ok () ∧
      (Fields.structs runningFormat.fields "Message").map (·.ident) =
        ["MessageABC", "MessageA", "MessageABC", "MessageAB"] ∧
      ∃ types context, fields_to_tokens runningFormat.fields "Message" {} = .ok (types, context) ∧
        context.structs = [⟨"MessageABC", [("y", .Primitive .Bool)]⟩,
          ⟨"MessageA", [("b_c", .Struct "MessageABC")]⟩,
          ⟨"MessageAB", [("c", .Struct "MessageABC")]⟩] := by
  refine ⟨rfl, ?_, _, _, rfl, rfl⟩
  decide +kernel

end peppy.generator
