-- The message formats that the generators accept: the schema of the fields,
-- the names that the generated code gives them, and the validations of
-- `map_declared_message_format`.
import Mathlib
import Peppy.Lib.Results

open results

namespace peppy.message_format

/-! ## The schema -/

inductive TypeToken where
  | Bool | String | Bytes | Time
  | U8 | U16 | U32 | U64 | I8 | I16 | I32 | I64 | F32 | F64
  deriving DecidableEq

def is_scalar : TypeToken → Bool
  | .String | .Bytes | .Time => false
  | _ => true

def type_token_name : TypeToken → String
  | .Bool => "bool"
  | .String => "string"
  | .Bytes => "bytes"
  | .Time => "time"
  | .U8 => "u8"
  | .U16 => "u16"
  | .U32 => "u32"
  | .U64 => "u64"
  | .I8 => "i8"
  | .I16 => "i16"
  | .I32 => "i32"
  | .I64 => "i64"
  | .F32 => "f32"
  | .F64 => "f64"

mutual

inductive SchemaType where
  | Token (token : TypeToken)
  | Primitive (kind : TypeToken) (optional : Bool)
  | Array (items : SchemaType) (length : Option Nat) (optional : Bool)
  | Object (fields : Fields) (optional : Bool)

inductive Fields where
  | nil
  | cons (field_name : String) (schema : SchemaType) (rest : Fields)

end

def SchemaType.as_type_token : SchemaType → Option TypeToken
  | .Token token | .Primitive token _ => some token
  | .Array .. | .Object .. => none

def SchemaType.is_optional : SchemaType → Bool
  | .Token _ => false
  | .Primitive _ optional | .Array _ _ optional | .Object _ optional => optional

def SchemaType.isArray : SchemaType → Bool
  | .Array .. => true
  | _ => false

mutual

/-- Parsing refuses an array as the items of an array, and `$optional` items. -/
def SchemaType.parses : SchemaType → Bool
  | .Token _ | .Primitive .. => true
  | .Array items _ _ => !items.isArray && !items.is_optional && items.parses
  | .Object fields _ => fields.parses

def Fields.parses : Fields → Bool
  | .nil => true
  | .cons _ schema rest => schema.parses && rest.parses

end

structure MessageFormat where
  fields : Fields
  parsed : fields.parses = true := by rfl

/-! ## The names -/

/-- The loop of `sanitize_component`, and whether a separator was last. -/
def sanitizeLoop : List Char → List Char → Bool → List Char
  | out, [], _ => out
  | out, ch :: chars, last_was_underscore =>
    let lower := ch.toLower
    if lower.isAlphanum then sanitizeLoop (out ++ [lower]) chars false
    else if !out.isEmpty && !last_was_underscore then sanitizeLoop (out ++ ['_']) chars true
    else sanitizeLoop out chars last_was_underscore

def sanitizeChars (raw : List Char) : List Char :=
  let out := (sanitizeLoop [] raw false).rdropWhile (· == '_')
  if out.head?.any Char.isDigit then '_' :: out else out

variable (out : List Char) (raw : String) (pre field_name : String)

def sanitize_component : String := String.ofList (sanitizeChars raw.toList)

def upperFirst : List Char → List Char
  | [] => []
  | first :: chars => first.toUpper :: chars

def orItem : List Char :=
  if out.isEmpty then ['I', 't', 'e', 'm'] else out

def startWithLetter : List Char :=
  if out.head?.any (!·.isAlpha) then 'T' :: out else out

def to_camel_case : String :=
  let segments := ((sanitizeChars raw.toList).splitOn '_').filter (!·.isEmpty)
  String.ofList (startWithLetter (orItem (segments.flatMap upperFirst)))

def is_rust_keyword (ident : String) : Bool :=
  ["as", "break", "const", "continue", "crate", "else", "enum", "extern", "false", "fn", "for",
    "if", "impl", "in", "let", "loop", "match", "mod", "move", "mut", "pub", "ref", "return",
    "self", "static", "struct", "super", "trait", "true", "type", "unsafe", "use", "where",
    "while", "async", "await", "dyn", "abstract", "become", "box", "do", "final", "macro",
    "override", "priv", "try", "typeof", "unsized", "virtual", "yield", "union"].contains ident

def sanitize_rust_identifier : String :=
  let ident := sanitize_component raw
  if is_rust_keyword ident then ident ++ "_" else ident

def sanitize_capnp_field_name (input : String) : String :=
  let segments := (input.toList.splitOnP (!·.isAlphanum)).filter (!·.isEmpty)
  let pascal := segments.flatMap fun segment => upperFirst (segment.head?.toList ++
    segment.tail.map Char.toLower)
  match pascal with
  | [] => "_field"
  | first :: chars =>
    let camel := first.toLower :: chars
    String.ofList (if camel.head?.any Char.isDigit then '_' :: camel else camel)

def array_item_field_name (field_name : String) : String := field_name ++ "_item"

def nested_type_name : String := pre ++ to_camel_case field_name

def array_item_type_name : String :=
  pre ++ to_camel_case (array_item_field_name field_name)

/-- The word that a field adds to its struct's name, if it has a struct. -/
def typeWord (field_name : String) : SchemaType → Option String
  | .Object .. => some (to_camel_case field_name)
  | .Array (.Object ..) _ _ => some (to_camel_case (array_item_field_name field_name))
  | _ => none

def generated_type_name : SchemaType → Option String
  | .Object .. => some (nested_type_name pre field_name)
  | .Array (.Object ..) _ _ => some (array_item_type_name pre field_name)
  | _ => none

theorem generated_type_name_eq (schema : SchemaType) :
    generated_type_name pre field_name schema = (typeWord field_name schema).map (pre ++ ·) := by
  unfold generated_type_name typeWord
  split <;> rfl

theorem orItem_ne_nil : orItem out ≠ [] := by
  unfold orItem
  split
  · simp
  · next h => simpa using h

theorem not_lower_upperFirst (segments : List (List Char)) :
    ∀ c ∈ (segments.flatMap upperFirst).head?, c.isLower = false := by
  induction segments with
  | nil => simp
  | cons segment segments ih =>
    cases segment with
    | nil => exact ih
    | cons first chars => simp [upperFirst]

theorem startWithLetter_capital {out : List Char} (hne : out ≠ [])
    (hlower : ∀ c ∈ out.head?, c.isLower = false) :
    ∃ c chars, startWithLetter out = c :: chars ∧ c.isUpper = true := by
  obtain ⟨first, chars, rfl⟩ := List.exists_cons_of_ne_nil hne
  have hfirst := hlower first rfl
  cases halpha : first.isAlpha with
  | false => exact ⟨'T', first :: chars, by simp [startWithLetter, halpha], rfl⟩
  | true =>
    refine ⟨first, chars, by simp [startWithLetter, halpha], ?_⟩
    simpa [Char.isAlpha, hfirst] using halpha

theorem to_camel_case_capital :
    ∃ c chars, (to_camel_case raw).toList = c :: chars ∧ c.isUpper = true := by
  rw [to_camel_case, String.toList_ofList]
  refine startWithLetter_capital (orItem_ne_nil _) ?_
  unfold orItem
  split
  · simp
  · exact not_lower_upperFirst _

/-! ## The validations -/

inductive Error where
  | FieldNameNormalizationCollision
      (context normalization normalized first_field second_field : String)
  | UnauthorizedMessageFieldName (field path context : String)
  | UnsupportedFixedArrayItemType (field item : String)
  | GeneratedTypeNameCollision (context type_name first_field second_field : String)
  | UnsupportedArrayItemSchema (field : String)

/-- The fields of one struct that were seen under a spelling, the last one
first. -/
abbrev Seen := List (String × String)

/-- `NormalizedFieldNames::claim`. -/
def claim (normalization context : String) (first_field_by_spelling : Seen)
    (normalized field_name : String) : Except Error Seen :=
  match first_field_by_spelling.lookup normalized with
  | none => .ok ((normalized, field_name) :: first_field_by_spelling)
  | some first_field =>
    if first_field = field_name then .ok first_field_by_spelling
    else .error (.FieldNameNormalizationCollision context normalization normalized first_field
      field_name)

mutual

def validate_object_field_name_collisions_for_rust :
    Fields → String → Seen → Seen → Except Error Unit
  | .nil, _, _, _ => .ok ()
  | .cons field_name schema rest, context, rust_identifiers, capnp_fields => do
    let rust_identifiers ← claim "rust identifier" context rust_identifiers
      (sanitize_rust_identifier field_name) field_name
    let capnp_fields ← claim "capnp field name" context capnp_fields
      (sanitize_capnp_field_name field_name) field_name
    validate_nested_field_name_collisions_for_rust schema (context ++ "." ++ field_name)
    validate_object_field_name_collisions_for_rust rest context rust_identifiers capnp_fields

def validate_nested_field_name_collisions_for_rust : SchemaType → String → Except Error Unit
  | .Object fields _, path => validate_object_field_name_collisions_for_rust fields path [] []
  | .Array items _ _, path => validate_nested_field_name_collisions_for_rust items (path ++ "[]")
  | .Token _, _ | .Primitive .., _ => .ok ()

end

def validate_normalized_field_names_for_rust (format : MessageFormat) : Except Error Unit :=
  validate_object_field_name_collisions_for_rust format.fields "message_format" [] []

def RESERVED_FIELD_NAMES : List String := ["instance_id"]

def join_field_path (parent field : String) : String :=
  if parent = "" then field else parent ++ "." ++ field

mutual

/-- `context` names the format in the error. -/
def check_field_names (context : String) : Fields → String → Except Error Unit
  | .nil, _ => .ok ()
  | .cons field_name schema rest, parent_path => do
    let path := join_field_path parent_path field_name
    if RESERVED_FIELD_NAMES.contains field_name then
      .error (.UnauthorizedMessageFieldName field_name path context)
    else
      check_nested_field_names context schema path
      check_field_names context rest parent_path

def check_nested_field_names (context : String) : SchemaType → String → Except Error Unit
  | .Object fields _, path => check_field_names context fields path
  | .Array (.Object fields _) _ _, path => check_field_names context fields path
  | _, _ => .ok ()

end

def validate_message_format_field_names (format : MessageFormat) (context : String) :
    Except Error Unit :=
  let normalized_context := if context.trimAscii.toString = "" then "message_format" else context
  check_field_names normalized_context format.fields ""

mutual

def check_fixed_array : SchemaType → String → Except Error Unit
  | .Array items length _, path =>
    match length with
    | some _ =>
      match items.as_type_token with
      | some token =>
        if is_scalar token then .ok ()
        else .error (.UnsupportedFixedArrayItemType path (type_token_name token))
      | none => .error (.UnsupportedFixedArrayItemType path "object")
    | none => check_fixed_array items path
  | .Object fields _, path => check_fixed_array_fields (fun name => path ++ "." ++ name) fields
  | .Token _, _ | .Primitive .., _ => .ok ()

/-- `pathOf` is the path of a field by its name. -/
def check_fixed_array_fields (pathOf : String → String) : Fields → Except Error Unit
  | .nil => .ok ()
  | .cons field_name schema rest => do
    check_fixed_array schema (pathOf field_name)
    check_fixed_array_fields pathOf rest

end

def validate_fixed_length_array_items (format : MessageFormat) : Except Error Unit :=
  check_fixed_array_fields id format.fields

mutual

def validate_sibling_type_name_collisions : Fields → String → Seen → Except Error Unit
  | .nil, _, _ => .ok ()
  | .cons field_name schema rest, pre, seen =>
    match generated_type_name pre field_name schema with
    | none => validate_sibling_type_name_collisions rest pre seen
    | some generated_name =>
      match seen.lookup generated_name with
      | some previous_field =>
        .error (.GeneratedTypeNameCollision pre generated_name previous_field field_name)
      | none => do
        -- The generated name is the start of the names inside.
        validate_child_type_name_collisions schema generated_name
        validate_sibling_type_name_collisions rest pre ((generated_name, field_name) :: seen)

/-- The turn of the loop into the fields of a struct. -/
def validate_child_type_name_collisions : SchemaType → String → Except Error Unit
  | .Object fields _, generated_name =>
    validate_sibling_type_name_collisions fields generated_name []
  | .Array (.Object fields _) _ _, generated_name =>
    validate_sibling_type_name_collisions fields generated_name []
  | _, _ => .ok ()

end

variable (format : MessageFormat)

def validate_generated_type_name_collisions (pre : String) : Except Error Unit :=
  validate_sibling_type_name_collisions format.fields pre []

def validate_generatable_message_format (context : String) : Except Error Unit := do
  validate_message_format_field_names format context
  validate_fixed_length_array_items format
  validate_generated_type_name_collisions format "Message"

/-- The validations of `map_declared_message_format`. -/
def validate_declared_message_format : Except Error Unit := do
  validate_normalized_field_names_for_rust format
  validate_generatable_message_format format "message_format"

theorem siblings_of_accepted {format : MessageFormat}
    (h : validate_declared_message_format format = .ok ()) :
    validate_sibling_type_name_collisions format.fields "Message" [] = .ok () := by
  obtain ⟨_, -, h⟩ := bind_ok.mp h
  obtain ⟨_, -, h⟩ := bind_ok.mp h
  obtain ⟨_, -, h⟩ := bind_ok.mp h
  exact h

end peppy.message_format
