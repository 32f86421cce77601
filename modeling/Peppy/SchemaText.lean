-- The names that the Cap'n Proto schema of a message format gives its fields.
import Peppy.MessageFormat

open peppy.message_format List

namespace peppy.schema

/-! ## Names -/

def pascalWord : List Char → List Char
  | [] => []
  | first :: chars => first.toUpper :: chars.map Char.toLower

/-- What stands between the characters that are no letter and no digit. -/
def wordsOf (input : List Char) : List (List Char) :=
  (input.splitOnP (!·.isAlphanum)).filter (!·.isEmpty)

def to_pascal_case (input : List Char) : List Char := (wordsOf input).flatMap pascalWord

/-- The `_` before a digit. -/
def guardDigit (name : List Char) : List Char :=
  if name.head?.any Char.isDigit then '_' :: name else name

def lowerFirst : List Char → List Char
  | [] => []
  | first :: chars => first.toLower :: chars

variable (input : String)

def capnp_field_name : String :=
  let output := to_pascal_case input.toList
  let output := if output.isEmpty then "Field".toList else output
  let camel := guardDigit (lowerFirst output)
  if camel.isEmpty then "_field" else String.ofList camel

/-! ## The two names of a field -/

/-- The name has a letter or a digit. -/
def Named : Prop := ∃ c ∈ input.toList, c.isAlphanum = true

instance (input : String) : Decidable (Named input) :=
  List.decidableBEx (fun c : Char => c.isAlphanum = true) input.toList

theorem wordsOf_eq_nil {input : List Char} :
    wordsOf input = [] ↔ ∀ c ∈ input, c.isAlphanum = false := by
  unfold wordsOf
  induction input with
  | nil => simp
  | cons c input ih =>
    rw [splitOnP_cons_eq_if_modifyHead]
    cases hc : c.isAlphanum with
    | false => simpa [hc] using ih
    | true =>
      -- the character stands in the first word, whatever comes after it
      obtain ⟨word, words, hwords⟩ := exists_cons_of_ne_nil
        (splitOnP_ne_nil (!·.isAlphanum) input)
      simp [hc, hwords]

theorem to_pascal_case_eq_nil {input : List Char} :
    to_pascal_case input = [] ↔ ∀ c ∈ input, c.isAlphanum = false := by
  rw [← wordsOf_eq_nil]
  unfold to_pascal_case
  constructor
  · intro h
    rw [flatMap_eq_nil_iff] at h
    rw [eq_nil_iff_forall_not_mem]
    intro word hword
    have hne : word ≠ [] := by
      have := of_mem_filter hword
      simpa using this
    obtain ⟨first, chars, rfl⟩ := exists_cons_of_ne_nil hne
    simpa [pascalWord] using h _ hword
  · intro h
    simp [h]

theorem named_iff {input : String} : Named input ↔ to_pascal_case input.toList ≠ [] := by
  rw [ne_eq, to_pascal_case_eq_nil]
  simp [Named]

theorem pascalWord_eq (segment : List Char) :
    upperFirst (segment.head?.toList ++ segment.tail.map Char.toLower) = pascalWord segment := by
  cases segment with
  | nil => rfl
  | cons first chars => rfl

theorem sanitize_capnp_field_name_eq : sanitize_capnp_field_name input =
      match to_pascal_case input.toList with
      | [] => "_field"
      | first :: chars => String.ofList (guardDigit (first.toLower :: chars)) := by
  unfold sanitize_capnp_field_name to_pascal_case wordsOf
  simp only [pascalWord_eq]
  rfl

theorem guardDigit_ne_nil {name : List Char} (h : name ≠ []) : guardDigit name ≠ [] := by
  unfold guardDigit
  split
  · simp
  · exact h

theorem capnp_field_name_eq : capnp_field_name input =
      match to_pascal_case input.toList with
      | [] => "field"
      | first :: chars => String.ofList (guardDigit (first.toLower :: chars)) := by
  unfold capnp_field_name
  cases hpascal : to_pascal_case input.toList with
  | nil => decide
  | cons first chars =>
    have hne : guardDigit (first.toLower :: chars) ≠ [] := guardDigit_ne_nil (by simp)
    simp [lowerFirst, hne]

theorem field_name_of_named {input : String} (h : Named input) :
    sanitize_capnp_field_name input = capnp_field_name input := by
  rw [sanitize_capnp_field_name_eq, capnp_field_name_eq]
  obtain ⟨first, chars, hpascal⟩ := exists_cons_of_ne_nil (named_iff.mp h)
  rw [hpascal]

/-- The generator and the renderer name a field alike exactly when its name has a letter or
a digit. -/
theorem one_name_iff (input : String) :
    sanitize_capnp_field_name input = capnp_field_name input ↔ Named input := by
  constructor
  · intro h
    by_contra hnot
    have hpascal : to_pascal_case input.toList = [] := by simpa [named_iff] using hnot
    rw [sanitize_capnp_field_name_eq, capnp_field_name_eq, hpascal] at h
    exact absurd h (by decide)
  · exact field_name_of_named

theorem the_two_names_of_underscores :
    sanitize_capnp_field_name "__" = "_field" ∧ capnp_field_name "__" = "field" := by
  decide

end peppy.schema
