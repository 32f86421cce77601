-- The words of a launch and of a join, as they are printed and parsed. Each parser cuts
-- its text in one order: at the machine, at the copy, and at the axis.
import Peppy.NodeConfig
import Peppy.Rfc3339

open List
open peppy.node_config
open peppy.value (split_once split_once_append)

namespace peppy.words

abbrev chars (name : Name) : List Char := name.as_str.toList

def parse_name (value : List Char) : Option Name :=
  let as_str := String.ofList value
  if h : as_str ≠ "" ∧ as_str.toList.all (fun c => c ∈ ALLOWED_CONFIG_CHARS.toList) then
    some ⟨as_str, h.1, allowed_of_all h.2⟩
  else none

def MAX_CORE_NODE_NAME_LEN : Nat := 63

def SELF_CORE_NODE : String := "self"

/-- The name of a machine or of a copy. Every allowed character is one byte long. -/
structure CoreNodeName where
  name : Name
  short : name.as_str.length ≤ MAX_CORE_NODE_NAME_LEN
  not_self : name.as_str ≠ SELF_CORE_NODE
  deriving DecidableEq

def CoreNodeName.parse (value : List Char) : Option CoreNodeName :=
  (parse_name value).bind fun name =>
    if h : name.as_str.length ≤ MAX_CORE_NODE_NAME_LEN ∧ name.as_str ≠ SELF_CORE_NODE then
      some ⟨name, h.1, h.2⟩
    else none

inductive CoreNodeTarget where
  | Coordinator
  | Named (name : CoreNodeName)
  deriving DecidableEq

namespace CoreNodeTarget

def parse (raw : List Char) : Option CoreNodeTarget :=
  if String.ofList raw = SELF_CORE_NODE then some .Coordinator
  else (CoreNodeName.parse raw).map .Named

def print : CoreNodeTarget → List Char
  | .Coordinator => SELF_CORE_NODE.toList
  | .Named machine => chars machine.name

def resolve (coordinator : CoreNodeName) : CoreNodeTarget → CoreNodeName
  | .Coordinator => coordinator
  | .Named machine => machine

end CoreNodeTarget

structure OptionChoice where
  axis : Option Name
  option : Name

/-- With no machine, the part runs with the base of the copy. -/
structure SelectionWord where
  choice : OptionChoice
  core_node : Option CoreNodeTarget

inductive LaunchWord where
  | Stack (choice : OptionChoice)
  | Copy (copy : CoreNodeName) (word : SelectionWord)

/-- A filled own axis, with the machine of its part when not the copy's. -/
structure AxisSelection where
  axis : Name
  option : Name
  core_node : Option CoreNodeName

structure CopyReference where
  option : Name
  name : CoreNodeName
  core_node : CoreNodeTarget

/-! ## Printing -/

def OptionChoice.print (choice : OptionChoice) : List Char :=
  match choice.axis with
  | some axis => chars axis ++ '=' :: chars choice.option
  | none => chars choice.option

def printMachine : Option CoreNodeTarget → List Char
  | some target => '@' :: target.print
  | none => []

def SelectionWord.print (word : SelectionWord) : List Char :=
  word.choice.print ++ printMachine word.core_node

def LaunchWord.print : LaunchWord → List Char
  | .Stack choice => choice.print
  | .Copy copy word => chars copy.name ++ '.' :: word.print

/-- The word of a join that selects the same. -/
def AxisSelection.word (selection : AxisSelection) : SelectionWord :=
  ⟨⟨some selection.axis, selection.option⟩, selection.core_node.map .Named⟩

def AxisSelection.print (selection : AxisSelection) : List Char := selection.word.print

def CopyReference.print (copy : CopyReference) : List Char :=
  chars copy.option ++ ':' :: chars copy.name.name ++
    match copy.core_node with
    | .Coordinator => []
    | .Named machine => '@' :: chars machine.name

/-! ## Parsing -/

variable (raw : List Char)

def split_machine : Option (List Char × Option CoreNodeTarget) :=
  let word := (trim (String.ofList raw)).toList
  match split_once '@' word with
  | none => some (word, none)
  | some (head, machine) => (CoreNodeTarget.parse machine).map fun target => (head, some target)

def parse_choice (head : List Char) : Option OptionChoice :=
  match split_once '=' head with
  | some (axis, option) => do return ⟨some (← parse_name axis), ← parse_name option⟩
  | none => do return ⟨none, ← parse_name head⟩

def OptionChoice.parse : Option OptionChoice :=
  parse_choice (trim (String.ofList raw)).toList

def SelectionWord.parse : Option SelectionWord := do
  let (head, core_node) ← split_machine raw
  if '.' ∈ head then none else return ⟨← parse_choice head, core_node⟩

def LaunchWord.parse : Option LaunchWord := do
  let (head, core_node) ← split_machine raw
  match split_once '.' head with
  | none => if core_node.isSome then none else return .Stack (← parse_choice head)
  | some (copy, rest) => return .Copy (← CoreNodeName.parse copy) ⟨← parse_choice rest, core_node⟩

def AxisSelection.parse : Option AxisSelection := do
  let (head, core_node) ← split_machine raw
  let (axis, option) ← split_once '=' head
  match core_node with
  | none => return ⟨← parse_name axis, ← parse_name option, none⟩
  | some (.Named machine) => return ⟨← parse_name axis, ← parse_name option, some machine⟩
  | some .Coordinator => none

def CopyReference.parse : Option CopyReference := do
  let (head, core_node) ← split_machine raw
  let (option, name) ← split_once ':' head
  return ⟨← parse_name option, ← CoreNodeName.parse name, core_node.getD .Coordinator⟩

/-! ## What is printed parses back -/

section
variable {c : Char} {head : List Char} (name : Name) (copy : CoreNodeName) (choice : OptionChoice)

@[simp] theorem parse_chars : parse_name (chars name) = some name := by
  simpa [parse_name, name.not_empty] using name.allowed

@[simp] theorem core_node_parse_chars : CoreNodeName.parse (chars copy.name) = some copy := by
  simp [CoreNodeName.parse, copy.short, copy.not_self]

/-- A text of names and of the marks before a machine. -/
def Plain (text : List Char) : Prop := ∀ c ∈ text, c ∈ ALLOWED_CONFIG_CHARS.toList ++ ['.', '=', ':']

theorem plain_char : ∀ c ∈ ALLOWED_CONFIG_CHARS.toList ++ ['.', '=', ':'],
    is_whitespace c = false ∧ c ≠ '@' := by
  have hall : (ALLOWED_CONFIG_CHARS.toList ++ ['.', '=', ':']).all fun c =>
    !is_whitespace c && c ≠ '@' := by decide
  exact fun c hc => by simpa using all_eq_true.mp hall c hc

theorem plain_name : Plain (chars name) := fun c hc => mem_append_left _ (name.allowed c hc)

theorem Plain.join {a b : List Char} (ha : Plain a) (hb : Plain b) (hc : c ∈ ['.', '=', ':']) :
    Plain (a ++ c :: b) :=
  forall_mem_append.mpr ⟨ha, forall_mem_cons.mpr ⟨mem_append_right _ hc, hb⟩⟩

theorem plain_choice : Plain choice.print := by
  rw [OptionChoice.print]
  split
  · exact (plain_name _).join (plain_name _) (by decide)
  · exact plain_name _

theorem mark_not_mem (hc : c ∉ ALLOWED_CONFIG_CHARS.toList) : c ∉ chars name :=
  mt (name.allowed c) hc

theorem split_once_name (hc : c ∉ ALLOWED_CONFIG_CHARS.toList) (after : List Char) :
    split_once c (chars name ++ c :: after) = some (chars name, after) :=
  split_once_append (mark_not_mem name hc) after

theorem split_once_of_not_mem (h : c ∉ head) : split_once c head = none := by
  induction head with
  | nil => rfl
  | cons first head ih =>
    obtain ⟨hne, hhead⟩ := not_or.mp (mt mem_cons.mpr h)
    simp [split_once, Ne.symm hne, ih hhead]

theorem trim_text {text : List Char} (h : ∀ c ∈ text, is_whitespace c = false) :
    (trim (String.ofList text)).toList = text := by
  rw [trim_eq_self (by simpa using h), String.toList_ofList]

theorem split_machine_print (h : Plain head) (core_node : Option CoreNodeTarget) :
    split_machine (head ++ printMachine core_node) = some (head, core_node) := by
  have hat : '@' ∉ head := fun hat => (plain_char _ (h _ hat)).2 rfl
  have hhead : ∀ c ∈ head, is_whitespace c = false := fun c hc => (plain_char c (h c hc)).1
  cases core_node with
  | none => rw [printMachine, append_nil, split_machine, trim_text hhead, split_once_of_not_mem hat]
  | some target =>
    have htarget : (∀ c ∈ target.print, is_whitespace c = false) ∧
        CoreNodeTarget.parse target.print = some target := by
      cases target with
      | Coordinator => exact ⟨fun c hc => not_whitespace_of_allowed (allowed_of_all rfl c hc), rfl⟩
      | Named copy =>
        refine ⟨fun c hc => (plain_char c (plain_name _ c hc)).1, ?_⟩
        simp [CoreNodeTarget.parse, CoreNodeTarget.print, copy.not_self]
    have hat' : is_whitespace '@' = false := by decide
    have hword := forall_mem_append.mpr ⟨hhead, forall_mem_cons.mpr ⟨hat', htarget.1⟩⟩
    rw [printMachine, split_machine, trim_text hword, split_once_append hat]
    dsimp only
    rw [htarget.2]
    rfl

@[simp] theorem parse_choice_print : parse_choice choice.print = some choice := by
  obtain ⟨axis, option⟩ := choice
  cases axis with
  | none => simp [OptionChoice.print, parse_choice, split_once_of_not_mem (mark_not_mem option
      (by decide : '=' ∉ _))]
  | some axis => simp [OptionChoice.print, parse_choice, split_once_name axis (by decide : '=' ∉ _)]

theorem dot_not_mem : '.' ∉ choice.print := by
  have hdot (name : Name) : '.' ∉ chars name := mark_not_mem name (by decide)
  rw [OptionChoice.print]
  split <;> simp [hdot]

theorem choice_parse_print : OptionChoice.parse choice.print = some choice := by
  rw [OptionChoice.parse, trim_text fun c hc => (plain_char c (plain_choice choice c hc)).1]
  exact parse_choice_print choice

theorem selection_parse_print (word : SelectionWord) :
    SelectionWord.parse word.print = some word := by
  simp [SelectionWord.parse, SelectionWord.print, split_machine_print (plain_choice _), dot_not_mem]

theorem launch_parse_print (word : LaunchWord) : LaunchWord.parse word.print = some word := by
  cases word with
  | Stack choice =>
    have hcut := split_machine_print (plain_choice choice) none
    rw [printMachine, append_nil] at hcut
    simp [LaunchWord.parse, LaunchWord.print, hcut, split_once_of_not_mem (dot_not_mem choice)]
  | Copy copy word =>
    have hplain := (plain_name copy.name).join (plain_choice word.choice) (c := '.') (by decide)
    rw [LaunchWord.parse, LaunchWord.print, SelectionWord.print, ← cons_append, ← append_assoc,
      split_machine_print hplain]
    simp [split_once_name copy.name (by decide : '.' ∉ _)]

theorem axis_parse_print (selection : AxisSelection) :
    AxisSelection.parse selection.print = some selection := by
  obtain ⟨axis, option, core_node⟩ := selection
  rw [AxisSelection.parse, AxisSelection.print, SelectionWord.print,
    split_machine_print (plain_choice _)]
  cases core_node <;>
    simp [AxisSelection.word, OptionChoice.print, split_once_name axis (by decide : '=' ∉ _)]

theorem copy_parse_print (copy : CopyReference) : CopyReference.parse copy.print = some copy := by
  obtain ⟨option, name, core_node⟩ := copy
  have hplain := (plain_name option).join (plain_name name.name) (c := ':') (by decide)
  have hcut : split_machine (CopyReference.print ⟨option, name, core_node⟩) =
      some (chars option ++ ':' :: chars name.name,
        if core_node = .Coordinator then none else some core_node) := by
    cases core_node with
    | Coordinator => exact split_machine_print hplain none
    | Named machine => exact split_machine_print hplain (some (.Named machine))
  rw [CopyReference.parse, hcut]
  cases core_node <;> simp [split_once_name option (by decide : ':' ∉ _)]

end

end peppy.words
