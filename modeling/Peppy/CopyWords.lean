-- The join of a copy by its words, which choose the options of the own axes and place
-- their parts. The words printed for a copy add it again.
import Peppy.CopyFold
import Peppy.Words

open List results
open keymap (KeyMap lookup_eq_none)
open peppy.node_config (Name allowed_of_all)

namespace peppy.compose

open words

variable {V : Type}

instance : Ord Name := ⟨fun a b => compare a.as_str b.as_str⟩

/-- An own axis of a copied option: what the file deploys, and the fragments. -/
structure ComponentAxis (V : Type) where
  name : Name
  options : List Name
  allows_empty : Bool
  deployed : Option Name
  nested : Name → List (LoadedFragment V)
  deployed_known : ∀ option ∈ deployed, option ∈ options

def ComponentAxis.brings_instances (axis : ComponentAxis V) (option : Name) : Bool :=
  (axis.nested option).any fun fragment => !(ids fragment.deployments).isEmpty

structure LoadedOption (V : Type) where
  name : Name
  fragments : List (LoadedFragment V)
  axes : List (ComponentAxis V)
  axes_once : (axes.map ComponentAxis.name).Nodup

abbrev OwnSelection := List (Name × Option Name)

structure CopySettings (V : Type) where
  selects : KeyMap Name Name := {}
  arguments : List (String × List (String × V)) := []
  adjustments : List (OriginatedAdjustment V) := []

structure RunningStack (V : Type) where
  selection : List (String × String)
  launcher : PeppyLauncher V
  coordinator : CoreNodeName
  placement : String → CoreNodeName

/-- A launcher as it is read. What the stack composes to, how a copy lies over it and how
its writes attach are any functions of what they read. -/
structure PreparedLauncher (V : Type) where
  copy_axes : List (Name × List (LoadedOption V))
  entry_settings : Name → Name → CopySettings V
  compose_stack : List (String × String) → Except CompositionError (Expanded V)
  copy_over_stack : List (String × String) → Name → OwnSelection → CopyOverStack V
  attach_writes : PeppyLauncher V → ComposedCopy V → Except CompositionError PUnit

structure JoinRequest where
  option : Name
  name : CoreNodeName
  machine : CoreNodeName
  words : List SelectionWord

structure CopyInstance where
  instance_id : String
  own_axis : Option Name

structure ComposedJoin (V : Type) where
  machine : CoreNodeName
  own : OwnSelection
  copy : ComposedCopy V
  instances : List CopyInstance
  placement : String → CoreNodeName

/-- The machine of the part that an own axis brings. -/
def part_machine (running : RunningStack V) (machine : CoreNodeName)
    (chosen : KeyMap Name SelectionWord) (axis : Name) : CoreNodeName :=
  ((chosen.get axis).bind SelectionWord.core_node).elim machine
    (CoreNodeTarget.resolve running.coordinator)

/-- A part runs on its machine, the other new ones on the copy's, the rest as before. -/
def placements (running : RunningStack V) (machine : CoreNodeName)
    (chosen : KeyMap Name SelectionWord) (instances : List CopyInstance) (id : String) :
    CoreNodeName :=
  if id ∈ ids running.launcher.deployments then running.placement id
  else ((instances.find? fun inst => inst.instance_id = id).bind CopyInstance.own_axis).elim machine
    (part_machine running machine chosen)

/-- A refusal of the selection, by its variant. -/
def refused {α : Type} (variant : String) : Except CompositionError α := .error (.Refused variant)

namespace LoadedOption

variable (loaded : LoadedOption V)

variable (own : OwnSelection)

def selected_fragments : List (Option Name × LoadedFragment V) :=
  loaded.fragments.map (none, ·) ++ loaded.axes.flatMap fun axis =>
    ((keymap.lookup axis.name own).join.elim [] axis.nested).map (some axis.name, ·)

def own_axis_by_id (id : String) : Option Name :=
  ((loaded.selected_fragments own).reverse.find? fun entry => id ∈ ids entry.2.deployments).bind
    Prod.fst

def copy_instances (copy : ComposedCopy V) : List CopyInstance :=
  (ids copy.deployments).map fun id =>
    ⟨id, ((node_ids ((loaded.selected_fragments own).map Prod.snd)).find? fun in_copy =>
      instance_id_in_copy copy.name in_copy = id).bind (loaded.own_axis_by_id own)⟩

def match_word (word : OptionChoice) : List (ComponentAxis V) :=
  match word.axis with
  | some name => loaded.axes.filter fun axis => axis.name = name
  | none => loaded.axes.filter fun axis => word.option ∈ axis.options

/-- The words of a copy over the own axes, after those that are `chosen`. -/
def copy_words : KeyMap Name SelectionWord → List SelectionWord →
    Except CompositionError (KeyMap Name SelectionWord)
  | chosen, [] => .ok chosen
  | chosen, word :: words =>
    match loaded.match_word word.choice with
    | [axis] =>
      if word.choice.option ∉ axis.options then refused "UnknownCopySelection"
      else match chosen.get axis.name with
        | some first =>
          if first.choice.option ≠ word.choice.option then refused "ConflictingSelection"
          else if first.core_node ≠ word.core_node then refused "PartPlacedTwice"
          else copy_words chosen words
        | none =>
          if word.core_node.isSome && !axis.brings_instances word.choice.option then
            refused "PlacedPartBringsNothing"
          else copy_words (chosen.insert axis.name word) words
    | [] => refused "UnknownCopySelection"
    | _ => refused "AmbiguousSelection"

/-- The selected option of an own axis, else the one that the file deploys. -/
def filled (selects : KeyMap Name Name) (axis : ComponentAxis V) : Option Name :=
  (selects.get axis.name).or axis.deployed

def offers (select : Name × Name) : Bool :=
  loaded.axes.any fun axis => axis.name = select.1 && select.2 ∈ axis.options

def resolve_copy (selects : KeyMap Name Name) : Except CompositionError OwnSelection :=
  match selects.entries.find? fun select => !loaded.offers select with
  | some select =>
    refused (if select.1 ∈ loaded.axes.map ComponentAxis.name then "CopySelectsUnknownOption"
      else "CopySelectsUnknownAxis")
  | none =>
    if loaded.axes.any fun axis => (filled selects axis).isNone && !axis.allows_empty then
      refused "UnresolvedCopyAxis"
    else .ok (loaded.axes.map fun axis => (axis.name, filled selects axis))

end LoadedOption

/-- What the words select on top of the settings of the entry. -/
def overlaid_by (selects : KeyMap Name Name) (chosen : KeyMap Name SelectionWord) :
    KeyMap Name Name :=
  chosen.entries.foldl (fun selects entry => selects.insert entry.1 entry.2.choice.option) selects

def ComposedJoin.of (running : RunningStack V) (machine : CoreNodeName) (loaded : LoadedOption V)
    (chosen : KeyMap Name SelectionWord) (own : OwnSelection) (copy : ComposedCopy V) :
    ComposedJoin V where
  machine
  own
  copy
  instances := loaded.copy_instances own copy
  placement := placements running machine chosen (loaded.copy_instances own copy)

namespace PreparedLauncher

variable (p : PreparedLauncher V) (running : RunningStack V)

def repeatable_axis_of (option : Name) : Except CompositionError (Name × LoadedOption V) :=
  if p.copy_axes.isEmpty then refused "NoRepeatableAxis"
  else match p.copy_axes.findSome? fun axis =>
      (axis.2.find? fun loaded => loaded.name = option).map (axis.1, ·) with
    | some found => .ok found
    | none => refused "JoinUnknownOption"

def attach (copy : ComposedCopy V) : Except CompositionError (ComposedCopy V) := do
  p.attach_writes running.launcher copy
  match (ids copy.deployments).find? fun id => id ∈ ids running.launcher.deployments with
  | some id => .error (.PrefixedIdCollision copy.name id)
  | none => .ok copy

def compose_over (axis : Name) (loaded : LoadedOption V) (name : CoreNodeName)
    (own : Except CompositionError OwnSelection) : Except CompositionError (ComposedCopy V) := do
  let bare ← p.compose_stack running.selection
  let settings := p.entry_settings axis loaded.name
  let copy ← compose_copy bare {
    name := name.name.as_str
    option := loaded.name.as_str
    resolved := own.map fun own => { p.copy_over_stack running.selection axis own with
      fragments := (loaded.selected_fragments own).map Prod.snd }
    arguments := settings.arguments
    adjustments := settings.adjustments } running.launcher.core_nodes
  p.attach running copy

/-- One copy joined onto the running stack, without overrides of arguments. -/
def join (request : JoinRequest) : Except CompositionError (ComposedJoin V) := do
  let (axis, loaded) ← p.repeatable_axis_of request.option
  let chosen ← loaded.copy_words {} request.words
  let own := loaded.resolve_copy (overlaid_by (p.entry_settings axis request.option).selects chosen)
  let copy ← p.compose_over running axis loaded request.name own
  return .of running request.machine loaded chosen (← own) copy

end PreparedLauncher

namespace ComposedJoin

variable (joined : ComposedJoin V)

/-- The own axis with its option, and its machine when not the copy's. -/
def axis_selection (axis option : Name) : AxisSelection where
  axis
  option
  core_node := ((joined.instances.filter fun inst => inst.own_axis = some axis).map fun inst =>
    joined.placement inst.instance_id).find? fun other => other ≠ joined.machine

def axis_selections : List AxisSelection :=
  joined.own.filterMap fun entry => entry.2.map (joined.axis_selection entry.1)

end ComposedJoin

/-! ## The words of a copy -/

namespace LoadedOption

variable {loaded : LoadedOption V} {axis : ComponentAxis V} {selects : KeyMap Name Name}
  {chosen found : KeyMap Name SelectionWord} {own : OwnSelection} {option key : Name}

theorem eq_of_name {other : ComponentAxis V} (haxis : axis ∈ loaded.axes) (hother : other ∈ loaded.axes)
    (hname : other.name = axis.name) : other = axis :=
  inj_on_of_nodup_map loaded.axes_once hother haxis hname

theorem match_word_name (haxis : axis ∈ loaded.axes) :
    loaded.match_word ⟨some axis.name, option⟩ = [axis] := by
  obtain ⟨l1, l2, hl⟩ := append_of_mem haxis
  have honce := loaded.axes_once
  rw [hl, map_append, map_cons, nodup_middle, nodup_cons, mem_append, not_or] at honce
  have hnone (l : List (ComponentAxis V)) (h : axis.name ∉ l.map ComponentAxis.name) :
      (l.filter fun other => other.name = axis.name) = [] :=
    filter_eq_nil_iff.mpr fun other hother hname =>
      h (of_decide_eq_true hname ▸ mem_map_of_mem hother)
  change (loaded.axes.filter fun other => other.name = axis.name) = [axis]
  rw [hl, filter_append, hnone l1 honce.1.1, filter_cons_of_pos (by simp), hnone l2 honce.1.2]
  rfl

/-- The word is one of the axis, and places a part that there is. -/
def Fits (axis : ComponentAxis V) (word : SelectionWord) : Prop :=
  word.choice.option ∈ axis.options ∧
    (word.core_node.isSome → axis.brings_instances word.choice.option)

/-- Each word chosen fits its axis. -/
def FitsAll (loaded : LoadedOption V) (chosen : KeyMap Name SelectionWord) : Prop :=
  ∀ key word, chosen.get key = some word → ∃ axis ∈ loaded.axes, axis.name = key ∧ Fits axis word

theorem copy_words_fit {words : List SelectionWord} (h : loaded.copy_words chosen words = .ok found)
    (hchosen : FitsAll loaded chosen) : FitsAll loaded found := by
  induction words generalizing chosen with
  | nil =>
    cases h
    exact hchosen
  | cons first words ih =>
    rw [copy_words] at h
    split at h
    · rename_i axis hmatch
      have haxis : axis ∈ loaded.match_word first.choice := hmatch ▸ mem_singleton_self axis
      split at h
      · cases h
      rename_i hoption
      split at h
      · split at h
        · cases h
        split at h
        · cases h
        exact ih h hchosen
      · split at h
        · cases h
        rename_i hbrings
        refine ih h fun key word hword => ?_
        rw [KeyMap.get_insert] at hword
        split_ifs at hword with hkey
        · cases hword
          refine ⟨axis, ?_, hkey.symm, not_not.mp hoption, fun hplaced => ?_⟩
          · unfold match_word at haxis
            split at haxis <;> exact mem_of_mem_filter haxis
          · simpa [hplaced] using hbrings
        · exact hchosen key word hword
    · cases h
    · cases h

theorem copy_words_of_axes (chosen : KeyMap Name SelectionWord)
    {word : ComponentAxis V → Option SelectionWord} {axes : List (ComponentAxis V)}
    (haxes : ∀ axis ∈ axes, axis ∈ loaded.axes ∧ chosen.get axis.name = none ∧
      ∀ w ∈ word axis, w.choice.axis = some axis.name ∧ Fits axis w)
    (honce : (axes.map ComponentAxis.name).Nodup) :
    ∃ found, loaded.copy_words chosen (axes.filterMap word) = .ok found ∧
      (∀ axis ∈ axes, found.get axis.name = word axis) ∧
      ∀ key ∉ axes.map ComponentAxis.name, found.get key = chosen.get key := by
  induction axes generalizing chosen with
  | nil => exact ⟨chosen, rfl, nofun, fun _ _ => rfl⟩
  | cons axis axes ih =>
    obtain ⟨hname, honce⟩ := nodup_cons.mp honce
    obtain ⟨⟨haxis, hnone, hword⟩, haxes⟩ := forall_mem_cons.mp haxes
    cases hw : word axis with
    | none =>
      obtain ⟨found, hfound, hmem, hrest⟩ := ih chosen haxes honce
      refine ⟨found, by rwa [filterMap_cons_none hw], forall_mem_cons.mpr ⟨?_, hmem⟩, ?_⟩
      · rw [hrest _ hname, hnone, hw]
      · exact fun key hkey => hrest key (mt (mem_cons_of_mem _) hkey)
    | some w =>
      obtain ⟨hqualified, hoption, hbrings⟩ := hword w hw
      have hget (key : Name) (hkey : key ≠ axis.name) :
          (chosen.insert axis.name w).get key = chosen.get key := KeyMap.get_insert_of_ne _ _ hkey
      have hnew : ∀ other ∈ axes, (chosen.insert axis.name w).get other.name = none := by
        intro other hother
        rw [hget _ fun h => hname (h ▸ mem_map_of_mem hother)]
        exact (haxes other hother).2.1
      obtain ⟨found, hfound, hmem, hrest⟩ := ih _
        (fun other hother => ⟨(haxes other hother).1, hnew other hother, (haxes other hother).2.2⟩) honce
      refine ⟨found, ?_, forall_mem_cons.mpr ⟨?_, hmem⟩, fun key hkey => ?_⟩
      · obtain ⟨⟨_, option⟩, core_node⟩ := w
        cases hqualified
        have hplaced : ¬ (core_node.isSome && !axis.brings_instances option) := by
          simpa using hbrings
        rw [filterMap_cons_some hw, copy_words, match_word_name haxis]
        dsimp only
        rw [if_neg (not_not.mpr hoption), hnone]
        dsimp only
        rw [if_neg hplaced]
        exact hfound
      · rw [hrest _ hname, KeyMap.get_insert, if_pos rfl, hw]
      · obtain ⟨hne, hkey⟩ := not_or.mp (mt mem_cons.mpr hkey)
        rw [hrest key hkey, hget key hne]

theorem get_overlaid : (overlaid_by selects chosen).get key =
    ((chosen.get key).map fun word => word.choice.option).or (selects.get key) := by
  by_cases hkey : key ∈ chosen.entries.map Prod.fst
  · obtain ⟨entry, hentry, hname, hget⟩ := KeyMap.get_foldl_insert_of_mem hkey
    rw [overlaid_by, hget, ← hname, KeyMap.get_eq_some_iff.mpr hentry]
    rfl
  · have hnone : chosen.get key = none := lookup_eq_none.mpr hkey
    rw [overlaid_by, KeyMap.get_foldl_insert_of_not_mem hkey, hnone]
    rfl

theorem resolve_copy_ok : loaded.resolve_copy selects = .ok own ↔
    (∀ key option, selects.get key = some option →
      ∃ axis ∈ loaded.axes, axis.name = key ∧ option ∈ axis.options) ∧
    (∀ axis ∈ loaded.axes, filled selects axis = none → axis.allows_empty) ∧
    own = loaded.axes.map fun axis => (axis.name, filled selects axis) := by
  have hoffers : (selects.entries.find? fun select => !loaded.offers select) = none ↔
      ∀ key option, selects.get key = some option →
        ∃ axis ∈ loaded.axes, axis.name = key ∧ option ∈ axis.options := by
    simp [KeyMap.get_eq_some_iff, offers]
  rw [resolve_copy, ← hoffers]
  split
  · rename_i h
    simp [refused, h]
  · rename_i h
    split_ifs with hempty
    · simp only [any_eq_true, Bool.and_eq_true, Option.isNone_iff_eq_none, Bool.not_eq_true'] at hempty
      obtain ⟨axis, haxis, hnone, hfalse⟩ := hempty
      refine ⟨?_, fun h => ?_⟩
      · rintro ⟨⟩
      · cases hfalse.symm.trans (h.2.1 axis haxis hnone)
    · simp only [any_eq_true, Bool.and_eq_true, Option.isNone_iff_eq_none, Bool.not_eq_true',
        not_exists, not_and, Bool.not_eq_false] at hempty
      exact ⟨fun hown => ⟨h, hempty, (Except.ok.inj hown).symm⟩, fun hown => hown.2.2 ▸ rfl⟩

theorem option_of_filled (hown : loaded.resolve_copy selects = .ok own)
    (haxis : axis ∈ loaded.axes) (h : filled selects axis = some option) : option ∈ axis.options := by
  rcases Option.or_eq_some_iff.mp h with h | ⟨-, h⟩
  · obtain ⟨other, hother, hname, hoption⟩ := (resolve_copy_ok.mp hown).1 _ _ h
    rwa [← eq_of_name haxis hother hname]
  · exact axis.deployed_known option h

/-- A word for each own axis that is filled, with its option, selects the same. -/
theorem resolve_again (word : ComponentAxis V → Option SelectionWord)
    (hchosen : FitsAll loaded chosen) (hown : loaded.resolve_copy (overlaid_by selects chosen) = .ok own)
    (hword : ∀ axis ∈ loaded.axes, ((word axis).map fun w => w.choice.option) =
      filled (overlaid_by selects chosen) axis)
    (hfits : ∀ axis ∈ loaded.axes, ∀ w ∈ word axis, w.choice.axis = some axis.name ∧
      (w.core_node.isSome → axis.brings_instances w.choice.option)) :
    ∃ found, loaded.copy_words {} (loaded.axes.filterMap word) = .ok found ∧
      (∀ axis ∈ loaded.axes, found.get axis.name = word axis) ∧
      loaded.resolve_copy (overlaid_by selects found) = .ok own := by
  obtain ⟨hoffers, hempty, howns⟩ := resolve_copy_ok.mp hown
  have haxes : ∀ axis ∈ loaded.axes, ∀ w ∈ word axis, w.choice.axis = some axis.name ∧ Fits axis w := by
    intro axis haxis w hw
    have hfilled := hword axis haxis
    rw [hw] at hfilled
    exact ⟨(hfits axis haxis w hw).1, option_of_filled hown haxis hfilled.symm, (hfits axis haxis w hw).2⟩
  obtain ⟨found, hfound, hget, hother⟩ := copy_words_of_axes {}
    (fun axis haxis => ⟨haxis, rfl, haxes axis haxis⟩) loaded.axes_once
  have hfilled : ∀ axis ∈ loaded.axes,
      filled (overlaid_by selects found) axis = filled (overlaid_by selects chosen) axis := by
    intro axis haxis
    rw [filled, get_overlaid, hget axis haxis, hword axis haxis]
    cases hf : filled (overlaid_by selects chosen) axis with
    | some option => rfl
    | none =>
      rw [filled, get_overlaid, Option.or_eq_none_iff, Option.or_eq_none_iff] at hf
      rw [hf.1.2, hf.2]
      rfl
  refine ⟨found, hfound, hget, resolve_copy_ok.mpr ⟨fun key option h => ?_, fun axis haxis h => ?_, ?_⟩⟩
  · by_cases hkey : key ∈ loaded.axes.map ComponentAxis.name
    · obtain ⟨axis, haxis, rfl⟩ := mem_map.mp hkey
      refine ⟨axis, haxis, rfl, option_of_filled hown haxis ?_⟩
      rw [← hfilled axis haxis, filled, h]
      rfl
    · have hnone : chosen.get key = none := by
        refine Option.eq_none_iff_forall_ne_some.mpr fun word hword => hkey ?_
        obtain ⟨axis, haxis, rfl, -⟩ := hchosen key word hword
        exact mem_map_of_mem haxis
      rw [get_overlaid, hother key hkey] at h
      exact hoffers key option (by rwa [get_overlaid, hnone])
  · exact hempty axis haxis (hfilled axis haxis ▸ h)
  · rw [howns]
    exact map_congr_left fun axis haxis => by rw [hfilled axis haxis]

end LoadedOption

/-! ## The words that are printed -/

namespace ComposedJoin

open LoadedOption PreparedLauncher

variable {p : PreparedLauncher V} {running : RunningStack V} {request : JoinRequest}
  {joined : ComposedJoin V} {loaded : LoadedOption V} {own : OwnSelection} {copy : ComposedCopy V}
  {chosen : KeyMap Name SelectionWord} {machine : CoreNodeName} {axis : Name}

/-- The part runs on one machine, which its word names when it is not the copy's. -/
theorem core_node_of_axis {option : Name} {target : CoreNodeTarget}
    (h : ∀ inst ∈ joined.instances, inst.own_axis = some axis →
      joined.placement inst.instance_id = machine) :
    (joined.axis_selection axis option).word.core_node = some target ↔
      (∃ inst ∈ joined.instances, inst.own_axis = some axis) ∧ machine ≠ joined.machine ∧
        .Named machine = target := by
  have hall : ∀ other ∈ (joined.instances.filter fun inst => inst.own_axis = some axis).map
      (fun inst => joined.placement inst.instance_id), other = machine := by
    intro other hother
    obtain ⟨inst, hinst, rfl⟩ := mem_map.mp hother
    obtain ⟨hinst, haxis⟩ := mem_filter.mp hinst
    exact h inst hinst (of_decide_eq_true haxis)
  rw [AxisSelection.word, axis_selection, eq_replicate_of_mem hall, find?_replicate, length_map]
  simp
  grind

theorem fresh_ids {own : Except CompositionError OwnSelection}
    (h : p.compose_over running axis loaded request.name own = .ok copy) {id : String}
    (hid : id ∈ ids copy.deployments) : id ∉ ids running.launcher.deployments := by
  obtain ⟨_, -, h⟩ := bind_ok.mp h
  obtain ⟨_, -, h⟩ := bind_ok.mp h
  obtain ⟨_, -, h⟩ := bind_ok.mp h
  split at h
  · cases h
  · rename_i hnone
    cases h
    simpa using find?_eq_none.mp hnone id hid

theorem placement_of_part {inst : CopyInstance} (hinst : inst ∈ loaded.copy_instances own copy)
    (hfresh : ∀ id ∈ ids copy.deployments, id ∉ ids running.launcher.deployments)
    (haxis : inst.own_axis = some axis) :
    placements running machine chosen (loaded.copy_instances own copy) inst.instance_id =
      part_machine running machine chosen axis := by
  obtain ⟨id, hid, rfl⟩ := mem_map.mp hinst
  have hfind : (loaded.copy_instances own copy).find? (fun other => other.instance_id = id) =
      some ⟨id, some axis⟩ := by
    cases hfind : (loaded.copy_instances own copy).find? fun other => other.instance_id = id with
    | none => exact absurd (find?_eq_none.mp hfind _ hinst) (by simp)
    | some other =>
      obtain ⟨id', -, rfl⟩ := mem_map.mp (mem_of_find?_eq_some hfind)
      have hsame : id' = id := by simpa using find?_some hfind
      rw [hsame, ← haxis]
  rw [placements, if_neg (hfresh id hid), hfind]
  rfl

theorem exists_placed (h : part_machine running machine chosen axis ≠ machine) :
    ∃ word, chosen.get axis = some word ∧ word.core_node.isSome := by
  cases hword : chosen.get axis with
  | none => exact absurd (by rw [part_machine, hword]; rfl) h
  | some word =>
    cases hcore : word.core_node with
    | none => exact absurd (by rw [part_machine, hword, Option.bind_some, hcore]; rfl) h
    | some target => exact ⟨word, rfl, hcore ▸ rfl⟩

theorem join_again (h : p.join running request = .ok joined) :
    ∃ again, p.join running { request with words := joined.axis_selections.map AxisSelection.word } =
      .ok again ∧ again.own = joined.own ∧ again.placement = joined.placement := by
  obtain ⟨⟨axis, loaded⟩, haxis, h⟩ := bind_ok.mp h
  obtain ⟨chosen, hchosen, h⟩ := bind_ok.mp h
  obtain ⟨copy, hcopy, h⟩ := bind_ok.mp h
  obtain ⟨own, hown, h⟩ := bind_ok.mp h
  have hfits : FitsAll loaded chosen := copy_words_fit hchosen nofun
  let part := part_machine running request.machine chosen
  cases h
  set joined := ComposedJoin.of running request.machine loaded chosen own copy
  have hplace (key : Name) : ∀ inst ∈ joined.instances, inst.own_axis = some key →
      joined.placement inst.instance_id = part key :=
    fun inst hinst => placement_of_part hinst fun id hid => fresh_ids hcopy hid
  -- The word of each own axis that is filled.
  let filling : ComponentAxis V → Option Name :=
    filled (overlaid_by (p.entry_settings axis request.option).selects chosen)
  let word : ComponentAxis V → Option SelectionWord := fun axis =>
    (filling axis).map fun option => (joined.axis_selection axis.name option).word
  have hfilling {axis : ComponentAxis V} {first : SelectionWord}
      (hfirst : chosen.get axis.name = some first) : filling axis = some first.choice.option := by
    simp only [filling, filled, get_overlaid, hfirst]
    rfl
  have hwords : joined.axis_selections.map AxisSelection.word = loaded.axes.filterMap word := by
    have howns : joined.own = loaded.axes.map fun axis => (axis.name, filling axis) :=
      (resolve_copy_ok.mp hown).2.2
    rw [axis_selections, howns, filterMap_map, map_filterMap]
    exact filterMap_congr fun axis _ => Option.map_map ..
  have hcore {axis : ComponentAxis V} {w : SelectionWord} (hw : word axis = some w)
      {target : CoreNodeTarget} : w.core_node = some target ↔
        (∃ inst ∈ joined.instances, inst.own_axis = some axis.name) ∧
          part axis.name ≠ request.machine ∧ .Named (part axis.name) = target := by
    obtain ⟨option, -, rfl⟩ := Option.map_eq_some_iff.mp hw
    exact core_node_of_axis (hplace axis.name)
  have hplaced {axis : ComponentAxis V} {w : SelectionWord} (hw : word axis = some w)
      (hsome : w.core_node.isSome) : part axis.name ≠ request.machine := by
    obtain ⟨target, htarget⟩ := Option.isSome_iff_exists.mp hsome
    exact ((hcore hw).mp htarget).2.1
  have hbrings : ∀ axis ∈ loaded.axes, ∀ w ∈ word axis, w.choice.axis = some axis.name ∧
      (w.core_node.isSome → axis.brings_instances w.choice.option) := by
    intro axis haxis w hw
    obtain ⟨option, hfilled, hoption⟩ := Option.map_eq_some_iff.mp hw
    refine ⟨by rw [← hoption]; rfl, fun hsome => ?_⟩
    obtain ⟨first, hfirst, hbrought⟩ := exists_placed (hplaced hw hsome)
    obtain ⟨other, hother, hname, -, hbrings⟩ := hfits _ first hfirst
    cases eq_of_name haxis hother hname
    cases hfilled.symm.trans (hfilling hfirst)
    rw [← hoption]
    exact hbrings hbrought
  have hoptions (axis : ComponentAxis V) : ((word axis).map fun w => w.choice.option) =
      filling axis := by
    rw [Option.map_map]
    exact congrFun Option.map_id _
  obtain ⟨found, hfound, hget, hown'⟩ :=
    resolve_again word hfits hown (fun axis _ => hoptions axis) hbrings
  refine ⟨.of running request.machine loaded found own copy, bind_ok.mpr ⟨_, haxis, bind_ok.mpr
    ⟨found, by rwa [hwords], bind_ok.mpr ⟨copy, ?_, bind_ok.mpr ⟨own, hown', rfl⟩⟩⟩⟩, rfl,
    funext fun id => ?_⟩
  · rw [hown', ← hown]
    exact hcopy
  change placements running request.machine found joined.instances id =
    placements running request.machine chosen joined.instances id
  unfold placements
  split_ifs
  · rfl
  cases hfind : joined.instances.find? fun inst => inst.instance_id = id with
  | none => rfl
  | some inst =>
    rw [Option.bind_some]
    cases hkey : inst.own_axis with
    | none => rfl
    | some key =>
      change part_machine running request.machine found key = part key
      by_cases hne : part key = request.machine
      · rw [hne]
        by_contra hpart
        obtain ⟨w, hw, hsome⟩ := exists_placed hpart
        obtain ⟨axis, haxis, rfl, -⟩ := copy_words_fit hfound nofun _ w hw
        exact hplaced ((hget axis haxis).symm.trans hw) hsome hne
      · obtain ⟨first, hfirst, -⟩ := exists_placed hne
        obtain ⟨axis, haxis, rfl, -⟩ := hfits key first hfirst
        have hw : word axis = some _ := congrArg (Option.map _) (hfilling hfirst)
        have hpart := (hcore hw).mpr ⟨⟨inst, mem_of_find?_eq_some hfind, hkey⟩, hne, rfl⟩
        rw [part_machine, hget axis haxis, hw, Option.bind_some, hpart]
        rfl

end ComposedJoin

/-- Each word is parsed back from its text, and the words printed for the own axes of a copy
add it again, each instance on the same machine. -/
theorem printed_words_add_the_copy_again {p : PreparedLauncher V} {running : RunningStack V}
    {request : JoinRequest} {joined : ComposedJoin V} (h : p.join running request = .ok joined) :
    (∀ choice, OptionChoice.parse choice.print = some choice) ∧
    (∀ word, SelectionWord.parse word.print = some word) ∧
    (∀ word, LaunchWord.parse word.print = some word) ∧
    (∀ selection, AxisSelection.parse selection.print = some selection) ∧
    (∀ copy, CopyReference.parse copy.print = some copy) ∧
    ∃ words again,
      (joined.axis_selections.map AxisSelection.print).mapM SelectionWord.parse = some words ∧
      p.join running { request with words } = .ok again ∧ again.own = joined.own ∧
      again.placement = joined.placement := by
  refine ⟨choice_parse_print, selection_parse_print, launch_parse_print, axis_parse_print,
    copy_parse_print, _, (ComposedJoin.join_again h).imp fun again hagain => ⟨?_, hagain⟩⟩
  induction joined.axis_selections with
  | nil => rfl
  | cons selection selections ih =>
    rw [map_cons, mapM_cons, ih, AxisSelection.print, selection_parse_print]
    rfl

def armLauncher : PreparedLauncher String where
  copy_axes := [({ as_str := "robot" }, [{
    name := .arm
    fragments := [{ origin := "arm", deployments := [⟨"arm", [{ instance_id := "arm_inst" }]⟩] }]
    axes := [{
      name := { as_str := "hand" }
      options := [.grips]
      allows_empty := true
      deployed := none
      nested := fun _ =>
        [{ origin := "grips", deployments := [⟨"grips", [{ instance_id := "tool_inst" }]⟩] }]
      deployed_known := fun _ h => absurd h (Option.not_mem_none _) }]
    axes_once := nodup_singleton _ }])]
  entry_settings := fun _ _ => {}
  compose_stack := fun _ => .ok { deployments := [], core_nodes := [] }
  copy_over_stack := fun _ _ _ => ⟨[], [], .ok ⟨⟩, []⟩
  attach_writes := fun _ _ => .ok ⟨⟩

def machine (as_str : Name) (h : as_str.as_str.length ≤ 63 ∧ as_str.as_str ≠ "self") : CoreNodeName :=
  ⟨as_str, h.1, h.2⟩

theorem an_arm_with_its_tool_elsewhere :
    let name := machine .arm_1 (by decide)
    let running : RunningStack String := ⟨[], ⟨[], []⟩, name, fun _ => name⟩
    let request := ⟨.arm, name, name, [⟨⟨none, .grips⟩, some (.Named (machine .grips (by decide)))⟩]⟩
    ∃ joined, armLauncher.join running request = .ok joined ∧ ∃ words again,
      (joined.axis_selections.map AxisSelection.print).mapM SelectionWord.parse = some words ∧
      armLauncher.join running { request with words } = .ok again ∧ again.own = joined.own ∧
      again.placement = joined.placement :=
  ⟨_, rfl, (printed_words_add_the_copy_again rfl).2.2.2.2.2⟩

end peppy.compose
