-- The storage of the builds of the nodes: for each identity a directory of artifacts
-- and one of the build cache, named by the name and the tag joined with an
-- underscore.
import Peppy.NodeConfig
import Peppy.Lib.Runs

open peppy.node_config runs List

namespace peppy.build_storage

/-! ## The identity of a node -/

inductive TagError where
  | Empty (label : String)
  | Start (label tag : String)
  | Disallowed (label : String) (c : Char) (tag : String)

def validate_repo_node_tag (tag label : String) : Except TagError Unit :=
  match tag.toList with
  | [] => .error (.Empty label)
  | c :: cs =>
    if c.isAlpha then
      match (c :: cs).find? fun c => c ∉ ALLOWED_CONFIG_CHARS.toList with
      | some c => .error (.Disallowed label c tag)
      | none => .ok ()
    else .error (.Start label tag)

def validate_node_tag (node_tag : String) : Except TagError Unit :=
  validate_repo_node_tag node_tag "node tag"

/-- A name and a tag that the validations accept. -/
structure NodeIdentity where
  name : Name
  tag : String
  valid : validate_node_tag tag = .ok () := by rfl
  deriving DecidableEq

variable {p q : NodeIdentity}

theorem NodeIdentity.ext (hname : p.name = q.name) (htag : p.tag = q.tag) : p = q := by
  cases p
  cases q
  cases hname
  cases htag
  rfl

open NodeIdentity

theorem NodeIdentity.ext_toList (hname : p.name.as_str.toList = q.name.as_str.toList)
    (htag : p.tag.toList = q.tag.toList) : p = q := by
  refine ext ?_ (String.toList_inj.mp htag)
  cases hp : p.name
  cases hq : q.name
  rw [hp, hq] at hname
  cases String.toList_inj.mp hname
  rfl

/-! ## The directories -/

abbrev Path := List String

structure PeppyDirs where
  root : Path

def PeppyDirs.built_nodes_dir (dirs : PeppyDirs) : Path := dirs.root ++ ["built_nodes"]

def PeppyDirs.built_node_dir (dirs : PeppyDirs) (node_name node_tag : String) : Path :=
  dirs.built_nodes_dir ++ [node_name ++ "_" ++ node_tag]

def PeppyDirs.container_build_cache_dir (dirs : PeppyDirs) : Path :=
  dirs.root ++ ["cache", "container_build"]

def NODE_CACHES_SUBDIR : String := "nodes"

/-- `nodes/<name>_<tag>`. -/
def NodeIdentity.cache_subdir (node : NodeIdentity) : Path :=
  [NODE_CACHES_SUBDIR, node.name.as_str ++ "_" ++ node.tag]

def NodeIdentity.cache_dir (node : NodeIdentity) (dirs : PeppyDirs) : Path :=
  dirs.container_build_cache_dir ++ node.cache_subdir

def NodeIdentity.built_dir (node : NodeIdentity) (dirs : PeppyDirs) : Path :=
  dirs.built_node_dir node.name.as_str node.tag

/-! ## The files -/

/-- The content of each file. A directory is the paths of its files. -/
abbrev Files := Path → Option (List UInt8)

inductive ArtifactKind where
  | Container
  | Process

def ArtifactKind.extension : ArtifactKind → String
  | .Container => "sif"
  | .Process => "tar.zst"

structure ArtifactSlot where
  fingerprint : String
  path : Path
  cached : Bool

/-- The slot of a staged tree. `fingerprint` is the fingerprint of the tree. -/
def resolve_slot (fs : Files) (dirs : PeppyDirs) (node_name node_tag fingerprint : String)
    (kind : ArtifactKind) : Except TagError ArtifactSlot :=
  match validate_node_tag node_tag with
  | .error e => .error e
  | .ok () =>
    let path := dirs.built_node_dir node_name node_tag ++ [fingerprint ++ "." ++ kind.extension]
    .ok {
      fingerprint, path
      cached := (fs path).any fun content => 0 < content.length }

/-- Removes all beside the artifact, but `stuck` files, whose removal fails. -/
def prune_siblings (artifact_path : Path) (stuck : Path → Bool) (fs : Files) : Files := fun path =>
  if artifact_path.dropLast <+: path ∧ ¬ artifact_path <+: path ∧ ¬ stuck path then none
  else fs path

def publish (fs : Files) (destination : Path) (content : List UInt8) : Files :=
  Function.update fs destination (some content)

/-- Reuses the artifact of the slot, or publishes what was `built` and prunes. -/
def produce_artifact (fs : Files) (dirs : PeppyDirs) (node : NodeIdentity) (fingerprint : String)
    (kind : ArtifactKind) (rebuild : Bool) (built : Option (List UInt8)) (stuck : Path → Bool) :
    Files :=
  match resolve_slot fs dirs node.name.as_str node.tag fingerprint kind with
  | .error _ => fs
  | .ok slot =>
    if slot.cached && !rebuild then fs
    else
      match built with
      | none => fs
      | some content => prune_siblings slot.path stuck (publish fs slot.path content)

inductive Op where
  | Build (node : NodeIdentity) (fingerprint : String) (kind : ArtifactKind) (rebuild : Bool)
      (built : Option (List UInt8)) (stuck : Path → Bool)
  | Cache (node : NodeIdentity) (file : Path) (content : Option (List UInt8))

def Op.node : Op → NodeIdentity
  | .Build node .. | .Cache node .. => node

def step (dirs : PeppyDirs) (fs : Files) : Op → Option Files
  | .Build node fingerprint kind rebuild built stuck =>
    some (produce_artifact fs dirs node fingerprint kind rebuild built stuck)
  | .Cache node file content => some (Function.update fs (node.cache_dir dirs ++ file) content)

/-! ## The names of the directories -/

theorem joined_eq_iff {α : Type} {sep : α} {a b c d : List α} : a ++ sep :: b = c ++ sep :: d ↔
      (a = c ∧ b = d) ∨ (∃ s, c = a ++ sep :: s ∧ b = s ++ sep :: d) ∨
        ∃ s, a = c ++ sep :: s ∧ d = s ++ sep :: b := by
  constructor
  · intro h
    rcases append_eq_append_iff.mp h with ⟨s, rfl, hs⟩ | ⟨s, rfl, hs⟩
    · cases s with
      | nil => exact .inl ⟨(append_nil a).symm, (List.cons.inj hs).2⟩
      | cons x s =>
        obtain ⟨rfl, rfl⟩ := List.cons.inj hs
        exact .inr (.inl ⟨s, rfl, rfl⟩)
    · cases s with
      | nil => exact .inl ⟨append_nil c, (List.cons.inj hs).2.symm⟩
      | cons x s =>
        obtain ⟨rfl, rfl⟩ := List.cons.inj hs
        exact .inr (.inr ⟨s, rfl, rfl⟩)
  · rintro (⟨rfl, rfl⟩ | ⟨s, rfl, rfl⟩ | ⟨s, rfl, rfl⟩)
    · rfl
    · simp
    · simp

/-- The name of one starts with that of the other, whose tag takes in the rest. -/
def Overlaps (p q : NodeIdentity) : Prop :=
  ∃ s : String, q.name.as_str = p.name.as_str ++ "_" ++ s ∧ p.tag = s ++ "_" ++ q.tag

theorem overlaps_iff : Overlaps p q ↔ ∃ s, q.name.as_str.toList = p.name.as_str.toList ++ '_' :: s ∧
      p.tag.toList = s ++ '_' :: q.tag.toList := by
  constructor
  · rintro ⟨s, hname, htag⟩
    refine ⟨s.toList, ?_, ?_⟩
    · rw [hname]
      simp
    · rw [htag]
      simp
  · rintro ⟨s, hname, htag⟩
    refine ⟨String.ofList s, ?_, ?_⟩
    · rw [← String.toList_inj, hname]
      simp
    · rw [← String.toList_inj, htag]
      simp

/-- Two identities share the name of their directories exactly when they
overlap. -/
theorem joined_names (hne : p ≠ q) : p.name.as_str ++ "_" ++ p.tag = q.name.as_str ++ "_" ++ q.tag ↔
      Overlaps p q ∨ Overlaps q p := by
  have hlist : p.name.as_str ++ "_" ++ p.tag = q.name.as_str ++ "_" ++ q.tag ↔
      p.name.as_str.toList ++ '_' :: p.tag.toList =
        q.name.as_str.toList ++ '_' :: q.tag.toList := by
    rw [← String.toList_inj]
    simp
  rw [hlist, joined_eq_iff, overlaps_iff, overlaps_iff]
  constructor
  · rintro (⟨hname, htag⟩ | h | h)
    · exact absurd (ext_toList hname htag) hne
    · exact .inl h
    · exact .inr h
  · exact .inr

theorem built_dir_eq_iff (dirs : PeppyDirs) (hne : p ≠ q) :
    p.built_dir dirs = q.built_dir dirs ↔ Overlaps p q ∨ Overlaps q p := by
  rw [← joined_names hne]
  simp [built_dir, PeppyDirs.built_node_dir]

theorem cache_dir_eq_iff {dirs : PeppyDirs} (hne : p ≠ q) :
    p.cache_dir dirs = q.cache_dir dirs ↔ Overlaps p q ∨ Overlaps q p := by
  rw [← joined_names hne]
  simp [cache_dir, cache_subdir]

/-! ## What a build touches -/

/-- The path is in a directory of the node. -/
def Holds (dirs : PeppyDirs) (node : NodeIdentity) (path : Path) : Prop :=
  node.built_dir dirs <+: path ∨ node.cache_dir dirs <+: path

theorem resolve_slot_accepted (fs : Files) (dirs : PeppyDirs) (node : NodeIdentity)
    (fingerprint : String) (kind : ArtifactKind) :
    ∃ slot, resolve_slot fs dirs node.name.as_str node.tag fingerprint kind = .ok slot ∧
      slot.path = node.built_dir dirs ++ [fingerprint ++ "." ++ kind.extension] := by
  unfold resolve_slot
  rw [node.valid]
  exact ⟨_, rfl, rfl⟩

variable {path : Path} {dirs : PeppyDirs}

theorem produce_artifact_frame {fs : Files} {node : NodeIdentity}
    {fingerprint : String} {kind : ArtifactKind} {rebuild : Bool} {built : Option (List UInt8)}
    {stuck : Path → Bool} (hout : ¬ node.built_dir dirs <+: path) :
    produce_artifact fs dirs node fingerprint kind rebuild built stuck path = fs path := by
  obtain ⟨slot, hslot, hpath⟩ := resolve_slot_accepted fs dirs node fingerprint kind
  unfold produce_artifact
  rw [hslot]
  dsimp only
  split
  · rfl
  cases built with
  | none => rfl
  | some content =>
    have hparent : slot.path.dropLast = node.built_dir dirs := by
      rw [hpath, dropLast_concat]
    have hne : path ≠ slot.path := by
      rintro rfl
      exact hout (hpath ▸ prefix_append ..)
    simp [prune_siblings, publish, hparent, hout, Function.update_of_ne hne]

theorem step_frame {fs fs' : Files} {op : Op}
    (h : step dirs fs op = some fs') (hout : ¬ Holds dirs op.node path) : fs' path = fs path := by
  obtain ⟨hbuilt, hcache⟩ := not_or.mp hout
  cases op with
  | Build node fingerprint kind rebuild built stuck =>
    cases h
    exact produce_artifact_frame hbuilt
  | Cache node file content =>
    cases h
    refine Function.update_of_ne ?_ _ _
    rintro rfl
    exact hcache (prefix_append ..)

theorem eq_of_prefixes {a b : Path} (ha : a <+: path) (hb : b <+: path)
    (hlen : a.length = b.length) : a = b :=
  (prefix_of_prefix_length_le ha hb (Nat.le_of_eq hlen)).eq_of_length hlen

theorem built_cache_disjoint
    (hp : p.built_dir dirs <+: path) (hq : q.cache_dir dirs <+: path) : False := by
  have hbuilt : dirs.root ++ ["built_nodes"] <+: path :=
    (prefix_append ..).trans hp
  have hcache : dirs.root ++ ["cache"] <+: path := by
    refine List.IsPrefix.trans ?_ hq
    simp [cache_dir, PeppyDirs.container_build_cache_dir]
  have heq := eq_of_prefixes hbuilt hcache (by simp)
  simp at heq

theorem holds_disjoint (hne : p ≠ q)
    (hapart : ¬ (Overlaps p q ∨ Overlaps q p)) (hp : Holds dirs p path) : ¬ Holds dirs q path := by
  rcases hp with hp | hp <;> rintro (hq | hq)
  · exact hapart ((built_dir_eq_iff dirs hne).mp
      (eq_of_prefixes hp hq (by simp [built_dir, PeppyDirs.built_node_dir])))
  · exact built_cache_disjoint hp hq
  · exact built_cache_disjoint hq hp
  · exact hapart ((cache_dir_eq_iff hne).mp
      (eq_of_prefixes hp hq (by simp [cache_dir, cache_subdir])))

/-! ## Storage for each identity -/

/-- Nothing done for `p` after any operations of the two names or changes a file of `q`. -/
def Spares (dirs : PeppyDirs) (p q : NodeIdentity) : Prop :=
  ∀ (before : Files) (ops : List Op) (fs : Files), run (step dirs) before ops = some fs →
    (∀ fingerprint kind slot,
      resolve_slot fs dirs p.name.as_str p.tag fingerprint kind = .ok slot →
        ¬ Holds dirs q slot.path) ∧
    ∀ op fs', op.node = p → step dirs fs op = some fs' →
      ∀ path, Holds dirs q path → fs' path = fs path

theorem spares_of_no_overlap (hne : p ≠ q)
    (hapart : ¬ (Overlaps p q ∨ Overlaps q p)) : Spares dirs p q := by
  intro before ops fs _
  constructor
  · intro fingerprint kind slot hslot
    obtain ⟨slot', hslot', hpath⟩ := resolve_slot_accepted fs dirs p fingerprint kind
    cases hslot.symm.trans hslot'
    exact holds_disjoint hne hapart (.inl (hpath ▸ prefix_append ..))
  · rintro op fs' rfl hstep path hholds
    exact step_frame hstep fun hp => holds_disjoint hne hapart hp hholds

theorem no_overlap_of_spares (dirs : PeppyDirs) (hne : p ≠ q)
    (h : Spares dirs p q) : ¬ (Overlaps p q ∨ Overlaps q p) := by
  intro hover
  have hdir := (built_dir_eq_iff dirs hne).mpr hover
  obtain ⟨slot, hslot, hpath⟩ := resolve_slot_accepted (fun _ => none) dirs p "" .Container
  refine (h (fun _ => none) [] _ rfl).1 _ _ slot hslot (.inl ?_)
  rw [hpath, hdir]
  exact prefix_append ..

/-- Two identities that the validations accept have storage of their own
exactly when neither overlaps the other. -/
theorem each_identity_has_its_own_storage (dirs : PeppyDirs) (p q : NodeIdentity) (hne : p ≠ q) :
    (Spares dirs p q ∧ Spares dirs q p ∧ p.built_dir dirs ≠ q.built_dir dirs ∧
      p.cache_dir dirs ≠ q.cache_dir dirs) ↔ ¬ (Overlaps p q ∨ Overlaps q p) := by
  constructor
  · rintro ⟨hspares, -⟩
    exact no_overlap_of_spares dirs hne hspares
  intro hapart
  refine ⟨spares_of_no_overlap hne hapart, spares_of_no_overlap hne.symm ?_,
    fun h => hapart ((built_dir_eq_iff dirs hne).mp h),
    fun h => hapart ((cache_dir_eq_iff hne).mp h)⟩
  exact fun h => hapart h.symm

def ARM_LEFT : NodeIdentity where
  name := { as_str := "arm_left", not_empty := by decide, allowed := allowed_of_all (by decide +kernel) }
  tag := "v1"

def ARM : NodeIdentity where
  name := .arm
  tag := "left_v1"

def ARM_V1 : NodeIdentity where
  name := .arm
  tag := "v1"

theorem ARM_ne_ARM_V1 : ARM ≠ ARM_V1 := fun h =>
  absurd (congrArg tag h) (by decide)

theorem arm_tags_apart : ¬ (Overlaps ARM ARM_V1 ∨ Overlaps ARM_V1 ARM) := by
  rw [← joined_names ARM_ne_ARM_V1]
  decide +kernel

theorem the_storage_of_two_tags : ARM ≠ ARM_V1 ∧ Spares ⟨["peppy"]⟩ ARM ARM_V1 :=
  ⟨ARM_ne_ARM_V1,
    ((each_identity_has_its_own_storage ⟨["peppy"]⟩ ARM ARM_V1 ARM_ne_ARM_V1).mpr arm_tags_apart).1⟩

/-- The build of `arm_left:v1` deletes the artifact that `arm:left_v1` reuses. -/
theorem a_build_that_prunes_another_node :
    ARM ≠ ARM_LEFT ∧ ARM.built_dir ⟨["peppy"]⟩ = ARM_LEFT.built_dir ⟨["peppy"]⟩ ∧
      ∃ fs fs' : Files, run (step ⟨["peppy"]⟩) (fun _ => none)
          [.Build ARM "0011223344556677" .Container false (some [1]) fun _ => false] = some fs ∧
        fs ["peppy", "built_nodes", "arm_left_v1", "0011223344556677.sif"] = some [1] ∧
        step ⟨["peppy"]⟩ fs
          (.Build ARM_LEFT "8899aabbccddeeff" .Container false (some [2]) fun _ => false) =
            some fs' ∧
        fs' ["peppy", "built_nodes", "arm_left_v1", "0011223344556677.sif"] = none := by
  refine ⟨fun h => absurd (congrArg tag h) (by decide), by decide +kernel, _, _, rfl, ?_,
    rfl, ?_⟩
  · decide +kernel
  · decide +kernel

end peppy.build_storage
