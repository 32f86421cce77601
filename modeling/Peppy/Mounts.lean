-- The mounts of a container node, from the check against the data root to the
-- binds that the container runtime is given, on the native backend.
import Mathlib.Data.List.Infix
import Peppy.Lib.FileTree
import Peppy.Lib.Results

open filetree results List

namespace peppy.mounts

/-! ## The specs -/

def cut (sep : Char) : Text → Text × Option Text
  | [] => ([], none)
  | c :: text => if c = sep then ([], some text) else (c :: (cut sep text).1, (cut sep text).2)

def mount_spec_source (spec : Text) : Text := (cut ':' spec).1

structure ContainerBind where
  src : Text
  dest : Option Text
  opts : Option Text

def node_mount_bind (spec : Text) : ContainerBind :=
  match cut ':' spec with
  | (src, none) => { src, dest := none, opts := none }
  | (src, some rest) =>
    match cut ':' rest with
    | (dest, none) => { src, dest := some dest, opts := none }
    | (dest, some opts) => { src, dest := some dest, opts := some opts }

/-- A device that is bound to its own path: the runtime shows the `/dev` of the host. -/
def ContainerBind.is_device_passthrough (bind : ContainerBind) : Bool :=
  "/dev/".toList.isPrefixOf bind.src && bind.dest.all (· = bind.src)

def node_mount_binds (mount_paths : List Text) : List ContainerBind :=
  mount_paths.map node_mount_bind

/-! ## The check against the data root -/

structure Host where
  tree : Tree
  cwd : Path
  cwd_dirs : DirPath tree cwd
  cwd_names : ∀ name ∈ cwd, ValidName name

structure PathBuf where
  absolute : Bool
  names : Path
  deriving DecidableEq

/-- `Path::starts_with`: every path starts with the empty one. -/
def PathBuf.starts_with (path base : PathBuf) : Bool :=
  if base.absolute then path.absolute && base.names.isPrefixOf path.names
  else base.names.isEmpty || !path.absolute && base.names.isPrefixOf path.names

def normalized : List Comp → Path → Path
  | [], names => names
  | .Up :: parts, names => normalized parts names.dropLast
  | .Name name :: parts, names => normalized parts (names ++ [name])

def resolved (host : Host) (path : Text) : PathBuf :=
  match canonicalize host.tree host.cwd path with
  | .ok canonical => { absolute := true, names := canonical }
  | .error _ => { absolute := IsAbsolute path, names := normalized (comps path) [] }

def data_root_mount_rejection (host : Host) (src data_root : Text) : Option String :=
  let source := resolved host src
  let root := resolved host data_root
  let rejection (relation : String) := "the container mount source `" ++ String.ofList src ++ "` " ++
    relation ++ " the data root of peppy `" ++ String.ofList data_root ++
    "`: a container node does not see the data root, which holds the keys of the clients of " ++
    "the daemon"
  if source.starts_with root then some (rejection "is in")
  else if root.starts_with source then some (rejection "holds")
  else none

def refuse_data_root_mounts (host : Host) (specs : List Text) (data_root : Text) :
    Except String (List Text) :=
  match specs.findSome? fun spec =>
      data_root_mount_rejection host (mount_spec_source spec) data_root with
  | some rejection => .error rejection
  | none => .ok specs

/-! ## The sources are made -/

def is_host_provided_mount_source (src : Text) : Bool :=
  decide (IsAbsolute src) && match comps src with
    | .Name name :: _ => ["dev".toList, "proc".toList, "run".toList, "sys".toList].contains name
    | _ => false

def ensure_bind_source (tree : Tree) (cwd : Path) (src : Text) : Except IoError Tree :=
  match canonicalize tree cwd src with
  | .ok _ => .ok tree
  | .error _ =>
    if is_host_provided_mount_source src then .ok tree
    else create_dir_all tree (start cwd src) (comps src).reverse

def ensure_bind_sources (tree : Tree) (cwd : Path) : List ContainerBind → Except IoError Tree
  | [] => .ok tree
  | bind :: binds => do
    let tree ← ensure_bind_source tree cwd bind.src
    ensure_bind_sources tree cwd binds

/-! ## The arguments -/

structure BindPathHoldsDelimiter where
  field : String
  spec : Text
  delimiter : Char

def is_uri (arg : Text) : Bool := decide ("://".toList <:+: arg)

def to_absolute (cwd : Path) (path : Text) : Text :=
  if IsAbsolute path then path else pathText cwd ++ '/' :: path

def translate_arg (cwd : Path) (arg : Text) : Text :=
  if is_uri arg then arg else to_absolute cwd arg

def refuse_delimiter (field : String) (value : Text) : Except BindPathHoldsDelimiter Unit :=
  match value.find? fun c => c = ':' ∨ c = ',' with
  | some delimiter => .error { field, spec := value, delimiter }
  | none => .ok ()

def refuse_dest_delimiter : Option Text → Except BindPathHoldsDelimiter Unit
  | some dest => refuse_delimiter "the destination" dest
  | none => .ok ()

def bind_text (translated_src : Text) : Option Text → Option Text → Text
  | some dest, some opts => translated_src ++ ':' :: (dest ++ ':' :: opts)
  | some dest, none => translated_src ++ ':' :: dest
  -- Options ride after a destination.
  | none, some opts => translated_src ++ ':' :: (translated_src ++ ':' :: opts)
  | none, none => translated_src

/-- The value of the `--bind` of one bind. -/
def bind_arg (cwd : Path) (bind : ContainerBind) : Except BindPathHoldsDelimiter Text := do
  let translated_src := translate_arg cwd bind.src
  refuse_delimiter "the source" translated_src
  refuse_dest_delimiter bind.dest
  .ok (bind_text translated_src bind.dest bind.opts)

def build_args (cwd : Path) : List ContainerBind → Except BindPathHoldsDelimiter (List Text)
  | [] => .ok []
  | bind :: binds => do
    let value ← bind_arg cwd bind
    let values ← build_args cwd binds
    .ok (value :: values)

/-- The binds that the command is given. -/
def command_binds (specs : List Text) : List ContainerBind :=
  (node_mount_binds specs).filter fun bind => !bind.is_device_passthrough

/-! ## The container runtime -/

/-- The sources of a `--bind` value, a comma separated list of `src[:dest[:opts]]`. -/
def boundSources (value : Text) : List Text := (value.splitOn ',').map fun item => (cut ':' item).1

/-- The source is not the directory, not in it, and does not hold it. -/
def Clear (tree : Tree) (cwd root : Path) (source : Text) : Prop :=
  ∀ path, canonicalize tree cwd source = .ok path → ¬ root <+: path ∧ ¬ path <+: root

def sourcesAfterComma (text : Text) : List Text :=
  match (cut ',' text).2 with
  | none => []
  | some rest => boundSources rest

def lateSources (spec : Text) : List Text :=
  match (node_mount_bind spec).opts with
  | none => []
  | some opts => sourcesAfterComma opts

/-! ## How a value is read -/

theorem notMem_cut (sep : Char) (text : Text) : sep ∉ (cut sep text).1 := by
  induction text with
  | nil => simp [cut]
  | cons c text ih =>
    unfold cut
    split
    · simp
    · next hne => simpa [ih] using fun heq : sep = c => hne heq.symm

variable {data_root spec src text value : Text} {sep : Char} {cwd : Path} {specs : List Text}
  {tree : Tree} {host : Host}

theorem cut_append (h : sep ∉ text) (rest : Text) :
    cut sep (text ++ rest) = (text ++ (cut sep rest).1, (cut sep rest).2) := by
  induction text with
  | nil => rfl
  | cons c text ih =>
    have hne : c ≠ sep := fun heq => h (by simp [heq])
    have htext : sep ∉ text := fun hmem => h (by simp [hmem])
    simp [cut, hne, ih htext]

theorem cut_of_notMem (h : sep ∉ text) : cut sep text = (text, none) := by
  simpa [cut] using cut_append h []

theorem cut_colon (h : sep ∉ text) (rest : Text) :
    cut sep (text ++ sep :: rest) = (text, some rest) := by
  simpa [cut] using cut_append h (sep :: rest)

theorem cut_cases (sep : Char) (text : Text) : ((cut sep text).2 = none ∧ text = (cut sep text).1) ∨
      ∃ rest, (cut sep text).2 = some rest ∧ text = (cut sep text).1 ++ sep :: rest := by
  induction text with
  | nil => exact .inl ⟨rfl, rfl⟩
  | cons c text ih =>
    unfold cut
    split
    · next heq => exact .inr ⟨text, rfl, by simp [heq]⟩
    · rcases ih with ⟨hnone, htext⟩ | ⟨rest, hsome, htext⟩
      · exact .inl ⟨hnone, by simp [← htext]⟩
      · exact .inr ⟨rest, hsome, by simp [← htext]⟩

theorem boundSources_colon (hcolon : ':' ∉ src) (hcomma : ',' ∉ src) (tail : Text) :
    boundSources (src ++ ':' :: tail) = src :: sourcesAfterComma tail := by
  unfold boundSources sourcesAfterComma
  have hfirst : ',' ∉ (cut ',' tail).1 := notMem_cut ',' tail
  rcases cut_cases ',' tail with ⟨hnone, htail⟩ | ⟨rest, hsome, htail⟩
  · have hvalue : ',' ∉ src ++ ':' :: tail := by
      rw [htail]
      simp [hcomma, hfirst]
    rw [hnone, splitOn_eq_singleton hvalue]
    simp [cut_colon hcolon]
  · have hvalue : ',' ∉ src ++ ':' :: (cut ',' tail).1 := by simp [hcomma, hfirst]
    have htext : src ++ ':' :: tail = (src ++ ':' :: (cut ',' tail).1) ++ ',' :: rest := by
      rw [htail]
      simp [cut_colon hfirst]
    rw [hsome, htext, splitOn_append_cons_self, splitOn_eq_singleton hvalue]
    simp [cut_colon hcolon, boundSources]

theorem sourcesAfterComma_colon {dest : Text} (hcomma : ',' ∉ dest) (opts : Text) :
    sourcesAfterComma (dest ++ ':' :: opts) = sourcesAfterComma opts := by
  simp [sourcesAfterComma, cut_append hcomma, cut]

theorem sourcesAfterComma_of_notMem {dest : Text} (hcomma : ',' ∉ dest) :
    sourcesAfterComma dest = [] := by
  simp [sourcesAfterComma, cut_of_notMem hcomma]

theorem boundSources_alone (hcolon : ':' ∉ src) (hcomma : ',' ∉ src) :
    boundSources src = [src] := by
  simp [boundSources, splitOn_eq_singleton hcomma, cut_of_notMem hcolon]

theorem notMem_of_refuse_delimiter {field : String}
    (h : refuse_delimiter field value = .ok ()) : ':' ∉ value ∧ ',' ∉ value := by
  unfold refuse_delimiter at h
  split at h
  · cases h
  · next hnone =>
    have hall := find?_eq_none.mp hnone
    exact ⟨fun hmem => hall _ hmem (by simp), fun hmem => hall _ hmem (by simp)⟩

theorem node_mount_bind_src (spec : Text) : (node_mount_bind spec).src = mount_spec_source spec := by
  unfold node_mount_bind mount_spec_source
  split
  · next heq => simp [heq]
  · next heq =>
    split <;> simp [heq]

theorem translate_arg_source (cwd : Path) (spec : Text) :
    translate_arg cwd (mount_spec_source spec) = to_absolute cwd (mount_spec_source spec) := by
  have hnot : ¬ is_uri (mount_spec_source spec) := by
    simp only [is_uri, decide_eq_true_eq]
    intro hcolon
    exact notMem_cut ':' spec (hcolon.subset (by decide))
  simp [translate_arg, hnot]

/-- The sources of a spec: its own, and those after a comma of its options. -/
theorem boundSources_bind_arg (h : bind_arg cwd (node_mount_bind spec) = .ok value) :
    boundSources value = to_absolute cwd (mount_spec_source spec) :: lateSources spec := by
  obtain ⟨_, hsource, h⟩ := bind_ok.mp h
  obtain ⟨_, hdest, h⟩ := bind_ok.mp h
  rw [node_mount_bind_src, translate_arg_source] at hsource h
  obtain ⟨hcolon, hcomma⟩ := notMem_of_refuse_delimiter hsource
  cases h
  unfold lateSources
  cases hd : (node_mount_bind spec).dest with
  | none =>
    cases (node_mount_bind spec).opts with
    | none => exact boundSources_alone hcolon hcomma
    | some opts =>
      rw [bind_text, boundSources_colon hcolon hcomma, sourcesAfterComma_colon hcomma]
  | some dest =>
    rw [hd] at hdest
    have hdest := (notMem_of_refuse_delimiter hdest).2
    cases (node_mount_bind spec).opts with
    | none => rw [bind_text, boundSources_colon hcolon hcomma, sourcesAfterComma_of_notMem hdest]
    | some opts => rw [bind_text, boundSources_colon hcolon hcomma, sourcesAfterComma_colon hdest]

theorem mem_build_args {binds : List ContainerBind} {values : List Text}
    (h : build_args cwd binds = .ok values) :
    (∀ value, value ∈ values ↔ ∃ bind ∈ binds, bind_arg cwd bind = .ok value) ∧
      ∀ bind ∈ binds, ∃ value, bind_arg cwd bind = .ok value := by
  induction binds generalizing values with
  | nil =>
    cases h
    simp
  | cons bind binds ih =>
    obtain ⟨first, hfirst, h⟩ := bind_ok.mp h
    obtain ⟨rest, hrest, h⟩ := bind_ok.mp h
    cases h
    obtain ⟨hmem, hbound⟩ := ih hrest
    exact ⟨by simp [hmem, hfirst, eq_comm], forall_mem_cons.mpr ⟨⟨first, hfirst⟩, hbound⟩⟩

theorem mem_command_binds {bind : ContainerBind} : bind ∈ command_binds specs ↔
    ∃ spec ∈ specs, (node_mount_bind spec).is_device_passthrough = false ∧
      node_mount_bind spec = bind := by
  simp only [command_binds, node_mount_binds, mem_filter, mem_map, Bool.not_eq_true']
  grind

/-! ## What the check keeps away -/

/-- The directories made for a source are those missing on its way. -/
def madeWay (tree : Tree) (cwd : Path) (src : Text) : List Path :=
  if is_host_provided_mount_source src then [] else way (filled tree) cwd src

theorem ensure_bind_source_ok {tree' : Tree} (h : ensure_bind_source tree cwd src = .ok tree') :
    Extends tree tree' ∧ Extends tree' (filled tree) ∧
      ∀ dir, tree' dir ≠ none ↔ tree dir ≠ none ∨ dir ∈ madeWay tree cwd src := by
  unfold ensure_bind_source at h
  unfold madeWay
  split at h
  · next path hpath =>
    cases h
    have hway := ((canonicalize_iff (extends_filled tree)).mp hpath).2
    refine ⟨Extends.refl tree, extends_filled tree, fun dir => (or_iff_left_of_imp ?_).symm⟩
    split_ifs
    · simp
    · exact hway dir
  · split_ifs at h ⊢
    · cases h
      exact ⟨Extends.refl tree, extends_filled tree, by simp⟩
    · have hmade := made_create_dir_all h
      rw [reverse_reverse] at hmade
      exact ⟨hmade.keeps, hmade.fills, hmade.iff⟩

theorem ensure_bind_sources_ok {tree' : Tree} {binds : List ContainerBind}
    (h : ensure_bind_sources tree cwd binds = .ok tree') :
    Extends tree tree' ∧ Extends tree' (filled tree) ∧ ∀ dir, tree' dir ≠ none ↔
      tree dir ≠ none ∨ ∃ bind ∈ binds, dir ∈ madeWay tree cwd bind.src := by
  induction binds generalizing tree with
  | nil =>
    cases h
    exact ⟨Extends.refl _, extends_filled _, by simp⟩
  | cons bind binds ih =>
    obtain ⟨next, hnext, h⟩ := bind_ok.mp h
    obtain ⟨hkeeps, hfills, hmade⟩ := ensure_bind_source_ok hnext
    obtain ⟨hkeeps', hfills', hmade'⟩ := ih h
    have hfilled := filled_eq hkeeps hfills
    refine ⟨hkeeps.trans hkeeps', hfilled ▸ hfills', fun dir => ?_⟩
    rw [hmade' dir, hmade dir]
    simp [madeWay, hfilled, or_assoc]

/-- Where the source leads once what misses on its way is made is clear of the root, or
a directory on its way is missing and made for no spec. -/
def Spared (host : Host) (specs : List Text) (root cwd : Path) (source : Text) : Prop :=
  Clear (filled host.tree) cwd root source ∨
    ∃ dir ∈ way (filled host.tree) cwd source, host.tree dir = none ∧
      ∀ spec ∈ specs, dir ∉ madeWay host.tree host.cwd (mount_spec_source spec)

theorem clear_iff_spared {root workdir : Path} {tree' : Tree}
    (h : ensure_bind_sources host.tree host.cwd (node_mount_binds specs) = .ok tree') :
    Clear tree' workdir root src ↔ Spared host specs root workdir src := by
  obtain ⟨-, hfills, hmade⟩ := ensure_bind_sources_ok h
  have hmissing : ∀ dir, tree' dir = none ↔ host.tree dir = none ∧
      ∀ spec ∈ specs, dir ∉ madeWay host.tree host.cwd (mount_spec_source spec) := by
    intro dir
    have hdir := not_congr (hmade dir)
    simpa [node_mount_binds, node_mount_bind_src] using hdir
  simp only [Clear, Spared, canonicalize_iff hfills, ← hmissing]
  by_cases hway : ∀ dir ∈ way (filled host.tree) workdir src, tree' dir ≠ none
  · have hnone : ¬ ∃ dir ∈ way (filled host.tree) workdir src, tree' dir = none :=
      fun ⟨dir, hdir, hnone⟩ => hway dir hdir hnone
    simp [hnone, and_iff_left hway]
  · have hnone : ∃ dir ∈ way (filled host.tree) workdir src, tree' dir = none := by
      simpa using hway
    simp only [hnone, or_true, iff_true]
    exact fun path hpath => absurd hpath.2 hway

theorem rejection_of_accepted {accepted : List Text}
    (h : refuse_data_root_mounts host specs data_root = .ok accepted) (hspec : spec ∈ specs) :
    data_root_mount_rejection host (mount_spec_source spec) data_root = none := by
  unfold refuse_data_root_mounts at h
  split at h
  · cases h
  · next hnone => exact findSome?_eq_none_iff.mp hnone spec hspec

theorem rejection_eq_none : data_root_mount_rejection host src data_root = none ↔
      ¬ (resolved host src).starts_with (resolved host data_root) ∧
        ¬ (resolved host data_root).starts_with (resolved host src) := by
  unfold data_root_mount_rejection
  dsimp only
  split
  · next hin => simp [hin]
  · next hin =>
    split
    · next hholds => simp [hholds]
    · next hholds => simp [hin, hholds]

theorem clear_of_accepted {root path : Path}
    (hroot : canonicalize host.tree host.cwd data_root = .ok root)
    (hpath : canonicalize host.tree host.cwd src = .ok path)
    (h : data_root_mount_rejection host src data_root = none) :
    ¬ root <+: path ∧ ¬ path <+: root := by
  obtain ⟨hin, hholds⟩ := rejection_eq_none.mp h
  simp only [resolved, hroot, hpath, PathBuf.starts_with, if_true, Bool.true_and,
    isPrefixOf_iff_prefix] at hin hholds
  exact ⟨hin, hholds⟩

/-- The empty source is refused: every path starts with the empty one. -/
theorem ne_nil_of_accepted
    (h : data_root_mount_rejection host src data_root = none) : src ≠ [] := by
  rintro rfl
  have hempty : resolved host [] = { absolute := false, names := [] } := rfl
  have hholds := (rejection_eq_none.mp h).2
  simp [hempty, PathBuf.starts_with] at hholds

/-- The runtime finds the same entry under the absolute path of a source. -/
theorem canonicalize_to_absolute {workdir : Path} (hcwd : DirPath tree cwd)
    (hnames : ∀ name ∈ cwd, ValidName name) (hne : src ≠ []) :
    canonicalize tree workdir (to_absolute cwd src) = canonicalize tree cwd src := by
  by_cases habs : IsAbsolute src
  · simp [to_absolute, canonicalize, start, habs]
  have habs' : IsAbsolute (pathText cwd ++ '/' :: src) := by
    cases cwd <;> simp [IsAbsolute, pathText]
  have hwalk : ∀ links, resolve tree links [] (cwd.map .Name ++ comps src) =
      resolve tree links cwd (comps src) := by
    intro links
    have hdirs : DirPath tree ([] ++ cwd) := by simpa using hcwd
    cases links <;> exact walk_names hdirs _
  simp [to_absolute, canonicalize, start, habs, habs', hne, comps_slash, comps_pathText hnames,
    hwalk]

/-- The own source of an accepted spec, under the path that the runtime is given. -/
theorem clear_to_absolute {tree' : Tree} {root workdir : Path}
    (hroot : canonicalize host.tree host.cwd data_root = .ok root) (hext : Extends host.tree tree')
    (hnone : data_root_mount_rejection host src data_root = none) :
    Clear tree' workdir root (to_absolute host.cwd src) ↔
      (∃ path, canonicalize host.tree host.cwd src = .ok path) ∨ Clear tree' host.cwd root src := by
  unfold Clear
  rw [canonicalize_to_absolute (host.cwd_dirs.mono hext) host.cwd_names (ne_nil_of_accepted hnone)]
  constructor
  · exact .inr
  rintro (⟨path, hpath⟩ | hclear)
  · intro found hfound
    cases ((canonicalize_iff hext).mp hpath).1.symm.trans hfound
    exact clear_of_accepted hroot hpath hnone
  · exact hclear

/-- The accepted specs bind nothing of the data root exactly when, of those that are not
device passthroughs, the sources that do not exist at the check, and those after a comma,
are spared. -/
theorem the_mounts_that_spare_the_data_root (host : Host) (workdir : Path) (data_root : Text)
    (root : Path) (specs values : List Text) (tree' : Tree)
    (hroot : canonicalize host.tree host.cwd data_root = .ok root)
    (haccepted : refuse_data_root_mounts host specs data_root = .ok specs)
    (hensured : ensure_bind_sources host.tree host.cwd (node_mount_binds specs) = .ok tree')
    (hbuilt : build_args host.cwd (command_binds specs) = .ok values) :
    (∀ value ∈ values, ∀ source ∈ boundSources value, Clear tree' workdir root source) ↔
      ∀ spec ∈ specs, (node_mount_bind spec).is_device_passthrough = false →
        ((∃ path, canonicalize host.tree host.cwd (mount_spec_source spec) = .ok path) ∨
          Spared host specs root host.cwd (mount_spec_source spec)) ∧
        ∀ source ∈ lateSources spec, Spared host specs root workdir source := by
  have hext := (ensure_bind_sources_ok hensured).1
  have hnone := fun spec (hspec : spec ∈ specs) => rejection_of_accepted haccepted hspec
  simp only [← clear_iff_spared hensured]
  constructor
  · intro h spec hspec hbound
    have hbind := mem_command_binds.mpr ⟨spec, hspec, hbound, rfl⟩
    obtain ⟨value, hvalue⟩ := (mem_build_args hbuilt).2 _ hbind
    have hsources := h value (((mem_build_args hbuilt).1 _).mpr ⟨_, hbind, hvalue⟩)
    rw [boundSources_bind_arg hvalue] at hsources
    exact ⟨(clear_to_absolute hroot hext (hnone spec hspec)).mp (hsources _ (by simp)),
      fun source hsource => hsources source (by simp [hsource])⟩
  · intro h value hvalue source hsource
    obtain ⟨bind, hbind, hvalue⟩ := ((mem_build_args hbuilt).1 _).mp hvalue
    obtain ⟨spec, hspec, hbound, rfl⟩ := mem_command_binds.mp hbind
    obtain ⟨hsource', hlate⟩ := h spec hspec hbound
    rw [boundSources_bind_arg hvalue] at hsource
    rcases mem_cons.mp hsource with rfl | hmem
    · exact (clear_to_absolute hroot hext (hnone spec hspec)).mpr hsource'
    · exact hlate source hmem

/-- `/data` is a link to the data root `/home/user/.peppy`. The daemon runs in `/`. -/
def machine : Host where
  tree := fun path => [([], Entry.Dir), (["home".toList], .Dir),
    (["home".toList, "user".toList], .Dir), (["home".toList, "user".toList, ".peppy".toList], .Dir),
    (["srv".toList], .Dir), (["data".toList], .Link "/home/user/.peppy".toList)].lookup path
  cwd := []
  cwd_dirs := by
    intro dir hdir
    rw [prefix_nil.mp hdir]
    rfl
  cwd_names := by simp

def DATA_ROOT : Text := "/home/user/.peppy".toList

def dataRootPath : Path := ["home".toList, "user".toList, ".peppy".toList]

/-- Two mounts of one directory, and a camera whose options name the data root. -/
def SRV : List Text :=
  ["/srv".toList, "/srv:/in:ro".toList, "/dev/video0:/dev/video0:rw,/home/user/.peppy".toList]

theorem the_mounts_of_a_directory :
    canonicalize machine.tree machine.cwd DATA_ROOT = .ok dataRootPath ∧
      refuse_data_root_mounts machine SRV DATA_ROOT = .ok SRV ∧
      ∃ values tree',
        ensure_bind_sources machine.tree machine.cwd (node_mount_binds SRV) = .ok tree' ∧
        build_args machine.cwd (command_binds SRV) = .ok values ∧
        ∀ value ∈ values, ∀ source ∈ boundSources value, Clear tree' [] dataRootPath source := by
  have hroot : canonicalize machine.tree machine.cwd DATA_ROOT = .ok dataRootPath := by
    decide +kernel
  have haccepted : refuse_data_root_mounts machine SRV DATA_ROOT = .ok SRV := by decide +kernel
  have hensured : (ensure_bind_sources machine.tree machine.cwd
    (node_mount_binds SRV)).toOption.isSome = true := by decide +kernel
  have hbuilt : (build_args machine.cwd (command_binds SRV)).toOption.isSome = true := by
    decide +kernel
  obtain ⟨tree', hensured⟩ := exists_ok hensured
  obtain ⟨values, hbuilt⟩ := exists_ok hbuilt
  refine ⟨hroot, haccepted, values, tree', hensured, hbuilt, ?_⟩
  refine (the_mounts_that_spare_the_data_root machine [] DATA_ROOT dataRootPath SRV values tree'
    hroot haccepted hensured hbuilt).mpr ?_
  intro spec hspec hbound
  have hsource : (node_mount_bind spec).is_device_passthrough = false →
      mount_spec_source spec = "/srv".toList ∧ lateSources spec = [] := by
    clear hbound
    revert spec
    decide +kernel
  rw [(hsource hbound).1, (hsource hbound).2]
  exact ⟨.inl ⟨["srv".toList], by decide +kernel⟩, by simp⟩

/-- What the sources of an accepted spec name, once its source is made. -/
def boundEntries (host : Host) (data_root spec : Text) : Option (List (Except IoError Path)) := do
  let specs ← (refuse_data_root_mounts host [spec] data_root).toOption
  let tree' ← (ensure_bind_sources host.tree host.cwd (node_mount_binds specs)).toOption
  let values ← (build_args host.cwd (command_binds specs)).toOption
  return (values.flatMap boundSources).map (canonicalize tree' host.cwd)

/-- The data root after a comma of the options, and a directory that does not
exist yet under a link to the data root, are both bound. -/
theorem mounts_that_show_the_data_root :
    boundEntries machine DATA_ROOT "/srv:/in:ro,/home/user/.peppy".toList =
        some [.ok ["srv".toList], .ok dataRootPath] ∧
      boundEntries machine DATA_ROOT "/data/out".toList =
        some [.ok (dataRootPath ++ ["out".toList])] := by
  decide +kernel

end peppy.mounts
