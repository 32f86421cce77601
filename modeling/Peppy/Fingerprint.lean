-- What identifies the inputs of a build: the bytes that its staged tree feeds to the digest,
-- and the key of the digest with the peppy, the platform and the kind of the artifact.
import Peppy.Lib.Bytes
import Peppy.Lib.StableSort
import Mathlib.Data.List.Lex

open bytes stable_sort List

namespace peppy.build_artifact_cache

/-! ## The code -/

mutual

inductive Node where
  | File (executable : Bool) (content : Bytes)
  | Link (target : Bytes)
  | Dir (entries : Entries)

inductive Entries where
  | nil
  | cons (name : Bytes) (node : Node) (rest : Entries)

end

inductive Kind where
  | File (executable : Bool) (content : Bytes)
  | Link (target : Bytes)
  | Dir

def to_le_bytes (n : Nat) : Bytes := (toBe 8 n).reverse

def len_prefixed (b : Bytes) : Bytes := to_le_bytes b.length ++ b

def Kind.tag : Kind → UInt8
  | .Link _ => 108
  | .Dir => 100
  | .File .. => 102

/-- What follows the path. A file not of its metadata's length is an error. -/
def Kind.rest : Kind → Bytes
  | .Link target => len_prefixed target
  | .Dir => []
  | .File executable content => (if executable then 1 else 0) :: len_prefixed content

def feed (path : List Bytes) (kind : Kind) : Bytes :=
  kind.tag :: (len_prefixed ([47].intercalate path) ++ kind.rest)

abbrev Visit := List Bytes × Kind

/-- What stands below a directory, in the byte order of its names. -/
def in_order (entries : List (Bytes × List Visit)) : List Visit :=
  (sortByKey (fun e => e.1.map UInt8.toNat) entries).flatMap Prod.snd

mutual

/-- The entry and what is below it, as `hash_dir` comes to them. -/
def Node.walk (path : List Bytes) : Node → List Visit
  | .File executable content => [(path, .File executable content)]
  | .Link target => [(path, .Link target)]
  | .Dir entries => (path, .Dir) :: in_order (entries.walks path)

def Entries.walks (path : List Bytes) : Entries → List (Bytes × List Visit)
  | .nil => []
  | .cons name node rest => (name, node.walk (path ++ [name])) :: rest.walks path

end

def hash_dir (tree : Entries) : Bytes :=
  (in_order (tree.walks [])).flatMap fun visit => feed visit.1 visit.2

inductive ArtifactKind where
  | Container
  | Process
  deriving DecidableEq

def ArtifactKind.label : ArtifactKind → String
  | .Container => "container"
  | .Process => "process"

abbrev Digest := { b : Bytes // b.length = 32 }

/-- The bytes whose digest is the fingerprint. -/
def key_stream (tree_digest : Digest) (kind : ArtifactKind) (peppy_version os arch : String) :
    Bytes :=
  tree_digest.1 ++ [peppy_version, os, arch, kind.label].flatMap fun part => 0 :: utf8 part

/-! ## Trees -/

def Node.kind : Node → Kind
  | .File executable content => .File executable content
  | .Link target => .Link target
  | .Dir _ => .Dir

def Entries.find (name : Bytes) : Entries → Option Node
  | .nil => none
  | .cons other node rest => if other = name then some node else rest.find name

def Node.find (name : Bytes) : Node → Option Node
  | .Dir entries => entries.find name
  | _ => none

def Node.at : List Bytes → Node → Option Kind
  | [], node => some node.kind
  | name :: path, node => (node.find name).bind (Node.at path)

/-- Two listings are of one tree: the same entries are at the same paths. -/
def SameTree (tree tree' : Entries) : Prop :=
  ∀ path, (Node.Dir tree).at path = (Node.Dir tree').at path

/-- The length fits its field. -/
def Kind.Fits : Kind → Prop
  | .File _ content => content.length < 2 ^ 64
  | .Link target => target.length < 2 ^ 64
  | .Dir => True

mutual

/-- Distinct names without a slash, and lengths of `u64`. -/
def Node.WF (path : List Bytes) : Node → Prop
  | .File executable content => (Kind.File executable content).Fits
  | .Link target => (Kind.Link target).Fits
  | .Dir entries => entries.WF path

/-- Names have no slash, and no two entries one name. -/
def Entries.WF (path : List Bytes) : Entries → Prop
  | .nil => True
  | .cons name node rest => 47 ∉ name ∧ ([47].intercalate (path ++ [name])).length < 2 ^ 64 ∧
      rest.find name = none ∧ node.WF (path ++ [name]) ∧ rest.WF path

end

/-! ## The entries of a walk -/

variable {path : List Bytes} {name : Bytes} {node : Node} {visit : Visit}

theorem mem_in_order {l : List (Bytes × List Visit)} :
    visit ∈ in_order l ↔ ∃ e ∈ l, visit ∈ e.2 := by
  simp [in_order, mem_sortByKey]

theorem mem_walks : {entries : Entries} → entries.find name = some node →
    (name, node.walk (path ++ [name])) ∈ entries.walks path
  | .cons other child rest, h => by
    rw [Entries.find] at h
    split_ifs at h with hname
    · cases h
      rw [hname]
      exact mem_cons_self
    · exact mem_cons_of_mem _ (mem_walks h)

theorem mem_walk {rest : List Bytes} {kind : Kind} (h : node.at rest = some kind) :
    (path ++ rest, kind) ∈ node.walk path := by
  induction rest generalizing node path with
  | nil =>
    cases h
    cases node <;> simp [Node.walk, Node.kind]
  | cons name rest ih =>
    obtain ⟨child, hchild, hat⟩ := Option.bind_eq_some_iff.mp h
    match node with
    | .Dir entries =>
      rw [Node.walk]
      refine mem_cons_of_mem _ (mem_in_order.mpr ⟨_, mem_walks hchild, ?_⟩)
      rw [append_cons path name rest]
      exact ih hat

/-- The path is one of names, and its lengths are of `u64`. -/
structure Valid (visit : Visit) : Prop where
  ne_nil : visit.1 ≠ []
  names : ∀ name ∈ visit.1, 47 ∉ name
  fits : ([47].intercalate visit.1).length < 2 ^ 64
  kind : visit.2.Fits

mutual

theorem Node.of_mem_walk {path : List Bytes}
    (hpath : ∀ kind : Kind, kind.Fits → Valid (path, kind)) :
    (node : Node) → node.WF path → visit ∈ node.walk path →
      Valid visit ∧ ∃ rest, visit.1 = path ++ rest ∧ node.at rest = some visit.2
  | .File .., hwf, h | .Link _, hwf, h => by
    cases mem_singleton.mp h
    exact ⟨hpath _ hwf, [], by simp, rfl⟩
  | .Dir entries, hwf, h => by
    rcases mem_cons.mp h with rfl | h
    · exact ⟨hpath _ trivial, [], by simp, rfl⟩
    · obtain ⟨hvalid, name, rest, hrest, hat⟩ := Entries.of_mem_walks
        (hpath .Dir trivial).names entries hwf h
      exact ⟨hvalid, name :: rest, hrest, hat⟩

theorem Entries.of_mem_walks {path : List Bytes} (hpath : ∀ name ∈ path, 47 ∉ name) :
    (entries : Entries) → entries.WF path → visit ∈ in_order (entries.walks path) →
      Valid visit ∧ ∃ name rest, visit.1 = path ++ name :: rest ∧
        (entries.find name).bind (Node.at rest) = some visit.2
  | .nil, _, h => by cases h
  | .cons name node rest, hwf, h => by
    obtain ⟨hname, hfits, hfresh, hnode, hrest⟩ := hwf
    obtain ⟨e, he, h⟩ := mem_in_order.mp h
    rcases mem_cons.mp he with rfl | he
    · obtain ⟨hvalid, below, hbelow, hat⟩ := Node.of_mem_walk
        (fun kind hkind => ⟨by simp, by simpa [or_imp, forall_and] using ⟨hpath, hname⟩, hfits, hkind⟩)
        node hnode h
      exact ⟨hvalid, name, below, by simpa using hbelow, by simpa [Entries.find] using hat⟩
    · obtain ⟨hvalid, other, below, hbelow, hat⟩ :=
        Entries.of_mem_walks hpath rest hrest (mem_in_order.mpr ⟨e, he, h⟩)
      refine ⟨hvalid, other, below, hbelow, ?_⟩
      rw [Entries.find, if_neg, hat]
      rintro rfl
      rw [hfresh] at hat
      cases hat

end

/-! ## Unique reading -/

theorem len_prefixed_inj {a b r s : Bytes} (ha : a.length < 2 ^ 64) (hb : b.length < 2 ^ 64)
    (h : len_prefixed a ++ r = len_prefixed b ++ s) : a = b ∧ r = s := by
  simp only [len_prefixed, append_assoc] at h
  obtain ⟨hlen, h⟩ := append_inj h (by simp [to_le_bytes])
  exact append_inj h (toBe_inj ha hb (reverse_injective hlen))

theorem feed_inj {r r' : Visit} {s s' : Bytes} (hr : Valid r) (hr' : Valid r')
    (h : feed r.1 r.2 ++ s = feed r'.1 r'.2 ++ s') : r = r' ∧ s = s' := by
  simp only [feed, cons_append, append_assoc, cons.injEq] at h
  obtain ⟨hrel, hrest⟩ := len_prefixed_inj hr.fits hr'.fits h.2
  have hpath : r.1 = r'.1 := by
    rw [← splitOn_intercalate 47 hr.names hr.ne_nil, hrel,
      splitOn_intercalate 47 hr'.names hr'.ne_nil]
  obtain ⟨path, kind⟩ := r
  obtain ⟨path', kind'⟩ := r'
  cases hpath
  have htag : kind.tag = kind'.tag := h.1
  cases kind <;> cases kind' <;> simp [Kind.tag] at htag
  case File.File executable content executable' content' =>
    obtain ⟨hbit, hrest⟩ := cons.inj hrest
    obtain ⟨rfl, rfl⟩ := len_prefixed_inj hr.kind hr'.kind hrest
    revert hbit
    cases executable <;> cases executable' <;> simp
  case Link.Link target target' =>
    obtain ⟨rfl, rfl⟩ := len_prefixed_inj hr.kind hr'.kind hrest
    exact ⟨rfl, rfl⟩
  case Dir.Dir => exact ⟨rfl, hrest⟩

theorem feeds_inj {l l' : List Visit} (hl : ∀ r ∈ l, Valid r) (hl' : ∀ r ∈ l', Valid r)
    (h : l.flatMap (fun r => feed r.1 r.2) = l'.flatMap fun r => feed r.1 r.2) : l = l' := by
  induction l generalizing l' with
  | nil =>
    cases l' with
    | nil => rfl
    | cons r' l' => simp [feed] at h
  | cons r l ih =>
    cases l' with
    | nil => simp [feed] at h
    | cons r' l' =>
      rw [flatMap_cons, flatMap_cons] at h
      obtain ⟨rfl, hrest⟩ := feed_inj (hl r mem_cons_self) (hl' r' mem_cons_self) h
      rw [ih (forall_mem_cons.mp hl).2 (forall_mem_cons.mp hl').2 hrest]

/-! ## The order of a listing -/

theorem Entries.find_wf : (entries : Entries) →
    entries.WF path → ∀ node ∈ entries.find name, node.WF (path ++ [name])
  | .nil, _, _, h => by cases h
  | .cons other child rest, ⟨_, _, _, hchild, hrest⟩, node, h => by
    rw [Entries.find] at h
    split_ifs at h with hname
    · cases h
      exact hname ▸ hchild
    · exact Entries.find_wf rest hrest node h

theorem filter_walks {p : Bytes × List Visit → Bool}
    (hp : ∀ e, p e = true ↔ e.1 = name) : (entries : Entries) → entries.WF path →
    (entries.walks path).filter p =
      (((entries.find name).map (Node.walk (path ++ [name]))).map (Prod.mk name)).toList
  | .nil, _ => rfl
  | .cons other node rest, ⟨_, _, hfresh, _, hrest⟩ => by
    rw [Entries.walks, filter_cons, filter_walks hp rest hrest, Entries.find]
    simp only [hp]
    split_ifs with h
    · subst h
      simp [hfresh]
    · rfl

theorem in_order_walks {entries entries' : Entries} (h : entries.WF path)
    (h' : entries'.WF path) (hfind : ∀ name, (entries.find name).map (Node.walk (path ++ [name])) =
        (entries'.find name).map (Node.walk (path ++ [name]))) :
    in_order (entries.walks path) = in_order (entries'.walks path) := by
  have hinj := map_injective_iff.mpr fun (_ _ : UInt8) => UInt8.toNat_inj.mp
  unfold in_order
  rw [sortByKey_congr fun key => ?_]
  by_cases hkey : ∃ name : Bytes, name.map UInt8.toNat = key
  · obtain ⟨name, rfl⟩ := hkey
    rw [filter_walks (fun e => by simpa using hinj.eq_iff) entries h,
      filter_walks (fun e => by simpa using hinj.eq_iff) entries' h', hfind]
  · have hnone (e : Bytes × List Visit) : e.1.map UInt8.toNat ≠ key := fun h => hkey ⟨e.1, h⟩
    simp [hnone]

mutual

theorem Node.walk_congr {path : List Bytes} : (node : Node) → {node' : Node} → node.WF path →
    node'.WF path → (∀ rest, node.at rest = node'.at rest) → node.walk path = node'.walk path
  | .File .., node', _, _, h => by
    cases node' <;> cases h []
    rfl
  | .Link .., node', _, _, h => by
    cases node' <;> cases h []
    rfl
  | .Dir entries, node', hwf, hwf', h => by
    cases node' <;> cases h []
    rename_i entries'
    rw [Node.walk, Node.walk, in_order_walks hwf hwf' fun name => ?_]
    exact Entries.walk_congr entries hwf (Entries.find_wf entries' hwf') fun rest => h (name :: rest)

theorem Entries.walk_congr {path : List Bytes} {name : Bytes} : (entries : Entries) →
    entries.WF path → {found : Option Node} → (∀ node ∈ found, node.WF (path ++ [name])) →
    (∀ rest, (entries.find name).bind (Node.at rest) = found.bind (Node.at rest)) →
    (entries.find name).map (Node.walk (path ++ [name])) = found.map (Node.walk (path ++ [name]))
  | .nil, _, found, _, h => by
    cases found with
    | none => rfl
    | some node => cases h []
  | .cons other node rest, ⟨_, _, _, hnode, hrest⟩, found, hfound, h => by
    rw [Entries.find] at h ⊢
    split_ifs at h ⊢ with hname
    · cases found with
      | none => cases h []
      | some node' =>
        subst hname
        exact congrArg some (Node.walk_congr node hnode (hfound node' rfl) h)
    · exact Entries.walk_congr rest hrest hfound h

end

theorem at_iff {tree : Entries} (hwf : tree.WF []) (hne : path ≠ []) (kind : Kind) :
    (Node.Dir tree).at path = some kind ↔ (path, kind) ∈ in_order (tree.walks []) := by
  refine ⟨fun h => ?_, fun h => ?_⟩
  · have hmem : ([] ++ path, kind) ∈ (Node.Dir tree).walk [] := mem_walk h
    simpa [Node.walk, hne] using hmem
  · obtain ⟨-, name, rest, hpath, hat⟩ := Entries.of_mem_walks (by simp) tree hwf h
    cases hpath
    exact hat

/-- Two trees feed the same bytes just when they are one tree, however it is listed, and
keys of parts without a NUL byte are the same just when their parts are. -/
theorem the_inputs_of_a_build_are_told_apart : (∀ tree tree' : Entries, tree.WF [] → tree'.WF [] →
      (hash_dir tree = hash_dir tree' ↔ SameTree tree tree')) ∧
    ∀ digest digest' kind kind' version version' os os' arch arch',
      (∀ part ∈ [version, os, arch, version', os', arch'], 0 ∉ utf8 part) →
      (key_stream digest kind version os arch = key_stream digest' kind' version' os' arch' ↔
        digest = digest' ∧ kind = kind' ∧ version = version' ∧ os = os' ∧ arch = arch') := by
  refine ⟨fun tree tree' hwf hwf' => ⟨fun h => ?_, fun h => ?_⟩, ?_⟩
  · have hvisits := feeds_inj (fun r hr => (Entries.of_mem_walks (by simp) tree hwf hr).1)
      (fun r hr => (Entries.of_mem_walks (by simp) tree' hwf' hr).1) h
    intro path
    by_cases hne : path = []
    · rw [hne]
      rfl
    · exact Option.ext fun kind => by rw [at_iff hwf hne, at_iff hwf' hne, hvisits]
  · rw [hash_dir, hash_dir, in_order_walks hwf hwf' fun name => Entries.walk_congr tree hwf
      (Entries.find_wf tree' hwf') fun rest => h (name :: rest)]
  intro digest digest' kind kind' version version' os os' arch arch' hparts
  refine ⟨fun h => ?_, by rintro ⟨rfl, rfl, rfl, rfl, rfl⟩; rfl⟩
  obtain ⟨hdigest, h⟩ := append_inj h (digest.2.trans digest'.2.symm)
  have hlabel (kind : ArtifactKind) : 0 ∉ utf8 kind.label := by cases kind <;> decide
  have hkeys : [0].intercalate (map utf8 [version, os, arch, kind.label]) =
      [0].intercalate (map utf8 [version', os', arch', kind'.label]) := by
    simpa [intercalate] using h
  have hsplit := congrArg (splitOn 0) hkeys
  simp only [forall_mem_cons] at hparts
  rw [splitOn_intercalate 0 (by simp [hparts, hlabel]) (by simp),
    splitOn_intercalate 0 (by simp [hparts, hlabel]) (by simp)] at hsplit
  simp only [map_cons, map_nil, cons.injEq, and_true] at hsplit
  obtain ⟨hversion, hos, harch, hkind⟩ := hsplit
  refine ⟨Subtype.ext hdigest, ?_, utf8_inj hversion, utf8_inj hos, utf8_inj harch⟩
  have hlabels := utf8_inj hkind
  revert hlabels
  cases kind <;> cases kind' <;> decide

/-- A link that is not followed, beside an empty directory, in the two orders of a listing, and
the keys of one tree for the two kinds of artifact. -/
theorem a_link_beside_an_empty_directory :
    let tree := Entries.cons [97] (.Link [98]) (.cons [100] (.Dir .nil) .nil)
    let listed := Entries.cons [100] (.Dir .nil) (.cons [97] (.Link [98]) .nil)
    let digest : Digest := ⟨replicate 32 7, rfl⟩
    hash_dir tree = hash_dir listed ∧ hash_dir tree ≠ hash_dir .nil ∧
      key_stream digest .Container "1.0" "linux" "x86_64" ≠
        key_stream digest .Process "1.0" "linux" "x86_64" := by
  have hwf : (Entries.cons [97] (.Link [98]) (.cons [100] (.Dir .nil) .nil)).WF [] := by
    simp [Entries.WF, Node.WF, Kind.Fits, Entries.find, intercalate]
  refine ⟨by decide, fun h => ?_, fun h => ?_⟩
  · have hsame := (the_inputs_of_a_build_are_told_apart.1 _ .nil hwf trivial).mp h [[97]]
    cases hsame
  · have hsame := (the_inputs_of_a_build_are_told_apart.2 _ _ _ _ _ _ _ _ _ _ (by decide)).mp h
    cases hsame.2.1

end peppy.build_artifact_cache
