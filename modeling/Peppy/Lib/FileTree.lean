-- File trees with symbolic links. A path is walked name by name, a link on the
-- way is followed, and a tree that only gains entries keeps every path that it
-- resolved.
import Mathlib.Data.List.Induction

open List

namespace filetree

abbrev Text := List Char

abbrev Path := List Text

inductive Entry where
  | Dir
  | File
  | Link (target : Text)
  deriving DecidableEq

abbrev Tree := Path → Option Entry

inductive IoError where
  | NotFound
  | NotADirectory
  | Loop
  | AlreadyExists
  deriving DecidableEq

inductive Comp where
  | Up
  | Name (name : Text)

def Comp.parse : Text → Option Comp
  | [] | ['.'] => none
  | ['.', '.'] => some .Up
  | name => some (.Name name)

def comps (text : Text) : List Comp := (text.splitOn '/').filterMap Comp.parse

def IsAbsolute (text : Text) : Prop := text.head? = some '/'

instance (text : Text) : Decidable (IsAbsolute text) := inferInstanceAs (Decidable (_ = _))

def start (cwd : Path) (text : Text) : Path := if IsAbsolute text then [] else cwd

/-- Walks the parts of a path from the entry `cur`. `follow` goes on after a
link. -/
def walk (tree : Tree) (follow : Path → List Comp → Except IoError Path) :
    Path → List Comp → Except IoError Path
  | cur, [] => .ok cur
  | cur, comp :: rest =>
    if tree cur = some .Dir then
      match comp with
      | .Up => walk tree follow cur.dropLast rest
      | .Name name =>
        match tree (cur ++ [name]) with
        | none => .error .NotFound
        | some (.Link target) => follow (start cur target) (comps target ++ rest)
        | some .Dir | some .File => walk tree follow (cur ++ [name]) rest
    else .error .NotADirectory

/-- The walk that follows at most `links` links. -/
def resolve (tree : Tree) : Nat → Path → List Comp → Except IoError Path
  | 0 => walk tree fun _ _ => .error .Loop
  | links + 1 => walk tree (resolve tree links)

def MAXSYMLINKS : Nat := 40

def canonicalize (tree : Tree) (cwd : Path) (text : Text) : Except IoError Path :=
  if text = [] then .error .NotFound
  else resolve tree MAXSYMLINKS (start cwd text) (comps text)

/-! ## Trees that grow -/

/-- Nothing of the first tree is gone or changed. -/
def Extends (tree tree' : Tree) : Prop := ∀ path entry, tree path = some entry → tree' path = some entry

theorem Extends.refl (tree : Tree) : Extends tree tree := fun _ _ => id

theorem Extends.trans {a b c : Tree} (hab : Extends a b) (hbc : Extends b c) : Extends a c :=
  fun path entry h => hbc path entry (hab path entry h)

variable {cur from_ path : Path} {tree tree' : Tree} {parts : List Comp}

/-! ## The way of a path -/

/-- The entries that a walk comes by, each with the directory that it is looked up in. -/
def walkWay (tree : Tree) (follow : Path → List Comp → List Path) : Path → List Comp → List Path
  | _, [] => []
  | cur, .Up :: rest => cur :: walkWay tree follow cur.dropLast rest
  | cur, .Name name :: rest =>
    cur :: (cur ++ [name]) ::
      match tree (cur ++ [name]) with
      | some (.Link target) => follow (start cur target) (comps target ++ rest)
      | _ => walkWay tree follow (cur ++ [name]) rest

def resolveWay (tree : Tree) : Nat → Path → List Comp → List Path
  | 0 => walkWay tree fun _ _ => []
  | links + 1 => walkWay tree (resolveWay tree links)

def way (tree : Tree) (cwd : Path) (text : Text) : List Path :=
  resolveWay tree MAXSYMLINKS (start cwd text) (comps text)

/-- In a part of a tree a path leads where it leads in the tree, if its way is in the part. -/
theorem walk_iff (h : Extends tree tree') {follow follow' : Path → List Comp → Except IoError Path}
    {ways : Path → List Comp → List Path} (hfollow : ∀ cur rest, follow cur rest = .ok path ↔
      follow' cur rest = .ok path ∧ ∀ dir ∈ ways cur rest, tree dir ≠ none) :
    walk tree follow cur parts = .ok path ↔
      walk tree' follow' cur parts = .ok path ∧
        ∀ dir ∈ walkWay tree' ways cur parts, tree dir ≠ none := by
  induction parts generalizing cur with
  | nil => simp [walk, walkWay]
  | cons comp rest ih =>
    cases hcur : tree cur with
    | none => cases comp <;> simp [walk, walkWay, hcur]
    | some entry =>
      cases comp with
      | Up => simp only [walk, walkWay, hcur, h _ _ hcur, forall_mem_cons]; split_ifs <;> simp [ih]
      | Name name =>
        cases hname : tree (cur ++ [name]) with
        | none => simp only [walk, walkWay, hcur, hname]; split_ifs <;> simp [hname]
        | some found =>
          simp only [walk, walkWay, hcur, h _ _ hcur, hname, h _ _ hname, forall_mem_cons]
          split_ifs <;> cases found <;> simp [ih, hfollow]

theorem resolve_iff (h : Extends tree tree') {links : Nat} :
    resolve tree links cur parts = .ok path ↔
      resolve tree' links cur parts = .ok path ∧
        ∀ dir ∈ resolveWay tree' links cur parts, tree dir ≠ none := by
  induction links generalizing cur parts with
  | zero => exact walk_iff h (by simp)
  | succ links ih => exact walk_iff h fun _ _ => ih

theorem canonicalize_iff (h : Extends tree tree') {cwd : Path} {text : Text} :
    canonicalize tree cwd text = .ok path ↔
      canonicalize tree' cwd text = .ok path ∧ ∀ dir ∈ way tree' cwd text, tree dir ≠ none := by
  unfold canonicalize
  split_ifs
  · simp
  · exact resolve_iff h

/-- After the first parts of a path the walk goes on from where they lead. -/
theorem walk_append (links : Nat) {follow : Path → List Comp → Except IoError Path}
    {ways : Path → List Comp → List Path} (hfollow : resolve tree links = walk tree follow)
    (hways : resolveWay tree links = walkWay tree ways) {dir : Path} (more : List Comp)
    (hlinks : ∀ cur parts, follow cur parts = .ok dir →
      ∃ n, follow cur (parts ++ more) = resolve tree n dir more ∧
        ways cur (parts ++ more) = ways cur parts ++ resolveWay tree n dir more)
    (h : walk tree follow cur parts = .ok dir) :
    ∃ n, walk tree follow cur (parts ++ more) = resolve tree n dir more ∧
      walkWay tree ways cur (parts ++ more) =
        walkWay tree ways cur parts ++ resolveWay tree n dir more := by
  induction parts generalizing cur with
  | nil =>
    cases h
    exact ⟨links, by rw [hfollow]; rfl, by rw [hways]; rfl⟩
  | cons comp rest ih =>
    by_cases hdir : tree cur = some .Dir
    · cases comp with
      | Up =>
        simp only [walk, hdir, if_true] at h
        obtain ⟨n, hwalk, hway⟩ := ih h
        exact ⟨n, by simp [walk, hdir, hwalk], by simp [walkWay, hway]⟩
      | Name name =>
        cases hname : tree (cur ++ [name]) with
        | none => simp [walk, hdir, hname] at h
        | some entry =>
          simp only [walk, hdir, hname, if_true] at h
          cases entry with
          | Dir | File =>
            obtain ⟨n, hwalk, hway⟩ := ih h
            exact ⟨n, by simp [walk, hdir, hname, hwalk], by simp [walkWay, hname, hway]⟩
          | Link target =>
            obtain ⟨n, hwalk, hway⟩ := hlinks _ _ h
            rw [append_assoc] at hwalk hway
            exact ⟨n, by simp [walk, hdir, hname, hwalk], by simp [walkWay, hname, hway]⟩
    · cases comp <;> simp [walk, hdir] at h

theorem resolve_append {links : Nat} {dir : Path} (more : List Comp)
    (h : resolve tree links cur parts = .ok dir) :
    ∃ n, resolve tree links cur (parts ++ more) = resolve tree n dir more ∧
      resolveWay tree links cur (parts ++ more) =
        resolveWay tree links cur parts ++ resolveWay tree n dir more := by
  induction links generalizing cur parts with
  | zero => exact walk_append 0 rfl rfl more (by simp) h
  | succ links ih => exact walk_append (links + 1) rfl rfl more (fun _ _ => ih) h

/-! ## New directories -/

def isDirAt (tree : Tree) (from_ : Path) (parts : List Comp) : Bool :=
  match resolve tree MAXSYMLINKS from_ parts with
  | .ok path => tree path = some .Dir
  | .error _ => false

def create_dir (tree : Tree) (from_ : Path) (parts : List Comp) : Except IoError Tree :=
  match parts.getLast? with
  | none => .error .AlreadyExists
  | some last =>
    match resolve tree MAXSYMLINKS from_ parts.dropLast with
    | .error e => .error e
    | .ok dir =>
      if tree dir = some .Dir then
        match last with
        | .Up => .error .AlreadyExists
        | .Name name =>
          if tree (dir ++ [name]) = none then
            .ok (Function.update tree (dir ++ [name]) (some .Dir))
          else .error .AlreadyExists
      else .error .NotADirectory

/-- A path that cannot be made is fine when it is a directory already. -/
def orDir (tree : Tree) (from_ : Path) (parts : List Comp) (made : Except IoError Tree) :
    Except IoError Tree :=
  match made with
  | .ok tree' => .ok tree'
  | .error e => if isDirAt tree from_ parts then .ok tree else .error e

/-- Makes the directory and those above it. The parts are given last one
first. -/
def create_dir_all (tree : Tree) (from_ : Path) : List Comp → Except IoError Tree
  | [] => .ok tree
  | comp :: above =>
    let parts := (comp :: above).reverse
    match create_dir tree from_ parts with
    | .error .NotFound =>
      match create_dir_all tree from_ above with
      | .error e => .error e
      | .ok tree' => orDir tree' from_ parts (create_dir tree' from_ parts)
    | _ => orDir tree from_ parts (create_dir tree from_ parts)

theorem extends_update (habsent : tree path = none)
    (entry : Option Entry) : Extends tree (Function.update tree path entry) := by
  intro other found hfound
  have hne : other ≠ path := by
    rintro rfl
    simp [habsent] at hfound
  rw [Function.update_of_ne hne]
  exact hfound

/-- The tree with a directory wherever it has nothing. -/
def filled (tree : Tree) : Tree := fun path => some ((tree path).getD .Dir)

theorem extends_filled (tree : Tree) : Extends tree (filled tree) := by
  intro path entry h
  simp [filled, h]

theorem filled_eq (h : Extends tree tree') (h' : Extends tree' (filled tree)) :
    filled tree' = filled tree := by
  funext path
  cases hpath : tree' path with
  | some entry => rw [h' _ _ hpath, filled, hpath]; rfl
  | none =>
    have hnone : tree path = none := Option.eq_none_iff_forall_ne_some.mpr fun entry hentry => by
      simp [h _ _ hentry] at hpath
    simp [filled, hpath, hnone]

/-- The tree has grown by directories on the way of the path, which now leads somewhere. -/
structure Made (tree tree' : Tree) (from_ : Path) (parts : List Comp) : Prop where
  keeps : Extends tree tree'
  fills : Extends tree' (filled tree)
  onWay : ∀ path, tree' path ≠ none →
    tree path ≠ none ∨ path ∈ resolveWay (filled tree) MAXSYMLINKS from_ parts
  leads : ∃ path, resolve tree' MAXSYMLINKS from_ parts = .ok path

theorem made_create_dir (h : create_dir tree from_ parts = .ok tree') :
    Made tree tree' from_ parts := by
  unfold create_dir at h
  split at h
  · cases h
  next last hlast =>
  split at h
  · cases h
  next dir hdir =>
  split at h
  swap
  · cases h
  next hisDir =>
  split at h
  · cases h
  next name =>
  split at h
  swap
  · cases h
  next habsent =>
  cases h
  obtain ⟨above, rfl⟩ := getLast?_eq_some_iff.mp hlast
  rw [dropLast_concat] at hdir
  have hext := extends_update habsent (some .Dir)
  refine ⟨hext, fun path entry hentry => ?_, fun path hpath => ?_, dir ++ [name], ?_⟩
  · by_cases heq : path = dir ++ [name]
    · subst heq
      simpa [filled, habsent] using hentry
    · exact extends_filled tree _ _ (by rwa [Function.update_of_ne heq] at hentry)
  · by_cases heq : path = dir ++ [name]
    · obtain ⟨n, -, hway⟩ := resolve_append [.Name name] ((resolve_iff (extends_filled tree)).mp hdir).1
      rw [hway, heq]
      cases n <;> simp [resolveWay, walkWay]
    · exact .inl (by rwa [Function.update_of_ne heq] at hpath)
  · obtain ⟨n, hresolve, -⟩ := resolve_append [.Name name] ((resolve_iff hext).mp hdir).1
    rw [hresolve]
    cases n <;> simp [resolve, walk, hisDir]

theorem made_orDir (h : orDir tree from_ parts (create_dir tree from_ parts) = .ok tree') :
    Made tree tree' from_ parts := by
  unfold orDir at h
  split at h
  · next hmade =>
    cases h
    exact made_create_dir hmade
  · split at h
    · next hdir =>
      cases h
      refine ⟨Extends.refl tree, extends_filled tree, fun _ => .inl, ?_⟩
      unfold isDirAt at hdir
      split at hdir
      · next path hpath => exact ⟨path, hpath⟩
      · cases hdir
    · cases h

theorem made_create_dir_all (h : create_dir_all tree from_ parts = .ok tree') :
    Made tree tree' from_ parts.reverse := by
  induction parts generalizing tree' with
  | nil =>
    cases h
    exact ⟨Extends.refl tree, extends_filled tree, fun _ => .inl, from_, rfl⟩
  | cons comp above ih =>
    unfold create_dir_all at h
    dsimp only at h
    split at h
    · split at h
      · cases h
      next tree'' habove =>
      have habove := ih habove
      have hlast := made_orDir h
      have hfilled := filled_eq habove.keeps habove.fills
      obtain ⟨dir, hdir⟩ := habove.leads
      obtain ⟨n, -, hway⟩ := resolve_append [comp] ((resolve_iff habove.fills).mp hdir).1
      refine ⟨habove.keeps.trans hlast.keeps, hfilled ▸ hlast.fills, fun path hpath => ?_,
        hlast.leads⟩
      rcases hlast.onWay path hpath with hpath | hpath
      · exact (habove.onWay path hpath).imp_right fun hmem => by
          rw [reverse_cons, hway]
          exact mem_append_left _ hmem
      · exact .inr (hfilled ▸ hpath)
    · exact made_orDir h

/-- The new entries are the missing ones of the way. -/
theorem Made.iff (h : Made tree tree' from_ parts) (path : Path) : tree' path ≠ none ↔
    tree path ≠ none ∨ path ∈ resolveWay (filled tree) MAXSYMLINKS from_ parts := by
  refine ⟨h.onWay path, ?_⟩
  rintro (hpath | hpath)
  · obtain ⟨entry, hentry⟩ := Option.ne_none_iff_exists'.mp hpath
    simp [h.keeps _ _ hentry]
  · obtain ⟨found, hfound⟩ := h.leads
    exact ((resolve_iff h.fills).mp hfound).2 path hpath

/-! ## Paths from the root -/

/-- The text is one name, and no `.` or `..`. -/
def ValidName (name : Text) : Prop := Comp.parse name = some (.Name name) ∧ '/' ∉ name

/-- The path and those above it are directories. -/
def DirPath (tree : Tree) (path : Path) : Prop := ∀ dir, dir <+: path → tree dir = some .Dir

theorem DirPath.mono (h : Extends tree tree')
    (hpath : DirPath tree path) : DirPath tree' path := fun dir hdir => h _ _ (hpath dir hdir)

theorem walk_names {follow : Path → List Comp → Except IoError Path}
    {names : Path} (hdirs : DirPath tree (cur ++ names)) (rest : List Comp) :
    walk tree follow cur (names.map .Name ++ rest) = walk tree follow (cur ++ names) rest := by
  induction names generalizing cur with
  | nil => simp
  | cons name names ih =>
    have hcur : tree cur = some .Dir := hdirs cur (prefix_append ..)
    have hname : tree (cur ++ [name]) = some .Dir :=
      hdirs (cur ++ [name]) ⟨names, by simp⟩
    have hnext := @ih (cur ++ [name]) (by simpa using hdirs)
    simp only [map_cons, cons_append]
    rw [walk, if_pos hcur]
    simp only [hname]
    rw [hnext]
    simp

def pathText (path : Path) : Text := path.flatMap ('/' :: ·)

theorem comps_slash (a b : Text) : comps (a ++ '/' :: b) = comps a ++ comps b := by
  unfold comps
  rw [splitOn_append_cons_self, filterMap_append]

theorem comps_pathText (h : ∀ name ∈ path, ValidName name) :
    comps (pathText path) = path.map .Name := by
  induction path using List.reverseRecOn with
  | nil => rfl
  | append_singleton path name ih =>
    have hname := h name (by simp)
    have htext : pathText (path ++ [name]) = pathText path ++ '/' :: name := by
      simp [pathText]
    have hcomps : comps name = [.Name name] := by
      unfold comps
      rw [splitOn_eq_singleton hname.2]
      simp [hname.1]
    rw [htext, comps_slash, ih fun other hother => h other (by simp [hother]), hcomps]
    simp

end filetree
