-- The caches of the configured repositories: what a refresh writes to them, which
-- repository an entry is attributed to, and which entry a lookup gives.
import Mathlib.Data.String.Basic
import Peppy.Mounts
import Peppy.Lib.StableSort

open filetree stable_sort peppy.mounts

namespace peppy.repo

/-! ## The repositories and their entries -/

inductive GitRepoRef where
  | RemoteHead
  | Named (name : String)
  | PeppyRelease

def PEPPY_RELEASE_REF : String := "@\x7bpeppy-release\x7d"

def GitRepoRef.configured : GitRepoRef → Option String
  | .RemoteHead => none
  | .Named name => some name
  | .PeppyRelease => some PEPPY_RELEASE_REF

inductive RepoSource where
  | Fs (path : PathBuf)
  | Git (repo_url : String) (repo_ref : GitRepoRef)

/-- An entry of `repositories.json5`, with the error of one that does not parse. -/
structure RepoEntry where
  id : Nat
  source : Except String RepoSource

inductive RepoItemKind where
  | Node
  | Launcher
  | Contract
  | Pairing
  | McpExposure
  deriving DecidableEq

def RepoItemKind.kind : RepoItemKind → String
  | .Node => "node"
  | .Launcher => "launcher"
  | .Contract => "contract"
  | .Pairing => "pairing"
  | .McpExposure => "mcp exposure"

/-- Where an item lives. A git origin has the configured ref of its repository. -/
inductive EntryOrigin where
  | Fs (path : PathBuf)
  | Git (repo_url : String) (repo_ref : Option String) (commit : String) (path : Path)
  deriving DecidableEq

/-- An entry as a cache file has it. The tag of a launcher is empty. -/
structure CacheEntry where
  name : String
  tag : String
  sha256 : String
  origin : EntryOrigin
  deriving DecidableEq

abbrev RepoItems := RepoItemKind → List CacheEntry

def path_text (path : Path) : String := "/".intercalate (path.map String.ofList)

def PathBuf.text (path : PathBuf) : String :=
  (if path.absolute then "/" else "") ++ path_text path.names

def PathBuf.join (path : PathBuf) (inside : Path) : PathBuf :=
  { path with names := path.names ++ inside }

def EntryOrigin.path_str : EntryOrigin → String
  | .Fs path => PathBuf.text path
  | .Git _ _ _ path => path_text path

/-- `std::fs::canonicalize` at one moment: `none` where a path does not resolve. -/
abbrev Canonicalize := PathBuf → Option PathBuf

variable (canonicalize : Canonicalize) (repos : List RepoEntry)

def source_identity : RepoSource → String
  | .Fs path => PathBuf.text ((canonicalize path).getD path)
  | .Git repo_url repo_ref =>
    match repo_ref.configured with
    | some r => repo_url ++ "@" ++ r
    | none => repo_url

/-! ## The owner of an entry -/

inductive RepoOwner where
  | Fs (root : PathBuf)
  | Git (url : String) (repo_ref : GitRepoRef)

def canonical_root (configured : PathBuf) : PathBuf :=
  (canonicalize configured).getD configured

def RepoOwner.owns : RepoOwner → EntryOrigin → Bool
  | .Fs root, .Fs path => path.starts_with root
  | .Git url repo_ref, .Git repo_url read_with_ref _ _ =>
    url = repo_url && repo_ref.configured.all fun pinned => read_with_ref = some pinned
  | _, _ => false

def RepoOwner.new (root_of : PathBuf → PathBuf) : RepoSource → RepoOwner
  | .Fs path => .Fs (root_of path)
  | .Git repo_url repo_ref => .Git repo_url repo_ref

abbrev RepoOwners := List (Nat × RepoOwner)

def RepoOwners.new (root_of : PathBuf → PathBuf) (repos : List RepoEntry) : RepoOwners :=
  repos.filterMap fun repo =>
    match repo.source with
    | .error _ => none
    | .ok source => some (repo.id, RepoOwner.new root_of source)

def RepoOwners.owner_of (owners : RepoOwners) (origin : EntryOrigin) : Option Nat :=
  (owners.find? fun owner => owner.2.owns origin).map Prod.fst

/-! ## One refresh -/

inductive RepoReadFailure where
  | Unreachable
  | Conflict

structure PublishedItem where
  name : String
  tag : String
  sha256 : String
  path : Path

/-- What the index of a repository publishes, at the commit of a git one. -/
structure PublishedItems where
  commit : String
  items : RepoItemKind → List PublishedItem
  once : ∀ kind, ((items kind).map fun item => (item.name, item.tag)).Nodup

def entry_of (origin_of : Path → EntryOrigin) (item : PublishedItem) : CacheEntry :=
  { name := item.name, tag := item.tag, sha256 := item.sha256, origin := origin_of item.path }

abbrev RepoRead := Except (RepoReadFailure × String) RepoItems

def read_repo (source : RepoSource)
    (published : Except (RepoReadFailure × String) PublishedItems) : RepoRead :=
  match source with
  | .Fs path =>
    match canonicalize path with
    | none => .error (.Unreachable, "path does not exist: " ++ PathBuf.text path)
    | some root =>
      published.map fun read kind => (read.items kind).map (entry_of fun inside =>
        .Fs (PathBuf.join root inside))
  | .Git repo_url repo_ref =>
    published.map fun read kind => (read.items kind).map (entry_of fun inside =>
      .Git repo_url repo_ref.configured read.commit inside)

inductive RefreshScope where
  | Every
  | Only (ids : List Nat)

def RefreshScope.includes : RefreshScope → Nat → Bool
  | .Every, _ => true
  | .Only ids, id => ids.contains id

/-- A refresh: its scope, the file system, and what each repository gives. -/
structure Refresh where
  scope : RefreshScope
  canonicalize : Canonicalize
  published : Nat → Except (RepoReadFailure × String) PublishedItems

inductive PlannedRepo where
  | Unparseable (id : Nat) (detail : String)
  | Kept (id : Nat)
  | Read (id : Nat) (source : RepoSource)

def plan_repo (scope : RefreshScope) (entry : RepoEntry) : Option PlannedRepo :=
  match entry.source with
  | .error detail => if scope.includes entry.id then some (.Unparseable entry.id detail) else none
  | .ok source =>
    if scope.includes entry.id then some (.Read entry.id source) else some (.Kept entry.id)

def retained_entries (previous : List CacheEntry) (owners : RepoOwners) (repo_id : Nat) :
    List CacheEntry :=
  previous.filter fun entry => owners.owner_of entry.origin = some repo_id

def retained_items (previous : RepoItems) (owners : RepoOwners) (repo_id : Nat) : RepoItems :=
  fun kind => retained_entries (previous kind) owners repo_id

def RepoItems.len (items : RepoItems) : Nat :=
  (items .Node).length + (items .Launcher).length + (items .Contract).length +
    (items .Pairing).length + (items .McpExposure).length

structure RepoFailure where
  id : Nat
  read_failure : RepoReadFailure
  detail : String
  retained : Nat

structure RefreshedRepos where
  items : RepoItems := fun _ => []
  failures : List RepoFailure := []

def RefreshedRepos.merge (refreshed : RefreshedRepos) (items : RepoItems) : RefreshedRepos :=
  { refreshed with items := fun kind => refreshed.items kind ++ items kind }

/-- One turn of the loop over the planned repositories, in the order of their ids. -/
def refresh_repo (previous : RepoItems) (owners : RepoOwners) (refresh : Refresh)
    (refreshed : RefreshedRepos) : PlannedRepo → RefreshedRepos
  | .Unparseable id detail =>
    { refreshed with failures := refreshed.failures ++ [⟨id, .Unreachable, detail, 0⟩] }
  | .Kept id => refreshed.merge (retained_items previous owners id)
  | .Read id source =>
    match read_repo refresh.canonicalize source (refresh.published id) with
    | .ok items => refreshed.merge items
    | .error (read_failure, detail) =>
      let retained := retained_items previous owners id
      { refreshed.merge retained with
        failures := refreshed.failures ++ [⟨id, read_failure, detail, RepoItems.len retained⟩] }

/-- The scope of a refresh: without previous caches it reads every repository. -/
def scope_over (previous : Option RepoItems) (scope : RefreshScope) : RefreshScope :=
  match previous with
  | some _ => scope
  | none => .Every

def process_refresh (previous : Option RepoItems) (refresh : Refresh) : RefreshedRepos :=
  let owners := RepoOwners.new (canonical_root refresh.canonicalize) repos
  let planned := repos.filterMap (plan_repo (scope_over previous refresh.scope))
  planned.foldl (refresh_repo (previous.getD fun _ => []) owners refresh) {}

/-! ## Lookups -/

def UNOWNED_REPO_ID : Nat := 2 ^ 32 - 1

def attributable_repo_id (id : Nat) : Option Nat :=
  if id < 2 ^ 32 ∧ id ≠ UNOWNED_REPO_ID then some id else none

def lookup_repo_id (owners : RepoOwners) (origin : EntryOrigin) : Nat :=
  ((owners.owner_of origin).bind attributable_repo_id).getD UNOWNED_REPO_ID

structure LoadedEntry where
  entry : CacheEntry
  repo_id : Nat
  deriving DecidableEq

def load_repo_cache (raw : List CacheEntry) : List LoadedEntry :=
  let owners := RepoOwners.new (canonical_root canonicalize) repos
  raw.map fun entry => { entry, repo_id := lookup_repo_id owners entry.origin }

structure RepoAmbiguity where
  kind : String
  id : String
  repo_id : Nat
  paths : List String
  deriving DecidableEq

def format_identity (name tag : String) : String :=
  if tag.isEmpty then name else name ++ ":" ++ tag

def CacheEntry.is (entry : CacheEntry) (name tag : String) : Bool :=
  entry.name = name && entry.tag = tag

def lookup_repo_entry (kind : RepoItemKind) (entries : List LoadedEntry) (name tag : String) :
    Except RepoAmbiguity (Option LoadedEntry) :=
  let found := entries.filter fun loaded => loaded.entry.is name tag
  match (found.map (·.repo_id)).min? with
  | none => .ok none
  | some winning_id =>
    match found.filter fun loaded => loaded.repo_id = winning_id with
    -- The least id is the one of an entry.
    | [] => .ok none
    | [first] => .ok (some first)
    | first :: contested => .error {
        kind := kind.kind
        id := format_identity first.entry.name first.entry.tag
        repo_id := winning_id
        paths := sortByKey id ((first :: contested).map (·.entry.origin.path_str)) }

/-! ## A history of refreshes -/

/-- The caches, and for each repository the entries of its last read that gave
any. -/
structure History where
  caches : Option RepoItems := none
  last : RepoEntry → RepoItems := fun _ _ => []

def Refresh.reads (refresh : Refresh) (previous : Option RepoItems) (repo : RepoEntry) :
    Option RepoItems :=
  match plan_repo (scope_over previous refresh.scope) repo with
  | some (.Read id source) =>
    (read_repo refresh.canonicalize source (refresh.published id)).toOption
  | _ => none

def History.refresh (repos : List RepoEntry) (history : History) (refresh : Refresh) : History where
  caches := some (process_refresh repos history.caches refresh).items
  last := fun repo => (refresh.reads history.caches repo).getD (history.last repo)

def refreshes (run : List Refresh) : History :=
  run.foldl (History.refresh repos) {}

end peppy.repo
