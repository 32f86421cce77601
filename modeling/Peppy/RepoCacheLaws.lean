-- The laws of the repository caches: while every entry is attributed to the
-- repository that it was read from, the caches are the last reads. Two repositories
-- that own each other's entries break that.
import Peppy.RepoCaches

open filetree peppy.mounts List

namespace peppy.repo

variable {repos : List RepoEntry} {root_of : PathBuf → PathBuf}

/-! ## What a refresh writes -/

def kept_of (previous : Option RepoItems) (owners : RepoOwners) (refresh : Refresh)
    (repo : RepoEntry) : RepoItems :=
  (refresh.reads previous repo).getD <|
    match repo.source with
    | .error _ => fun _ => []
    | .ok _ => retained_items (previous.getD fun _ => []) owners repo.id

variable {previous : Option RepoItems} {items : RepoItems} {repo : RepoEntry} {history : History}
  {canonicalize : Canonicalize} {origin : EntryOrigin}

variable {kind : RepoItemKind}

theorem loop_items {owners : RepoOwners} {refresh : Refresh} {refreshed : RefreshedRepos} :
    ((repos.filterMap (plan_repo (scope_over previous refresh.scope))).foldl
        (refresh_repo (previous.getD fun _ => []) owners refresh) refreshed).items kind =
      refreshed.items kind ++ repos.flatMap fun repo => kept_of previous owners refresh repo kind := by
  induction repos generalizing refreshed with
  | nil => simp
  | cons repo repos ih =>
    obtain ⟨id, source⟩ := repo
    cases source with
    | error detail =>
      cases hscope : (scope_over previous refresh.scope).includes id <;>
        simp [plan_repo, hscope, refresh_repo, ih, kept_of, Refresh.reads]
    | ok source =>
      cases hscope : (scope_over previous refresh.scope).includes id with
      | false =>
        simp [plan_repo, hscope, refresh_repo, ih, kept_of, Refresh.reads, RefreshedRepos.merge]
      | true =>
        cases hread : read_repo refresh.canonicalize source (refresh.published id) <;>
          simp [plan_repo, hscope, refresh_repo, ih, kept_of, Refresh.reads,
            RefreshedRepos.merge, hread, Except.toOption]

theorem reads_some {refresh : Refresh} (h : refresh.reads previous repo = some items) :
    ∃ source, repo.source = .ok source ∧
      read_repo refresh.canonicalize source (refresh.published repo.id) = .ok items := by
  obtain ⟨id, source⟩ := repo
  cases source with
  | error detail =>
    cases hscope : (scope_over previous refresh.scope).includes id <;>
      simp [Refresh.reads, plan_repo, hscope] at h
  | ok source =>
    refine ⟨source, rfl, ?_⟩
    cases hscope : (scope_over previous refresh.scope).includes id with
    | false => simp [Refresh.reads, plan_repo, hscope] at h
    | true =>
      cases hread : read_repo refresh.canonicalize source (refresh.published id) with
      | error failure => simp [Refresh.reads, plan_repo, hscope, hread, Except.toOption] at h
      | ok read =>
        simp only [Refresh.reads, plan_repo, hscope, hread, Except.toOption, if_true,
          Option.some.injEq] at h
        rw [h]

theorem last_of_read {refresh : Refresh} (h : refresh.reads history.caches repo = some items) :
    (history.refresh repos refresh).last repo = items := by
  simp [History.refresh, h]

theorem last_of_no_read {refresh : Refresh} (h : refresh.reads history.caches repo = none) :
    (history.refresh repos refresh).last repo = history.last repo := by
  simp [History.refresh, h]

/-- An entry of the source, read from there. -/
def RepoSource.Origin (canonicalize : Canonicalize) : RepoSource → EntryOrigin → Prop
  | .Fs path, origin => ∃ root inside, canonicalize path = some root ∧
      origin = .Fs (PathBuf.join root inside)
  | .Git repo_url repo_ref, origin => ∃ commit inside,
      origin = .Git repo_url repo_ref.configured commit inside

theorem entries_once {read : PublishedItems} (origin_of : Path → EntryOrigin) :
    (((read.items kind).map (entry_of origin_of)).map fun entry => (entry.name, entry.tag)).Nodup ∧
      ∀ entry ∈ (read.items kind).map (entry_of origin_of),
        ∃ inside, entry.origin = origin_of inside := by
  refine ⟨by simpa [Function.comp_def, entry_of] using read.once kind, fun entry hentry => ?_⟩
  obtain ⟨item, -, rfl⟩ := mem_map.mp hentry
  exact ⟨item.path, rfl⟩

variable {source : RepoSource}

/-- A read gives each identity of a kind once, with an origin of its source. -/
theorem read_repo_ok {published : Except (RepoReadFailure × String) PublishedItems}
    (h : read_repo canonicalize source published = .ok items) :
    ((items kind).map fun entry => (entry.name, entry.tag)).Nodup ∧
      ∀ entry ∈ items kind, source.Origin canonicalize entry.origin := by
  cases source with
  | Fs path =>
    cases hroot : canonicalize path with
    | none => simp [read_repo, hroot] at h
    | some root =>
      cases published with
      | error failure => simp [read_repo, hroot, Except.map] at h
      | ok read =>
        simp only [read_repo, hroot, Except.map, Except.ok.injEq] at h
        subst h
        obtain ⟨honce, horigin⟩ :=
          entries_once (fun inside => .Fs (PathBuf.join root inside))
        refine ⟨honce, fun entry hentry => ?_⟩
        obtain ⟨inside, hinside⟩ := horigin entry hentry
        exact ⟨root, inside, hroot, hinside⟩
  | Git repo_url repo_ref =>
    cases published with
    | error failure => simp [read_repo, Except.map] at h
    | ok read =>
      simp only [read_repo, Except.map, Except.ok.injEq] at h
      subst h
      obtain ⟨honce, horigin⟩ :=
        entries_once (.Git repo_url repo_ref.configured read.commit)
      refine ⟨honce, fun entry hentry => ?_⟩
      obtain ⟨inside, hinside⟩ := horigin entry hentry
      exact ⟨read.commit, inside, hinside⟩

/-! ## Entries attributed to their repositories -/

/-- The paths lead where they led. -/
def Resolves (root_of : PathBuf → PathBuf) (repos : List RepoEntry)
    (canonicalize : Canonicalize) : Prop :=
  ∀ repo ∈ repos, ∀ path, repo.source = .ok (.Fs path) →
    canonical_root canonicalize path = root_of path

open RepoOwner

theorem Resolves.owners (h : Resolves root_of repos canonicalize) :
    RepoOwners.new (canonical_root canonicalize) repos = RepoOwners.new root_of repos := by
  refine filterMap_congr fun repo hrepo => ?_
  cases hsource : repo.source with
  | error detail => rfl
  | ok source =>
    cases source with
    | Fs path => simp [new, h repo hrepo path hsource]
    | Git repo_url repo_ref => rfl

/-- The roots resolve as always, and no entry is of another repository. -/
structure Refresh.Attributed (root_of : PathBuf → PathBuf) (repos : List RepoEntry)
    (refresh : Refresh) : Prop where
  resolves : Resolves root_of repos refresh.canonicalize
  owned : ∀ repo ∈ repos, ∀ source, repo.source = .ok source → ∀ items,
    read_repo refresh.canonicalize source (refresh.published repo.id) = .ok items →
    ∀ kind, ∀ entry ∈ items kind,
      (RepoOwners.new root_of repos).owner_of entry.origin = some repo.id

/-! ## Sources apart -/

/-- Neither source can be taken for the other. -/
def RepoSource.Apart (root_of : PathBuf → PathBuf) : RepoSource → RepoSource → Prop
  | .Fs path, .Fs other => (root_of path).starts_with (root_of other) = false ∧
      (root_of other).starts_with (root_of path) = false
  | .Git repo_url repo_ref, .Git other_url other_ref => repo_url = other_url →
      repo_ref ≠ .RemoteHead ∧ repo_ref.configured ≠ other_ref.configured
  | _, _ => True

/-- No two repositories are taken for each other. -/
def Apart (root_of : PathBuf → PathBuf) (repos : List RepoEntry) : Prop :=
  repos.Pairwise fun earlier later => ∀ source other, earlier.source = .ok source →
    later.source = .ok other → source.Apart root_of other

variable {root : PathBuf} {inside : Path}

theorem starts_with_join : (PathBuf.join root inside).starts_with root = true := by
  cases habsolute : root.absolute <;> simp [PathBuf.starts_with, PathBuf.join, habsolute]

theorem starts_with_or {other : PathBuf} (h : (PathBuf.join other inside).starts_with root = true) :
    root.starts_with other = true ∨ other.starts_with root = true := by
  have hnames : root.names <+: other.names ++ inside →
      other.names <+: root.names ∨ root.names <+: other.names := fun hroot =>
    (List.prefix_or_prefix_of_prefix hroot (prefix_append other.names inside)).symm
  cases hroot : root.absolute <;> cases hother : other.absolute <;>
    simp only [PathBuf.starts_with, PathBuf.join, hroot, hother] at h ⊢ <;>
    grind [List.isPrefixOf_iff_prefix]

theorem RepoSource.Origin.owns (h : source.Origin canonicalize origin)
    (hroot : ∀ path, source = .Fs path → canonical_root canonicalize path = root_of path) :
    (new root_of source).owns origin = true ∧ ∀ earlier : RepoSource,
      earlier.Apart root_of source → (new root_of earlier).owns origin = false := by
  cases source with
  | Fs path =>
    obtain ⟨root, inside, hcanonical, rfl⟩ := h
    have hsame : root_of path = root := by
      rw [← hroot path rfl, canonical_root, hcanonical, Option.getD_some]
    subst hsame
    refine ⟨starts_with_join, fun earlier hapart => ?_⟩
    cases earlier with
    | Git repo_url repo_ref => rfl
    | Fs other =>
      by_contra howns
      rcases starts_with_or (Bool.not_eq_false _ ▸ howns) with hin | hin
      · exact absurd hin (by simp [hapart.1])
      · exact absurd hin (by simp [hapart.2])
  | Git repo_url repo_ref =>
    obtain ⟨commit, inside, rfl⟩ := h
    refine ⟨by cases hpinned : repo_ref.configured <;> simp [new, owns, hpinned],
      fun earlier hapart => ?_⟩
    cases earlier with
    | Fs path => rfl
    | Git other_url other_ref =>
      by_cases hurl : other_url = repo_url
      · obtain ⟨hhead, hdifferent⟩ := hapart hurl
        cases hother : other_ref.configured with
        | none => cases other_ref <;> simp [GitRepoRef.configured] at hother hhead
        | some pinned =>
          have hpinned : repo_ref.configured ≠ some pinned :=
            fun hown => hdifferent (hother.trans hown.symm)
          simp [new, owns, hother, hpinned]
      · simp [new, owns, hurl]

theorem owner_of_apart (hresolves : Resolves root_of repos canonicalize)
    (hapart : Apart root_of repos) (hrepo : repo ∈ repos) (hsource : repo.source = .ok source)
    (horigin : source.Origin canonicalize origin) :
    (RepoOwners.new root_of repos).owner_of origin = some repo.id := by
  obtain ⟨howns, hothers⟩ := horigin.owns fun path hpath =>
    hresolves repo hrepo path (hpath ▸ hsource)
  clear hresolves
  induction repos with
  | nil => cases hrepo
  | cons first repos ih =>
    obtain ⟨hfirst, hrest⟩ := pairwise_cons.mp hapart
    rcases mem_cons.mp hrepo with rfl | hrepo
    · simp [RepoOwners.owner_of, RepoOwners.new, hsource, howns]
    have hnext := ih hrest hrepo
    cases hother : first.source with
    | error detail => simpa [RepoOwners.owner_of, RepoOwners.new, hother] using hnext
    | ok other =>
      have hnot := hothers other (hfirst repo hrepo other source hother hsource)
      simpa [RepoOwners.owner_of, RepoOwners.new, hother, hnot] using hnext

theorem attributed_of_apart {refresh : Refresh}
    (hresolves : Resolves root_of repos refresh.canonicalize) (hapart : Apart root_of repos) :
    refresh.Attributed root_of repos where
  resolves := hresolves
  owned := by
    intro repo hrepo source hsource items hitems kind entry hentry
    exact owner_of_apart hresolves hapart hrepo hsource ((read_repo_ok hitems).2 entry hentry)

theorem filter_blocks {α β : Type} {id : α → Nat} {owner : β → Option Nat} {f : α → List β}
    {blocks : List α} (hids : (blocks.map id).Nodup)
    (howned : ∀ block ∈ blocks, ∀ x ∈ f block, owner x = some (id block)) {block : α}
    (hblock : block ∈ blocks) :
    (blocks.flatMap f).filter (fun x => owner x = some (id block)) = f block := by
  induction blocks with
  | nil => cases hblock
  | cons first blocks ih =>
    obtain ⟨hfirst, hrest⟩ := nodup_cons.mp hids
    have hother : ∀ other ∈ blocks, id other ≠ id first :=
      fun other hmem heq => hfirst (heq ▸ mem_map_of_mem hmem)
    rw [flatMap_cons, filter_append]
    rcases mem_cons.mp hblock with rfl | hblock
    · have hown : (f block).filter (fun x => owner x = some (id block)) = f block :=
        filter_eq_self.mpr fun x hx => by simp [howned block (by simp) x hx]
      have hnone : (blocks.flatMap f).filter (fun x => owner x = some (id block)) = [] := by
        refine filter_eq_nil_iff.mpr fun x hx => ?_
        obtain ⟨other, hmem, hx⟩ := mem_flatMap.mp hx
        simp [howned other (by simp [hmem]) x hx, hother other hmem]
      rw [hown, hnone, append_nil]
    · have hnone : (f first).filter (fun x => owner x = some (id block)) = [] := by
        refine filter_eq_nil_iff.mpr fun x hx => ?_
        simp [howned first (by simp) x hx, (hother block hblock).symm]
      rw [hnone, nil_append]
      exact ih hrest (fun other hmem => howned other (by simp [hmem])) hblock

/-! ## The caches over a history -/

/-- The caches are the last reads, each attributed to its repository. -/
structure Held (root_of : PathBuf → PathBuf) (repos : List RepoEntry) (history : History) :
    Prop where
  caches : ∀ kind, (history.caches.getD fun _ => []) kind =
    repos.flatMap fun repo => history.last repo kind
  owned : ∀ repo ∈ repos, ∀ kind, ∀ entry ∈ history.last repo kind,
    (RepoOwners.new root_of repos).owner_of entry.origin = some repo.id
  once : ∀ repo kind, ((history.last repo kind).map fun entry => (entry.name, entry.tag)).Nodup
  unparsed : ∀ repo detail, repo.source = .error detail → ∀ kind, history.last repo kind = []

theorem Held.new : Held root_of repos {} where
  caches := by simp
  owned := by simp
  once := by simp
  unparsed := by simp

theorem Held.kept (h : Held root_of repos history)
    (hids : (repos.map (·.id)).Nodup) {refresh : Refresh}
    (hrefresh : refresh.Attributed root_of repos) (hrepo : repo ∈ repos) (kind : RepoItemKind) :
    kept_of history.caches (RepoOwners.new (canonical_root refresh.canonicalize) repos) refresh repo
      kind = (history.refresh repos refresh).last repo kind := by
  unfold kept_of
  cases hread : refresh.reads history.caches repo with
  | some items => rw [last_of_read hread, Option.getD_some]
  | none =>
    rw [last_of_no_read hread, Option.getD_none]
    cases hsource : repo.source with
    | error detail => exact (h.unparsed repo detail hsource kind).symm
    | ok source =>
      simp only [retained_items, retained_entries, h.caches kind,
        hrefresh.resolves.owners]
      exact filter_blocks hids (fun other hother => h.owned other hother kind) hrepo

theorem Held.refresh (h : Held root_of repos history)
    (hids : (repos.map (·.id)).Nodup) {refresh : Refresh}
    (hrefresh : refresh.Attributed root_of repos) :
    Held root_of repos (history.refresh repos refresh) where
  caches := by
    intro kind
    refine (loop_items.trans (nil_append _)).trans ?_
    exact flatMap_congr fun repo hrepo => h.kept hids hrefresh hrepo kind
  owned := by
    intro repo hrepo kind entry hentry
    cases hread : refresh.reads history.caches repo with
    | none =>
      rw [last_of_no_read hread] at hentry
      exact h.owned repo hrepo kind entry hentry
    | some items =>
      rw [last_of_read hread] at hentry
      obtain ⟨source, hsource, hitems⟩ := reads_some hread
      exact hrefresh.owned repo hrepo source hsource items hitems kind entry hentry
  once := by
    intro repo kind
    cases hread : refresh.reads history.caches repo with
    | none =>
      rw [last_of_no_read hread]
      exact h.once repo kind
    | some items =>
      rw [last_of_read hread]
      obtain ⟨source, -, hitems⟩ := reads_some hread
      exact (read_repo_ok hitems).1
  unparsed := by
    intro repo detail hsource kind
    cases hread : refresh.reads history.caches repo with
    | none =>
      rw [last_of_no_read hread]
      exact h.unparsed repo detail hsource kind
    | some items =>
      obtain ⟨source, hparsed, -⟩ := reads_some hread
      rw [hsource] at hparsed
      cases hparsed

theorem Held.run (hids : (repos.map (·.id)).Nodup) {run : List Refresh}
    (hrun : ∀ refresh ∈ run, refresh.Attributed root_of repos) (h : Held root_of repos history) :
    Held root_of repos (run.foldl (History.refresh repos) history) := by
  induction run generalizing history with
  | nil => exact h
  | cons refresh run ih =>
    exact ih (fun next hnext => hrun next (by simp [hnext]))
      (h.refresh hids (hrun refresh (by simp)))

theorem caches_some {run : List Refresh} (hrun : run ≠ []) :
    ∃ items, (refreshes repos run).caches = some items := by
  obtain ⟨before, last, rfl⟩ := (eq_nil_or_concat run).resolve_left hrun
  rw [refreshes, concat_eq_append, foldl_append]
  exact ⟨_, rfl⟩

/-! ## Lookups -/

/-- The first entries have the lowest id, and the identity at most once. -/
theorem lookup_block {block rest : List LoadedEntry} {name tag : String}
    {k : Nat} (hblock : ∀ loaded ∈ block, loaded.repo_id = k)
    (hrest : ∀ loaded ∈ rest, k < loaded.repo_id)
    (honce : (block.filter fun loaded => loaded.entry.is name tag).length ≤ 1) :
    lookup_repo_entry kind (block ++ rest) name tag =
      match block.find? fun loaded => loaded.entry.is name tag with
      | some loaded => .ok (some loaded)
      | none => lookup_repo_entry kind rest name tag := by
  rw [← head?_filter]
  cases hfound : block.filter fun loaded => loaded.entry.is name tag with
  | nil => simp [lookup_repo_entry, filter_append, hfound]
  | cons first others =>
    have hothers : others = [] := by simpa [hfound] using honce
    subst hothers
    have hmem : first ∈ block.filter fun loaded => loaded.entry.is name tag := by simp [hfound]
    have hfirst : first.repo_id = k := hblock first (mem_of_mem_filter hmem)
    have hmin : ((first :: rest.filter fun loaded => loaded.entry.is name tag).map
        (·.repo_id)).min? = some k := by
      refine min?_eq_some_iff.mpr ⟨by simp [hfirst], ?_⟩
      intro id hid
      obtain ⟨loaded, hloaded, rfl⟩ := mem_map.mp hid
      rcases mem_cons.mp hloaded with rfl | hloaded
      · exact hfirst.ge
      · exact (hrest loaded (mem_of_mem_filter hloaded)).le
    have hwinners : (first :: rest.filter fun loaded => loaded.entry.is name tag).filter
        (fun loaded => loaded.repo_id = k) = [first] := by
      rw [filter_cons_of_pos (by simpa using hfirst)]
      refine congrArg (first :: ·) (filter_eq_nil_iff.mpr fun loaded hloaded => ?_)
      simpa using (hrest loaded (mem_of_mem_filter hloaded)).ne'
    simp only [lookup_repo_entry, filter_append, hfound, singleton_append, hmin,
      hwinners, head?_cons]

theorem filter_is_length {entries : List CacheEntry}
    (h : (entries.map fun entry => (entry.name, entry.tag)).Nodup) (name tag : String) :
    (entries.filter fun entry => entry.is name tag).length ≤ 1 := by
  induction entries with
  | nil => simp
  | cons first entries ih =>
    obtain ⟨hfirst, hrest⟩ := nodup_cons.mp h
    by_cases hsame : first.is name tag = true
    · have hnone : entries.filter (fun entry => entry.is name tag) = [] := by
        refine filter_eq_nil_iff.mpr fun entry hentry hother => hfirst ?_
        simp only [CacheEntry.is, Bool.and_eq_true, decide_eq_true_eq] at hsame hother
        exact mem_map.mpr ⟨entry, hentry, by simp [hsame, hother]⟩
      simp [hsame, hnone]
    · simpa [hsame] using ih hrest

/-- The entry of the first repository that has the identity in its last read. -/
def lowest (repos : List RepoEntry) (last : RepoEntry → List CacheEntry) (name tag : String) :
    Option LoadedEntry :=
  repos.findSome? fun repo =>
    ((last repo).find? fun entry => entry.is name tag).map fun entry => ⟨entry, repo.id⟩

theorem lookup_lowest (kind : RepoItemKind) {last : RepoEntry → List CacheEntry}
    (hsorted : repos.Pairwise fun repo later => repo.id < later.id)
    (honce : ∀ repo, ((last repo).map fun entry => (entry.name, entry.tag)).Nodup)
    (name tag : String) :
    lookup_repo_entry kind (repos.flatMap fun repo => (last repo).map fun entry => ⟨entry, repo.id⟩)
      name tag = .ok (lowest repos last name tag) := by
  induction repos with
  | nil => rfl
  | cons first repos ih =>
    obtain ⟨hfirst, hrest⟩ := pairwise_cons.mp hsorted
    have hlength := filter_is_length (honce first) name tag
    have hfound : ((last first).map fun entry => (⟨entry, first.id⟩ : LoadedEntry)).find?
        (fun loaded => loaded.entry.is name tag) =
          ((last first).find? fun entry => entry.is name tag).map fun entry => ⟨entry, first.id⟩ :=
      find?_map
    rw [flatMap_cons, lookup_block (k := first.id), ih hrest, hfound]
    · cases hfind : (last first).find? fun entry => entry.is name tag <;>
        simp [lowest, hfind]
    · simp
    · intro loaded hloaded
      obtain ⟨repo, hrepo, hentry⟩ := mem_flatMap.mp hloaded
      obtain ⟨entry, -, rfl⟩ := mem_map.mp hentry
      exact hfirst repo hrepo
    · simpa [filter_map, Function.comp_def] using hlength

theorem Held.load (h : Held root_of repos history)
    (hids : ∀ repo ∈ repos, attributable_repo_id repo.id = some repo.id)
    (hresolves : Resolves root_of repos canonicalize) :
    load_repo_cache canonicalize repos (repos.flatMap fun repo => history.last repo kind) =
      repos.flatMap fun repo => (history.last repo kind).map fun entry => ⟨entry, repo.id⟩ := by
  rw [load_repo_cache, map_flatMap]
  refine flatMap_congr fun repo hrepo => map_congr_left fun entry hentry => ?_
  have howner := h.owned repo hrepo kind entry hentry
  simp [lookup_repo_id, hresolves.owners, howner, hids repo hrepo]

/-- Where entries are attributed to their repositories, the caches are the last reads in the
order of the ids, and a lookup gives the entry of the lowest repository that has the
identity. -/
theorem the_caches_after_every_refresh (repos : List RepoEntry)
    (hsorted : repos.Pairwise fun repo later => repo.id < later.id)
    (hids : ∀ repo ∈ repos, attributable_repo_id repo.id = some repo.id)
    (root_of : PathBuf → PathBuf) (run : List Refresh) (hrun : run ≠ [])
    (hattributed : ∀ refresh ∈ run, refresh.Attributed root_of repos) :
    ∃ items, (refreshes repos run).caches = some items ∧ ∀ kind,
      (items kind = repos.flatMap fun repo => (refreshes repos run).last repo kind) ∧
      (∀ repo, (((refreshes repos run).last repo kind).map
        fun entry => (entry.name, entry.tag)).Nodup) ∧
      ∀ canonicalize, Resolves root_of repos canonicalize → ∀ name tag,
        lookup_repo_entry kind (load_repo_cache canonicalize repos (items kind)) name tag =
          .ok (lowest repos (fun repo => (refreshes repos run).last repo kind) name tag) := by
  have hnodup : (repos.map (·.id)).Nodup :=
    pairwise_map.mpr (hsorted.imp fun hlt => hlt.ne)
  have hheld : Held root_of repos (refreshes repos run) := Held.new.run hnodup hattributed
  obtain ⟨items, hitems⟩ : ∃ items, (refreshes repos run).caches = some items := caches_some hrun
  have hcaches : ∀ kind, items kind = repos.flatMap fun repo =>
      (refreshes repos run).last repo kind := by
    intro kind
    simpa [hitems] using hheld.caches kind
  refine ⟨items, hitems, fun kind => ⟨hcaches kind, fun repo => hheld.once repo kind, ?_⟩⟩
  intro canonicalize hresolves name tag
  rw [hcaches kind, hheld.load hids hresolves]
  exact lookup_lowest kind hsorted (fun repo => hheld.once repo kind) name tag

def oneNode (name sha256 file : String) : PublishedItems where
  commit := "c0ffee"
  items := fun kind => if kind = .Node then [⟨name, "v1", sha256, [file.toList]⟩] else []
  once := by intro kind; split <;> simp

def readCameras (scope : RefreshScope) : Refresh where
  scope
  canonicalize := some
  published := fun id => .ok (oneNode "camera" (toString id) "camera.json5")

def readNothing (scope : RefreshScope) : Refresh where
  scope
  canonicalize := some
  published := fun _ => .error (.Unreachable, "no route to host")

def pinnedHubs : List RepoEntry :=
  [⟨1, .ok (.Git "hub.git" (.Named "main"))⟩, ⟨2, .ok (.Git "hub.git" (.Named "dev"))⟩]

theorem the_caches_of_two_pinned_hubs :
    ∃ items, (refreshes pinnedHubs [readCameras .Every, readNothing (.Only [2])]).caches =
        some items ∧
      (items .Node).length = 2 ∧
      lookup_repo_entry .Node (load_repo_cache some pinnedHubs (items .Node)) "camera" "v1" =
        .ok (lowest pinnedHubs (fun repo =>
          (refreshes pinnedHubs [readCameras .Every, readNothing (.Only [2])]).last repo .Node)
          "camera" "v1") := by
  have hresolves : ∀ canonicalize, Resolves id pinnedHubs canonicalize := by
    intro canonicalize repo hrepo path hsource
    simp only [pinnedHubs, mem_cons, not_mem_nil, or_false] at hrepo
    rcases hrepo with rfl | rfl <;> cases hsource
  have hapart : Apart id pinnedHubs := by
    simp [Apart, pinnedHubs, RepoSource.Apart, GitRepoRef.configured]
  obtain ⟨items, hitems, hkinds⟩ := the_caches_after_every_refresh pinnedHubs (by simp [pinnedHubs])
    (by decide +kernel) id [readCameras .Every, readNothing (.Only [2])] (by simp)
    fun refresh _ => attributed_of_apart (hresolves refresh.canonicalize) hapart
  obtain ⟨hcaches, -, hlookup⟩ := hkinds .Node
  refine ⟨items, hitems, ?_, hlookup some (hresolves some) "camera" "v1"⟩
  rw [hcaches]
  decide +kernel

def unpinnedFirst : List RepoEntry :=
  [⟨1, .ok (.Git "hub.git" .RemoteHead)⟩, ⟨2, .ok (.Git "hub.git" (.Named "dev"))⟩]

def nestedRoots : List RepoEntry :=
  [⟨1, .ok (.Fs ⟨true, ["hub".toList]⟩)⟩, ⟨2, .ok (.Fs ⟨true, ["hub".toList, "arms".toList]⟩)⟩]

def nodeCaches (repos : List RepoEntry) (run : List Refresh) :
    Option (List CacheEntry) × List CacheEntry :=
  ((refreshes repos run).caches.map fun items => items .Node,
    repos.flatMap fun repo => (refreshes repos run).last repo .Node)

/-- The hub without a ref owns the entries of the other one, and the outer directory those
of the inner one: a lookup is ambiguous, and a refresh drops or doubles an entry. -/
theorem the_entries_of_another_repository : (source_identity some (.Git "hub.git" .RemoteHead) ≠
        source_identity some (.Git "hub.git" (.Named "dev")) ∧
      (nodeCaches unpinnedFirst [readCameras .Every]).1.map (fun entries =>
        lookup_repo_entry .Node (load_repo_cache some unpinnedFirst entries) "camera" "v1") =
        some (.error ⟨"node", "camera:v1", 1, ["camera.json5", "camera.json5"]⟩) ∧
      (nodeCaches unpinnedFirst [readCameras .Every, readCameras (.Only [1])]).1.map
        List.length = some 1 ∧
      (nodeCaches unpinnedFirst [readCameras .Every, readCameras (.Only [1])]).2.length = 2) ∧
    source_identity some (.Fs ⟨true, ["hub".toList]⟩) ≠
        source_identity some (.Fs ⟨true, ["hub".toList, "arms".toList]⟩) ∧
      (nodeCaches nestedRoots [readCameras .Every, readCameras (.Only [2])]).1.map
        List.length = some 3 ∧
      (nodeCaches nestedRoots [readCameras .Every, readCameras (.Only [2])]).2.length = 2 := by
  decide +kernel

end peppy.repo
