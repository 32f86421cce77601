-- The names that the built-in MCP server gives its deployment and its endpoints.
import Mathlib.Data.List.Dedup
import Mathlib.Data.Prod.Lex
import Mathlib.Data.String.Basic
import Peppy.BuildStorage
import Peppy.Lib.KeyMap
import Peppy.Lib.Recut
import Peppy.Lib.Results
import Peppy.Lib.StableSort
import Peppy.Wire

open keymap stable_sort recut peppy.wire peppy.build_storage List

namespace peppy.mcp_deployment

/-! ## The code -/

abbrev ExposureRef := NodeIdentity

def order (reference : ExposureRef) : String ×ₗ String :=
  toLex (reference.name.as_str, reference.tag)

/-- The sort puts the repeats that `dedup` drops side by side. -/
def built_in_identity (exposures : List ExposureRef) : String :=
  (sortByKey order exposures).dedup.foldl
    (fun name reference => name ++ "_" ++ reference.name.as_str ++ "_" ++ reference.tag) "mcp"

def endpoint_label (name tag : String) : String := name ++ "_" ++ normalize_tag tag

structure PinnedExposure (Document : Type) where
  reference : ExposureRef
  document : Document

inductive McpDeploymentError where
  | NoExposures
  | DuplicateExposure (exposure : String)
  | Other (reason : String)

structure Endpoint where
  kind : String
  description : String

structure McpDeploymentPlan where
  name : String
  endpoints : KeyMap String Endpoint

variable {Document : Type}

def label (exposure : PinnedExposure Document) : String :=
  endpoint_label exposure.reference.name.as_str exposure.reference.tag

/-- `checks` are the checks of the documents and of the manifest. -/
def plan_deployment (title : Document → String)
    (checks : List (PinnedExposure Document) → Except McpDeploymentError Unit)
    (exposures : List (PinnedExposure Document)) : Except McpDeploymentError McpDeploymentPlan :=
  if exposures.isEmpty then .error .NoExposures
  else
    let ordered := sortByKey (order ·.reference) exposures
    let references := ordered.map (·.reference)
    match (references.zip references.tail).find? fun pair => pair.1 = pair.2 with
    | some (_, again) => .error (.DuplicateExposure (again.name.as_str ++ ":" ++ again.tag))
    | none => do
      checks exposures
      return {
        name := built_in_identity references
        endpoints := ordered.foldl (fun m e => m.insert (label e) ⟨"mcp", title e.document⟩) {} }

/-! ## Names that are cut again -/

/-- What stands between the underscores of a text. -/
def parts (text : String) : List (List Char) := text.toList.splitOn '_'

/-- The parts of the name and of the tag, in one spelling of the tags. -/
def cuts (spelling : String → String) (reference : ExposureRef) : List (List (List Char)) :=
  [parts reference.name.as_str, parts (spelling reference.tag)]

/-- The parts of the references of a server, in their order. -/
def identityCuts (exposures : List ExposureRef) : List (List (List Char)) :=
  (sortByKey order exposures).dedup.flatMap (cuts id)

variable {a b : String} {l l' : List ExposureRef} {p q : ExposureRef}

theorem parts_append : parts (a ++ "_" ++ b) = parts a ++ parts b := by
  simp [parts, splitOn_append_cons_self]

theorem parts_inj : parts a = parts b ↔ a = b := by
  refine ⟨fun h => ?_, congrArg parts⟩
  have htext := congrArg (intercalate ['_']) h
  rwa [parts, parts, intercalate_splitOn, intercalate_splitOn, String.toList_inj] at htext

theorem nil_not_mem_cuts (spelling : String → String) : [] ∉ cuts spelling p := by
  have hne (text : List Char) : [] ≠ text.splitOn '_' := Ne.symm (splitOn_ne_nil '_' text)
  simp [cuts, parts, hne]

theorem nil_not_mem_identityCuts : [] ∉ identityCuts l := by
  simp [identityCuts, nil_not_mem_cuts]

theorem parts_foldl (l : List ExposureRef) (s : String) :
    parts (l.foldl (fun name reference => name ++ "_" ++ reference.name.as_str ++ "_" ++
      reference.tag) s) = parts s ++ (l.flatMap (cuts id)).flatten := by
  induction l generalizing s with
  | nil => simp
  | cons reference l ih => simp [ih, parts_append, cuts]

theorem cuts_inj (h : l.flatMap (cuts id) = l'.flatMap (cuts id)) : l = l' := by
  induction l generalizing l' with
  | nil =>
    cases l' with
    | nil => rfl
    | cons r l' => cases h
  | cons r l ih =>
    cases l' with
    | nil => cases h
    | cons r' l' =>
      simp only [flatMap_cons, cuts, cons_append, nil_append, List.cons.injEq, parts_inj] at h
      obtain ⟨hname, htag, h⟩ := h
      rw [NodeIdentity.ext_toList (congrArg _ hname) (congrArg _ htag), ih h]

/-- Two servers of different exposures have one name exactly when their references are cut
again. -/
theorem identity_eq_iff (hne : ∃ r, ¬ (r ∈ l ↔ r ∈ l')) :
    built_in_identity l = built_in_identity l' ↔
      Recut (identityCuts l) (identityCuts l') ∨ Recut (identityCuts l') (identityCuts l) := by
  rw [← parts_inj, built_in_identity, built_in_identity, parts_foldl, parts_foldl,
    append_cancel_left_eq]
  refine (flatten_eq_iff nil_not_mem_identityCuts nil_not_mem_identityCuts).trans
    (or_iff_right fun heq => ?_)
  obtain ⟨r, hr⟩ := hne
  have hmem (l : List ExposureRef) : r ∈ (sortByKey order l).dedup ↔ r ∈ l := by
    rw [mem_dedup, mem_sortByKey]
  exact hr (by rw [← hmem l, cuts_inj heq, hmem])

def labelCuts (exposure : PinnedExposure Document) : List (List (List Char)) :=
  cuts normalize_tag exposure.reference

theorem label_eq_iff {e e' : PinnedExposure Document} : label e = label e' ↔
    labelCuts e = labelCuts e' ∨ Recut (labelCuts e) (labelCuts e') ∨
      Recut (labelCuts e') (labelCuts e) := by
  rw [← parts_inj, label, label, endpoint_label, endpoint_label, parts_append, parts_append,
    labelCuts, labelCuts, ← flatten_eq_iff (nil_not_mem_cuts _) (nil_not_mem_cuts _)]
  simp [cuts]

theorem nodup_of_windows (hsorted : l.Pairwise fun a b => order a ≤ order b)
    (h : (l.zip l.tail).find? (fun pair => pair.1 = pair.2) = none) : l.Nodup := by
  induction l with
  | nil => exact nodup_nil
  | cons a l ih =>
    obtain ⟨hfirst, hsorted⟩ := pairwise_cons.mp hsorted
    cases l with
    | nil => exact nodup_singleton a
    | cons b l =>
      simp only [tail_cons, zip_cons_cons, find?_cons] at h
      split at h
      · cases h
      rename_i hab
      refine nodup_cons.mpr ⟨fun ha => ?_, ih hsorted h⟩
      have hle : order b ≤ order a := by
        rcases mem_cons.mp ha with rfl | ha
        · exact le_refl _
        · exact (pairwise_cons.mp hsorted).1 a ha
      have heq := congrArg ofLex (le_antisymm (hfirst b mem_cons_self) hle)
      simp only [order, ofLex_toLex, Prod.mk.injEq] at heq
      exact of_decide_eq_false hab
        (NodeIdentity.ext_toList (congrArg _ heq.1) (congrArg _ heq.2))

theorem perm_keys_iff {exposures : List (PinnedExposure Document)}
    (hnodup : (exposures.map (·.reference)).Nodup) {keys : List String} (hkeys : keys.Nodup)
    (hmem : ∀ k, k ∈ keys ↔ k ∈ exposures.map label) :
    keys.Perm (exposures.map label) ↔ ∀ e ∈ exposures, ∀ e' ∈ exposures,
      e.reference ≠ e'.reference → label e ≠ label e' := by
  constructor
  · intro hperm e he e' he' hne heq
    exact hne (congrArg _ (inj_on_of_nodup_map (hperm.nodup_iff.mp hkeys) he he' heq))
  · intro hapart
    refine (perm_ext_iff_of_nodup hkeys ?_).mpr hmem
    refine Nodup.map_on (fun e he e' he' heq => ?_) hnodup.of_map
    by_contra hne
    exact hapart e he e' he' (fun h => hne (inj_on_of_nodup_map hnodup he he' h)) heq

/-- Two sets of references name two servers exactly when neither is cut again as the other,
and each exposure has its own endpoint exactly when no two have one label with `-` read as
`_`. -/
theorem exposures_apart_iff (l l' : List ExposureRef) (title : Document → String)
    (checks : List (PinnedExposure Document) → Except McpDeploymentError Unit)
    (exposures : List (PinnedExposure Document)) (plan : McpDeploymentPlan) :
    ((∃ r, ¬ (r ∈ l ↔ r ∈ l')) → (built_in_identity l ≠ built_in_identity l' ↔
      ¬ Recut (identityCuts l) (identityCuts l') ∧ ¬ Recut (identityCuts l') (identityCuts l))) ∧
    (plan_deployment title checks exposures = .ok plan →
      (plan.endpoints.keys.Perm (exposures.map label) ↔
        ∀ e ∈ exposures, ∀ e' ∈ exposures, e.reference ≠ e'.reference →
          labelCuts e ≠ labelCuts e' ∧ ¬ Recut (labelCuts e) (labelCuts e'))) := by
  constructor
  · exact fun hne => (identity_eq_iff hne).not.trans not_or
  · intro h
    rw [plan_deployment] at h
    split_ifs at h
    dsimp only at h
    split at h
    · cases h
    rename_i hwindows
    obtain ⟨_, -, h⟩ := results.bind_ok.mp h
    cases h
    have hperm := sortByKey_perm (order ·.reference) exposures
    have hsorted := pairwise_sortByKey (order ·.reference) exposures
    have hnodup := (hperm.map _).nodup_iff.mp (nodup_of_windows (pairwise_map.mpr hsorted) hwindows)
    refine (perm_keys_iff hnodup (KeyMap.nodup _) fun k => ?_).trans ⟨fun h e he e' he' hne => ?_,
      fun h e he e' he' hne heq => ?_⟩
    · refine KeyMap.mem_keys_iff.trans ?_
      rw [← Option.isSome_iff_ne_none, KeyMap.isSome_get_foldl_insert, (hperm.map label).mem_iff]
      exact or_iff_left Bool.false_ne_true
    · have hlabel := label_eq_iff.not.mp (h e he e' he' hne)
      rw [not_or, not_or] at hlabel
      exact ⟨hlabel.1, hlabel.2.1⟩
    · rcases label_eq_iff.mp heq with hsame | hrecut | hrecut
      · exact (h e he e' he' hne).1 hsame
      · exact (h e he e' he' hne).2 hrecut
      · exact (h e' he' e he hne.symm).2 hrecut

/-- The exposures `arm:left_v1` and `arm_left:v1` have servers of one name, and one endpoint
in a server of both. -/
theorem exposures_that_run_together :
    ARM ≠ ARM_LEFT ∧ built_in_identity [ARM] = built_in_identity [ARM_LEFT] ∧
      ((plan_deployment (fun _ : Unit => "arm") (fun _ => .ok ())
        [⟨ARM, ()⟩, ⟨ARM_LEFT, ()⟩]).toOption.map (·.endpoints.keys)) = some ["arm_left_v1"] := by
  decide +kernel

end peppy.mcp_deployment
