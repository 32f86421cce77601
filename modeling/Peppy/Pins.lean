-- The pins of a deployment: the root that the launcher names and the closure that the
-- coordinator resolved under it, as `DeploymentPins::new` accepts them.
import Mathlib.Data.List.Nodup
import Peppy.Lib.Results

open List

namespace peppy.pins

/-! ## The code -/

inductive PinKind where
  | Node
  | Contract
  | Pairing
  | McpExposure
  deriving DecidableEq

def PinKind.fmt : PinKind → String
  | .Node => "node"
  | .Contract => "contract"
  | .Pairing => "pairing"
  | .McpExposure => "mcp_exposure"

structure PinnedItem where
  kind : PinKind
  name : String
  tag : String
  sha256 : String

def PinnedItem.label (pin : PinnedItem) : String :=
  pin.kind.fmt ++ " `" ++ pin.name ++ ":" ++ pin.tag ++ "`"

def PinnedItem.identity (pin : PinnedItem) : PinKind × String × String :=
  (pin.kind, pin.name, pin.tag)

inductive DeploymentRoot where
  | Node (pin : PinnedItem)
  | Exposures (pins : List PinnedItem)

def DeploymentRoot.items : DeploymentRoot → List PinnedItem
  | .Node pin => [pin]
  | .Exposures pins => pins

/-- The loop over the exposures. `before` are those that it has passed. -/
def check_exposures (before : List PinnedItem) : List PinnedItem → Except String Unit
  | [] => .ok ()
  | pin :: pins =>
    if pin.kind ≠ .McpExposure then
      .error ("a built-in MCP deployment's root pins must be exposures, got " ++ pin.label)
    else if before.any fun other => other.name = pin.name ∧ other.tag = pin.tag then
      .error (pin.label ++ " is pinned twice in one deployment")
    else check_exposures (before ++ [pin]) pins

def DeploymentRoot.check : DeploymentRoot → Except String Unit
  | .Node pin =>
    if pin.kind ≠ .Node then .error ("a deployment's root pin must be a node, got " ++ pin.label)
    else .ok ()
  | .Exposures pins =>
    if pins = [] then .error "a built-in MCP deployment pins no exposure"
    else check_exposures [] pins

/-- The loop that compares a pin with the first of its identity. -/
def check_closure (before : List PinnedItem) : List PinnedItem → Except String Unit
  | [] => .ok ()
  | pin :: pins =>
    match before.find? fun other => other.identity = pin.identity with
    | some other =>
      if other.sha256 ≠ pin.sha256 then
        .error (pin.label ++ " is pinned at two different contents in one closure (`" ++
          other.sha256 ++ "` and `" ++ pin.sha256 ++ "`)")
      else check_closure (before ++ [pin]) pins
    | none => check_closure (before ++ [pin]) pins

structure DeploymentPins where
  root : DeploymentRoot
  closure : List PinnedItem

def DeploymentPins.new (root : DeploymentRoot) (closure : List PinnedItem) :
    Except String DeploymentPins := do
  root.check
  check_closure [] closure
  return ⟨root, closure⟩

def DeploymentPins.items (pins : DeploymentPins) : List PinnedItem :=
  pins.root.items ++ pins.closure

/-! ## One identity, one content -/

/-- An identity has one content. -/
def OneContent (pins : List PinnedItem) : Prop :=
  ∀ pin ∈ pins, ∀ other ∈ pins, other.identity = pin.identity → other.sha256 = pin.sha256

variable {before l : List PinnedItem}

theorem OneContent.snoc {pin : PinnedItem} (h : OneContent before)
    (hpin : ∀ other ∈ before, other.identity = pin.identity → other.sha256 = pin.sha256) :
    OneContent (before ++ [pin]) := by
  intro a ha b hb hsame
  rw [mem_append, mem_singleton] at ha hb
  rcases ha with ha | rfl <;> rcases hb with hb | rfl
  · exact h a ha b hb hsame
  · exact (hpin a ha hsame.symm).symm
  · exact hpin b hb hsame
  · rfl

/-- The first pin of an identity stands for those before it. -/
theorem oneContent_of_check (h : OneContent before) (hl : check_closure before l = .ok ()) :
    OneContent (before ++ l) := by
  induction l generalizing before with
  | nil => rwa [append_nil]
  | cons pin l ih =>
    rw [append_cons]
    rw [check_closure] at hl
    split at hl
    · rename_i first hfirst
      split_ifs at hl with hsha
      have hsame : first.identity = pin.identity := by simpa using find?_some hfirst
      refine ih (h.snoc fun other hother hpin => ?_) hl
      rw [h first (mem_of_find?_eq_some hfirst) other hother (hpin.trans hsame.symm)]
      exact not_not.mp hsha
    · rename_i hnone
      refine ih (h.snoc fun other hother hpin => ?_) hl
      exact absurd hpin (by simpa using find?_eq_none.mp hnone other hother)

theorem oneContent_of_exposures (h : OneContent before) (hl : check_exposures before l = .ok ()) :
    OneContent (before ++ l) := by
  induction l generalizing before with
  | nil => rwa [append_nil]
  | cons pin l ih =>
    rw [append_cons]
    rw [check_exposures] at hl
    split_ifs at hl with hkind hany
    refine ih (h.snoc fun other hother hsame => ?_) hl
    simp only [PinnedItem.identity, Prod.mk.injEq] at hsame
    exact absurd (any_eq_true.mpr ⟨other, hother, by simp [hsame]⟩) hany

theorem oneContent_root {root : DeploymentRoot} (h : root.check = .ok ()) :
    OneContent root.items := by
  cases root with
  | Node pin => simp [OneContent, DeploymentRoot.items]
  | Exposures pins =>
    rw [DeploymentRoot.check] at h
    split_ifs at h
    have hone := oneContent_of_exposures (by simp [OneContent]) h
    exact hone

/-- The accepted pins have one content for each identity just when no pin of the closure
differs from a root pin of its identity: nothing compares these two. -/
theorem one_content_unless_the_closure_differs_from_the_root {root : DeploymentRoot}
    {closure : List PinnedItem} {pins : DeploymentPins}
    (h : DeploymentPins.new root closure = .ok pins) :
    OneContent pins.items ↔ ∀ pin ∈ pins.root.items, ∀ other ∈ pins.closure,
      other.identity = pin.identity → other.sha256 = pin.sha256 := by
  obtain ⟨_, hroot, h⟩ := results.bind_ok.mp h
  obtain ⟨_, hclosure, h⟩ := results.bind_ok.mp h
  cases h
  constructor
  · intro hone pin hpin other hother
    exact hone pin (mem_append_left _ hpin) other (mem_append_right _ hother)
  intro hacross a ha b hb hsame
  rcases mem_append.mp ha with ha | ha <;> rcases mem_append.mp hb with hb | hb
  · exact oneContent_root hroot a ha b hb hsame
  · exact hacross a ha b hb hsame
  · exact (hacross b hb a ha hsame.symm).symm
  · exact oneContent_of_check (by simp [OneContent]) hclosure a ha b hb hsame

def camera (kind : PinKind) (digit : Char) : PinnedItem :=
  ⟨kind, "camera", "v1", String.ofList (replicate 64 digit)⟩

theorem one_content_of_camera : OneContent (DeploymentPins.items
      ⟨.Node (camera .Node 'a'), [camera .Node 'a', camera .Contract 'b']⟩) := by
  have h : DeploymentPins.new (.Node (camera .Node 'a'))
      [camera .Node 'a', camera .Contract 'b'] = .ok _ := rfl
  apply (one_content_unless_the_closure_differs_from_the_root h).mpr
  simp [DeploymentRoot.items, PinnedItem.identity, camera]

/-- A closure may pin the node of the root at another content. -/
theorem camera_at_two_contents : DeploymentPins.new (.Node (camera .Node 'a')) [camera .Node 'b'] =
        .ok ⟨.Node (camera .Node 'a'), [camera .Node 'b']⟩ ∧
      ¬ OneContent (DeploymentPins.items ⟨.Node (camera .Node 'a'), [camera .Node 'b']⟩) := by
  refine ⟨rfl, fun h => ?_⟩
  have heq := h (camera .Node 'a') (by simp [DeploymentPins.items, DeploymentRoot.items])
    (camera .Node 'b') (by simp [DeploymentPins.items]) rfl
  revert heq
  decide

end peppy.pins
