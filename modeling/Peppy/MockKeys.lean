-- The key expressions of the mock adapter, where `*` takes one chunk of the key and
-- `**` any number. Two of them intersect when both match some key.
import Peppy.Lib.Chunks
import Peppy.Lib.Patterns

open keys patterns List

namespace peppy.mock

/-! ## The match of the adapter -/

def single_chunk_intersect (a b : String) : Bool :=
  if a = "*" then b ≠ ""
  else if b = "*" then a ≠ ""
  else a = b

def intersect_chunks : List String → List String → Bool
  | [], [] => true
  | [], b0 :: b => (b0 :: b).all (· = "**")
  | a0 :: a, [] => (a0 :: a).all (· = "**")
  | a0 :: a, b0 :: b =>
    if a0 = "**" then intersect_chunks a (b0 :: b) || intersect_chunks (a0 :: a) b
    else if b0 = "**" then intersect_chunks (a0 :: a) b || intersect_chunks a (b0 :: b)
    else single_chunk_intersect a0 b0 && intersect_chunks a b
termination_by a b => a.length + b.length

def key_exprs_intersect (a b : String) : Bool := intersect_chunks (chunks a) (chunks b)

/-! ## The keys of a key expression -/

def piece (chunk : String) : Piece String :=
  if chunk = "**" then .many else if chunk = "*" then .one else .letter chunk

/-- A key expression whose chunks are literals, `*` or `**`. -/
def IsKeyExpr (key_expr : String) : Prop := ∀ chunk ∈ chunks key_expr, chunk ≠ ""

/-- The chunk is no wildcard. -/
def IsConcrete (chunk : String) : Prop := chunk ≠ "" ∧ chunk ≠ "*" ∧ chunk ≠ "**"

instance (chunk : String) : Decidable (IsConcrete chunk) :=
  inferInstanceAs (Decidable (_ ∧ _ ∧ _))

/-- The key has no wildcard. -/
def IsKey (key : String) : Prop := ∀ chunk ∈ chunks key, IsConcrete chunk

/-- The key is one that the expression stands for. -/
def MatchedBy (key_expr key : String) : Prop :=
  Matches ((chunks key_expr).map piece) (chunks key)

instance (key_expr : String) : Decidable (IsKeyExpr key_expr) :=
  inferInstanceAs (Decidable (∀ chunk ∈ chunks key_expr, chunk ≠ ""))

/-! ## The match finds the common keys -/

/-- The chunk is one of a key. -/
def Whole (chunk : String) : Prop := IsConcrete chunk ∧ '/' ∉ chunk.toList

section
variable {a b : String}

theorem piece_eq_many : piece a = .many ↔ a = "**" := by
  unfold piece
  split
  · simp_all
  · split <;> simp_all

theorem whole_of_piece (ha : a ≠ "") (hslash : '/' ∉ a.toList) (hmany : piece a ≠ .many) :
    ∃ chunk, Whole chunk ∧ (piece a).Takes chunk := by
  have hstars : a ≠ "**" := fun h => hmany (piece_eq_many.mpr h)
  by_cases hstar : a = "*"
  · exact ⟨"a", ⟨by decide, by decide⟩, by simp [piece, hstar, Piece.Takes]⟩
  · exact ⟨a, ⟨⟨ha, hstar, hstars⟩, hslash⟩, by simp [piece, hstar, hstars, Piece.Takes]⟩

theorem single_chunk_intersect_iff (ha : a ≠ "") (hb : b ≠ "") (hslash : '/' ∉ a.toList)
    (hslash' : '/' ∉ b.toList) (hmany : a ≠ "**") (hmany' : b ≠ "**") :
    single_chunk_intersect a b = true ↔
      ∃ chunk, Whole chunk ∧ (piece a).Takes chunk ∧ (piece b).Takes chunk := by
  unfold single_chunk_intersect
  by_cases hstar : a = "*"
  · have htakes : ∀ chunk, (piece a).Takes chunk := by
      intro chunk
      simp [piece, hstar, Piece.Takes]
    have hwhole := whole_of_piece hb hslash' (fun h => hmany' (piece_eq_many.mp h))
    rw [if_pos hstar]
    simpa [hb, htakes] using hwhole
  · by_cases hstar' : b = "*"
    · have htakes : ∀ chunk, (piece b).Takes chunk := by
        intro chunk
        simp [piece, hstar', Piece.Takes]
      have hwhole := whole_of_piece ha hslash (fun h => hmany (piece_eq_many.mp h))
      rw [if_neg hstar, if_pos hstar']
      simpa [ha, htakes] using hwhole
    · have hpiece : piece a = .letter a := by simp [piece, hstar, hmany]
      have hpiece' : piece b = .letter b := by simp [piece, hstar', hmany']
      rw [if_neg hstar, if_neg hstar', hpiece, hpiece', decide_eq_true_eq]
      constructor
      · rintro rfl
        exact ⟨a, ⟨⟨ha, hstar, hmany⟩, hslash⟩, rfl, rfl⟩
      · rintro ⟨chunk, -, rfl, h⟩
        exact h

end

theorem all_many_iff (l : List String) :
    (l.all (· = "**")) = true ↔ ∀ p ∈ l.map piece, p = .many := by
  simp [piece_eq_many]

/-- The branching match is complete, by induction along its own recursion. -/
theorem intersect_chunks_iff (a b : List String) (ha : ∀ chunk ∈ a, chunk ≠ "" ∧ '/' ∉ chunk.toList)
    (hb : ∀ chunk ∈ b, chunk ≠ "" ∧ '/' ∉ chunk.toList) :
    intersect_chunks a b = true ↔ Common Whole (a.map piece) (b.map piece) := by
  induction a, b using intersect_chunks.induct with
  | case1 => simp [intersect_chunks, common_nil]
  | case2 b0 b => rw [intersect_chunks, map_nil, common_nil, all_many_iff]
  | case3 a0 a => rw [intersect_chunks, map_nil, common_comm, common_nil, all_many_iff]
  | case4 a b0 b ih1 ih2 =>
    obtain ⟨-, ha'⟩ := forall_mem_cons.mp ha
    obtain ⟨hb0, hb'⟩ := forall_mem_cons.mp hb
    rw [intersect_chunks, if_pos rfl, Bool.or_eq_true, ih1 ha' hb, ih2 ha hb']
    simp only [map_cons]
    have hmany : piece "**" = .many := piece_eq_many.mpr rfl
    rw [hmany, common_many (whole_of_piece hb0.1 hb0.2)]
  | case5 a0 a b hne ih1 ih2 =>
    obtain ⟨ha0, ha'⟩ := forall_mem_cons.mp ha
    obtain ⟨-, hb'⟩ := forall_mem_cons.mp hb
    rw [intersect_chunks, if_neg hne, if_pos rfl, Bool.or_eq_true, ih1 ha hb', ih2 ha' hb]
    simp only [map_cons]
    have hmany : piece "**" = .many := piece_eq_many.mpr rfl
    rw [hmany, common_comm, common_comm (p := a.map piece)]
    exact (common_comm.trans (common_many (whole_of_piece ha0.1 ha0.2))).symm
  | case6 a0 a b0 b hne hne' ih =>
    obtain ⟨ha0, ha'⟩ := forall_mem_cons.mp ha
    obtain ⟨hb0, hb'⟩ := forall_mem_cons.mp hb
    rw [intersect_chunks, if_neg hne, if_neg hne', Bool.and_eq_true, ih ha' hb',
      single_chunk_intersect_iff ha0.1 hb0.1 ha0.2 hb0.2 hne hne', map_cons, map_cons,
      common_cons (fun h => hne (piece_eq_many.mp h)) (fun h => hne' (piece_eq_many.mp h))]

theorem key_of_common {a b : String}
    (h : Common Whole ((chunks a).map piece) ((chunks b).map piece)) :
    ∃ key, IsKey key ∧ MatchedBy a key ∧ MatchedBy b key := by
  suffices hword : ∃ word, word ≠ [] ∧ (∀ chunk ∈ word, Whole chunk) ∧
      Matches ((chunks a).map piece) word ∧ Matches ((chunks b).map piece) word by
    obtain ⟨word, hne, hwhole, hmatches⟩ := hword
    obtain ⟨key, rfl⟩ := exists_chunks hne fun chunk hchunk => (hwhole chunk hchunk).2
    exact ⟨key, fun chunk hchunk => (hwhole chunk hchunk).1, hmatches⟩
  obtain ⟨word, hwhole, hmatches⟩ := h
  cases word with
  | cons chunk word => exact ⟨chunk :: word, cons_ne_nil _ _, hwhole, hmatches⟩
  | nil =>
    -- both are `**` alone, and take one chunk as well as none
    have htakes : ∀ key_expr, Matches ((chunks key_expr).map piece) [] →
        Matches ((chunks key_expr).map piece) ["a"] := by
      intro key_expr hempty
      obtain ⟨first, rest, hchunks⟩ := exists_cons_of_ne_nil (chunks_ne_nil key_expr)
      rw [hchunks, map_cons] at hempty ⊢
      have hmany := matches_empty.mp hempty _ mem_cons_self
      rw [hmany] at hempty ⊢
      exact .more "a" hempty
    refine ⟨["a"], cons_ne_nil _ _, ?_, htakes a hmatches.1, htakes b hmatches.2⟩
    rintro chunk hchunk
    rw [mem_singleton.mp hchunk]
    exact ⟨by decide, by decide⟩

theorem intersect_iff {a b : String} (ha : IsKeyExpr a) (hb : IsKeyExpr b) :
    key_exprs_intersect a b = true ↔ ∃ key, IsKey key ∧ MatchedBy a key ∧ MatchedBy b key := by
  have hwhole : ∀ {key_expr : String}, IsKeyExpr key_expr →
      ∀ chunk ∈ chunks key_expr, chunk ≠ "" ∧ '/' ∉ chunk.toList :=
    fun hexpr chunk hchunk => ⟨hexpr chunk hchunk, slash_notMem_chunks hchunk⟩
  rw [key_exprs_intersect, intersect_chunks_iff _ _ (hwhole ha) (hwhole hb)]
  constructor
  · exact key_of_common
  · rintro ⟨key, hkey, hmatches⟩
    exact ⟨chunks key, fun chunk hchunk => ⟨hkey chunk hchunk, slash_notMem_chunks hchunk⟩, hmatches⟩

/-- The adapter's match of two key expressions: some concrete key is matched by
both. It does not depend on their order. -/
theorem the_key_expressions_that_intersect (a b : String) (ha : IsKeyExpr a) (hb : IsKeyExpr b) :
    (key_exprs_intersect a b = true ↔ ∃ key, IsKey key ∧ MatchedBy a key ∧ MatchedBy b key) ∧
    key_exprs_intersect a b = key_exprs_intersect b a := by
  refine ⟨intersect_iff ha hb, ?_⟩
  rw [Bool.eq_iff_iff, intersect_iff ha hb, intersect_iff hb ha]
  refine exists_congr fun key => and_congr_right fun _ => ?_
  exact And.comm

/-- A subscriber of `a` at any depth and a publisher of some `c`. -/
theorem the_keys_of_a_depth_and_a_name : IsKeyExpr "a/**" ∧ IsKeyExpr "**/c" ∧
      key_exprs_intersect "a/**" "**/c" = key_exprs_intersect "**/c" "a/**" ∧
      (key_exprs_intersect "a/**" "**/c" = true ↔
        ∃ key, IsKey key ∧ MatchedBy "a/**" key ∧ MatchedBy "**/c" key) := by
  have ha : IsKeyExpr "a/**" := by decide
  have hb : IsKeyExpr "**/c" := by decide
  have h := the_key_expressions_that_intersect "a/**" "**/c" ha hb
  exact ⟨ha, hb, h.2, h.1⟩

end peppy.mock
