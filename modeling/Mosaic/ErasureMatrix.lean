import Mathlib.Algebra.BigOperators.Fin
import Mosaic.Availability
import Mosaic.Lib.Elimination

namespace Mosaic
open GF256 Elimination Matrix

/-- Rows of the stated number and length. -/
structure Shaped (rows columns : Nat) (grid : List (List UInt8)) : Prop where
  rows : grid.length = rows
  columns : ∀ row ∈ grid, row.length = columns

/-- The grid as a matrix over the field. -/
def toMatrix (rows columns : Nat) (grid : List (List UInt8)) : Matrix (Fin rows) (Fin columns) GF256 :=
  Matrix.of fun i j => mk (entry grid i j)

section Rows
variable {size width column pivot : Nat} {grid : List (List UInt8)}

theorem Shaped.getD_length (shaped : Shaped size width grid) {i : Nat} (inside : i < size) :
    (grid.getD i []).length = width := by
  have bound : i < grid.length := by rw [shaped.rows]; exact inside
  rw [List.getD_eq_getElem _ _ bound]
  exact shaped.columns _ (List.getElem_mem bound)

theorem getD_exchange (columnInside : column < grid.length) (pivotInside : pivot < grid.length) (i : Nat) :
    (exchange grid column pivot).getD i [] = grid.getD (Equiv.swap column pivot i) [] := by
  rw [Equiv.swap_apply_def]
  simp only [exchange, List.getD_eq_getElem?_getD, List.getElem?_set, List.length_set]
  by_cases atPivot : pivot = i
  · subst atPivot
    by_cases same : pivot = column
    · simp [same, columnInside]
    · simp [same, pivotInside]
  · by_cases atColumn : column = i
    · subst atColumn
      simp [atPivot, columnInside]
    · simp [atPivot, atColumn, Ne.symm atPivot, Ne.symm atColumn]

theorem Shaped.exchange (shaped : Shaped size width grid) (columnInside : column < size) (pivotInside : pivot < size) :
    Shaped size width (Mosaic.exchange grid column pivot) := by
  refine ⟨by simp [Mosaic.exchange, shaped.rows], fun row member => ?_⟩
  rcases List.mem_or_eq_of_mem_set member with earlier | rfl
  · rcases List.mem_or_eq_of_mem_set earlier with kept | rfl
    · exact shaped.columns _ kept
    · exact shaped.getD_length pivotInside
  · exact shaped.getD_length columnInside

theorem getD_map_gfMul (row : List UInt8) (factor : UInt8) (j : Nat) :
    mk ((row.map (gfMul · factor)).getD j 0) = mk factor * mk (row.getD j 0) := by
  simp only [List.getD_eq_getElem?_getD, List.getElem?_map]
  cases row[j]? with
  | none => simp
  | some value => simp [mul_comm]

theorem length_clearRow {scaled entries : List UInt8} (same : entries.length = scaled.length) :
    (clearRow column scaled entries).length = entries.length := by
  simp only [clearRow]
  split
  · rfl
  · rw [List.length_zipWith, same, Nat.min_self]

theorem getD_clearRow {scaled entries : List UInt8} (same : entries.length = scaled.length) (j : Nat) :
    mk ((clearRow column scaled entries).getD j 0) =
      mk (entries.getD j 0) - mk (entries.getD column 0) * mk (scaled.getD j 0) := by
  simp only [clearRow]
  split
  · rename_i zero
    rw [zero, mk_zero, zero_mul, sub_zero]
  · simp only [List.getD_eq_getElem?_getD, List.getElem?_zipWith]
    by_cases inside : j < entries.length
    · rw [List.getElem?_eq_getElem inside, List.getElem?_eq_getElem (same ▸ inside)]
      simp only [Option.getD_some, mk_xor, mk_gfMul]
      rfl
    · rw [List.getElem?_eq_none (by omega), List.getElem?_eq_none (by omega)]
      simp

theorem getD_clearOthers {scaled : List UInt8} {i : Nat} (columnInside : column < grid.length) (inside : i < grid.length) :
    (clearOthers column scaled grid).getD i [] =
      if i = column then scaled else clearRow column scaled (grid.getD i []) := by
  have bound : i < (grid.set column scaled).length := by rw [List.length_set]; exact inside
  rw [clearOthers, List.getD_eq_getElem?_getD, List.getElem?_mapIdx, List.getElem?_eq_getElem bound, Option.map_some,
    Option.getD_some]
  by_cases here : i = column
  · subst here
    rw [if_pos rfl, if_pos rfl, List.getElem_set_self]
  · rw [if_neg here, if_neg here, List.getElem_set_ne (Ne.symm here), List.getD_eq_getElem _ _ inside]

theorem Shaped.of_getD (rows : grid.length = size) (columns : ∀ i < size, (grid.getD i []).length = width) :
    Shaped size width grid := by
  refine ⟨rows, fun row member => ?_⟩
  obtain ⟨i, bound, rfl⟩ := List.mem_iff_getElem.mp member
  rw [← List.getD_eq_getElem _ [] bound]
  exact columns i (rows ▸ bound)

end Rows

/-- The two halves of the augmented rows, over the field. -/
def cells (size : Nat) (grid : List (List UInt8)) : Fin size → Fin size ⊕ Fin size → GF256
  | i, .inl j => mk (entry grid i j)
  | i, .inr j => mk (entry grid i (size + j))

theorem val_swap {size : Nat} (a b i : Fin size) : (Equiv.swap a b i).val = Equiv.swap a.val b.val i.val := by
  rw [Equiv.swap_apply_def, Equiv.swap_apply_def]
  simp only [Fin.ext_iff]
  split
  · rfl
  · split <;> rfl

section Rounds
variable {size : Nat} {grid : List (List UInt8)} {column pivot : Fin size}

theorem eliminateColumn_of_pivot (shaped : Shaped size (size + size) grid) (nonzero : entry grid pivot column ≠ 0)
    (found : (List.range' column (size - column)).find? (fun row => entry grid row column ≠ 0) = some pivot.val) :
    ∃ grid', eliminateColumn size grid column = .ok grid' ∧ Shaped size (size + size) grid' ∧
      cells size grid' = pivotStep Sum.inl (cells size grid) column pivot := by
  have swapped (i : Nat) : (exchange grid column pivot).getD i [] = grid.getD (Equiv.swap column.val pivot.val i) [] :=
    getD_exchange (shaped.rows.symm ▸ column.isLt) (shaped.rows.symm ▸ pivot.isLt) i
  have shapedSwapped := shaped.exchange column.isLt pivot.isLt
  have pivotRow : (exchange grid column pivot).getD column [] = grid.getD pivot [] := by
    rw [swapped, Equiv.swap_apply_left]
  have pivotEntry : entry (exchange grid column pivot) column column = entry grid pivot column := by
    rw [entry, pivotRow, entry]
  let scaled := (grid.getD pivot []).map (gfMul · (mk (entry grid pivot column))⁻¹.byte)
  have scaledLength : scaled.length = size + size := by rw [List.length_map, shaped.getD_length pivot.isLt]
  have atRow (i : Nat) (inside : i < size) :
      (clearOthers column scaled (exchange grid column pivot)).getD i [] =
        if i = column then scaled else clearRow column scaled (grid.getD (Equiv.swap column.val pivot.val i) []) := by
    rw [getD_clearOthers (shapedSwapped.rows.symm ▸ column.isLt) (shapedSwapped.rows.symm ▸ inside), swapped]
  have rowLength (i : Nat) (inside : i < size) :
      (grid.getD (Equiv.swap column.val pivot.val i) []).length = scaled.length := by
    rw [← swapped, shapedSwapped.getD_length inside, scaledLength]
  have atEntry (i : Fin size) (j : Nat) : mk (entry (clearOthers column scaled (exchange grid column pivot)) i j) =
      if i = column then (mk (entry grid pivot column))⁻¹ * mk (entry grid pivot j)
      else mk (entry grid (Equiv.swap column pivot i) j) - mk (entry grid (Equiv.swap column pivot i) column) *
        ((mk (entry grid pivot column))⁻¹ * mk (entry grid pivot j)) := by
    have scaledEntry : mk (scaled.getD j 0) = (mk (entry grid pivot column))⁻¹ * mk (entry grid pivot j) :=
      getD_map_gfMul _ _ j
    rw [entry, atRow i i.isLt, val_swap]
    by_cases here : i = column
    · rw [if_pos here, if_pos (congrArg Fin.val here), scaledEntry]
    · rw [if_neg here, if_neg (fun same => here (Fin.ext same)), getD_clearRow (rowLength i i.isLt), scaledEntry]
      rfl
  refine ⟨clearOthers column scaled (exchange grid column pivot), ?_, .of_getD ?_ ?_, ?_⟩
  · simp only [eliminateColumn, found, pivotEntry, gfInv_eq nonzero, pivotRow]
    rfl
  · rw [clearOthers, List.length_mapIdx, List.length_set, shapedSwapped.rows]
  · intro i inside
    rw [atRow i inside]
    split
    · exact scaledLength
    · rw [length_clearRow (rowLength i inside), rowLength i inside, scaledLength]
  · funext i k
    by_cases here : i = column
    · rw [here, pivotStep_self]
      cases k <;> exact (atEntry column _).trans (if_pos rfl)
    · rw [pivotStep_of_ne here]
      cases k <;> exact (atEntry i _).trans (if_neg here)

/-- A round is an elimination step, or it raises because no row has a pivot. -/
theorem eliminateColumn_cases (shaped : Shaped size (size + size) grid) (column : Fin size) :
    (∃ pivot grid', column ≤ pivot ∧ cells size grid pivot (.inl column) ≠ 0 ∧
      eliminateColumn size grid column = .ok grid' ∧ Shaped size (size + size) grid' ∧
      cells size grid' = pivotStep Sum.inl (cells size grid) column pivot) ∨
    (eliminateColumn size grid column = .error (.availabilityError "erasure matrix is singular") ∧
      ∀ i, column ≤ i → cells size grid i (.inl column) = 0) := by
  cases found : (List.range' column (size - column)).find? fun row => entry grid row column ≠ 0 with
  | none =>
    refine Or.inr ⟨by simp only [eliminateColumn, found], fun i after => mk_eq_zero.mpr ?_⟩
    have member : i.val ∈ List.range' column (size - column) := List.mem_range'_1.mpr ⟨after, by omega⟩
    simpa using List.find?_eq_none.mp found i member
  | some pivot =>
    have nonzero : entry grid pivot column ≠ 0 := by simpa using List.find?_some found
    obtain ⟨after, before⟩ := List.mem_range'_1.mp (List.mem_of_find?_eq_some found)
    obtain ⟨pivot, rfl⟩ : ∃ row : Fin size, row.val = pivot := ⟨⟨pivot, by omega⟩, rfl⟩
    obtain ⟨grid', run, later⟩ := eliminateColumn_of_pivot shaped nonzero found
    exact Or.inl ⟨pivot, grid', after, fun zero => nonzero (mk_eq_zero.mp zero), run, later⟩

end Rounds

/-- After some rounds on the matrix `A` and the identity next to it. -/
structure Reduced {size : Nat} (A : Matrix (Fin size) (Fin size) GF256) (rounds : Nat)
    (grid : List (List UInt8)) : Prop where
  shaped : Shaped size (size + size) grid
  solutions : Solutions (cells size grid) = Solutions (beside A 1)
  cleared : Cleared Sum.inl (cells size grid) {i | i.val < rounds}

section Inverse
variable {size : Nat} {A : Matrix (Fin size) (Fin size) GF256} {grid : List (List UInt8)}

theorem Reduced.step (column : Fin size) (reduced : Reduced A column grid) :
    (∃ grid', eliminateColumn size grid column = .ok grid' ∧ Reduced A (column + 1) grid') ∨
    (eliminateColumn size grid column = .error (.availabilityError "erasure matrix is singular") ∧ A.det = 0) := by
  have fresh (i : Fin size) (after : column ≤ i) : i ∉ {i : Fin size | i.val < column} := by
    intro before
    exact absurd after (not_le.mpr before)
  rcases eliminateColumn_cases reduced.shaped column with
    ⟨pivot, grid', after, nonzero, run, shaped, rows⟩ | ⟨raised, stuck⟩
  · refine Or.inl ⟨grid', run, shaped, ?_, ?_⟩
    · rw [rows, solutions_pivotStep nonzero, reduced.solutions]
    · have cleared := reduced.cleared.pivotStep (fresh column (Fin.le_refl column)) (fresh pivot after) nonzero
      rw [rows]
      intro j member
      refine cleared j ?_
      have before : j.val < column.val + 1 := member
      rcases Nat.lt_succ_iff_lt_or_eq.mp before with earlier | here
      · exact Set.mem_insert_of_mem column earlier
      · exact Set.mem_insert_iff.mpr (Or.inl (Fin.ext here))
  · refine Or.inr ⟨raised, det_eq_zero_of_stuck reduced.solutions reduced.cleared
      (fresh column (Fin.le_refl column)) fun i outside => stuck i ?_⟩
    exact not_lt.mp outside

/-- All the rounds: the loop ends, or it has shown that the matrix is singular. -/
theorem Reduced.run (start : Reduced A 0 grid) {rounds : Nat} (within : rounds ≤ size) :
    (∃ grid', (List.range rounds).foldlM (eliminateColumn size) grid = .ok grid' ∧ Reduced A rounds grid') ∨
    ((List.range rounds).foldlM (eliminateColumn size) grid =
      .error (.availabilityError "erasure matrix is singular") ∧ A.det = 0) := by
  induction rounds with
  | zero => exact Or.inl ⟨grid, rfl, start⟩
  | succ rounds ih =>
    rw [List.range_succ, List.foldlM_append]
    rcases ih (by omega) with ⟨before, ran, reduced⟩ | ⟨raised, singular⟩
    · rw [ran]
      rcases Reduced.step ⟨rounds, within⟩ reduced with ⟨grid', run, later⟩ | ⟨raised, singular⟩
      · refine Or.inl ⟨grid', ?_, later⟩
        simp only [List.foldlM_cons, List.foldlM_nil]
        change (eliminateColumn size before rounds >>= pure) = .ok grid'
        rw [run]
        rfl
      · refine Or.inr ⟨?_, singular⟩
        change (eliminateColumn size before rounds >>= pure) = _
        rw [raised]
        rfl
    · rw [raised]
      exact Or.inr ⟨rfl, singular⟩

theorem getD_identityRow {index j : Nat} (inside : j < size) :
    mk ((identityRow size index).getD j 0) = if j = index then 1 else 0 := by
  rw [identityRow, List.getD_eq_getElem _ _ (by simpa using inside), List.getElem_map, List.getElem_range]
  split <;> rfl

theorem reduced_start {matrix : List (List UInt8)} (shaped : Shaped size size matrix) :
    Reduced (toMatrix size size matrix) 0 (matrix.mapIdx fun index row => row ++ identityRow size index) := by
  have atRow (i : Nat) (inside : i < size) :
      (matrix.mapIdx fun index row => row ++ identityRow size index).getD i [] =
        matrix.getD i [] ++ identityRow size i := by
    have bound : i < matrix.length := shaped.rows.symm ▸ inside
    rw [List.getD_eq_getElem?_getD, List.getElem?_mapIdx, List.getElem?_eq_getElem bound, Option.map_some,
      Option.getD_some, List.getD_eq_getElem _ _ bound]
  refine ⟨.of_getD ?_ ?_, ?_, fun j member => absurd member (Nat.not_lt_zero _)⟩
  · rw [List.length_mapIdx, shaped.rows]
  · intro i inside
    rw [atRow i inside, List.length_append, shaped.getD_length inside, identityRow, List.length_map, List.length_range]
  · have same : cells size (matrix.mapIdx fun index row => row ++ identityRow size index) =
        beside (toMatrix size size matrix) 1 := by
      funext i k
      have length := shaped.getD_length i.isLt
      cases k with
      | inl j =>
        rw [cells, beside, entry, atRow i i.isLt, List.getD_append _ _ _ _ (length.symm ▸ j.isLt)]
        rfl
      | inr j =>
        rw [cells, beside, entry, atRow i i.isLt, List.getD_append_right _ _ _ _ (by omega), length,
          Nat.add_sub_cancel_left, getD_identityRow j.isLt, one_apply]
        simp only [Fin.ext_iff, eq_comm]
    rw [same]

/-- `_matrix_inverse` returns an inverse, or raises because there is none. -/
theorem matrixInverse_cases {matrix : List (List UInt8)} (shaped : Shaped size size matrix) (positive : 0 < size) :
    (∃ inverse, matrixInverse matrix = .ok inverse ∧ Shaped size size inverse ∧
      toMatrix size size inverse * toMatrix size size matrix = 1) ∨
    (matrixInverse matrix = .error (.availabilityError "erasure matrix is singular") ∧
      (toMatrix size size matrix).det = 0) := by
  have square : ¬ (size = 0 ∨ ∃ row ∈ matrix, row.length ≠ size) := by
    rintro (zero | ⟨row, member, other⟩)
    · omega
    · exact other (shaped.columns row member)
  simp only [matrixInverse, shaped.rows, if_neg square]
  rcases (reduced_start shaped).run (Nat.le_refl size) with ⟨reduced, run, after⟩ | ⟨raised, singular⟩
  · refine Or.inl ⟨reduced.map (·.drop size), ?_, ⟨?_, ?_⟩, ?_⟩
    · rw [run]
      rfl
    · rw [List.length_map, after.shaped.rows]
    · intro row member
      obtain ⟨augmented, inside, rfl⟩ := List.mem_map.mp member
      rw [List.length_drop, after.shaped.columns _ inside, Nat.add_sub_cancel]
    · have all : Cleared Sum.inl (cells size reduced) Set.univ := fun j _ => after.cleared j j.isLt
      refine mul_eq_one_of_cleared after.solutions all fun i j => ?_
      have bound : i.val < reduced.length := after.shaped.rows.symm ▸ i.isLt
      simp only [cells, toMatrix, of_apply, entry, List.getD_eq_getElem?_getD, List.getElem?_map,
        List.getElem?_eq_getElem bound, Option.map_some, Option.getD_some, List.getElem?_drop]
  · refine Or.inr ⟨?_, singular⟩
    rw [raised]
    rfl

/-- `_matrix_inverse` inverts the matrices that have an inverse, on both sides, and
raises for exactly the others. -/
theorem matrixInverse_correct {matrix : List (List UInt8)} (positive : 0 < size) (shaped : Shaped size size matrix) :
    (IsUnit (toMatrix size size matrix) → ∃ inverse, matrixInverse matrix = .ok inverse ∧ Shaped size size inverse ∧
      toMatrix size size matrix * toMatrix size size inverse = 1 ∧
      toMatrix size size inverse * toMatrix size size matrix = 1) ∧
    ((∃ message, matrixInverse matrix = .error (.availabilityError message)) ↔ ¬ IsUnit (toMatrix size size matrix)) := by
  rcases matrixInverse_cases shaped positive with ⟨inverse, run, square, left⟩ | ⟨raised, singular⟩
  · have right := mul_eq_one_comm.mp left
    have unit : IsUnit (toMatrix size size matrix) := IsUnit.of_mul_eq_one _ right
    refine ⟨fun _ => ⟨inverse, run, square, right, left⟩, iff_of_false ?_ (not_not.mpr unit)⟩
    rintro ⟨message, raised⟩
    rw [run] at raised
    cases raised
  · have none : ¬ IsUnit (toMatrix size size matrix) := by
      rw [isUnit_iff_isUnit_det, singular]
      exact not_isUnit_zero
    exact ⟨fun unit => absurd unit none, iff_of_true ⟨_, raised⟩ none⟩

/-- The exchange of two rows, which has no pivot where the search begins. -/
theorem matrixInverse_exchange : ∃ inverse, matrixInverse [[0, 1], [1, 0]] = .ok inverse ∧
    toMatrix 2 2 [[0, 1], [1, 0]] * toMatrix 2 2 inverse = 1 := by
  have shaped : Shaped 2 2 [[0, 1], [1, 0]] := ⟨rfl, by decide⟩
  have unit : IsUnit (toMatrix 2 2 [[0, 1], [1, 0]]) := by
    rw [isUnit_iff_isUnit_det, det_fin_two]
    exact IsUnit.of_mul_eq_one 1 (by decide)
  obtain ⟨inverse, run, -, right, -⟩ := (matrixInverse_correct (by decide) shaped).1 unit
  exact ⟨inverse, run, right⟩

end Inverse

section Product
variable {rows columns width : Nat} {grid matrix vector : List (List UInt8)}

/-- A grid is what it says as a matrix. -/
theorem eq_of_toMatrix {grid' : List (List UInt8)} (shaped : Shaped rows columns grid)
    (shaped' : Shaped rows columns grid') (same : toMatrix rows columns grid = toMatrix rows columns grid') :
    grid = grid' := by
  refine List.ext_getElem (shaped.rows.trans shaped'.rows.symm) fun i inside inside' => ?_
  have rowLength := shaped.columns _ (List.getElem_mem inside)
  have rowLength' := shaped'.columns _ (List.getElem_mem inside')
  refine List.ext_getElem (rowLength.trans rowLength'.symm) fun j within within' => ?_
  have atEntry := congrFun (congrFun same ⟨i, shaped.rows ▸ inside⟩) ⟨j, rowLength ▸ within⟩
  have bytes : entry grid i j = entry grid' i j := congrArg byte atEntry
  rwa [entry, entry, List.getD_eq_getElem _ _ inside, List.getD_eq_getElem _ _ inside', List.getD_eq_getElem _ _ within,
    List.getD_eq_getElem _ _ within'] at bytes

theorem combine_fold {terms : List (UInt8 × Bytes)} (uniform : ∀ term ∈ terms, term.2.length = width) {before : Bytes}
    (length : before.length = width) :
    ∃ result, terms.foldlM
        (fun result term =>
          if term.2.length ≠ width then .error (.availabilityError "shards have inconsistent sizes")
          else if term.1 = 0 then .ok result
          else .ok (result.zipWith (fun value byte => value ^^^ gfMul term.1 byte) term.2)) before =
        (.ok result : Except AvailabilityFault Bytes) ∧ result.length = width ∧ ∀ t,
      mk (result.getD t 0) = mk (before.getD t 0) + (terms.map fun term => mk term.1 * mk (term.2.getD t 0)).sum := by
  induction terms generalizing before with
  | nil => exact ⟨before, rfl, length, fun t => by simp⟩
  | cons term terms ih =>
    have same := uniform term (by simp)
    have later : ∀ term ∈ terms, term.2.length = width := fun other member => uniform other (by simp [member])
    simp only [List.foldlM_cons, if_neg (not_not.mpr same), List.map_cons, List.sum_cons]
    by_cases zero : term.1 = 0
    · obtain ⟨result, run, resultLength, value⟩ := ih later length
      refine ⟨result, ?_, resultLength, fun t => ?_⟩
      · rw [if_pos zero]
        exact run
      · rw [value, zero, mk_zero, zero_mul, zero_add]
    · have summed : (before.zipWith (fun value byte => value ^^^ gfMul term.1 byte) term.2).length = width := by
        rw [List.length_zipWith, length, same, Nat.min_self]
      obtain ⟨result, run, resultLength, value⟩ := ih later summed
      refine ⟨result, ?_, resultLength, fun t => ?_⟩
      · rw [if_neg zero]
        exact run
      · rw [value, ← add_assoc]
        congr 1
        simp only [List.getD_eq_getElem?_getD, List.getElem?_zipWith]
        by_cases inside : t < width
        · rw [List.getElem?_eq_getElem (length ▸ inside), List.getElem?_eq_getElem (same ▸ inside)]
          rfl
        · rw [List.getElem?_eq_none (by omega), List.getElem?_eq_none (by omega)]
          simp

theorem sum_zip {n : Nat} {row : List UInt8} (rowLength : row.length = n) (vectorLength : vector.length = n)
    (f : UInt8 × Bytes → GF256) :
    ((row.zip vector).map f).sum = ∑ j : Fin n, f (row.getD j 0, vector.getD j []) := by
  have terms : row.zip vector = List.ofFn fun j : Fin n => (row.getD j 0, vector.getD j []) := by
    refine List.ext_getElem (by simp [rowLength, vectorLength]) fun i inside inside' => ?_
    have bound : i < n := by simpa using inside'
    rw [List.getElem_zip, List.getElem_ofFn, List.getD_eq_getElem _ _ (rowLength.symm ▸ bound),
      List.getD_eq_getElem _ _ (vectorLength.symm ▸ bound)]
  rw [terms, List.map_ofFn, List.sum_ofFn]
  rfl

/-- `_matrix_vector` computes the product. -/
theorem matrixVector_eq (shapedMatrix : Shaped rows columns matrix) (shapedVector : Shaped columns width vector)
    (someRow : 0 < rows) (someColumn : 0 < columns) :
    ∃ result, matrixVector matrix vector = .ok result ∧ Shaped rows width result ∧
      toMatrix rows width result = toMatrix rows columns matrix * toMatrix columns width vector := by
  have uniform (row : List UInt8) : ∀ term ∈ row.zip vector, term.2.length = width :=
    fun term member => shapedVector.columns _ (List.of_mem_zip member).2
  choose line run length value using fun row : List UInt8 => combine_fold (uniform row) (List.length_replicate (n := width))
  have combined (row : List UInt8) : combine width row vector = .ok (line row) := run row
  have rowsRun : matrix.mapM (fun row => combine width row vector) = .ok (matrix.map line) := by
    rw [show (fun row => combine width row vector) = fun row => pure (line row) from funext combined, List.mapM_pure]
    rfl
  have headLength : (matrix.headD []).length = vector.length := by
    have bound : 0 < matrix.length := shapedMatrix.rows.symm ▸ someRow
    obtain ⟨first, others, rfl⟩ := List.exists_cons_of_length_pos bound
    rw [List.headD_cons, shapedMatrix.columns first (by simp), shapedVector.rows]
  have nonempty : matrix ≠ [] := by
    rintro rfl
    exact absurd shapedMatrix.rows (by simp; omega)
  refine ⟨matrix.map line, ?_, ⟨by rw [List.length_map, shapedMatrix.rows], ?_⟩, ?_⟩
  · obtain ⟨first, others, rfl⟩ := List.exists_cons_of_length_pos (shapedVector.rows.symm ▸ someColumn)
    have firstLength : first.length = width := shapedVector.columns first (by simp)
    have passed : ¬ (matrix = [] ∨ (matrix.headD []).length ≠ (first :: others).length) := by
      rintro (none | other)
      · exact nonempty none
      · exact other headLength
    calc matrixVector matrix (first :: others)
        = matrix.mapM fun row => combine first.length row (first :: others) := if_neg passed
      _ = .ok (matrix.map line) := by rw [firstLength, rowsRun]
  · intro row member
    obtain ⟨_, _, rfl⟩ := List.mem_map.mp member
    exact length _
  · funext i t
    have bound : i.val < matrix.length := shapedMatrix.rows.symm ▸ i.isLt
    have rowLength := shapedMatrix.getD_length i.isLt
    have atRow : (matrix.map line).getD i [] = line (matrix.getD i []) := by
      rw [List.getD_eq_getElem _ _ bound, List.getD_eq_getElem _ _ (by simpa using bound), List.getElem_map]
    have zero : mk ((List.replicate width 0).getD t 0) = 0 := by
      rw [List.getD_eq_getElem _ _ (by simp), List.getElem_replicate]
      rfl
    rw [toMatrix, of_apply, entry, atRow, value, zero, zero_add, sum_zip rowLength shapedVector.rows]
    rfl

/-- The rows at the positions. -/
def pick (grid : List (List UInt8)) (positions : List Nat) : List (List UInt8) :=
  positions.map fun i => grid.getD i []

theorem Shaped.pick {positions : List Nat} (shaped : Shaped rows columns grid) (inside : ∀ i ∈ positions, i < rows) :
    Shaped positions.length columns (Mosaic.pick grid positions) := by
  refine ⟨List.length_map _, fun row member => ?_⟩
  obtain ⟨i, here, rfl⟩ := List.mem_map.mp member
  exact shaped.getD_length (inside i here)

/-- Rows of a product are products of rows. -/
theorem pick_product {positions : List Nat} (inside : ∀ i ∈ positions, i < rows)
    (same : toMatrix rows width grid = toMatrix rows columns matrix * toMatrix columns width vector) :
    toMatrix positions.length width (pick grid positions) =
      toMatrix positions.length columns (pick matrix positions) * toMatrix columns width vector := by
  have picked (grid : List (List UInt8)) (i : Fin positions.length) (t : Nat) :
      entry (pick grid positions) i t = entry grid positions[i] t := by
    have bound : i.val < (positions.map fun i => grid.getD i []).length := by simp
    rw [entry, pick, List.getD_eq_getElem _ _ bound, List.getElem_map, entry]
    rfl
  funext i t
  have atRow := congrFun (congrFun same ⟨positions[i], inside _ (List.getElem_mem i.isLt)⟩) t
  simp only [toMatrix, mul_apply, of_apply, picked] at atRow ⊢
  exact atRow

end Product

end Mosaic
