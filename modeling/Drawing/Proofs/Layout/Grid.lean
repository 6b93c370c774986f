import Drawing.Proofs.Layout.Instances
import Mathlib.Data.List.Range
import Mathlib.Tactic.Linarith
import Mathlib.Tactic.Ring

/-!
# `Drawing/Proofs/Layout/Grid.lean` — where the copies of a grid stand

A grid is written down row by row, so the cell in a row and a column is found by its number in the list, and a number is
taken apart into row and column by division. Counting from the end instead of the start turns both around. The first cell
lies half of all steps before the base, and that makes the grid symmetric:

> **A cell and the one that is as far from the end as it is from the start** have the base in the middle between them.

This holds for even and odd numbers of cells, for a single row, and for any spacing. Numbers are exact here.
-/

namespace Drawing

namespace Stage

/-! ## Row by row -/

section

variable {β : Type} {f : Nat → Nat → β} {columns rows row column k : Nat}

/-- The cells of a grid, one row behind the other. -/
def rowMajor (f : Nat → Nat → β) (columns rows : Nat) : List β :=
  (List.range rows).flatMap fun row => (List.range columns).map (f row)

theorem length_rowMajor : (rowMajor f columns rows).length = columns * rows := by
  simp [rowMajor, List.length_flatMap, Nat.mul_comm]

theorem getElem?_rowMajor (hrow : row < rows) (hcolumn : column < columns) :
    (rowMajor f columns rows)[row * columns + column]? = some (f row column) := by
  induction rows with
  | zero => exact absurd hrow (Nat.not_lt_zero row)
  | succ rows ih =>
    have hsplit : rowMajor f columns (rows + 1) = rowMajor f columns rows ++ (List.range columns).map (f rows) := by
      simp [rowMajor, List.range_succ]
    rw [hsplit]
    rcases Nat.lt_succ_iff_lt_or_eq.mp hrow with hlt | rfl
    · have hinside : row * columns + column < (rowMajor f columns rows).length := by
        rw [length_rowMajor, Nat.mul_comm columns]
        calc row * columns + column < row * columns + columns := Nat.add_lt_add_left hcolumn _
          _ = (row + 1) * columns := (Nat.succ_mul row columns).symm
          _ ≤ rows * columns := Nat.mul_le_mul_right columns hlt
      rw [List.getElem?_append_left hinside]
      exact ih hlt
    · rw [List.getElem?_append_right (by simp [length_rowMajor, Nat.mul_comm])]
      simp [length_rowMajor, Nat.mul_comm, hcolumn]

/-- Counted from the end, a cell is in the row and the column that are as far from the end as its own are from the
start. -/
theorem fromEnd_rowMajor (hrow : row < rows) (hcolumn : column < columns) :
    columns * rows - 1 - (row * columns + column) = (rows - 1 - row) * columns + (columns - 1 - column) := by
  obtain ⟨r, rfl⟩ := Nat.exists_eq_add_of_lt hrow
  obtain ⟨c, rfl⟩ := Nat.exists_eq_add_of_lt hcolumn
  have hrows : row + r + 1 - 1 - row = r := by omega
  have hcolumns : column + c + 1 - 1 - column = c := by omega
  have htotal : (column + c + 1) * (row + r + 1) =
      (row * (column + c + 1) + column) + (r * (column + c + 1) + c) + 1 := by ring
  rw [hrows, hcolumns, htotal]
  omega

end

/-! ## Cells -/

/-- The cell in a row and a column of a grid around a base. -/
def gridCell (base : Point Rat) (columns rows : Nat) (stepX stepY : Rat) (row column : Nat) : Point Rat :=
  ⟨base.x + (column - (columns - 1) / 2) * stepX, base.y + (row - (rows - 1) / 2) * stepY⟩

theorem gridPositions_exact (base : Point Rat) (columns rows : Nat) (stepX stepY : Rat) :
    gridPositions base columns rows stepX stepY = .ok (rowMajor (gridCell base columns rows stepX stepY) columns rows) := by
  have hstart (b step : Rat) (cells : Nat) : gridStart b cells step = .ok (b - (cells - 1) * step / 2) := by
    have hsteps : (Numeral.whole ((cells : Int) - 1) : Numeral Rat).toScalar = .ok ((cells : Rat) - 1) := by
      rw [Numeral.toScalar_exact]
      simp [Numeral.value, Scalar.ofInt]
    exact bind_eq_ok_iff.mpr ⟨_, hsteps, rfl⟩
  refine bind_eq_ok_iff.mpr ⟨_, hstart base.x stepX columns, bind_eq_ok_iff.mpr ⟨_, hstart base.y stepY rows, ?_⟩⟩
  have hcell (row column : Nat) : (⟨base.x - (columns - 1) * stepX / 2 + Scalar.ofNat column * stepX,
      base.y - (rows - 1) * stepY / 2 + Scalar.ofNat row * stepY⟩ : Point Rat) =
        gridCell base columns rows stepX stepY row column := by
    have hnat (n : Nat) : (Scalar.ofNat n : Rat) = n := by simp [Scalar.ofNat]
    unfold gridCell
    rw [hnat, hnat]
    congr 1 <;> ring
  simp only [hcell]
  rfl

section

variable {base : Point Rat} {columns rows row column : Nat} {stepX stepY : Rat}

/-- Two cells that are opposite to each other have the base in the middle between them. -/
theorem gridCell_opposite (hrow : row < rows) (hcolumn : column < columns) :
    (gridCell base columns rows stepX stepY row column).x +
        (gridCell base columns rows stepX stepY (rows - 1 - row) (columns - 1 - column)).x = 2 * base.x ∧
      (gridCell base columns rows stepX stepY row column).y +
        (gridCell base columns rows stepX stepY (rows - 1 - row) (columns - 1 - column)).y = 2 * base.y := by
  have hcast {n i : Nat} (h : i < n) : ((n - 1 - i : Nat) : Rat) = n - 1 - i := by
    rw [Nat.cast_sub (by omega), Nat.cast_sub (by omega), Nat.cast_one]
  unfold gridCell
  rw [hcast hrow, hcast hcolumn]
  constructor <;> ring

theorem gridCell_right : gridCell base columns rows stepX stepY row (column + 1) =
    (gridCell base columns rows stepX stepY row column).shift stepX 0 := by
  unfold gridCell Point.shift
  rw [Nat.cast_succ]
  congr 1 <;> ring

theorem gridCell_below : gridCell base columns rows stepX stepY (row + 1) column =
    (gridCell base columns rows stepX stepY row column).shift 0 stepY := by
  unfold gridCell Point.shift
  rw [Nat.cast_succ]
  congr 1 <;> ring

/-- In the list of all cells the one that is as far from the end as a given one is from the start is opposite to it. -/
theorem opposite_rowMajor {k : Nat} (hk : k < columns * rows) :
    ∃ p q, (rowMajor (gridCell base columns rows stepX stepY) columns rows)[k]? = some p ∧
      (rowMajor (gridCell base columns rows stepX stepY) columns rows)[columns * rows - 1 - k]? = some q ∧
      p.x + q.x = 2 * base.x ∧ p.y + q.y = 2 * base.y := by
  have hcolumns : 0 < columns := Nat.pos_of_mul_pos_right (Nat.zero_lt_of_lt hk)
  -- the number of a cell is taken apart into its row and its column
  have hrow : k / columns < rows := Nat.div_lt_of_lt_mul hk
  have hcolumn : k % columns < columns := Nat.mod_lt k hcolumns
  have hplace : k / columns * columns + k % columns = k := Nat.div_add_mod' k columns
  have hback {n i : Nat} (h : i < n) : n - 1 - i < n := by omega
  have hfirst := getElem?_rowMajor (f := gridCell base columns rows stepX stepY) hrow hcolumn
  have hlast := getElem?_rowMajor (f := gridCell base columns rows stepX stepY) (hback hrow) (hback hcolumn)
  rw [← fromEnd_rowMajor hrow hcolumn, hplace] at hlast
  rw [hplace] at hfirst
  exact ⟨_, _, hfirst, hlast, gridCell_opposite hrow hcolumn⟩

end

section

variable [Trig Rat] {s : Stage Rat} {layout : EffectiveLayout Rat} {r : Repetition Rat}

/-- The cell in a row and a column of a repetition in a region. -/
def cellOf (r : Repetition Rat) (box : Box Rat) (base : Point Rat) : Nat → Nat → Point Rat :=
  gridCell base (gridShape r.count).1 (gridShape r.count).2 (r.spacing.getD defaultSpacing * box.width)
    (r.spacing.getD defaultSpacing * box.height)

/-- A layout that repeats a shape on a grid has the cells of the grid as its origins. -/
theorem positions_grid {box : Box Rat} (hbox : s.regionBox layout.region = .ok box)
    (hrepetition : layout.repetition = some r) (hgrid : r.pattern = .grid) (base : Point Rat) :
    s.positions layout base =
      .ok (rowMajor (cellOf r box base) (gridShape r.count).1 (gridShape r.count).2) := by
  unfold positions cellOf
  rw [hrepetition]
  dsimp only
  rw [hgrid, mul_comm _ box.width, mul_comm _ box.height]
  exact bind_eq_ok_iff.mpr ⟨box, hbox, gridPositions_exact base _ _ _ _⟩

/-- **The copies of a grid.** In every region of every canvas, around every base and for every spacing, a grid has as many
cells as its columns times its rows. They are listed row by row. One step to the right is the spacing as a share of the
width of the region, one step down the spacing as a share of its height, and any two cells that are equally far from the
start and from the end of the list have the base in the middle between them. -/
theorem positions_symmetric (hregion : s.catalog.isValid layout.region = true)
    (hrepetition : layout.repetition = some r) (hgrid : r.pattern = .grid) (base : Point Rat) :
    letI columns := (gridShape r.count).1
    letI rows := (gridShape r.count).2
    letI spacing := r.spacing.getD defaultSpacing
    ∃ box origins, ∃ cell : Nat → Nat → Point Rat, s.regionBox layout.region = .ok box ∧
      s.positions layout base = .ok origins ∧ origins.length = columns * rows ∧
      (∀ row column, row < rows → column < columns → origins[row * columns + column]? = some (cell row column)) ∧
      (∀ row column, cell row (column + 1) = (cell row column).shift (spacing * box.width) 0) ∧
      (∀ row column, cell (row + 1) column = (cell row column).shift 0 (spacing * box.height)) ∧
      ∀ k, k < columns * rows → ∃ p q, origins[k]? = some p ∧ origins[columns * rows - 1 - k]? = some q ∧
        p.x + q.x = 2 * base.x ∧ p.y + q.y = 2 * base.y := by
  obtain ⟨box, hbox⟩ := (exists_regionBox_iff hregion).mpr ⟨_, rfl⟩
  refine ⟨box, _, cellOf r box base, hbox, positions_grid hbox hrepetition hgrid base, length_rowMajor, ?_, ?_, ?_, ?_⟩
  · intro row column hrow hcolumn
    exact getElem?_rowMajor hrow hcolumn
  · intro row column
    exact gridCell_right
  · intro row column
    exact gridCell_below
  · intro k hk
    exact opposite_rowMajor hk

end

/-- Five tiles in a row without a spacing, in a region at the side. -/
def tileRow : EffectiveLayout Rat :=
  ⟨"middle_left", "top_left", ⟨1 / 4, 0⟩, none, some ⟨.grid, .one 5, none, none⟩⟩

theorem positions_symmetric_tileRow :
    letI := Trig.flat
    letI s : Stage Rat := ⟨.ofAspect .square, .empty⟩
    s.catalog.isValid tileRow.region = true ∧ tileRow.repetition = some ⟨.grid, .one 5, none, none⟩ ∧
      ∃ origins p q, s.positions tileRow ⟨200, 90⟩ = .ok origins ∧ origins.length = 5 ∧ origins[1]? = some p ∧
        origins[3]? = some q ∧ p.x + q.x = 400 ∧ p.y + q.y = 180 := by
  let _ := Trig.flat
  have hregion : (Catalog.empty : Catalog Rat).isValid tileRow.region = true := by decide
  obtain ⟨box, origins, cell, -, horigins, hlength, -, -, -, hopposite⟩ :=
    positions_symmetric (s := ⟨.ofAspect .square, .empty⟩) hregion rfl rfl ⟨200, 90⟩
  obtain ⟨p, q, hp, hq, hx, hy⟩ := hopposite 1 (by decide)
  exact ⟨hregion, rfl, origins, p, q, horigins, hlength, hp, hq, hx.trans (by norm_num), hy.trans (by norm_num)⟩

end Stage

end Drawing
