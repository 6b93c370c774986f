import Drawing.Proofs.Document.Inside
import Drawing.Proofs.Region.Catalog
import Mathlib.Tactic.NormNum

/-!
# `Drawing/Proofs/Region/Lookup.lean` — the region at a point

The regions of a catalog overlap, so a point may lie in several, and which of them is found is a matter of order: custom
regions come first, in the order in which their names were first accepted, and then the cells of the grid, row by row. The
first one whose box contains the point is found. The canvas as a whole stands behind all of them for a point that lies in
none, but no point of the canvas is left for it:

> **the cells of the grid cover the canvas, and nothing else** (`IsSound.on_iff_cell`).

A custom region may reach a billionth past the canvas, and a point there is found in it. Numbers are exact here, so
neighbouring cells share an edge.
-/

namespace Drawing

/-- A place is on a canvas exactly if its point is. -/
theorem Canvas.covers_exact (canvas : Canvas Rat) (x y : Numeral Rat) :
    canvas.covers x y = true ↔ (⟨x.value, y.value⟩ : Point Rat).On (canvas.width, canvas.height) := by
  have hzero : (Numeral.whole 0 : Numeral Rat).value = 0 := rfl
  have hwhole (n : Nat) : (Numeral.whole n : Numeral Rat).value = n := rfl
  rw [Canvas.covers, Bool.and_eq_true, Numeral.isWithin_exact, Numeral.isWithin_exact, hzero, hwhole, hwhole, and_assoc]
  rfl

namespace Catalog

/-- The names of the cells of the grid, row by row. -/
def cellNames : List String := reservedNames.filter (· != wholeCanvas)

section

variable {c : Catalog Rat} {canvas : Canvas Rat} {p : Point Rat} {name : String} {names : List String}

/-- A region whose box contains a point of a canvas, or has it on its edge. -/
def Covers (c : Catalog Rat) (canvas : Canvas Rat) (p : Point Rat) (name : String) : Prop :=
  ∃ box, c.pixelBounds canvas name = .ok box ∧
    (box.x ≤ p.x ∧ p.x ≤ box.x + box.width) ∧ box.y ≤ p.y ∧ p.y ≤ box.y + box.height

/-- The first of some regions that covers a point. -/
def IsFirst (c : Catalog Rat) (canvas : Canvas Rat) (p : Point Rat) (names : List String) (name : String) : Prop :=
  c.Covers canvas p name ∧ ∃ before rest, names = before ++ name :: rest ∧ ∀ n ∈ before, ¬ c.Covers canvas p n

theorem covers_iff {box : Box Rat} (hbox : c.pixelBounds canvas name = .ok box) :
    c.Covers canvas p name ↔ box.contains p = true := by
  rw [Box.contains_iff]
  constructor
  · rintro ⟨box', hbox', hin⟩
    exact Except.ok.inj (hbox'.symm.trans hbox) ▸ hin
  · exact fun hin => ⟨box, hbox, hin⟩

theorem IsFirst.cons {n : String} (h : c.IsFirst canvas p names name) (hn : ¬ c.Covers canvas p n) :
    c.IsFirst canvas p (n :: names) name := by
  obtain ⟨hcovers, before, rest, rfl, hbefore⟩ := h
  exact ⟨hcovers, n :: before, rest, rfl, List.forall_mem_cons.mpr ⟨hn, hbefore⟩⟩

/-- What comes first among two lists comes first in one of them. -/
theorem IsFirst.of_append {more : List String} (h : c.IsFirst canvas p (names ++ more) name) :
    c.IsFirst canvas p names name ∨ (∀ n ∈ names, ¬ c.Covers canvas p n) ∧ c.IsFirst canvas p more name := by
  obtain ⟨hcovers, before, rest, heq, hbefore⟩ := h
  rcases List.append_eq_append_iff.mp heq with ⟨middle, rfl, hmore⟩ | ⟨middle, rfl, hmiddle⟩
  · obtain ⟨hnames, hbefore⟩ := List.forall_mem_append.mp hbefore
    exact .inr ⟨hnames, hcovers, middle, rest, hmore, hbefore⟩
  · cases middle with
    | nil => exact .inr ⟨by simpa using hbefore, hcovers, [], rest, hmiddle.symm, nofun⟩
    | cons n middle =>
      obtain ⟨rfl, -⟩ := List.cons.inj hmiddle
      exact .inl ⟨hcovers, before, middle, rfl, hbefore⟩

theorem IsFirst.mem (h : c.IsFirst canvas p names name) : name ∈ names := by
  obtain ⟨-, before, rest, rfl, -⟩ := h
  exact List.mem_append_right before List.mem_cons_self

/-- Regions that are there are looked through in order. -/
theorem firstContaining_spec (canvas : Canvas Rat) (p : Point Rat) (hnames : ∀ n ∈ names, c.isValid n = true) :
    ∃ found, c.firstContaining canvas p names = .ok found ∧
      (∀ name, found = some name → c.IsFirst canvas p names name) ∧
      (found = none → ∀ n ∈ names, ¬ c.Covers canvas p n) := by
  induction names with
  | nil => exact ⟨none, rfl, nofun, fun _ => nofun⟩
  | cons n names ih =>
    obtain ⟨hn, hnames⟩ := List.forall_mem_cons.mp hnames
    obtain ⟨b, hb⟩ := bounds_of_isValid hn
    have hbox : c.pixelBounds canvas n = .ok (b.scale canvas.width canvas.height) := pixelBounds_exact hb canvas
    unfold firstContaining
    rw [hbox]
    dsimp only [bind, Except.bind]
    by_cases hin : (b.scale (canvas.width : Rat) canvas.height).contains p = true
    · rw [if_pos hin]
      refine ⟨some n, rfl, fun name hname => ?_, nofun⟩
      obtain rfl := Option.some.inj hname
      exact ⟨(covers_iff hbox).mpr hin, [], names, rfl, nofun⟩
    · rw [if_neg hin]
      have hout : ¬ c.Covers canvas p n := mt (covers_iff hbox).mp hin
      obtain ⟨found, hfound, hsome, hnone⟩ := ih hnames
      exact ⟨found, hfound, fun name hname => (hsome name hname).cons hout,
        fun h => List.forall_mem_cons.mpr ⟨hout, hnone h⟩⟩

/-! ## The grid -/

/-- Where the rows and columns of the grid begin, and how long they are. -/
def thirds : List (Rat × Rat) := [(0, 0.33), (0.33, 0.34), (0.67, 0.33)]

/-- The rows leave no gap, and neither do the columns. -/
theorem exists_third {t : Rat} (h0 : 0 ≤ t) (h1 : t ≤ 1) : ∃ s ∈ thirds, s.1 ≤ t ∧ t ≤ s.1 + s.2 := by
  rcases le_total t 0.33 with h | h
  · exact ⟨(0, 0.33), by simp [thirds], h0, by linarith⟩
  rcases le_total t 0.67 with h' | h'
  · exact ⟨(0.33, 0.34), by simp [thirds], h, by norm_num; linarith⟩
  · exact ⟨(0.67, 0.33), by simp [thirds], h', by norm_num; linarith⟩

/-- There is a cell for every row and column. -/
theorem exists_cell : ∀ column ∈ thirds, ∀ row ∈ thirds, ∃ name ∈ cellNames,
    Table.get? reservedRegions name = some (⟨column.1, row.1, column.2, row.2⟩ : Box Rat) := by decide +kernel

/-- The far edges of a reserved region are on the canvas, not just nearly so. -/
theorem reserved_edges : ∀ p ∈ (reservedRegions : Table (Box Rat)),
    (0 ≤ p.2.x ∧ p.2.x + p.2.width ≤ 1) ∧ 0 ≤ p.2.y ∧ p.2.y + p.2.height ≤ 1 := by decide +kernel

theorem mem_reservedNames_of_cell (hname : name ∈ cellNames) : name ∈ reservedNames := (List.mem_filter.mp hname).1

theorem covers_reserved_iff (hsound : c.IsSound) {b : Box Rat} (hb : Table.get? reservedRegions name = some b) :
    c.Covers canvas p name ↔ (b.x * canvas.width ≤ p.x ∧ p.x ≤ (b.x + b.width) * canvas.width) ∧
      b.y * canvas.height ≤ p.y ∧ p.y ≤ (b.y + b.height) * canvas.height := by
  rw [covers_iff (pixelBounds_exact (hsound.bounds_reserved hb) canvas), Box.contains_iff]
  unfold Box.scale
  rw [add_mul, add_mul]

/-- A point is on the canvas exactly if a cell covers it. -/
theorem IsSound.on_iff_cell (hsound : c.IsSound) (canvas : Canvas Rat) (p : Point Rat) :
    p.On (canvas.width, canvas.height) ↔ ∃ name ∈ cellNames, c.Covers canvas p name := by
  have hw : (0 : Rat) < canvas.width := Nat.cast_pos.mpr canvas.width_pos
  have hh : (0 : Rat) < canvas.height := Nat.cast_pos.mpr canvas.height_pos
  constructor
  · rintro ⟨hx0, hx1, hy0, hy1⟩
    obtain ⟨column, hcolumn, hleft, hright⟩ := exists_third (div_nonneg hx0 hw.le) ((div_le_one hw).mpr hx1)
    obtain ⟨row, hrow, htop, hbottom⟩ := exists_third (div_nonneg hy0 hh.le) ((div_le_one hh).mpr hy1)
    obtain ⟨name, hname, hb⟩ := exists_cell column hcolumn row hrow
    refine ⟨name, hname, (covers_reserved_iff hsound hb).mpr ?_⟩
    exact ⟨⟨(le_div_iff₀ hw).mp hleft, (div_le_iff₀ hw).mp hright⟩,
      (le_div_iff₀ hh).mp htop, (div_le_iff₀ hh).mp hbottom⟩
  · rintro ⟨name, hname, hcovers⟩
    obtain ⟨b, hb⟩ := Option.isSome_iff_exists.mp ((isSome_reserved_iff Rat).mpr (mem_reservedNames_of_cell hname))
    obtain ⟨⟨hleft, hright⟩, htop, hbottom⟩ := (covers_reserved_iff hsound hb).mp hcovers
    obtain ⟨⟨hx0, hx1⟩, hy0, hy1⟩ := reserved_edges (name, b) (Table.mem_of_get? hb)
    exact ⟨(mul_nonneg hx0 hw.le).trans hleft, hright.trans (mul_le_of_le_one_left hw.le hx1),
      (mul_nonneg hy0 hh.le).trans htop, hbottom.trans (mul_le_of_le_one_left hh.le hy1)⟩

end

/-! ## Places -/

/-- The regions that are looked through are there. -/
theorem isValid_candidate (c : Catalog Rat) : ∀ n ∈ c.customNames ++ cellNames, c.isValid n = true := by
  intro n hn
  unfold isValid
  rw [Bool.or_eq_true, isReserved, List.contains_iff_mem]
  rcases List.mem_append.mp hn with hn | hn
  · exact .inr (Table.isSome_get?_iff.mpr hn)
  · exact .inl (mem_reservedNames_of_cell hn)

/-- The canvas as a whole is not among them. -/
theorem IsSound.wholeCanvas_not_candidate {c : Catalog Rat} (h : c.IsSound) :
    wholeCanvas ∉ c.customNames ++ cellNames := by
  intro hmem
  rcases List.mem_append.mp hmem with hmem | hmem
  · obtain ⟨⟨_, b⟩, hb, rfl⟩ := List.mem_map.mp hmem
    exact h.unreserved _ b hb (by decide)
  · exact absurd hmem (by decide)

/-- **The region at a point.** In a catalog that registrations left behind, the custom names stand in the order in which
they were first accepted, and the cells of the grid cover the canvas and nothing else. So the region that is found at a
point is the first custom one that covers it or, where none does, the first cell. None is found exactly where no custom
region covers the point and it is not on the canvas, and the canvas as a whole is never found. -/
theorem findAt_first (regions : List (CustomRegion Rat)) (canvas : Canvas Rat) (x y : Numeral Rat) :
    letI c := ofAttempts regions
    letI p : Point Rat := ⟨x.value, y.value⟩
    c.customNames = ((accepted regions).map CustomRegion.name).eraseDups ∧
    (p.On (canvas.width, canvas.height) ↔ ∃ name ∈ cellNames, c.Covers canvas p name) ∧
    ∃ found, c.findAt canvas x y = .ok found ∧
      (∀ name, found = some name → c.IsFirst canvas p c.customNames name ∨
        (∀ n ∈ c.customNames, ¬ c.Covers canvas p n) ∧ c.IsFirst canvas p cellNames name) ∧
      (found = none ↔ (∀ n ∈ c.customNames, ¬ c.Covers canvas p n) ∧ ¬ p.On (canvas.width, canvas.height)) ∧
      found ≠ some wholeCanvas := by
  have hsound : (ofAttempts regions).IsSound := isSound_ofAttempts regions
  have hcell := hsound.on_iff_cell canvas ⟨x.value, y.value⟩
  refine ⟨customNames_ofAttempts regions, hcell, ?_⟩
  obtain ⟨first, hfirst, hsome, hnone⟩ :=
    firstContaining_spec canvas ⟨x.value, y.value⟩ (isValid_candidate (ofAttempts regions))
  cases first with
  | some name =>
    have hname := hsome name rfl
    refine ⟨some name, bind_eq_ok_iff.mpr ⟨_, hfirst, rfl⟩, fun n hn => ?_, iff_of_false nofun ?_, fun hwhole => ?_⟩
    · exact Option.some.inj hn ▸ hname.of_append
    · rintro ⟨hcustom, hoff⟩
      rcases hname.of_append with hname | ⟨-, hname⟩
      · exact hcustom name hname.mem hname.1
      · exact hoff (hcell.mpr ⟨name, hname.mem, hname.1⟩)
    · exact hsound.wholeCanvas_not_candidate (Option.some.inj hwhole ▸ hname.mem)
  | none =>
    obtain ⟨hcustom, hcells⟩ := List.forall_mem_append.mp (hnone rfl)
    have hoff := mt hcell.mp fun ⟨name, hname, hcovers⟩ => hcells name hname hcovers
    refine ⟨none, bind_eq_ok_iff.mpr ⟨_, hfirst, ?_⟩, nofun, iff_of_true rfl ⟨hcustom, hoff⟩, nofun⟩
    -- what no cell covers is not on the canvas, so the canvas as a whole is not found
    rw [if_neg (mt (canvas.covers_exact x y).mp hoff)]
    rfl

end Catalog

end Drawing
