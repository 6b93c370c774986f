import Drawing.Proofs.Document.Clean

/-!
# `Drawing/Proofs/Validation/Strays.lean` — what cleaning makes of points, and what it reports

Cleaning works on a document point by point. A point of a path that a layout moves is only rounded, for where it comes
to lie is not known yet. Any other point is first put on the canvas, where it is nearest, and rounding does not take it
off again; if it was not there before, it is reported. Numbers are exact here.

> **Cleaning rounds what layouts move, and puts all else on the canvas and says so** (`Document.sanitize_cleaned`), point
> by point and report by report.
-/

namespace Drawing

/-! ## Rounding to hundredths -/

/-- A number rounded to hundredths: all others are further away, or just as far if this one is even. -/
def IsRounded (x y : Rat) : Prop :=
  ∃ n : Int, y = n / 100 ∧ ∀ m : Int, m ≠ n → |y - x| < |m / 100 - x| ∨ |y - x| = |m / 100 - x| ∧ Even n

theorem isRounded_roundRat (x : Rat) : IsRounded x (roundRat 2 x) := by
  have hscale (m : Int) : |(m : Rat) / 100 - x| = |m - x * 100| / 100 := by
    rw [div_sub' (by norm_num), abs_div, abs_of_pos (by norm_num : (0 : Rat) < 100), mul_comm]
  have hround : roundRat 2 x = nearestInt (x * 100) / 100 := by rw [roundRat_eq_div, tenTo_two]
  refine ⟨_, hround, fun m hm => ?_⟩
  rw [hround, hscale, hscale]
  exact (nearestInt_nearest (x * 100) hm).imp (fun hlt => div_lt_div_of_pos_right hlt (by norm_num))
    fun ⟨heq, heven⟩ => ⟨congrArg (· / 100) heq, heven⟩

/-- A point with both coordinates rounded. -/
def Point.IsRounded (p q : Point Rat) : Prop := Drawing.IsRounded p.x q.x ∧ Drawing.IsRounded p.y q.y

theorem Point.isRounded_round (p : Point Rat) : p.IsRounded p.round := by
  unfold IsRounded round coordinatePlaces
  rw [Scalar.roundTo_exact, Scalar.roundTo_exact]
  exact ⟨isRounded_roundRat p.x, isRounded_roundRat p.y⟩

/-! ## The nearest point of a canvas -/

/-- The square of the distance of two points. -/
def Point.distSq (p q : Point Rat) : Rat := (p.x - q.x) ^ 2 + (p.y - q.y) ^ 2

/-- The one point of a canvas that is nearest to a point. -/
structure Canvas.IsNearest (c : Canvas Rat) (p q : Point Rat) : Prop where
  on : q.On (c.width, c.height)
  nearer : ∀ r : Point Rat, r.On (c.width, c.height) → r ≠ q → q.distSq p < r.distSq p

theorem nearestOnSide_nearer {side : Nat} {r : Rat} (h0 : 0 ≤ r) (h : r ≤ side) (x : Rat) :
    r = nearestOnSide side x ∨ |nearestOnSide side x - x| < |r - x| := by
  have hside : (0 : Rat) ≤ side := Nat.cast_nonneg side
  rw [nearestOnSide_exact]
  rcases lt_or_ge x 0 with hlow | hlow
  · rw [max_eq_right ((min_le_left _ _).trans hlow.le), abs_of_pos (by linarith), abs_of_pos (by linarith),
      sub_lt_sub_iff_right]
    exact h0.eq_or_lt.imp_left Eq.symm
  rcases lt_or_ge (side : Rat) x with hhigh | hhigh
  · rw [min_eq_right hhigh.le, max_eq_left hside, abs_sub_comm, abs_sub_comm r, abs_of_pos (by linarith),
      abs_of_pos (by linarith), sub_lt_sub_iff_left]
    exact h.eq_or_lt
  · rw [min_eq_left hhigh, max_eq_left hlow, sub_self, abs_zero]
    exact (eq_or_ne r x).imp_right fun hne => abs_pos.mpr (sub_ne_zero.mpr hne)

theorem Canvas.isNearest_nearest (c : Canvas Rat) (p : Point Rat) : c.IsNearest p (c.nearest p) := by
  obtain ⟨hx0, hx⟩ := nearestOnSide_mem c.width p.x
  obtain ⟨hy0, hy⟩ := nearestOnSide_mem c.height p.y
  refine ⟨⟨hx0, hx, hy0, hy⟩, fun r ⟨hrx0, hrx, hry0, hry⟩ hne => ?_⟩
  unfold Point.distSq
  rcases nearestOnSide_nearer hrx0 hrx p.x with hsameX | hnearX <;>
    rcases nearestOnSide_nearer hry0 hry p.y with hsameY | hnearY
  · exact absurd (show r = c.nearest p by cases r; exact congrArg₂ Point.mk hsameX hsameY) hne
  · rw [hsameX]
    exact add_lt_add_of_le_of_lt le_rfl (sq_lt_sq.mpr hnearY)
  · rw [hsameY]
    exact add_lt_add_of_lt_of_le (sq_lt_sq.mpr hnearX) le_rfl
  · exact add_lt_add (sq_lt_sq.mpr hnearX) (sq_lt_sq.mpr hnearY)

/-! ## Cleaning documents -/

/-- What cleaning makes of a point of a path: it is rounded, after it was put on the canvas if no layout moves it. -/
structure Document.CleansPoint (d : Document Rat) (l : Layer Rat) (p : ShapePath Rat) (q q' : Point Rat) : Prop where
  moved : d.isMoved l p = true → q.IsRounded q'
  still : d.isMoved l p = false → q'.On d.size ∧ ∃ nearest, d.canvas.IsNearest q nearest ∧ nearest.IsRounded q'

/-- All points of a document in order, each with its path and the layer of that. -/
def Document.places (d : Document Rat) : List (Layer Rat × ShapePath Rat × Point Rat) :=
  d.layers.flatMap fun l => l.paths.flatMap fun p => (pointsOf p.commands).map fun q => (l, p, q)

/-- What cleaning a document comes to: the document that is left, and the reports. -/
structure Document.Cleaned (d s : Document Rat) (reports : List (Fault Rat)) : Prop where
  frame : s = { d with layers := s.layers }
  /-- Layers and paths are kept, and so are the letters of these; points are cleaned one by one. -/
  paths : d.Redrawn (fun l p p' => p.Traced p' ∧ ∃ f, p' = p.mapPoints f ∧ ∀ q, d.CleansPoint l p q (f q)) s
  /-- There is one report for each point off the canvas that no layout moves, in order. -/
  reports : reports = (d.places.filter fun (l, p, q) => !d.isMoved l p && !decide (q.On d.size)).map
    fun (_, p, q) => .outside p.id (.real q.x) (.real q.y)

theorem Document.cleansPoint_sanitizePoint (d : Document Rat) (l : Layer Rat) (p : ShapePath Rat) (q : Point Rat) :
    d.CleansPoint l p q (d.canvas.sanitizePoint (d.isMoved l p) q) where
  moved h := by
    rw [h]
    exact q.isRounded_round
  still h := by
    rw [h]
    exact ⟨sanitizePoint_on d.canvas q, _, d.canvas.isNearest_nearest q, Point.isRounded_round _⟩

theorem Canvas.isOutside_eq (c : Canvas Rat) (q : Point Rat) : c.isOutside q = !decide (q.On (c.width, c.height)) := by
  by_cases h : q.On (c.width, c.height)
  · rw [isOutside_of_on h, decide_eq_true h]
    rfl
  · rw [decide_eq_false h]
    unfold Point.On at h
    show (decide (q.x < 0) || decide ((c.width : Rat) < q.x) || decide (q.y < 0) || decide ((c.height : Rat) < q.y)) = true
    simp only [Bool.or_eq_true, decide_eq_true_iff]
    by_contra! hin
    exact h ⟨hin.1.1.1, hin.1.1.2, hin.1.2, hin.2⟩

theorem ShapePath.faults_strays (c : Canvas Rat) (moved : Bool) (p : ShapePath Rat) :
    (p.strays c moved).map Stray.fault =
      ((pointsOf p.commands).filter fun q => !moved && !decide (q.On (c.width, c.height))).map
        fun q => .outside p.id (.real q.x) (.real q.y) := by
  unfold strays
  cases moved with
  | true => simp
  | false =>
    rw [if_neg Bool.false_ne_true, List.map_map, funext c.isOutside_eq]
    rfl

theorem Document.faults_strays (d : Document Rat) : d.strays.map Stray.fault =
    (d.places.filter fun (l, p, q) => !d.isMoved l p && !decide (q.On d.size)).map
      fun (_, p, q) => .outside p.id (.real q.x) (.real q.y) := by
  unfold strays places
  simp only [List.filter_flatMap, List.map_flatMap, List.filter_map, List.map_map]
  exact List.flatMap_congr fun l _ => List.flatMap_congr fun p _ => p.faults_strays d.canvas (d.isMoved l p)

/-- **Cleaning rounds what layouts move, and puts all else on the canvas and says so.** -/
theorem Document.sanitize_cleaned (d : Document Rat) : d.Cleaned d.sanitize (d.strays.map Stray.fault) where
  frame := rfl
  paths := by
    refine ⟨rfl, List.forall₂_map_right_iff.mpr <| List.forall₂_same.mpr fun l _ => ⟨rfl, ?_⟩⟩
    refine List.forall₂_map_right_iff.mpr <| List.forall₂_same.mpr fun p _ => ⟨⟨rfl, letters_map _ _⟩, ?_⟩
    exact ⟨_, rfl, d.cleansPoint_sanitizePoint l p⟩
  reports := d.faults_strays

end Drawing
