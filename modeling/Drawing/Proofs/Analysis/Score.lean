import Drawing.Analysis.Quality
import Drawing.Proofs.Validation.Strays
import Mathlib.Data.Finset.Dedup
import Mathlib.Data.Rat.Floor

/-!
# `Drawing/Proofs/Analysis/Score.lean` — what a score counts

A score is computed point by point, through the layers, their paths and the commands of these. With exact numbers what
it comes to is known from four counts: the points near an edge, those off the canvas, the layers and the distinct
regions. None of them knows an order.

> **The score is the base with charges and bonuses, put between zero and a hundred and cut** (`Document.score_counts`),
> so that it is the same in any order of layers, paths and commands.
-/

namespace Drawing

/-! ## The counts -/

/-- A point less than a margin away from an edge of a canvas, or beyond it. -/
def Canvas.IsNear (c : Canvas Rat) (margin : Rat) (p : Point Rat) : Prop :=
  p.x < margin ∨ c.width - margin < p.x ∨ p.y < margin ∨ c.height - margin < p.y

instance (c : Canvas Rat) (margin : Rat) (p : Point Rat) : Decidable (c.IsNear margin p) :=
  inferInstanceAs (Decidable (_ ∨ _ ∨ _ ∨ _))

/-- The number of points of a document that are near an edge, control points included. -/
def Document.nearCount (d : Document Rat) (margin : Rat) : Nat :=
  (pointsOf d.commands).countP fun p => d.canvas.IsNear margin p

/-- The number of points of a document that are not on the canvas, control points included. -/
def Document.outsideCount (d : Document Rat) : Nat := (pointsOf d.commands).countP fun p => ¬ p.On d.size

/-- The regions that the layers and paths of a document name, other than the empty name. -/
def Document.regionNames {α : Type} (d : Document α) : Finset String :=
  ((d.layers.flatMap Layer.specs).filterMap LayoutSpec.region).toFinset.erase ""

/-- The base, less what the points cost, with the bonuses that are earned. -/
def Document.fullScore (d : Document Rat) (w : QualityWeights Rat) : Rat :=
  w.base.value - w.edgePenalty.value * d.nearCount w.margin.value - w.outsidePenalty.value * d.outsideCount +
    (if 2 ≤ d.layers.length ∧ d.layers.length ≤ w.layerLimit.value then w.layerBonus.value else 0) +
    (if 1 < d.regionNames.card then w.regionBonus.value else 0)

theorem Document.length_regionsNamed {α : Type} (d : Document α) : d.regionsNamed.length = d.regionNames.card := by
  have hnames : d.regionNames = d.regionsNamed.toFinset := by
    ext name
    simp [regionNames, regionsNamed, Drawing.regionsNamed, and_comm]
  rw [hnames]
  exact (List.toFinset_card_of_nodup (nodup_distinct _)).symm

/-! ## The closed form -/

theorem mul_countP_cons {β : Type} (P : β → Prop) [DecidablePred P] (k : Rat) (x : β) (xs : List β) :
    k * ((x :: xs).countP fun y => P y) = (if P x then k else 0) + k * xs.countP fun y => P y := by
  rw [List.countP_cons]
  by_cases h : P x
  · simp [h]
    ring
  · simp [h]

namespace QualityWeights

variable (w : QualityWeights Rat)

theorem isNearEnd_exact (side : Nat) (x : Rat) :
    w.isNearEnd side x = .ok (decide (x < w.margin.value ∨ side - w.margin.value < x)) := by
  obtain ⟨far, hfar, hvalue⟩ := Numeral.minus_exact (.whole side) w.margin
  have hlow : (Numeral.real x).isBelow w.margin = true ↔ x < w.margin.value := Numeral.isBelow_exact _ _
  have hhigh : far.isBelow (.real x) = true ↔ side - w.margin.value < x := by
    rw [Numeral.isBelow_exact, hvalue]
    rfl
  unfold isNearEnd
  rw [hfar]
  by_cases h : x < w.margin.value
  · rw [if_pos (hlow.mpr h), decide_eq_true (.inl h)]
    rfl
  · rw [if_neg (mt hlow.mp h)]
    refine congrArg Except.ok (Bool.eq_iff_iff.mpr ?_)
    rw [hhigh, decide_eq_true_iff]
    simp [h]

theorem isNearEdge_exact (canvas : Canvas Rat) (p : Point Rat) :
    w.isNearEdge canvas p = .ok (decide (canvas.IsNear w.margin.value p)) := by
  unfold isNearEdge
  rw [w.isNearEnd_exact, w.isNearEnd_exact]
  by_cases hx : p.x < w.margin.value ∨ canvas.width - w.margin.value < p.x
  · have hnear : canvas.IsNear w.margin.value p := hx.elim .inl fun h => .inr (.inl h)
    rw [decide_eq_true hx, decide_eq_true hnear]
    rfl
  · obtain ⟨hleft, hright⟩ := not_or.mp hx
    rw [decide_eq_false hx]
    refine congrArg Except.ok (decide_eq_decide.mpr ?_)
    simp [Canvas.IsNear, hleft, hright]

/-- What a point costs. -/
def cost (canvas : Canvas Rat) (p : Point Rat) : Rat :=
  (if canvas.IsNear w.margin.value p then w.edgePenalty.value else 0) +
    (if ¬ p.On (canvas.width, canvas.height) then w.outsidePenalty.value else 0)

theorem charge_exact (canvas : Canvas Rat) (score : Rat) (p : Point Rat) :
    w.charge canvas score p = .ok (score - w.cost canvas p) := by
  unfold charge cost
  rw [w.isNearEdge_exact, canvas.isOutside_eq, w.edgePenalty.toScalar_exact, w.outsidePenalty.toScalar_exact]
  by_cases hnear : canvas.IsNear w.margin.value p <;> by_cases hon : p.On (canvas.width, canvas.height) <;>
    simp [hnear, hon, bind, Except.bind, pure, Except.pure, sub_sub]

/-- Charged for one point after the other, a score is less by the costs of two kinds of points. -/
theorem foldlM_charge (canvas : Canvas Rat) (points : List (Point Rat)) (score : Rat) :
    points.foldlM (w.charge canvas) score =
      .ok (score - w.edgePenalty.value * (points.countP fun p => canvas.IsNear w.margin.value p) -
        w.outsidePenalty.value * (points.countP fun p => ¬ p.On (canvas.width, canvas.height))) := by
  induction points generalizing score with
  | nil => simp [pure, Except.pure]
  | cons p points ih =>
    rw [List.foldlM_cons, w.charge_exact]
    refine (ih _).trans (congrArg Except.ok ?_)
    rw [mul_countP_cons, mul_countP_cons]
    unfold cost
    ring

theorem earnsLayerBonus_exact (layers : Nat) :
    w.earnsLayerBonus layers = true ↔ 2 ≤ layers ∧ layers ≤ w.layerLimit.value := by
  unfold earnsLayerBonus
  rw [Bool.and_eq_true, decide_eq_true_iff, Numeral.isAtMost_exact]
  rfl

end QualityWeights

theorem withBonus_exact (earned : Bool) (bonus : Numeral Rat) (score : Rat) :
    withBonus earned bonus score = .ok (score + if earned then bonus.value else 0) := by
  unfold withBonus
  rw [bonus.toScalar_exact]
  cases earned with
  | true => rfl
  | false => simp

/-- A number that is not negative is cut to the whole number below it. -/
theorem Scalar.truncate_exact {x : Rat} (hx : 0 ≤ x) : Scalar.truncate x = ⌊x⌋ := by
  rw [Rat.floor_def']
  exact Int.tdiv_eq_ediv_of_nonneg (Rat.num_nonneg.mpr hx)

theorem Document.score_exact (d : Document Rat) (w : QualityWeights Rat) :
    d.score w = .ok ⌊max 0 (min 100 (d.fullScore w))⌋ := by
  have hlayers : (if w.earnsLayerBonus d.layers.length then w.layerBonus.value else 0) =
      if 2 ≤ d.layers.length ∧ d.layers.length ≤ w.layerLimit.value then w.layerBonus.value else 0 :=
    if_congr (w.earnsLayerBonus_exact _) rfl rfl
  have hregions : (if decide (1 < d.regionsNamed.length) then w.regionBonus.value else 0) =
      if 1 < d.regionNames.card then w.regionBonus.value else 0 := by
    rw [d.length_regionsNamed]
    exact if_congr decide_eq_true_iff rfl rfl
  unfold score
  rw [w.base.toScalar_exact]
  dsimp only [bind, Except.bind]
  rw [w.foldlM_charge]
  dsimp only [bind, Except.bind]
  rw [withBonus_exact]
  dsimp only [bind, Except.bind]
  rw [withBonus_exact, hlayers, hregions]
  refine congrArg Except.ok ?_
  rw [Scalar.greatest_exact, Scalar.least_exact]
  exact Scalar.truncate_exact (le_max_left _ _)

/-! ## Other orders -/

section

variable {α : Type}

/-- The same items up to a relation, in any order. -/
def Reordered {β : Type} (R : β → β → Prop) (xs ys : List β) : Prop := Relation.Comp List.Perm (List.Forall₂ R) xs ys

theorem Reordered.length_eq {β : Type} {R : β → β → Prop} {xs ys : List β} (h : Reordered R xs ys) :
    xs.length = ys.length := by
  obtain ⟨zs, hperm, hsame⟩ := h
  rw [hperm.length_eq, hsame.length_eq]

theorem Reordered.flatMap {β γ : Type} {R : β → β → Prop} {f : β → List γ} {xs ys : List β} (h : Reordered R xs ys)
    (hf : ∀ x y, R x y → (f x).Perm (f y)) : (xs.flatMap f).Perm (ys.flatMap f) := by
  obtain ⟨zs, hperm, hsame⟩ := h
  have hzs : (zs.flatMap f).Perm (ys.flatMap f) := by
    refine List.Perm.flatten_congr ?_
    rw [List.forall₂_map_left_iff, List.forall₂_map_right_iff]
    exact hsame.imp hf
  exact (hperm.flatMap_right f).trans hzs

/-- The same path with its commands in any order. -/
def ShapePath.Shuffled (p q : ShapePath α) : Prop := ∃ commands, p.commands.Perm commands ∧ q = p.withCommands commands

/-- The same layer with its paths, and the commands of these, in any order. -/
def Layer.Shuffled (l m : Layer α) : Prop := ∃ paths, Reordered ShapePath.Shuffled l.paths paths ∧ m = l.withPaths paths

/-- The same document with its layers, their paths, and the commands of these, in any order. -/
def Document.Shuffled (d e : Document α) : Prop :=
  ∃ layers, Reordered Layer.Shuffled d.layers layers ∧ e = { d with layers }

theorem Layer.Shuffled.commands {l m : Layer α} (h : l.Shuffled m) : l.commands.Perm m.commands := by
  obtain ⟨paths, hpaths, rfl⟩ := h
  refine hpaths.flatMap ?_
  rintro p _ ⟨commands, hcommands, rfl⟩
  exact hcommands

theorem Layer.Shuffled.specs {l m : Layer α} (h : l.Shuffled m) : l.specs.Perm m.specs := by
  obtain ⟨paths, hpaths, rfl⟩ := h
  refine List.Perm.append_left _ ?_
  rw [List.filterMap_eq_flatMap_toList, List.filterMap_eq_flatMap_toList]
  refine hpaths.flatMap ?_
  rintro p _ ⟨commands, -, rfl⟩
  exact List.Perm.refl _

theorem Document.Shuffled.points {d e : Document α} (h : d.Shuffled e) :
    (pointsOf d.commands).Perm (pointsOf e.commands) := by
  obtain ⟨layers, hlayers, rfl⟩ := h
  exact (hlayers.flatMap fun _ _ => Layer.Shuffled.commands).flatMap_right _

theorem Document.Shuffled.regionNames {d e : Document α} (h : d.Shuffled e) : d.regionNames = e.regionNames := by
  obtain ⟨layers, hlayers, rfl⟩ := h
  have hspecs := hlayers.flatMap fun _ _ => Layer.Shuffled.specs
  exact congrArg (Finset.erase · "") (List.toFinset_eq_of_perm _ _ (hspecs.filterMap _))

end

/-- No count knows the order of what it counts. -/
theorem Document.Shuffled.fullScore {d e : Document Rat} (h : d.Shuffled e) (w : QualityWeights Rat) :
    d.fullScore w = e.fullScore w := by
  have hpoints := h.points
  have hregions := h.regionNames
  obtain ⟨layers, hlayers, rfl⟩ := h
  unfold Document.fullScore nearCount outsideCount
  rw [hpoints.countP_eq, hpoints.countP_eq, hregions, hlayers.length_eq]
  rfl

/-- **What a score counts.** A document has a score, whatever the weights: the base, less a charge for every point near an
edge and one for every point off the canvas, with a bonus for a moderate number of layers and one for more than one
region, put between zero and a hundred and cut to a whole number. It is the same in any order of the layers, of the paths
in a layer and of the commands in a path. -/
theorem Document.score_counts (d : Document Rat) (w : QualityWeights Rat) :
    d.score w = .ok ⌊max 0 (min 100 (d.fullScore w))⌋ ∧ ∀ e : Document Rat, d.Shuffled e → e.score w = d.score w := by
  refine ⟨d.score_exact w, ?_⟩
  intro e he
  rw [e.score_exact, d.score_exact, he.fullScore w]

/-- A stroke that starts at an edge and leaves the canvas, and a dot in the middle of it, drawn before the stroke or after
it, and the stroke from either end. -/
def strokeAndDot (strokeFirst fromEdge : Bool) : Document Rat :=
  let stroke : List (Command Rat) := [.move ⟨5, 100⟩, .line ⟨200, 600⟩]
  let layers : List (Layer Rat) := [
    ⟨"stroke", "Stroke", [⟨"line", .plain, if fromEdge then stroke else stroke.reverse, none⟩], none⟩,
    ⟨"dot", "Dot", [⟨"point", .plain, [.move ⟨256, 256⟩, .close], none⟩], none⟩]
  ⟨.ofAspect .square, none, if strokeFirst then layers else layers.reverse, true⟩

theorem Document.score_counts_strokeAndDot :
    (strokeAndDot true true).Shuffled (strokeAndDot false false) ∧
      (strokeAndDot true true).score .standard = .ok 91 ∧ (strokeAndDot false false).score .standard = .ok 91 := by
  have hscore := score_counts (strokeAndDot true true) .standard
  have hfull : (strokeAndDot true true).fullScore .standard = 91 := by decide +kernel
  have hclosed : (strokeAndDot true true).score .standard = .ok 91 := by
    have hcut : ⌊max 0 (min 100 (91 : Rat))⌋ = 91 := by norm_num
    rw [hscore.1, hfull, hcut]
  have hshuffled : (strokeAndDot true true).Shuffled (strokeAndDot false false) := by
    refine ⟨_, ⟨_, List.Perm.swap _ _ [], .cons ?_ (.cons ?_ .nil)⟩, rfl⟩
    · exact ⟨_, ⟨_, List.Perm.refl _, .cons ⟨_, List.Perm.refl _, rfl⟩ .nil⟩, rfl⟩
    · exact ⟨_, ⟨_, List.Perm.refl _, .cons ⟨_, List.Perm.swap _ _ [], rfl⟩ .nil⟩, rfl⟩
  exact ⟨hshuffled, hclosed, (hscore.2 _ hshuffled).trans hclosed⟩

end Drawing
