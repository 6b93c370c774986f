import Drawing.Proofs.Document.Bounds
import Drawing.Proofs.Document.Stretch
import Drawing.Proofs.Number.Exact
import Drawing.Proofs.Validation.Names

/-!
# `Drawing/Proofs/Document/Clean.lean` — documents that need nothing done

A document that is drawn on its own canvas as it is wanted, point by point in hundredths and without a layout that
moves anything, goes through everything that is done to documents and comes out with the layers it went in with: there
is nothing to move, to clean or to lay out, and framing scales nothing if its content has the right shape. What framing
puts together from all paths it deals out to them again.
-/

namespace Drawing

/-! ## Coordinates in hundredths -/

/-- A whole number of hundredths. -/
def IsHundredths (q : Rat) : Prop := ∃ n : Int, q * 100 = n

instance (q : Rat) : Decidable (IsHundredths q) :=
  decidable_of_iff ((q * 100).den = 1) ⟨fun h => ⟨(q * 100).num, ((Rat.den_eq_one_iff _).mp h).symm⟩, by
    rintro ⟨n, hn⟩
    rw [hn]
    rfl⟩

theorem roundRat_of_isHundredths {q : Rat} (h : IsHundredths q) : roundRat 2 q = q := by
  obtain ⟨n, hn⟩ := h
  rw [roundRat_eq_div, tenTo_two, hn, nearestInt_intCast, ← hn]
  exact mul_div_cancel_right₀ q (by norm_num)

/-- A point in hundredths. -/
def Point.IsHundredths (p : Point Rat) : Prop := Drawing.IsHundredths p.x ∧ Drawing.IsHundredths p.y

instance (p : Point Rat) : Decidable p.IsHundredths := inferInstanceAs (Decidable (_ ∧ _))

theorem nearestOnSide_of_mem {side : Nat} {x : Rat} (h0 : 0 ≤ x) (h : x ≤ side) : nearestOnSide side x = x := by
  rw [nearestOnSide_exact, min_eq_left h, max_eq_left h0]

theorem Point.round_of_isHundredths {p : Point Rat} (hp : p.IsHundredths) : p.round = p := by
  unfold round coordinatePlaces
  rw [Scalar.roundTo_exact, Scalar.roundTo_exact, roundRat_of_isHundredths hp.1, roundRat_of_isHundredths hp.2]

/-- A point that is rounded and where it may be is left alone. -/
theorem Canvas.sanitizePoint_of_isHundredths {c : Canvas Rat} {moved : Bool} {p : Point Rat} (hp : p.IsHundredths)
    (hon : moved = false → p.On (c.width, c.height)) : c.sanitizePoint moved p = p := by
  unfold sanitizePoint
  cases moved with
  | true => rw [if_pos rfl, Point.round_of_isHundredths hp]
  | false =>
    obtain ⟨hx0, hx, hy0, hy⟩ := hon rfl
    have hnearest : c.nearest p = p := by
      unfold nearest
      rw [nearestOnSide_of_mem hx0 hx, nearestOnSide_of_mem hy0 hy]
    rw [if_neg Bool.false_ne_true, hnearest, Point.round_of_isHundredths hp]

theorem Canvas.isOutside_of_on {c : Canvas Rat} {p : Point Rat} (h : p.On (c.width, c.height)) :
    c.isOutside p = false := by
  obtain ⟨hx0, hx, hy0, hy⟩ := h
  have hbelow {side : Nat} {x : Rat} (h : x ≤ side) :
      (Numeral.whole side : Numeral Rat).isBelow (.real x) = false := decide_eq_false (not_lt.mpr h)
  unfold isOutside
  rw [Scalar.zero_exact, hbelow hx, hbelow hy, decide_eq_false (not_lt.mpr hx0), decide_eq_false (not_lt.mpr hy0)]
  rfl

/-! ## Dealing out -/

section

variable {α : Type}

/-- Commands that were put together and changed one by one are dealt out again to where they come from. -/
theorem dealToPaths_map (f : Point α → Point α) (paths : List (ShapePath α)) (rest : List (Command α)) :
    dealToPaths paths ((paths.flatMap ShapePath.commands).map (Command.map f) ++ rest) =
      (paths.map (ShapePath.mapPoints f), rest) := by
  induction paths with
  | nil => rfl
  | cons p paths ih =>
    have hlength : (p.commands.map (Command.map f)).length = p.commands.length := List.length_map _
    unfold dealToPaths
    dsimp only
    rw [List.flatMap_cons, List.map_append, List.append_assoc, List.drop_left' hlength, List.take_left' hlength, ih]
    rfl

theorem dealToLayers_map (f : Point α → Point α) (layers : List (Layer α)) :
    dealToLayers layers ((layers.flatMap Layer.commands).map (Command.map f)) = layers.map (Layer.mapPoints f) := by
  induction layers with
  | nil => rfl
  | cons l layers ih =>
    unfold dealToLayers
    dsimp only
    rw [List.flatMap_cons, List.map_append, Layer.commands, dealToPaths_map, ih]
    rfl

theorem dealToLayers_commands (layers : List (Layer α)) :
    dealToLayers layers (layers.flatMap Layer.commands) = layers := by
  have hsame := dealToLayers_map (fun p => p) layers
  rwa [List.map_id'' Command.map_id, List.map_id'' Layer.mapPoints_id] at hsame

end

/-! ## Tidy documents -/

/-- A document with all points in hundredths, and on its canvas where no layout moves them. -/
structure Document.IsTidy (d : Document Rat) : Prop where
  rounded : ∀ l ∈ d.layers, ∀ p ∈ l.paths, ∀ q ∈ pointsOf p.commands, q.IsHundredths
  fixed : ∀ l ∈ d.layers, ∀ p ∈ l.paths, d.isMoved l p = false → CommandsOn d.size p.commands

namespace Document.IsTidy

variable {d : Document Rat}

/-- **There is nothing to clean.** -/
theorem sanitize_eq (h : d.IsTidy) : d.sanitize = d := by
  have hpath : ∀ l ∈ d.layers, ∀ p ∈ l.paths, p.sanitize d.canvas (d.isMoved l p) = p := by
    intro l hl p hp
    have hcommands : p.commands.map (Command.map (d.canvas.sanitizePoint (d.isMoved l p))) = p.commands := by
      refine (List.map_congr_left fun c hc => ?_).trans (List.map_id _)
      have hpoint : ∀ q ∈ c.points, d.canvas.sanitizePoint (d.isMoved l p) q = q := fun q hq =>
        have hq : q ∈ pointsOf p.commands := List.mem_flatMap.mpr ⟨c, hc, hq⟩
        Canvas.sanitizePoint_of_isHundredths (h.rounded l hl p hp q hq) fun hfixed => h.fixed l hl p hp hfixed q hq
      cases c <;> simp_all [Command.map, Command.points]
    exact congrArg p.withCommands hcommands
  have hlayers : d.layers.map (fun l => l.withPaths (l.paths.map fun p => p.sanitize d.canvas (d.isMoved l p))) =
      d.layers := by
    refine (List.map_congr_left fun l hl => ?_).trans (List.map_id _)
    rw [(List.map_congr_left fun p hp => hpath l hl p hp).trans (List.map_id _)]
    rfl
  unfold sanitize
  rw [hlayers]

theorem strays_eq (h : d.IsTidy) : d.strays = [] := by
  unfold strays
  refine List.flatMap_eq_nil_iff.mpr fun l hl => List.flatMap_eq_nil_iff.mpr fun p hp => ?_
  unfold ShapePath.strays
  cases hfixed : d.isMoved l p with
  | true => rfl
  | false =>
    rw [if_neg Bool.false_ne_true, List.map_eq_nil_iff, List.filter_eq_nil_iff]
    intro q hq
    rw [Canvas.isOutside_of_on (h.fixed l hl p hp hfixed q hq)]
    exact Bool.false_ne_true

end Document.IsTidy

/-! ## Clean documents -/

/-- A document no layout of which moves anything, with all points on its canvas and in hundredths. -/
structure Document.IsClean (d : Document Rat) : Prop where
  still : ∀ l ∈ d.layers, ∀ p ∈ l.paths, d.isMoved l p = false
  points : ∀ l ∈ d.layers, ∀ p ∈ l.paths, ∀ q ∈ pointsOf p.commands, q.On d.size ∧ q.IsHundredths

namespace Document.IsClean

variable {d : Document Rat}

/-- What is clean about a document is in its layers, its layout and the size of its canvas. -/
theorem congr (h : d.IsClean) {d' : Document Rat} (hlayers : d'.layers = d.layers) (hlayout : d'.layout = d.layout)
    (hsize : d'.size = d.size) : d'.IsClean := by
  constructor
  · intro l hl p hp
    rw [isMoved_congr hlayout rfl rfl]
    exact h.still l (hlayers ▸ hl) p hp
  · intro l hl p hp
    rw [hsize]
    exact h.points l (hlayers ▸ hl) p hp

theorem isTidy (h : d.IsClean) : d.IsTidy where
  rounded l hl p hp q hq := (h.points l hl p hp q hq).2
  fixed l hl p hp _ q hq := (h.points l hl p hp q hq).1

/-- **There is nothing to lay out.** -/
theorem resolve_eq [Trig Rat] (h : d.IsClean) {catalog : Catalog Rat} (hcatalog : d.catalog = .ok catalog)
    (hresolved : d.resolved = false) : d.resolve = .ok { d with resolved := true } := by
  have hlayer : ∀ l ∈ d.layers, d.resolveLayer ⟨d.canvas, catalog⟩ l = .ok l := by
    intro l hl
    have hpaths : l.paths.mapM (d.resolvePath ⟨d.canvas, catalog⟩ l) = .ok l.paths := by
      refine mapM_eq_ok_iff.mpr (List.forall₂_same.mpr fun p hp => ?_)
      unfold resolvePath
      rw [h.still l hl p hp, if_neg Bool.false_ne_true]
    exact bind_eq_ok_iff.mpr ⟨_, hpaths, rfl⟩
  unfold resolve
  rw [hresolved, hcatalog]
  exact bind_eq_ok_iff.mpr ⟨_, rfl, bind_eq_ok_iff.mpr
    ⟨_, mapM_eq_ok_iff.mpr (List.forall₂_same.mpr hlayer), rfl⟩⟩

end Document.IsClean

/-! ## Framing -/

theorem Extent.exists_shrinking? (e : Extent Rat) (width : Numeral Rat) {height : Numeral Rat}
    (hheight : height.value ≠ 0) : ∃ factor, e.shrinking? width height = .ok factor :=
  exists_bind_ok (width.exists_quotient_exact hheight) fun _ => ⟨_, rfl⟩

/-- Exact commands can be framed. -/
theorem exists_frame (commands : List (Command Rat)) (width padding : Numeral Rat) {height : Numeral Rat}
    (hheight : height.value ≠ 0) : ∃ framing, frame commands width height padding = .ok framing := by
  have hpadding : ∃ share, padding.toScalar = .ok share := ⟨_, padding.toScalar_exact⟩
  refine exists_bind_ok ⟨_, width.toScalar_exact⟩ fun w => exists_bind_ok ⟨_, height.toScalar_exact⟩ fun h => ?_
  dsimp only
  split_ifs
  · exact ⟨_, rfl⟩
  · refine exists_bind_ok (Extent.exists_shrinking? _ width hheight) fun factor => ?_
    cases factor with
    | none => exact exists_bind_ok hpadding fun _ => ⟨_, rfl⟩
    | some factor =>
      obtain ⟨f, hf⟩ : ∃ f, shrink (pointsOf commands) factor = (pointsOf commands).map f := ⟨_, rfl⟩
      have hrebuilt : rebuilt commands (shrink (pointsOf commands) factor) = .ok (commands.map (Command.map f)) := by
        rw [hf, ← pointsOf_map]
        exact rebuilt_exact (letters_map f commands)
      exact exists_bind_ok ⟨_, hrebuilt⟩ fun _ => exists_bind_ok hpadding fun _ => ⟨_, rfl⟩

/-- Commands that are not scaled are left as they are. -/
theorem commands_of_frame {α : Type} [Scalar α] {commands : List (Command α)} {width height padding : Numeral α}
    {framing : Framing α} (h : frame commands width height padding = .ok framing) (hfactor : framing.factor = none) :
    framing.commands = commands := by
  cases framed_of_frame h with
  | whole => rfl
  | kept => rfl
  | shrunk => exact nomatch hfactor

theorem Document.exists_fit (d : Document Rat) (padding : Numeral Rat) :
    ∃ f framing, d.fit padding = .ok (f, framing) := by
  have hheight : (Numeral.whole d.canvas.height : Numeral Rat).value ≠ 0 := by
    simpa [Numeral.value, Scalar.ofInt] using d.canvas.height_pos.ne'
  obtain ⟨framing, hframing⟩ := exists_frame d.commands (.whole d.canvas.width) padding hheight
  exact ⟨_, framing, bind_eq_ok_iff.mpr ⟨framing, hframing, rfl⟩⟩

/-- **There is nothing to frame but the view box.** -/
theorem Document.fit_eq {α : Type} [Scalar α] {d f : Document α} {padding : Numeral α} {framing : Framing α}
    (h : d.fit padding = .ok (f, framing)) (hfactor : framing.factor = none) :
    f = { d with canvas := { d.canvas with viewBox := some framing.viewBox } } := by
  obtain ⟨framing', hframe, h⟩ := bind_eq_ok_iff.mp h
  obtain ⟨rfl, rfl⟩ := Prod.mk.inj (pure_eq_ok_iff.mp h)
  rw [commands_of_frame hframe hfactor, commands, dealToLayers_commands]

end Drawing
