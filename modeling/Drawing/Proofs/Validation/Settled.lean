import Drawing.Proofs.Document.Canvas
import Drawing.Proofs.Document.Inside
import Drawing.Proofs.Document.Records
import Drawing.Proofs.Document.Redrawn
import Drawing.Proofs.Number.Exact
import Drawing.Proofs.Number.Rounding
import Drawing.Proofs.Path.Points
import Drawing.Proofs.Table
import Drawing.Proofs.Validation.Findings

/-!
# `Drawing/Proofs/Validation/Settled.lean` — what validation sees to

Validation puts the paths on the canvas that no layout moves, and leaves the others to the layouts. It asks which
paths these are before it moves a document to its canvas, and resolving asks again behind it: both ask the same
question of the same layouts (`isMoved_congr`).
-/

namespace Drawing

/-! ## Which paths are moved -/

section

variable {α : Type}

/-- Whether a path begins with a move is a question about its letters. -/
theorem ShapePath.startsWithMove_iff {p : ShapePath α} :
    p.startsWithMove = true ↔ ∀ l, (p.commands.map Command.letter).head? = some l → l = .move := by
  unfold startsWithMove
  cases p.commands with
  | nil => simp
  | cons c rest => simp

theorem startsWithMove_congr {p p' : ShapePath α}
    (h : p.commands.map Command.letter = p'.commands.map Command.letter) :
    p.startsWithMove = p'.startsWithMove := by
  rw [Bool.eq_iff_iff, ShapePath.startsWithMove_iff, ShapePath.startsWithMove_iff, h]

variable [Scalar α]

/-- Whether a path is moved is a question about layouts only. -/
theorem isMoved_congr {d d' : Document α} {l l' : Layer α} {p p' : ShapePath α}
    (hd : d.layout = d'.layout) (hl : l.layout = l'.layout) (hp : p.layout = p'.layout) :
    d.isMoved l p = d'.isMoved l' p' := by
  unfold Document.isMoved Document.layoutOf mergeLayouts ownLayouts
  simp only [Option.bind_some, hd, hl, hp]

/-- The points of a path that no layout moves are cleaned. -/
theorem Document.sanitized_of_isMoved {d : Document α} {l : Layer α} (hl : l ∈ d.sanitize.layers) {p : ShapePath α}
    (hp : p ∈ l.paths) (hfixed : d.sanitize.isMoved l p = false) {q : Point α} (hq : q ∈ pointsOf p.commands) :
    ∃ q' : Point α, q = d.canvas.sanitizePoint false q' := by
  obtain ⟨l₀, -, rfl⟩ := List.mem_map.mp hl
  obtain ⟨p₀, -, rfl⟩ := List.mem_map.mp hp
  -- the layouts are those the question was first asked of
  have hsame : d.isMoved l₀ p₀ = false := hfixed ▸ isMoved_congr rfl rfl rfl
  simp only [hsame] at hq
  obtain ⟨command, hc, hq⟩ := List.mem_flatMap.mp hq
  obtain ⟨command', -, rfl⟩ := List.mem_map.mp hc
  rw [Command.points_map] at hq
  obtain ⟨q', -, rfl⟩ := List.mem_map.mp hq
  exact ⟨q', rfl⟩

omit [Scalar α] in
/-- Data cannot say of itself that its coordinates are final. -/
theorem find?_withoutResolved (fields : Fields α) :
    (⟨"layoutResolved", "layout_resolved"⟩ : Schema.Key).find? (withoutResolved fields) = none := by
  unfold Schema.Key.find? withoutResolved
  rw [Table.get?_erase_self, Table.get?_erase_of_ne (by decide), Table.get?_erase_self]
  rfl

theorem Document.resolved_of_readFields {fields : Fields α} {d : Document α}
    (h : readFields (withoutResolved fields) = .valid d) : d.resolved = false := by
  obtain ⟨-, -, -, -, hr⟩ := readFields_eq_valid_iff.mp h
  rcases Schema.optional_eq_valid_iff.mp hr with ⟨-, hfalse⟩ | ⟨_, _, hsome, -⟩
  · exact hfalse.symm
  · exact nomatch (find?_withoutResolved fields).symm.trans hsome

end

/-! ## Accepted documents -/

theorem nearestOnSide_exact (side : Nat) (x : Rat) : nearestOnSide side x = max (min x side) 0 := by
  have hside : (0 : Rat) ≤ side := Nat.cast_nonneg side
  unfold nearestOnSide
  by_cases h : (side : Rat) < x
  · have hb : (Numeral.whole side : Numeral Rat).isBelow (.real x) = true := decide_eq_true h
    rw [hb, if_pos rfl, min_eq_right h.le, max_eq_left hside]
    rfl
  · have hb : (Numeral.whole side : Numeral Rat).isBelow (.real x) = false := decide_eq_false h
    rw [hb, if_neg Bool.false_ne_true, min_eq_left (not_lt.mp h)]
    exact Scalar.greatest_exact x 0

theorem nearestOnSide_mem (side : Nat) (x : Rat) :
    0 ≤ nearestOnSide side x ∧ nearestOnSide side x ≤ side := by
  rw [nearestOnSide_exact]
  exact ⟨le_max_right _ _, max_le (min_le_right _ _) (Nat.cast_nonneg side)⟩

theorem sanitizePoint_on (c : Canvas Rat) (p : Point Rat) :
    (c.sanitizePoint false p).On (c.width, c.height) := by
  have hround {side : Nat} {x : Rat} (h : 0 ≤ x ∧ x ≤ side) :
      0 ≤ Scalar.roundTo coordinatePlaces x ∧ Scalar.roundTo coordinatePlaces x ≤ side := by
    rw [Scalar.roundTo_exact]
    exact roundRat_mem h.1 h.2
  obtain ⟨hx0, hx⟩ := hround (nearestOnSide_mem c.width p.x)
  obtain ⟨hy0, hy⟩ := hround (nearestOnSide_mem c.height p.y)
  exact ⟨hx0, hx, hy0, hy⟩

/-- Cleaning puts the points of a path on the canvas if no layout moves them. -/
theorem Document.fixed_sanitize (d : Document Rat) : ∀ l ∈ d.sanitize.layers, ∀ p ∈ l.paths,
    d.sanitize.isMoved l p = false → CommandsOn d.sanitize.size p.commands := by
  intro l hl p hp hfixed q hq
  obtain ⟨q', rfl⟩ := sanitized_of_isMoved hl hp hfixed hq
  exact sanitizePoint_on _ q'

/-- What validation sees to: no layout is carried out yet, every path begins with a move, and the points of
one that no layout moves are on the canvas. -/
structure Document.Settled (d : Document Rat) : Prop where
  resolved : d.resolved = false
  startsWithMove : ∀ l ∈ d.layers, ∀ p ∈ l.paths, p.startsWithMove = true
  fixed : ∀ l ∈ d.layers, ∀ p ∈ l.paths, d.isMoved l p = false → CommandsOn d.size p.commands

theorem Document.settled_of_validateData {fields : Fields Rat} {canvas : Canvas Rat} {o : Outcome Rat}
    {d : Document Rat} (h : validateData fields (some canvas) = .ok o) (ha : o.accepted? = some d) :
    d.Settled := by
  obtain ⟨given, hread, h⟩ := exists_given h ha
  obtain ⟨hfindings, m, rescale, hm, rfl⟩ := accepted_of_validate h ha
  refine ⟨(resolved_conform hm).trans (resolved_of_readFields hread), ?_, m.fixed_sanitize⟩
  intro l hl p hp
  obtain ⟨l₀, hl₀, rfl⟩ := List.mem_map.mp hl
  obtain ⟨p₀, hp₀, rfl⟩ := List.mem_map.mp hp
  obtain ⟨l', hl', p', hp', -, htraced⟩ := (conform_redrawn hm).exists_path hl₀ hp₀
  rw [← (findings_eq_nil_iff.mp hfindings).moves _ hl' _ hp']
  refine startsWithMove_congr (Eq.trans ?_ htraced.letters)
  simp [ShapePath.sanitize, ShapePath.withCommands, Function.comp_def]

end Drawing
