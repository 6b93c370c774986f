import Drawing.Path.Foreign
import Mathlib.Data.List.Chain

/-!
# `Drawing/Proofs/Path/Strokes.lean` — strokes written as commands

What is on the paper after some commands are the strokes of the pen (`drawn`). Moves leave none, and neither does a
close where the subpath has come back to its opening already. Strokes of any origin are written as commands piece by
piece: they are cut where they do not join (`pieces`), every piece begins with a move, and one that ends where it began
is closed. That is a close with nothing left to draw, and so

> **strokes written as commands are the strokes that these commands draw.**

Arcs are left out here: there is no command that draws one.
-/

namespace Drawing

instance {α : Type} [BEq α] [LawfulBEq α] : LawfulBEq (Point α) where
  eq_of_beq {p q} h := by
    obtain ⟨hx, hy⟩ := Bool.and_eq_true_iff.mp h
    exact congrArg₂ Point.mk (eq_of_beq hx) (eq_of_beq hy)
  rfl {p} := Bool.and_eq_true_iff.mpr ⟨beq_self_eq_true p.x, beq_self_eq_true p.y⟩

section

variable {α : Type} [DecidableEq α]

/-- What a command leaves on the paper, and where it leaves the pen. -/
def Pen.trace (pen : Pen α) : Command α → List (Segment α) × Pen α
  | .move p => ([], ⟨p, p⟩)
  | .line p => ([.line pen.pos p], { pen with pos := p })
  | .quadratic c p => ([.quadratic pen.pos c p], { pen with pos := p })
  | .cubic c d p => ([.cubic pen.pos c d p], { pen with pos := p })
  | .close => (if pen.pos = pen.opened then [] else [.line pen.pos pen.opened], { pen with pos := pen.opened })

/-- The strokes that are on the paper after some commands, from where the pen is. -/
def drawnFrom (pen : Pen α) : List (Command α) → List (Segment α)
  | [] => []
  | c :: rest => (pen.trace c).1 ++ drawnFrom (pen.trace c).2 rest

/-- The strokes that are on the paper after some commands, the pen starting at the origin. -/
def drawn [Scalar α] (commands : List (Command α)) : List (Segment α) := drawnFrom Pen.start commands

/-- A line or a curve is on the paper even if it ends where it begins. -/
theorem drawnFrom_ne_nil {commands : List (Command α)} {c : Command α} (hc : c ∈ commands)
    (hdraws : c.letter = .line ∨ c.letter = .quadratic ∨ c.letter = .cubic) (pen : Pen α) :
    drawnFrom pen commands ≠ [] := by
  induction commands generalizing pen with
  | nil => exact absurd hc List.not_mem_nil
  | cons d rest ih =>
    rw [drawnFrom]
    rcases List.mem_cons.mp hc with rfl | hc
    · cases c <;> simp_all [Pen.trace, Command.letter]
    · exact List.append_ne_nil_of_right_ne_nil _ (ih hc _)

end

/-! ## Pieces -/

section

variable {α : Type} [Scalar α]

/-- Strokes that follow one another without a gap. -/
def Joined (piece : List (Segment α)) : Prop := piece.IsChain fun s t => t.start = s.stop

/-- Pieces between which there is a gap. -/
def Apart (p q : List (Segment α)) : Prop := ∀ s ∈ p.getLast?, ∀ t ∈ q.head?, t.start ≠ s.stop

/-- Strokes in pieces without a gap, and gaps between them. -/
structure IsCut (ps : List (List (Segment α))) : Prop where
  ne_nil : ∀ p ∈ ps, p ≠ []
  joined : ∀ p ∈ ps, Joined p
  apart : ps.IsChain Apart

theorem exists_pieces (s : Segment α) (rest : List (Segment α)) :
    ∃ ts more, pieces (s :: rest) = (s :: ts) :: more := by
  rw [pieces]
  split
  · split_ifs <;> exact ⟨_, _, rfl⟩
  · exact ⟨_, _, rfl⟩

theorem flatten_pieces (strokes : List (Segment α)) : (pieces strokes).flatten = strokes := by
  induction strokes with
  | nil => rfl
  | cons s rest ih =>
    cases rest with
    | nil => rfl
    | cons t rest =>
      obtain ⟨ts, more, hpieces⟩ := exists_pieces t rest
      rw [hpieces] at ih
      rw [pieces, hpieces]
      dsimp only
      split_ifs
      · simpa using ih
      · simpa using ih

/-- Strokes cut just where one does not begin at the point at which the one before it ended. -/
structure IsSplit (ps : List (List (Segment α))) : Prop where
  ne_nil : ∀ p ∈ ps, p ≠ []
  joined : ∀ p ∈ ps, p.IsChain fun s t => (t.start == s.stop) = true
  apart : ps.IsChain fun p q => ∀ s ∈ p.getLast?, ∀ t ∈ q.head?, (t.start == s.stop) = false

theorem isSplit_pieces (strokes : List (Segment α)) : IsSplit (pieces strokes) := by
  induction strokes with
  | nil => exact ⟨nofun, nofun, .nil⟩
  | cons s rest ih =>
    cases rest with
    | nil => exact ⟨by simp [pieces], by simp [pieces], by simp [pieces]⟩
    | cons t rest =>
      obtain ⟨ts, more, hpieces⟩ := exists_pieces t rest
      rw [hpieces] at ih
      obtain ⟨hne, hjoined, hapart⟩ := ih
      obtain ⟨hfirst, hmore⟩ := List.forall_mem_cons.mp hjoined
      rw [pieces, hpieces]
      dsimp only
      split_ifs with hjoins
      · -- the stroke joins the first piece, which then ends where it ended before
        refine ⟨?_, List.forall_mem_cons.mpr ⟨hfirst.cons_cons hjoins, hmore⟩, ?_⟩
        · exact List.forall_mem_cons.mpr ⟨List.cons_ne_nil _ _, fun p hp => hne p (List.mem_cons_of_mem _ hp)⟩
        · refine List.isChain_cons.mpr ⟨?_, (List.isChain_cons.mp hapart).2⟩
          simpa using (List.isChain_cons.mp hapart).1
      · refine ⟨List.forall_mem_cons.mpr ⟨List.cons_ne_nil _ _, hne⟩,
          List.forall_mem_cons.mpr ⟨.singleton s, hjoined⟩, .cons_cons ?_ hapart⟩
        simpa using hjoins

theorem isCut_pieces [LawfulBEq (Point α)] (strokes : List (Segment α)) : IsCut (pieces strokes) := by
  have h := isSplit_pieces strokes
  refine ⟨h.ne_nil, fun p hp => (h.joined p hp).imp fun _ _ => eq_of_beq, h.apart.imp fun p q hgap s hs t ht => ?_⟩
  exact beq_eq_false_iff_ne.mp (hgap s hs t ht)

end

/-! ## Pieces as commands -/

section

variable {α : Type} [Scalar α] [Trig α] [DecidableEq α]

/-- A stroke that is drawn by the command that it is written as. -/
def Segment.IsDrawn (s : Segment α) : Prop :=
  ∀ pen : Pen α, pen.pos = s.start → pen.trace s.command = ([s], { pen with pos := s.stop })

theorem isDrawn_of_trace {pen : Pen α} {c : Command α} {s : Segment α} (h : s ∈ (pen.trace c).1) : s.IsDrawn := by
  cases c with
  | move p => exact absurd h List.not_mem_nil
  | close =>
    unfold Pen.trace at h
    split_ifs at h
    · exact absurd h List.not_mem_nil
    · obtain rfl := List.mem_singleton.mp h
      rintro pen' hpos
      rw [Segment.command, Pen.trace, hpos]
      rfl
  | _ =>
    obtain rfl := List.mem_singleton.mp h
    rintro pen' hpos
    rw [Segment.command, Pen.trace, hpos]
    rfl

theorem isDrawn_of_drawnFrom {pen : Pen α} {commands : List (Command α)} :
    ∀ s ∈ drawnFrom pen commands, s.IsDrawn := by
  induction commands generalizing pen with
  | nil => exact nofun
  | cons c rest ih => exact List.forall_mem_append.mpr ⟨fun s hs => isDrawn_of_trace hs, ih⟩

/-- A piece without a gap is drawn stroke by stroke, if the pen is where it begins. -/
theorem drawnFrom_piece {first : Segment α} {piece : List (Segment α)} (hdrawn : ∀ s ∈ first :: piece, s.IsDrawn)
    (hjoined : Joined (first :: piece)) {pen : Pen α} (hpos : pen.pos = first.start) (rest : List (Command α)) :
    drawnFrom pen ((first :: piece).map Segment.command ++ rest) =
      (first :: piece) ++
        drawnFrom { pen with pos := ((first :: piece).getLast (List.cons_ne_nil _ _)).stop } rest := by
  induction piece generalizing first pen with
  | nil =>
    rw [List.map_singleton, List.singleton_append, drawnFrom, hdrawn first List.mem_cons_self pen hpos]
    rfl
  | cons second piece ih =>
    obtain ⟨hfirst, hrest⟩ := List.forall_mem_cons.mp hdrawn
    obtain ⟨hjoins, hjoined⟩ := List.isChain_cons_cons.mp hjoined
    rw [List.map_cons, List.cons_append, drawnFrom, hfirst pen hpos, ih hrest hjoined hjoins.symm]
    rfl

theorem drawnFrom_pieceCommands [LawfulBEq (Point α)] {ps : List (List (Segment α))} (hcut : IsCut ps)
    (hdrawn : ∀ p ∈ ps, ∀ s ∈ p, s.IsDrawn) {last : Option (Point α)}
    (hlast : ∀ p ∈ ps.head?, ∀ s ∈ p.head?, last ≠ some s.start) (pen : Pen α) :
    drawnFrom pen (pieceCommands last ps) = ps.flatten := by
  induction ps generalizing last pen with
  | nil => rfl
  | cons p ps ih =>
    obtain ⟨first, piece, rfl⟩ := List.exists_cons_of_ne_nil (hcut.ne_nil p List.mem_cons_self)
    obtain ⟨hpiece, hrest⟩ := List.forall_mem_cons.mp hdrawn
    obtain ⟨hgap, hapart⟩ := List.isChain_cons.mp hcut.apart
    have hcut' : IsCut ps :=
      ⟨fun q hq => hcut.ne_nil q (List.mem_cons_of_mem _ hq), fun q hq => hcut.joined q (List.mem_cons_of_mem _ hq),
        hapart⟩
    have hmove : (last == some first.start) = false := beq_eq_false_iff_ne.mpr (hlast _ rfl _ rfl)
    generalize hfinal : (first :: piece).getLast (List.cons_ne_nil _ _) = final
    have hgetLast : (first :: piece).getLast? = some final := by
      rw [List.getLast?_eq_some_getLast (List.cons_ne_nil _ _), hfinal]
    have hafter (pen : Pen α) : drawnFrom pen (pieceCommands (some final.stop) ps) = ps.flatten :=
      ih hcut' hrest (fun q hq t ht heq => hgap q hq final hgetLast t ht (Option.some.inj heq).symm) pen
    -- the close of a piece that ends where it began has nothing left to draw
    have hclosing : drawnFrom ⟨final.stop, first.start⟩
        ((if first.start == final.stop then [Command.close] else []) ++ pieceCommands (some final.stop) ps) =
          ps.flatten := by
      split_ifs with hclosed
      · rw [List.singleton_append, drawnFrom, Pen.trace, hafter, if_pos (eq_of_beq hclosed).symm, List.nil_append]
      · exact hafter _
    rw [pieceCommands, hgetLast]
    dsimp only [List.head?_cons]
    rw [hmove, if_neg Bool.false_ne_true, List.append_assoc, List.append_assoc, List.singleton_append, drawnFrom]
    dsimp only [Pen.trace]
    rw [List.nil_append, drawnFrom_piece hpiece (hcut.joined _ List.mem_cons_self) rfl, hfinal, hclosing,
      List.flatten_cons]

/-- **Strokes written as commands** are the strokes that the commands draw. -/
theorem drawnFrom_commandsOf [LawfulBEq (Point α)] {strokes : List (Segment α)}
    (hdrawn : ∀ s ∈ strokes, s.IsDrawn) (pen : Pen α) : drawnFrom pen (commandsOf strokes) = strokes := by
  have hpieces : ∀ p ∈ pieces strokes, ∀ s ∈ p, s.IsDrawn := by
    intro p hp s hs
    refine hdrawn s ?_
    rw [← flatten_pieces strokes]
    exact List.mem_flatten_of_mem hp hs
  unfold commandsOf
  rw [drawnFrom_pieceCommands (isCut_pieces strokes) hpieces (fun _ _ _ _ => (Option.some_ne_none _).symm),
    flatten_pieces]

end

end Drawing
