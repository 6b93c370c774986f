import Drawing.Proofs.Number.RoundOff
import Drawing.Proofs.Path.Reading

/-!
# `Drawing/Proofs/Path/Agreement.lean` — path data and their check agree

The writer of path data and their check know nothing of each other: one puts blanks where the other looks for the end
of a number, and one rounds coordinates that the other never sees.

> **written path data are what the check takes them for** — the letters of their commands with the texts of their
> coordinates, each of which is read as the coordinate rounded to hundredths.
-/

namespace Drawing

variable {α : Type} [Scalar α]

theorem head?_of_isUnsigned {cs : List Char} (h : IsUnsigned cs) : cs.head? ≠ some '-' := by
  obtain ⟨c, rest, rfl, hc⟩ := h.exists_cons
  rintro ⟨⟩
  exact absurd hc (by decide)

/-- Digits under a sign begin with a minus just if they are under one. -/
theorem head?_signed {cs : List Char} (h : IsUnsigned cs) (negative : Bool) :
    (if negative then '-' :: cs else cs).head? = some '-' ↔ negative = true := by
  cases negative with
  | false => simpa using head?_of_isUnsigned h
  | true => simp

theorem head?_toString (n : Int) : (toString n).toList.head? = some '-' ↔ n < 0 := by
  cases n with
  | ofNat n =>
    rw [toList_toString_ofNat]
    exact iff_of_false (head?_of_isUnsigned (isUnsigned_decimalDigits n)) (by simp)
  | negSucc n =>
    rw [toList_toString_negSucc]
    exact iff_of_true rfl (Int.negSucc_lt_zero n)

/-- The text of a coordinate begins with a minus just if the coordinate, rounded, is below zero. -/
theorem head?_coordinateText [NearlyExact α] {x : α} {q : Rat} (hx : Scalar.toRat? x = some q) :
    (coordinateText x).toList.head? = some '-' ↔ roundRat 2 q < 0 := by
  unfold coordinateText
  rw [hx]
  dsimp only
  split_ifs with hwhole hzero
  · obtain ⟨z, rfl⟩ : ∃ z : Int, (z : Rat) = q := ⟨q.num, Rat.coe_int_num_of_den_eq_one hwhole⟩
    rw [head?_toString, roundRat_intCast, Rat.num_intCast]
    exact Int.cast_lt_zero.symm
  · rw [hzero]
    decide
  · have hq : q ≠ 0 := by
      rintro rfl
      exact hzero (roundRat_natCast 0)
    unfold Scalar.fixedText
    rw [hx]
    dsimp only
    rw [String.toList_ofList, head?_signed (isUnsigned_fixedDigits (by decide) q), Scalar.isNegative_iff hx hq]
    have hsame : roundRat 2 (0 : Rat) = 0 := roundRat_natCast 0
    constructor
    · intro hneg
      exact lt_of_le_of_ne (hsame ▸ roundRat_le_roundRat hneg.le) hzero
    · intro hneg
      by_contra hpos
      exact absurd hneg (not_lt.mpr (hsame ▸ roundRat_le_roundRat (not_lt.mp hpos)))

/-- **Written path data and their check agree.** The check finds the letter of each command and the texts of its
coordinates. Such a text is read as the coordinate rounded to hundredths, both exactly and as the scalar nearest to
that, and it has a minus sign just if that is below zero. There is nothing wrong with path data that begin with a move,
and with none but those. -/
theorem check_pathData [NearlyExact α] [ReadsHundredths α] {commands : List (Command α)} (h : CommandsFinite commands) :
    tokensOf (pathData commands) = (commands.flatMap fun c =>
        .letter c.letter.char :: c.coords.map fun x => .number (coordinateText x)) ∧
      (∀ c ∈ commands, ∀ x ∈ c.coords, ∃ q, Scalar.toRat? x = some q ∧
        NumberGrammar.anyScript.read? (coordinateText x) = some (roundRat 2 q) ∧
        NumberGrammar.anyScript.read? (coordinateText x) = some (Scalar.ofRat (roundRat 2 q) : α) ∧
        ((coordinateText x).toList.head? = some '-' ↔ roundRat 2 q < 0)) ∧
      (dataProblems (pathData commands) = [] ↔ ∃ c rest, commands = c :: rest ∧ c.letter = .move) := by
  refine ⟨tokensOf_pathData h, fun c hc x hx => ?_, ?_⟩
  · have hfinite : Scalar.isFinite x = true :=
      Command.isFinite_of_mem_coords (fun p hp => h p (List.mem_flatMap.mpr ⟨c, hc, hp⟩)) hx
    have hvalue := Scalar.toRat?_of_isFinite hfinite
    refine ⟨Scalar.toRat x, hvalue, ?_, ?_, head?_coordinateText hvalue⟩
    · rw [← coordinateText_toRat hfinite, read?_coordinateText, Scalar.printed_exact]
    · rw [read?_coordinateText, Scalar.printed_of_toRat? hvalue]
  · rw [dataProblems_pathData_eq h]
    cases commands with
    | nil => simp
    | cons c rest => simp

/-- A move and a curve whose coordinates are rounded to zero from below, to the even digit, up to a whole number and not
at all, and a close. -/
def scribble : List (Command Float) := [.move ⟨-0.004, 1e21⟩, .quadratic ⟨2.675, -0.125⟩ ⟨99.996, -7⟩, .close]

theorem check_pathData_scribble :
    CommandsFinite scribble ∧ pathData scribble = "M 0 1000000000000000000000 Q 2.67 -0.12 100.00 -7 Z" ∧
      tokensOf (pathData scribble) = (scribble.flatMap fun c =>
        .letter c.letter.char :: c.coords.map fun x => .number (coordinateText x)) ∧
      (∀ c ∈ scribble, ∀ x ∈ c.coords, ∃ q, Scalar.toRat? x = some q ∧
        NumberGrammar.anyScript.read? (coordinateText x) = some (roundRat 2 q) ∧
        NumberGrammar.anyScript.read? (coordinateText x) = some (Scalar.ofRat (roundRat 2 q) : Float) ∧
        ((coordinateText x).toList.head? = some '-' ↔ roundRat 2 q < 0)) ∧
      dataProblems (pathData scribble) = [] := by
  have hfinite : CommandsFinite scribble := by
    unfold CommandsFinite Point.IsFinite
    decide +kernel
  obtain ⟨htokens, hread, hproblems⟩ := check_pathData hfinite
  exact ⟨hfinite, by decide +kernel, htokens, hread, hproblems.mpr ⟨_, _, rfl, rfl⟩⟩

end Drawing
