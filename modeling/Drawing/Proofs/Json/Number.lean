import Drawing.Json.Reader
import Drawing.Proofs.Number.Legible
import Drawing.Proofs.Number.Nearest

/-!
# `Drawing/Proofs/Json/Number.lean` — numbers in raw data read back

A number ends in front of the first character that no number has, and what stands behind a value in raw data is a comma
or a bracket. So a number that was printed is read to its end: digits alone as a whole number, which has a limit, and
anything else as a decimal.

> **a printed number is read as that number**, if it is finite and does not have too many digits.
-/

namespace Drawing

namespace Json

/-! ## Places in a text -/

@[simp] theorem Cursor.advance_append (cs r : List Char) (place : Nat) :
    (⟨cs ++ r, place⟩ : Cursor).advance cs.length = ⟨r, place + cs.length⟩ := by
  rw [advance, List.drop_left]

@[simp] theorem Cursor.advance_one (c : Char) (r : List Char) (place : Nat) :
    (⟨c :: r, place⟩ : Cursor).advance 1 = ⟨r, place + 1⟩ := rfl

theorem Cursor.digits_append {ds r : List Char} (hds : ∀ c ∈ ds, c.isDigit = true)
    (hr : ∀ c, r.head? = some c → c.isDigit = false) (place : Nat) :
    (⟨ds ++ r, place⟩ : Cursor).digits = (ds, ⟨r, place + ds.length⟩) := by
  have htake : (ds ++ r).takeWhile Char.isDigit = ds := by
    rw [List.takeWhile_append_of_pos hds]
    cases r with
    | nil => simp
    | cons c r => simp [hr c rfl]
  unfold digits
  dsimp only
  rw [htake, advance_append]

/-- What stands behind a value: the end of the text, or of what it is in, or a comma. -/
def Closes (r : List Char) : Prop := ∀ c, r.head? = some c → c = ',' ∨ c = ']' ∨ c = '\x7d'

theorem digitsValue_eq (ds : List Char) : digitsValue ds = Nat.ofDigitChars 10 ds 0 := by
  unfold digitsValue
  rw [Nat.ofDigitChars_eq_foldl]
  congr 1
  funext n d
  rw [Nat.mul_comm]
  rfl

theorem readDecimals_point {fs r : List Char} (hne : fs ≠ []) (hfs : ∀ c ∈ fs, c.isDigit = true)
    (hr : ∀ c, r.head? = some c → c.isDigit = false) (place : Nat) :
    readDecimals ⟨'.' :: (fs ++ r), place⟩ = some (fs, ⟨r, place + 1 + fs.length⟩) := by
  unfold readDecimals
  dsimp only
  rw [Cursor.advance_one, Cursor.digits_append hfs hr]
  simp [hne]

theorem readDecimals_eq_none {r : List Char} (hr : r.head? ≠ some '.') (place : Nat) :
    readDecimals ⟨r, place⟩ = none := by
  unfold readDecimals
  dsimp only
  split
  · exact absurd rfl hr
  · rfl

theorem readExponent_written {r : List Char} (hr : ∀ c, r.head? = some c → c.isDigit = false) (width : Nat) (e : Int)
    (place : Nat) :
    ∃ place', readExponent ⟨'e' :: (exponentText width e ++ r), place⟩ = some (e, ⟨r, place'⟩) := by
  have hdigits := isDigit_of_mem_padZeros width e.natAbs
  have hne : padZeros width (decimalDigits e.natAbs) ≠ [] := List.append_ne_nil_of_right_ne_nil _ Nat.toDigits_ne_nil
  have hvalue : digitsValue (padZeros width (decimalDigits e.natAbs)) = e.natAbs :=
    (digitsValue_eq _).trans (ofDigitChars_padded _ _)
  refine ⟨place + 1 + 1 + (padZeros width (decimalDigits e.natAbs)).length, ?_⟩
  unfold readExponent exponentText
  by_cases hneg : e < 0
  · simp [hneg, Cursor.digits_append hdigits hr, hvalue, hne, abs_of_neg hneg]
  · simp [hneg, Cursor.digits_append hdigits hr, hvalue, hne, abs_of_nonneg (not_lt.mp hneg)]

theorem readExponent_eq_none {r : List Char} (hr : ∀ c, r.head? = some c → c ≠ 'e' ∧ c ≠ 'E') (place : Nat) :
    readExponent ⟨r, place⟩ = none := by
  cases r with
  | nil => rfl
  | cons c r =>
    obtain ⟨hlower, hupper⟩ := hr c rfl
    exact if_neg (not_or.mpr ⟨hlower, hupper⟩)

namespace Closes

variable {r : List Char}

theorem isDigit (h : Closes r) : ∀ c, r.head? = some c → c.isDigit = false := by
  intro c hc
  rcases h c hc with rfl | rfl | rfl <;> decide

theorem ne_exponent (h : Closes r) : ∀ c, r.head? = some c → c ≠ 'e' ∧ c ≠ 'E' := by
  intro c hc
  rcases h c hc with rfl | rfl | rfl <;> decide

theorem ne_point (h : Closes r) : r.head? ≠ some '.' := by
  intro hc
  rcases h '.' hc with hc | hc | hc <;> exact absurd hc (by decide)

end Closes

section Numbers

variable {α : Type} [Scalar α]

/-- What is read of a number behind its whole part. -/
def readFraction (negative : Bool) (whole : List Char) (c : Cursor) : Reading (Numeral α × Cursor) :=
  let (decimals, afterDecimals) := match readDecimals c with
    | some (ds, rest) => (ds, rest)
    | none => ([], c)
  match decimals.isEmpty, readExponent afterDecimals with
  | true, none =>
    if digitLimit < whole.length then .error (.limit (.digits whole.length))
    else
      let n : Int := digitsValue whole
      .ok (.whole (if negative then -n else n), c)
  | _, found =>
    let (e, rest) := found.getD (0, afterDecimals)
    let x : α := Scalar.ofDecimal (digitsValue (whole ++ decimals)) (e - decimals.length)
    .ok (.real (if negative then -x else x), rest)

/-- The sign of a number, and the cursor behind it. -/
def Cursor.sign (c : Cursor) : Bool × Cursor :=
  match c.ahead with
  | '-' :: _ => (true, c.advance 1)
  | _ => (false, c)

/-- The whole part of a number, and the cursor behind it. -/
def Cursor.whole (c : Cursor) : List Char × Cursor :=
  match c.ahead with
  | '0' :: _ => (['0'], c.advance 1)
  | _ => c.digits

theorem readNumber_eq (start : Cursor) : (readNumber start : Reading (Numeral α × Cursor)) =
    if start.sign.2.whole.1.isEmpty then start.fault .expectedValue
    else readFraction start.sign.1 start.sign.2.whole.1 start.sign.2.whole.2 := rfl

theorem Cursor.whole_append {ds r : List Char} (hds : IsWhole ds)
    (hr : ∀ c, r.head? = some c → c.isDigit = false) (place : Nat) :
    (⟨ds ++ r, place⟩ : Cursor).whole = (ds, ⟨r, place + ds.length⟩) := by
  unfold whole
  split
  · next rest hahead =>
    obtain rfl := hds.lead (by
      obtain ⟨c, cs, rfl⟩ := List.exists_cons_of_ne_nil hds.ne_nil
      exact congrArg some (List.head_eq_of_cons_eq hahead))
    rfl
  · exact digits_append hds.digits hr place

theorem Cursor.sign_of_ne {cs : List Char} (h : cs.head? ≠ some '-') (place : Nat) :
    (⟨cs, place⟩ : Cursor).sign = (false, ⟨cs, place⟩) := by
  unfold sign
  split
  · next hahead => exact absurd (congrArg List.head? hahead) h
  · rfl

/-- Reading a number begins with its sign and its whole part. -/
theorem exists_readFraction (negative : Bool) {ds r : List Char} (hds : IsWhole ds)
    (hr : ∀ c, r.head? = some c → c.isDigit = false) (place : Nat) :
    ∃ place', (readNumber ⟨if negative then '-' :: (ds ++ r) else ds ++ r, place⟩ : Reading (Numeral α × Cursor)) =
      readFraction negative ds ⟨r, place'⟩ := by
  have hne : ¬ ds.isEmpty = true := by simp [hds.ne_nil]
  cases negative with
  | true =>
    have hsign : (⟨'-' :: (ds ++ r), place⟩ : Cursor).sign = (true, ⟨ds ++ r, place + 1⟩) := rfl
    refine ⟨place + 1 + ds.length, ?_⟩
    rw [if_pos rfl, readNumber_eq, hsign, Cursor.whole_append hds hr, if_neg hne]
  | false =>
    have hminus : (ds ++ r).head? ≠ some '-' := by
      obtain ⟨c, cs, rfl⟩ := List.exists_cons_of_ne_nil hds.ne_nil
      rintro heq
      have := hds.digits '-' (Option.some.inj heq ▸ List.mem_cons_self)
      exact absurd this (by decide)
    refine ⟨place + ds.length, ?_⟩
    rw [if_neg Bool.false_ne_true, readNumber_eq, Cursor.sign_of_ne hminus, Cursor.whole_append hds hr, if_neg hne]

theorem readFraction_point (negative : Bool) (whole : List Char) {fs : List Char} {c c' : Cursor}
    (h : readDecimals c = some (fs, c')) (hne : fs ≠ []) :
    (readFraction negative whole c : Reading (Numeral α × Cursor)) =
      .ok (.real (Scalar.ofSigned negative (digitsValue (whole ++ fs))
        (((readExponent c').getD (0, c')).1 - fs.length)), ((readExponent c').getD (0, c')).2) := by
  have hempty : fs.isEmpty = false := List.isEmpty_eq_false_iff.mpr hne
  unfold readFraction
  rw [h]
  dsimp only
  rw [hempty]
  rfl

theorem readFraction_exponent {negative : Bool} {whole : List Char} {c c' : Cursor} {e : Int}
    (h : readDecimals c = none) (he : readExponent c = some (e, c')) :
    (readFraction negative whole c : Reading (Numeral α × Cursor)) =
      .ok (.real (Scalar.ofSigned negative (digitsValue whole) e), c') := by
  unfold readFraction
  rw [h]
  dsimp only
  rw [he, List.append_nil]
  dsimp only [List.isEmpty_nil, Option.getD_some, List.length_nil]
  rw [Int.natCast_zero, Int.sub_zero]
  rfl

theorem readFraction_whole {negative : Bool} {whole : List Char} {c : Cursor} (h : readDecimals c = none)
    (he : readExponent c = none) :
    (readFraction negative whole c : Reading (Numeral α × Cursor)) =
      if digitLimit < whole.length then .error (.limit (.digits whole.length))
      else .ok (.whole (if negative then -(digitsValue whole : Int) else digitsValue whole), c) := by
  unfold readFraction
  rw [h]
  dsimp only
  rw [he]
  rfl

/-- A decimal is read to its end. -/
theorem readNumber_decimal (negative : Bool) {body : List Char} {m : Nat} {e : Int} (h : IsDecimal body m e)
    {r : List Char} (hr : Closes r) (place : Nat) :
    ∃ place', (readNumber ⟨if negative then '-' :: (body ++ r) else body ++ r, place⟩ : Reading (Numeral α × Cursor)) =
      .ok (.real (Scalar.ofSigned negative m e), ⟨r, place'⟩) := by
  have hmark {c : Char} (hc : c.isDigit = false) (r : List Char) :
      ∀ d, (c :: r).head? = some d → d.isDigit = false := by
    rintro d hd
    obtain rfl := Option.some.inj hd
    exact hc
  cases h with
  | @point ds fs rest e hds hne hfs hrest =>
    obtain ⟨place, hread⟩ := exists_readFraction (α := α) negative hds (hmark (c := '.') rfl (fs ++ (rest ++ r))) place
    have hdecimals (hrest : ∀ c, (rest ++ r).head? = some c → c.isDigit = false) :=
      readFraction_point (α := α) negative ds (readDecimals_point hne hfs hrest place) hne
    rw [List.append_assoc, List.cons_append, List.append_assoc, hread]
    cases hrest with
    | missing =>
      rw [List.nil_append] at hdecimals ⊢
      rw [hdecimals hr.isDigit, readExponent_eq_none hr.ne_exponent, digitsValue_eq]
      exact ⟨_, rfl⟩
    | written width e =>
      obtain ⟨place', he⟩ := readExponent_written hr.isDigit width e (place + 1 + fs.length)
      rw [List.cons_append] at hdecimals ⊢
      rw [hdecimals (hmark rfl _), he, digitsValue_eq]
      exact ⟨place', rfl⟩
  | exponent hds width e =>
    obtain ⟨place, hread⟩ := exists_readFraction (α := α) negative hds
      (hmark (c := 'e') rfl (exponentText width e ++ r)) place
    obtain ⟨place', he⟩ := readExponent_written hr.isDigit width e place
    rw [List.append_assoc, List.cons_append, hread,
      readFraction_exponent (readDecimals_eq_none (by simp) place) he, digitsValue_eq]
    exact ⟨place', rfl⟩

/-- A whole number is read to its end, if it does not have too many digits. -/
theorem readNumber_whole {n : Int} (hn : (decimalDigits n.natAbs).length ≤ digitLimit) {r : List Char} (hr : Closes r)
    (place : Nat) :
    ∃ place', (readNumber ⟨(toString n).toList ++ r, place⟩ : Reading (Numeral α × Cursor)) =
      .ok (.whole n, ⟨r, place'⟩) := by
  obtain ⟨place', hread⟩ :=
    exists_readFraction (α := α) (decide (n < 0)) (isWhole_decimalDigits n.natAbs) hr.isDigit place
  have htext : (toString n).toList ++ r =
      if decide (n < 0) then '-' :: (decimalDigits n.natAbs ++ r) else decimalDigits n.natAbs ++ r := by
    rw [toList_toString_int]
    by_cases hneg : n < 0 <;> simp [hneg]
  have hvalue : (if decide (n < 0) then -(digitsValue (decimalDigits n.natAbs) : Int)
      else digitsValue (decimalDigits n.natAbs)) = n := by
    rw [digitsValue_eq, show Nat.ofDigitChars 10 (decimalDigits n.natAbs) 0 = n.natAbs from ofDigitChars_padded 0 _]
    rcases lt_or_ge n 0 with hneg | hpos
    · rw [if_pos (decide_eq_true hneg)]
      omega
    · rw [if_neg (by simpa using hpos)]
      omega
  refine ⟨place', ?_⟩
  rw [htext, hread, readFraction_whole (readDecimals_eq_none hr.ne_point _) (readExponent_eq_none hr.ne_exponent _),
    if_neg (not_lt.mpr hn), hvalue]

end Numbers

end Json

end Drawing
