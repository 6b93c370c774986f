import Drawing.Number.Reading
import Drawing.Proofs.Number.Finite
import Drawing.Proofs.Path.Data

/-!
# `Drawing/Proofs/Number/Printed.lean` — reading a printed coordinate

A coordinate is printed without decimals if it is whole and with two otherwise, so what is read from the text is as a
rule not the coordinate itself:

> **what is read is what was printed** — the number nearest to the digits that stand there, which are the digits of
> the coordinate rounded to hundredths.

The words for what is not finite are read as what they say.
-/

namespace Drawing

/-! ## Digits -/

theorem toLower_of_isDigit {c : Char} (h : c.isDigit = true) : c.toLower = c := by
  have h9 : c.val.toNat ≤ 57 := (Char.isDigit_iff_toNat.mp h).2
  unfold Char.toLower
  rw [dif_neg]
  intro hupper
  have h65 : 65 ≤ c.val.toNat := UInt32.le_iff_toNat_le.mp hupper.1
  omega

/-- The number nearest to a decimal with a sign. -/
def Scalar.ofSigned {α : Type} [Scalar α] (negative : Bool) (m : Nat) (e : Int) : α :=
  if negative then -ofDecimal m e else ofDecimal m e

namespace NumberGrammar

theorem leadingDigits_append {ds rest : List Char} (hds : ∀ c ∈ ds, c.isDigit = true)
    (hrest : ∀ c, rest.head? = some c → digitValue? c = none) (value count : Nat) :
    anyScript.leadingDigits value count (ds ++ rest) =
      (Nat.ofDigitChars 10 ds value, count + ds.length, rest) := by
  induction ds generalizing value count with
  | nil =>
    cases rest with
    | nil => rfl
    | cons c rest =>
      have hc : anyScript.digit? c = none := hrest c rfl
      simp [leadingDigits, hc]
  | cons d ds ih =>
    obtain ⟨hd, hds⟩ := List.forall_mem_cons.mp hds
    have hdigit : anyScript.digit? d = some (d.toNat - '0'.toNat) := digitValue?_of_isDigit hd
    rw [List.cons_append, leadingDigits, hdigit]
    simp only [ih hds, Nat.ofDigitChars_cons, List.length_cons]
    rw [Nat.mul_comm value 10, Nat.add_assoc, Nat.add_comm 1]

theorem leadingDigits_all {ds : List Char} (hds : ∀ c ∈ ds, c.isDigit = true) (value count : Nat) :
    anyScript.leadingDigits value count ds = (Nat.ofDigitChars 10 ds value, count + ds.length, []) := by
  have hrest : ∀ c, ([] : List Char).head? = some c → digitValue? c = none := nofun
  simpa using leadingDigits_append hds hrest value count

/-- Digits with a point among them are read as one number, and the places behind the point are counted. -/
theorem magnitude_fraction {ds fs : List Char} (hne : ds ≠ []) (hds : ∀ c ∈ ds, c.isDigit = true)
    (hfs : ∀ c ∈ fs, c.isDigit = true) :
    anyScript.magnitude (ds ++ '.' :: fs) = some ⟨Nat.ofDigitChars 10 (ds ++ fs) 0, -(fs.length : Int)⟩ := by
  have hpoint : ∀ c, ('.' :: fs).head? = some c → digitValue? c = none := by
    rintro c hc
    obtain rfl := Option.some.inj hc
    decide
  unfold magnitude
  rw [leadingDigits_append hds hpoint]
  simp [leadingDigits_all hfs, hne, exponentPart, Nat.ofDigitChars_append]

theorem magnitude_whole {ds : List Char} (hne : ds ≠ []) (hds : ∀ c ∈ ds, c.isDigit = true) :
    anyScript.magnitude ds = some ⟨Nat.ofDigitChars 10 ds 0, 0⟩ := by
  unfold magnitude
  rw [leadingDigits_all hds]
  simp [hne, exponentPart]

theorem magnitude_decimalDigits (n : Nat) : anyScript.magnitude (decimalDigits n) = some ⟨n, 0⟩ := by
  have hne : decimalDigits n ≠ [] := Nat.toDigits_ne_nil
  rw [magnitude_whole hne fun _ => isDigit_of_mem_decimalDigits]
  unfold decimalDigits
  rw [Nat.ofDigitChars_ten_toDigits]

theorem magnitude_fixedDigits {places : Nat} (hp : 0 < places) (q : Rat) :
    anyScript.magnitude (fixedDigits places q) =
      some ⟨nearestNat (q.num.natAbs * tenTo places) q.den, -(places : Int)⟩ := by
  unfold fixedDigits
  dsimp only
  generalize nearestNat (q.num.natAbs * tenTo places) q.den = n
  have hdigits := isDigit_of_mem_padZeros (places + 1) n
  have hlength := le_length_padZeros (places + 1) (decimalDigits n)
  have hvalue : Nat.ofDigitChars 10 (padZeros (places + 1) (decimalDigits n)) 0 = n := by
    unfold padZeros decimalDigits
    rw [Nat.ofDigitChars_append, Nat.ofDigitChars_replicate_zero, Nat.mul_zero, Nat.ofDigitChars_ten_toDigits]
  generalize padZeros (places + 1) (decimalDigits n) = ds at hdigits hlength hvalue
  rw [if_neg (Nat.ne_of_gt hp), magnitude_fraction ?_ (fun c hc => hdigits c (List.mem_of_mem_take hc))
    fun c hc => hdigits c (List.mem_of_mem_drop hc)]
  · have hplaces : ds.length - (ds.length - places) = places := by omega
    rw [List.take_append_drop, hvalue, List.length_drop, hplaces]
  · refine List.ne_nil_of_length_pos ?_
    rw [List.length_take]
    omega

/-! ## Words -/

variable {α : Type} [Scalar α]

/-- What begins with a digit is none of the words for what is not finite. -/
theorem word_of_isUnsigned {cs : List Char} (h : IsUnsigned cs) :
    anyScript.word cs = (anyScript.magnitude cs).map .finite := by
  obtain ⟨c, rest, rfl, hc⟩ := h.exists_cons
  have hletter {w : String} {d : Char} (hw : w.toList.head? = some d) (hd : d.isDigit = false) :
      (c :: rest).map Char.toLower ≠ w.toList := by
    intro heq
    rw [← heq, List.map_cons, toLower_of_isDigit hc] at hw
    obtain rfl := Option.some.inj hw
    exact absurd hc (by simp [hd])
  have hnan : (c :: rest).map Char.toLower ≠ "nan".toList := hletter rfl (by decide)
  have hinf : (c :: rest).map Char.toLower ≠ "inf".toList := hletter rfl (by decide)
  have hinfinity : (c :: rest).map Char.toLower ≠ "infinity".toList := hletter rfl (by decide)
  unfold word
  dsimp only
  rw [if_neg hnan, if_neg (not_or.mpr ⟨hinf, hinfinity⟩)]

/-- Digits with a sign in front of them, or with none. -/
theorem signed?_of_isUnsigned {cs : List Char} {m : Magnitude} (h : IsUnsigned cs)
    (hm : anyScript.magnitude cs = some m) (negative : Bool) :
    anyScript.signed? (if negative then '-' :: cs else cs) =
      some (Scalar.ofSigned negative m.mantissa m.exponent : α) := by
  have hword : anyScript.word cs = some (.finite m) := by rw [word_of_isUnsigned h, hm, Option.map_some]
  obtain ⟨c, rest, rfl, hc⟩ := h.exists_cons
  have hminus : c ≠ '-' := by
    rintro rfl
    exact absurd hc (by decide)
  have hplus : c ≠ '+' := by
    rintro rfl
    exact absurd hc (by decide)
  unfold signed? Scalar.ofSigned
  cases negative with
  | false => simp [hminus, hplus, hword]
  | true => simp [hword]

end NumberGrammar

/-! ## Plain characters -/

theorem toNat_mem_of_between {c : Char} {low high : UInt32} (h : c.val ≥ low ∧ c.val ≤ high) :
    low.toNat ≤ c.toNat ∧ c.toNat ≤ high.toNat :=
  ⟨UInt32.le_iff_toNat_le.mp h.1, UInt32.le_iff_toNat_le.mp h.2⟩

theorem toNat_of_isNumberChar {c : Char} (h : isNumberChar c = true) :
    45 ≤ c.toNat ∧ c.toNat ≤ 122 ∧ c ≠ '_' := by
  -- a letter or digit is in one of three ranges, and the underscore is in none of them
  have hrange {low high : Nat} (hc : low ≤ c.toNat ∧ c.toNat ≤ high) (hlow : 45 ≤ low) (hhigh : high ≤ 122)
      (hmark : high < 95 ∨ 95 < low) : 45 ≤ c.toNat ∧ c.toNat ≤ 122 ∧ c ≠ '_' := by
    refine ⟨by omega, by omega, ?_⟩
    rintro rfl
    have hvalue : '_'.toNat = 95 := rfl
    omega
  unfold isNumberChar at h
  simp only [Bool.or_eq_true, beq_iff_eq] at h
  rcases h with (h | rfl) | rfl
  · have hkinds : (c.isUpper || c.isLower || c.isDigit) = true := h
    simp only [Bool.or_eq_true] at hkinds
    rcases hkinds with (hupper | hlower) | hdigit
    · have hupper : c.val ≥ 'A'.val ∧ c.val ≤ 'Z'.val := of_decide_eq_true hupper
      exact hrange (toNat_mem_of_between hupper) (by decide) (by decide) (by decide)
    · have hlower := Bool.and_eq_true_iff.mp hlower
      exact hrange (toNat_mem_of_between (hlower.imp of_decide_eq_true of_decide_eq_true)) (by decide) (by decide)
        (by decide)
    · have hdigit := Bool.and_eq_true_iff.mp hdigit
      exact hrange (toNat_mem_of_between (hdigit.imp of_decide_eq_true of_decide_eq_true)) (by decide) (by decide)
        (by decide)
  · decide
  · decide

theorem isSpaceChar_of_isNumberChar {c : Char} (h : isNumberChar c = true) : isSpaceChar c = false := by
  obtain ⟨hge, hle, -⟩ := toNat_of_isNumberChar h
  unfold isSpaceChar
  simp
  omega

theorem isBlank_of_isNumberChar {c : Char} (h : isNumberChar c = true) : isBlank c = false := by
  obtain ⟨hge, -, -⟩ := toNat_of_isNumberChar h
  unfold isBlank
  rw [isSpaceChar_of_isNumberChar h]
  simp
  omega

theorem trimChars_eq_self {p : Char → Bool} {cs : List Char} (h : ∀ c ∈ cs, p c = false) :
    trimChars p cs = cs := by
  have hdrop {cs : List Char} (h : ∀ c ∈ cs, p c = false) : cs.dropWhile p = cs := by
    cases cs with
    | nil => rfl
    | cons c rest => exact List.dropWhile_cons_of_neg (by simp [h c List.mem_cons_self])
  unfold trimChars
  rw [hdrop h, hdrop fun c hc => h c (List.mem_reverse.mp hc), List.reverse_reverse]

theorem dropUnderscores_eq_self {g : NumberGrammar} {cs : List Char} (h : '_' ∉ cs) (afterDigit : Bool) :
    g.dropUnderscores afterDigit cs = some cs := by
  induction cs generalizing afterDigit with
  | nil => rfl
  | cons c rest ih =>
    obtain ⟨hc, hrest⟩ := not_or.mp (mt List.mem_cons.mpr h)
    rw [NumberGrammar.dropUnderscores, ih hrest]
    · rfl
    · rintro rfl
      exact hc rfl

variable {α : Type} [Scalar α]

theorem read?_of_isNumberChar {s : String} (h : ∀ c ∈ s.toList, isNumberChar c = true) :
    (NumberGrammar.anyScript.read? s : Option α) = NumberGrammar.anyScript.signed? s.toList := by
  have hmark : '_' ∉ s.toList := fun hm => (toNat_of_isNumberChar (h _ hm)).2.2 rfl
  unfold NumberGrammar.read?
  dsimp only
  rw [trimChars_eq_self fun c hc => isSpaceChar_of_isNumberChar (h c hc)]
  show (NumberGrammar.anyScript.dropUnderscores false s.toList).bind _ = _
  rw [dropUnderscores_eq_self hmark]
  rfl

/-! ## Coordinates -/

/-- What is read from the text of a coordinate: the coordinate rounded to hundredths. -/
def Scalar.printed (x : α) : α :=
  match toRat? x with
  | none => if isNaN x then zero / zero else if isNegative x then -(one / zero) else one / zero
  | some q =>
    if q.den = 1 then ofSigned (q.num < 0) q.num.natAbs 0
    else if roundRat 2 q = 0 then ofDecimal 0 0
    else ofSigned (isNegative x) (nearestNat (q.num.natAbs * tenTo 2) q.den) (-2)

theorem signed?_toString (n : Int) : NumberGrammar.anyScript.signed? (toString n).toList =
    some (Scalar.ofSigned (n < 0) n.natAbs 0 : α) := by
  have htext : (toString n).toList =
      if decide (n < 0) then '-' :: decimalDigits n.natAbs else decimalDigits n.natAbs := by
    cases n with
    | ofNat m => exact toList_toString_ofNat m
    | negSucc m =>
      rw [toList_toString_negSucc, decide_eq_true (Int.negSucc_lt_zero m)]
      rfl
  rw [htext]
  exact NumberGrammar.signed?_of_isUnsigned (isUnsigned_decimalDigits _)
    (NumberGrammar.magnitude_decimalDigits _) _

theorem signed?_fixedText {places : Nat} (hp : 0 < places) {x : α} {q : Rat} (hq : Scalar.toRat? x = some q) :
    NumberGrammar.anyScript.signed? (Scalar.fixedText places x).toList =
      some (Scalar.ofSigned (Scalar.isNegative x) (nearestNat (q.num.natAbs * tenTo places) q.den)
        (-(places : Int)) : α) := by
  unfold Scalar.fixedText
  rw [hq]
  dsimp only
  rw [String.toList_ofList]
  exact NumberGrammar.signed?_of_isUnsigned (isUnsigned_fixedDigits hp q)
    (NumberGrammar.magnitude_fixedDigits hp q) _

/-- **What is read is what was printed**, whatever the coordinate. -/
theorem read?_coordinateText (x : α) :
    NumberGrammar.anyScript.read? (coordinateText x) = some (Scalar.printed x) := by
  rw [read?_of_isNumberChar (isNumberChar_coordinateText x)]
  unfold coordinateText Scalar.printed
  cases hq : Scalar.toRat? x with
  | none =>
    dsimp only
    unfold Scalar.unboundedText
    split_ifs <;> rfl
  | some q =>
    dsimp only
    split_ifs with hwhole hzero
    · exact signed?_toString q.num
    · exact signed?_toString 0
    · exact signed?_fixedText (by decide) hq

/-! ## Whole numbers -/

/-- Scalars for which a whole number is the same, whether it is meant or read from its digits. -/
class ReadsWhole (α : Type) [Scalar α] : Prop where
  ofDecimal_whole (n : Nat) : (Scalar.ofDecimal n 0 : α) = Scalar.ofNat n

instance : ReadsWhole Rat where
  ofDecimal_whole n := by
    show ((n * tenTo 0 : Nat) : Rat) = (n : Rat)
    rw [show tenTo 0 = 1 from rfl, Nat.mul_one]

namespace Double

/-- A quotient whose numerator has this many more binary digits than its denominator is beyond every double. -/
theorem ofNatRatio_of_log2 {n d : Nat} (h : 1328 + d.log2 ≤ n.log2) :
    ofNatRatio n d = Float.ofBits (UInt64.ofNat infinityBits) := by
  have hn : n ≠ 0 := by
    rintro rfl
    have hzero : (0 : Nat).log2 = 0 := by decide
    omega
  have hexponent : 1275 ≤ exponentFor n d := by
    unfold exponentFor
    dsimp only
    split_ifs <;> omega
  unfold ofNatRatio
  rw [if_neg hn]
  dsimp only
  congr 2
  refine Nat.min_eq_right ?_
  have hbits : infinityBits ≤ 2349 * twoTo 52 := by decide
  have hmul : 2349 * twoTo 52 ≤ (exponentFor n d + 1074).toNat * twoTo 52 := Nat.mul_le_mul_right _ (by omega)
  omega

theorem ofDecimal_whole (n : Nat) : ofDecimal n 0 = ofRat n := by
  have hrat : ofRat n = ofNatRatio n 1 := by
    unfold ofRat
    dsimp only
    rw [Rat.num_natCast, Rat.den_natCast, Int.natAbs_natCast, if_neg (by omega)]
  rw [hrat]
  by_cases hn : n = 0
  · simp [ofDecimal, ofNatRatio, hn]
  unfold ofDecimal
  dsimp only
  rw [if_neg hn]
  split_ifs with hlarge hsmall hexponent
  · have hone : (1 : Nat).log2 = 0 := by decide
    exact (ofNatRatio_of_log2 (by omega)).symm
  · omega
  · rw [show tenTo (0 : Int).toNat = 1 from rfl, Nat.mul_one]
  · exact absurd (Int.le_refl 0) hexponent

end Double

instance : ReadsWhole Float where
  ofDecimal_whole := Double.ofDecimal_whole

end Drawing
