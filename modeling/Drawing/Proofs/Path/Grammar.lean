import Drawing.Proofs.Number.Printed
import Drawing.Proofs.Path.Lexeme

/-!
# `Drawing/Proofs/Path/Grammar.lean` — what the check of path data lets pass

Strict path data are letters and decimal numbers, with blanks and commas to set them apart: each letter with just the
numbers that it takes, and the first one a move. The check looks at the characters of a text and at the tokens that it
finds there, and neither shows what stands between tokens. Points and signs that belong to no number are characters
that numbers are made of, so nothing is said of them:

> **the check finds nothing** exactly in strict path data, with or without points and signs that belong to no number.
-/

namespace Drawing

/-- Decimal numbers: their digits are the plain ones, and a point may end them. -/
def LexemeGrammar.decimal : LexemeGrammar := ⟨Char.isDigit, true⟩

/-- Whether a character does nothing but set others apart. -/
def isSeparator (c : Char) : Bool := isBlank c || c == ','

/-- How a text splits, from left to right, into letters and numbers as long as can be, with separators anywhere between
them, and into the characters that are left over. -/
inductive Splits : List Char → List DataToken → List Char → Prop
  | nil : Splits [] [] []
  | separator {c : Char} {cs : List Char} {ts : List DataToken} {loose : List Char} (hc : isSeparator c = true)
      (h : Splits cs ts loose) : Splits (c :: cs) ts loose
  | letter {c : Char} {cs : List Char} {ts : List DataToken} {loose : List Char} (hc : c.isAlpha = true)
      (h : Splits cs ts loose) : Splits (c :: cs) (.letter c :: ts) loose
  | number {number rest : List Char} {ts : List DataToken} {loose : List Char}
      (hn : LexemeGrammar.decimal.IsLongest number rest) (h : Splits rest ts loose) :
      Splits (number ++ rest) (.number (String.ofList number) :: ts) loose
  | loose {c : Char} {cs : List Char} {ts : List DataToken} {loose : List Char} (hsep : isSeparator c = false)
      (halpha : c.isAlpha = false) (hn : ∀ number, LexemeGrammar.decimal.IsNumber number → ¬ number <+: c :: cs)
      (h : Splits cs ts loose) : Splits (c :: cs) ts (c :: loose)

/-! ## Characters -/

theorem isNumberChar_of_isAlphanum {c : Char} (h : c.isAlphanum = true) : isNumberChar c = true := by
  simp [isNumberChar, h]

theorem isNumberChar_of_isDigit {c : Char} (h : c.isDigit = true) : isNumberChar c = true :=
  isNumberChar_of_isAlphanum (Bool.or_eq_true_iff.mpr (.inr h))

theorem isNumberChar_of_isAlpha {c : Char} (h : c.isAlpha = true) : isNumberChar c = true :=
  isNumberChar_of_isAlphanum (Bool.or_eq_true_iff.mpr (.inl h))

/-- Separators are no characters of numbers, and no letters. -/
theorem isSeparator_of_isNumberChar {c : Char} (h : isNumberChar c = true) : isSeparator c = false := by
  have hcomma : c ≠ ',' := by
    rintro rfl
    exact absurd h (by decide)
  simp [isSeparator, isBlank_of_isNumberChar h, hcomma]

theorem isAnyDigit_of_lt {c : Char} (h : c.toNat < 0x80) : isAnyDigit c = c.isDigit := by
  unfold isAnyDigit digitValue?
  rw [if_pos h]
  cases c.isDigit <;> rfl

/-- No script has its digits among the blanks. -/
theorem isAnyDigit_of_isBlank {c : Char} (h : isBlank c = true) : isAnyDigit c = false := by
  by_cases hlt : c.toNat < 0x80
  · rw [isAnyDigit_of_lt hlt, Bool.eq_false_iff]
    intro hdigit
    exact absurd h (by simp [isBlank_of_isNumberChar (isNumberChar_of_isDigit hdigit)])
  · have hzeros : ∀ z ∈ digitZeros, z = 0x30 ∨ 0x660 ≤ z ∧ (z + 10 ≤ 0x1680 ∨ 0x1681 ≤ z) ∧
        (z + 10 ≤ 0x2000 ∨ 0x3001 ≤ z) := by decide
    have hnone : (digitZeros.find? fun z => z ≤ c.toNat && c.toNat < z + 10) = none := by
      refine Array.find?_eq_none.mpr fun z hz => ?_
      have hzero := hzeros z hz
      simp only [isBlank, isSpaceChar, Bool.or_eq_true, Bool.and_eq_true, decide_eq_true_eq, beq_iff_eq] at h ⊢
      omega
    unfold isAnyDigit digitValue?
    rw [if_neg hlt, hnone]
    rfl

theorem isAnyDigit_of_isSeparator {c : Char} (h : isSeparator c = true) : isAnyDigit c = false := by
  rcases Bool.or_eq_true_iff.mp h with hblank | hcomma
  · exact isAnyDigit_of_isBlank hblank
  · obtain rfl := eq_of_beq hcomma
    decide

theorem isAlpha_of_isSeparator {c : Char} (h : isSeparator c = true) : c.isAlpha = false := by
  rw [Bool.eq_false_iff]
  intro halpha
  exact absurd h (by simp [isSeparator_of_isNumberChar (isNumberChar_of_isAlpha halpha)])

/-- What may be in path data is a digit only if it is a plain one. -/
theorem isAnyDigit_of_not_junk {c : Char} (h : isDataJunk c = false) : isAnyDigit c = c.isDigit := by
  simp only [isDataJunk, Bool.not_eq_false', Bool.or_eq_true, beq_iff_eq] at h
  rcases h with ((((hblank | halnum) | rfl) | rfl) | rfl) | rfl
  · have hnone := isAnyDigit_of_isBlank hblank
    rw [hnone, eq_comm, Bool.eq_false_iff]
    intro hdigit
    exact absurd (isAnyDigit_of_isDigit hdigit) (by simp [hnone])
  · refine isAnyDigit_of_lt ?_
    have hrange := toNat_of_isNumberChar (isNumberChar_of_isAlphanum halnum)
    omega
  all_goals decide

/-! ## Splitting -/

theorem LexemeGrammar.separates_decimal : decimal.Separates := by
  unfold Separates
  rw [forall_mem_marks]
  decide

open LexemeGrammar

theorem isNumber_digit {c : Char} (h : c.isDigit = true) : decimal.IsNumber [c] :=
  ⟨[], [c], [], .none, .whole (List.cons_ne_nil c []) (List.forall_mem_singleton.mpr h), .none, rfl⟩

/-- Where a decimal number stands, there is no letter and no separator. -/
theorem exists_cons_of_isNumber {number : List Char} (h : decimal.IsNumber number) :
    ∃ c rest, number = c :: rest ∧ c.isAlpha = false ∧ isSeparator c = false := by
  obtain ⟨c, rest, rfl, hc⟩ := h.exists_cons
  refine ⟨c, rest, rfl, ?_⟩
  rcases hc with hdigit | rfl | rfl | rfl
  · exact ⟨isAlpha_of_isDigit hdigit, isSeparator_of_isNumberChar (isNumberChar_of_isDigit hdigit)⟩
  all_goals decide

/-- Every text splits. -/
theorem exists_splits (cs : List Char) : ∃ ts loose, Splits cs ts loose := by
  induction hlength : cs.length using Nat.strongRecOn generalizing cs with
  | ind n ih =>
    subst hlength
    cases cs with
    | nil => exact ⟨[], [], .nil⟩
    | cons c rest =>
      obtain ⟨ts, loose, hrest⟩ := ih rest.length (Nat.lt_succ_self _) rest rfl
      cases hsep : isSeparator c with
      | true => exact ⟨ts, loose, .separator hsep hrest⟩
      | false =>
        cases halpha : c.isAlpha with
        | true => exact ⟨.letter c :: ts, loose, .letter halpha hrest⟩
        | false =>
          cases hread : decimal.number? (c :: rest) with
          | none =>
            exact ⟨ts, c :: loose, .loose hsep halpha ((number?_eq_none_iff separates_decimal).mp hread) hrest⟩
          | some found =>
            obtain ⟨number, after⟩ := found
            obtain ⟨hcs, hlongest⟩ := (number?_eq_some_iff separates_decimal).mp hread
            have hshort : after.length < (c :: rest).length := by
              obtain ⟨d, more, rfl, -⟩ := hlongest.1.exists_cons
              rw [hcs, List.length_append, List.length_cons]
              omega
            obtain ⟨ts, loose, hafter⟩ := ih after.length hshort after rfl
            rw [hcs]
            exact ⟨_, loose, .number hlongest hafter⟩

namespace Splits

variable {c : Char} {cs : List Char} {ts ts' : List DataToken} {loose loose' : List Char}

theorem of_nil (h : Splits [] ts loose) : [] = ts ∧ [] = loose := by
  generalize hall : ([] : List Char) = all at h
  cases h with
  | nil => exact ⟨rfl, rfl⟩
  | number hn _ =>
    obtain ⟨c, rest, rfl, -⟩ := hn.1.exists_cons
    exact nomatch hall
  | _ => exact nomatch hall

/-- The first character of a text tells how it splits. -/
theorem of_cons (h : Splits (c :: cs) ts loose) :
    (isSeparator c = true ∧ Splits cs ts loose) ∨
      (c.isAlpha = true ∧ ∃ ts', ts = .letter c :: ts' ∧ Splits cs ts' loose) ∨
      (∃ number rest ts', c :: cs = number ++ rest ∧ decimal.IsLongest number rest ∧
        ts = .number (String.ofList number) :: ts' ∧ Splits rest ts' loose) ∨
      (isSeparator c = false ∧ c.isAlpha = false ∧ (∀ number, decimal.IsNumber number → ¬ number <+: c :: cs) ∧
        ∃ loose', loose = c :: loose' ∧ Splits cs ts loose') := by
  generalize hall : c :: cs = all at h
  cases h with
  | nil => exact nomatch hall
  | separator hc h =>
    obtain ⟨rfl, rfl⟩ := List.cons.inj hall
    exact .inl ⟨hc, h⟩
  | letter hc h =>
    obtain ⟨rfl, rfl⟩ := List.cons.inj hall
    exact .inr (.inl ⟨hc, _, rfl, h⟩)
  | number hn h => exact .inr (.inr (.inl ⟨_, _, _, rfl, hn, rfl, h⟩))
  | loose hsep halpha hn h =>
    obtain ⟨rfl, rfl⟩ := List.cons.inj hall
    exact .inr (.inr (.inr ⟨hsep, halpha, hn, _, rfl, h⟩))

/-- A text splits in no more than one way. -/
theorem unique (h : Splits cs ts loose) (h' : Splits cs ts' loose') : ts = ts' ∧ loose = loose' := by
  -- no letter is a separator, and numbers begin with neither
  have hkind {c : Char} {cs number rest : List Char} (hcs : c :: cs = number ++ rest)
      (hn : decimal.IsLongest number rest) : number <+: c :: cs ∧ c.isAlpha = false ∧ isSeparator c = false := by
    obtain ⟨d, more, rfl, hd⟩ := exists_cons_of_isNumber hn.1
    obtain ⟨rfl, rfl⟩ := List.cons.inj hcs
    exact ⟨⟨rest, rfl⟩, hd⟩
  induction h generalizing ts' loose' with
  | nil => exact of_nil h'
  | separator hc h ih =>
    have halpha := isAlpha_of_isSeparator hc
    rcases h'.of_cons with ⟨-, hrest⟩ | ⟨hc', -⟩ | ⟨number, rest, ts', hcs, hn, -⟩ | ⟨hc', -⟩
    · exact ih hrest
    · simp [halpha] at hc'
    · simp [(hkind hcs hn).2.2] at hc
    · simp [hc] at hc'
  | letter hc h ih =>
    rcases h'.of_cons with ⟨hc', -⟩ | ⟨-, ts', rfl, hrest⟩ | ⟨number, rest, ts', hcs, hn, -⟩ | ⟨-, hc', -⟩
    · simp [isAlpha_of_isSeparator hc'] at hc
    · exact (ih hrest).imp_left (congrArg _)
    · simp [(hkind hcs hn).2.1] at hc
    · simp [hc] at hc'
  | @number number rest ts loose hn h ih =>
    obtain ⟨c, more, rfl, halpha, hsep⟩ := exists_cons_of_isNumber hn.1
    rcases h'.of_cons with ⟨hc', -⟩ | ⟨hc', -⟩ | ⟨number, rest', ts', hcs, hn', rfl, hrest⟩ | ⟨-, -, hnone, -⟩
    · simp [hsep] at hc'
    · simp [halpha] at hc'
    · obtain ⟨rfl, rfl⟩ := hn.unique hn' hcs
      exact (ih hrest).imp_left (congrArg _)
    · exact absurd ⟨rest, rfl⟩ (hnone _ hn.1)
  | loose hsep halpha hnone h ih =>
    rcases h'.of_cons with ⟨hc', -⟩ | ⟨hc', -⟩ | ⟨number, rest, ts', hcs, hn, -⟩ | ⟨-, -, -, loose', rfl, hrest⟩
    · simp [hsep] at hc'
    · simp [halpha] at hc'
    · exact absurd (hkind hcs hn).1 (hnone number hn.1)
    · exact (ih hrest).imp_right (congrArg _)

/-- Where all digits are plain, the tokens of a text are those that it splits into. -/
theorem tokens (h : Splits cs ts loose) (hplain : ∀ c ∈ cs, isAnyDigit c = c.isDigit) : Tokens cs ts := by
  have htrailing : own.trailingPoint = decimal.trailingPoint := rfl
  induction h with
  | nil => exact .nil
  | @separator c cs ts loose hc h ih =>
    refine .skip (isAlpha_of_isSeparator hc) ?_ (ih (List.forall_mem_cons.mp hplain).2)
    refine (number?_eq_none_iff separates_own).mpr ?_
    rintro number hnumber ⟨rest, hcs⟩
    obtain ⟨d, more, rfl, hd⟩ := hnumber.exists_cons
    obtain ⟨rfl, -⟩ := List.cons.inj hcs
    rcases hd with hdigit | rfl | rfl | rfl
    · exact absurd hdigit (by simp [own, isAnyDigit_of_isSeparator hc])
    all_goals exact absurd hc (by decide)
  | letter hc h ih => exact .letter hc (ih (List.forall_mem_cons.mp hplain).2)
  | @number number rest ts loose hn h ih =>
    have hread : own.number? (number ++ rest) = some (number, rest) :=
      (number?_eq_some_iff separates_own).mpr ⟨rfl, hn.congr htrailing.symm fun c hc => (hplain c hc).symm⟩
    obtain ⟨c, more, rfl, halpha, -⟩ := exists_cons_of_isNumber hn.1
    exact .number halpha hread (by simp) (ih (List.forall_mem_append.mp hplain).2)
  | loose hsep halpha hnone h ih =>
    refine .skip halpha ((number?_eq_none_iff separates_own).mpr ?_) (ih (List.forall_mem_cons.mp hplain).2)
    intro number hnumber hfront
    exact hnone number (hnumber.congr htrailing fun c hc => hplain c (hfront.subset hc)) hfront

/-- A text has no junk if what is left over of it is none. -/
theorem not_junk (h : Splits cs ts loose) (hloose : ∀ c ∈ loose, isDataJunk c = false) :
    ∀ c ∈ cs, isDataJunk c = false := by
  induction h with
  | nil => exact hloose
  | separator hc h ih =>
    refine List.forall_mem_cons.mpr ⟨?_, ih hloose⟩
    rcases Bool.or_eq_true_iff.mp hc with hblank | hcomma
    · simp [isDataJunk, hblank]
    · simp [isDataJunk, eq_of_beq hcomma]
  | letter hc h ih => exact List.forall_mem_cons.mpr ⟨by simp [isDataJunk, Char.isAlphanum, hc], ih hloose⟩
  | number hn h ih =>
    refine List.forall_mem_append.mpr ⟨hn.1.forall_mem (fun c hc => ?_) (forall_mem_marks.mpr (by decide)), ih hloose⟩
    have hc : c.isDigit = true := hc
    simp [isDataJunk, Char.isAlphanum, hc]
  | loose _ _ _ h ih =>
    obtain ⟨hc, hloose⟩ := List.forall_mem_cons.mp hloose
    exact List.forall_mem_cons.mpr ⟨hc, ih hloose⟩

/-- What is left over and is no junk are points and signs. -/
theorem mem_loose (h : Splits cs ts loose) (hjunk : ∀ c ∈ cs, isDataJunk c = false) :
    ∀ c ∈ loose, c = '.' ∨ c = '+' ∨ c = '-' := by
  induction h with
  | nil => exact List.forall_mem_nil _
  | separator _ _ ih => exact ih (List.forall_mem_cons.mp hjunk).2
  | letter _ _ ih => exact ih (List.forall_mem_cons.mp hjunk).2
  | number _ _ ih => exact ih (List.forall_mem_append.mp hjunk).2
  | @loose c cs ts loose hsep halpha hnone h ih =>
    obtain ⟨hc, hjunk⟩ := List.forall_mem_cons.mp hjunk
    refine List.forall_mem_cons.mpr ⟨?_, ih hjunk⟩
    -- a digit that is left over would be a number
    have hdigit : c.isDigit = false := Bool.eq_false_iff.mpr fun hdigit => hnone [c] (isNumber_digit hdigit) ⟨cs, rfl⟩
    simp only [isSeparator, Bool.or_eq_false_iff] at hsep
    simpa [isDataJunk, Char.isAlphanum, halpha, hdigit, hsep, or_iff_not_imp_left] using hc

theorem tokensOf_eq {d : String} (h : Splits d.toList ts loose) (hjunk : ∀ c ∈ d.toList, isDataJunk c = false) :
    tokensOf d = ts :=
  (h.tokens fun c hc => isAnyDigit_of_not_junk (hjunk c hc)).dataTokens_eq (Nat.le_of_eq String.length_toList)

end Splits

/-! ## The check -/

theorem dataProblems_eq_nil {d : String} :
    dataProblems d = [] ↔ (∀ c ∈ d.toList, isDataJunk c = false) ∧ IsStrict (tokensOf d) := by
  unfold dataProblems
  rw [isStrict_iff, List.append_eq_nil_iff]
  refine and_congr ?_ ?_
  · simp
  · cases tokensOf d <;> simp

/-- **What the check of path data lets pass**: texts that split into strict path data, with nothing left over but
points and signs. Texts with nothing left over are strict path data just if the check finds nothing. -/
theorem dataProblems_eq_nil_iff (d : String) :
    (dataProblems d = [] ↔ ∃ ts loose, Splits d.toList ts loose ∧ IsStrict ts ∧
        ∀ c ∈ loose, c = '.' ∨ c = '+' ∨ c = '-') ∧
      ((∃ ts, Splits d.toList ts [] ∧ IsStrict ts) ↔ dataProblems d = [] ∧ ∃ ts, Splits d.toList ts []) := by
  rw [dataProblems_eq_nil]
  have hplain {loose : List Char} (hloose : ∀ c ∈ loose, c = '.' ∨ c = '+' ∨ c = '-') :
      ∀ c ∈ loose, isDataJunk c = false := by
    intro c hc
    rcases hloose c hc with rfl | rfl | rfl <;> decide
  refine ⟨⟨?_, ?_⟩, ⟨?_, ?_⟩⟩
  · rintro ⟨hjunk, hstrict⟩
    obtain ⟨ts, loose, h⟩ := exists_splits d.toList
    exact ⟨ts, loose, h, h.tokensOf_eq hjunk ▸ hstrict, h.mem_loose hjunk⟩
  · rintro ⟨ts, loose, h, hstrict, hloose⟩
    have hjunk := h.not_junk (hplain hloose)
    exact ⟨hjunk, (h.tokensOf_eq hjunk).symm ▸ hstrict⟩
  · rintro ⟨ts, h, hstrict⟩
    have hjunk := h.not_junk (List.forall_mem_nil _)
    exact ⟨⟨hjunk, (h.tokensOf_eq hjunk).symm ▸ hstrict⟩, ts, h⟩
  · rintro ⟨⟨hjunk, hstrict⟩, ts, h⟩
    exact ⟨ts, h, h.tokensOf_eq hjunk ▸ hstrict⟩

/-- Strict path data with a point behind them that belongs to no number. -/
theorem splits_stray : Splits "M 0 0 .".toList [.letter 'M', .number "0", .number "0"] ['.'] := by
  have hzero {rest : List Char} (h : decimal.number? ('0' :: rest) = some (['0'], rest)) :
      decimal.IsLongest ['0'] rest := ((number?_eq_some_iff separates_decimal).mp h).2
  have hpoint : decimal.number? ['.'] = none := by decide
  have hbehind : Splits [' ', '.'] [] ['.'] :=
    .separator (by decide) (.loose (by decide) (by decide) ((number?_eq_none_iff separates_decimal).mp hpoint) .nil)
  exact .letter (by decide) <| .separator (by decide) <| .number (hzero (by decide)) <| .separator (by decide) <|
    .number (hzero (by decide)) hbehind

/-- The check finds nothing in them, though not all of the text is path data. -/
theorem dataProblems_stray :
    dataProblems "M 0 0 ." = [] ∧ ¬ ∃ ts, Splits "M 0 0 .".toList ts [] ∧ IsStrict ts := by
  refine ⟨by decide, ?_⟩
  rintro ⟨ts, h, -⟩
  exact nomatch (splits_stray.unique h).2

end Drawing
