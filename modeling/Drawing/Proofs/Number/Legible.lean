import Drawing.Proofs.Number.Printed
import Drawing.Proofs.Number.Shortest

/-!
# `Drawing/Proofs/Number/Legible.lean` — the text of a number tells it from all others

The shortest digits of a number are laid out with a point or with an exponent, as the layout has it. Whichever it is,
what is read back is the number that the digits stand for, so the text says which number it was. Texts of whole
numbers are digits and nothing else, and no other number is written like that.
-/

namespace Drawing

/-! ## Characters of numbers -/

/-- Whether a character occurs in the text of a finite number. -/
def isNumeralChar (c : Char) : Bool := c.isDigit || ['-', '+', '.', 'e'].contains c

theorem isNumeralChar_of_isDigit {c : Char} (h : c.isDigit = true) : isNumeralChar c = true := by
  simp [isNumeralChar, h]

/-- A text without a sign in front of it that a number is read from. -/
structure StandsFor (cs : List Char) (q : Rat) : Prop where
  digit : ∃ c rest, cs = c :: rest ∧ c.isDigit = true
  chars : ∀ c ∈ cs, isNumeralChar c = true
  value : ∃ m, NumberGrammar.anyScript.magnitude cs = some m ∧ (m.mantissa : Rat) * 10 ^ m.exponent = q

theorem StandsFor.unique {cs : List Char} {q q' : Rat} (h : StandsFor cs q) (h' : StandsFor cs q') : q = q' := by
  obtain ⟨m, hm, rfl⟩ := h.value
  obtain ⟨m', hm', rfl⟩ := h'.value
  obtain rfl := Option.some.inj (hm.symm.trans hm')
  rfl

/-! ## Reading digits with a point and an exponent -/

theorem ofDigitChars_padded (zeros n : Nat) :
    Nat.ofDigitChars 10 (List.replicate zeros '0' ++ decimalDigits n) 0 = n := by
  unfold decimalDigits
  rw [Nat.ofDigitChars_append, Nat.ofDigitChars_replicate_zero, Nat.mul_zero, Nat.ofDigitChars_ten_toDigits]

/-- An exponent behind digits: none, which counts as zero, or one that is written. -/
inductive IsExponent : List Char → Int → Prop
  | missing : IsExponent [] 0
  | written (width : Nat) (e : Int) : IsExponent ('e' :: exponentText width e) e

namespace IsExponent

variable {rest : List Char} {e : Int}

theorem digitValue?_head (h : IsExponent rest e) : ∀ c, rest.head? = some c → digitValue? c = none := by
  cases h with
  | missing => exact nofun
  | written width e =>
    rintro c hc
    obtain rfl := Option.some.inj hc
    decide

theorem isNumeralChar (h : IsExponent rest e) : ∀ c ∈ rest, isNumeralChar c = true := by
  cases h with
  | missing => exact nofun
  | written width e =>
    unfold exponentText
    refine List.forall_mem_cons.mpr ⟨by decide, List.forall_mem_cons.mpr ⟨by split_ifs <;> decide, ?_⟩⟩
    exact fun c hc => isNumeralChar_of_isDigit (isDigit_of_mem_padZeros width e.natAbs c hc)

theorem exponentPart (h : IsExponent rest e) : NumberGrammar.anyScript.exponentPart rest = some e := by
  cases h with
  | missing => rfl
  | written width e =>
    have hread := NumberGrammar.leadingDigits_all (isDigit_of_mem_padZeros width e.natAbs) 0 0
    have hvalue : Nat.ofDigitChars 10 (padZeros width (decimalDigits e.natAbs)) 0 = e.natAbs :=
      ofDigitChars_padded _ _
    have hne : padZeros width (decimalDigits e.natAbs) ≠ [] :=
      List.append_ne_nil_of_right_ne_nil _ Nat.toDigits_ne_nil
    rw [hvalue] at hread
    unfold NumberGrammar.exponentPart exponentText
    by_cases hneg : e < 0
    · simp [hneg, hread, hne, abs_of_neg hneg]
    · simp [hneg, hread, hne, abs_of_nonneg (not_lt.mp hneg)]

end IsExponent

/-- Digits, perhaps with an exponent behind them. -/
theorem standsFor_digits {ds rest : List Char} {e : Int} (hne : ds ≠ []) (hds : ∀ c ∈ ds, c.isDigit = true)
    (hrest : IsExponent rest e) : StandsFor (ds ++ rest) ((Nat.ofDigitChars 10 ds 0 : Nat) * 10 ^ e) := by
  refine ⟨?_, ?_, ⟨Nat.ofDigitChars 10 ds 0, e⟩, ?_, rfl⟩
  · obtain ⟨c, cs, rfl⟩ := List.exists_cons_of_ne_nil hne
    exact ⟨c, cs ++ rest, rfl, hds c List.mem_cons_self⟩
  · exact List.forall_mem_append.mpr ⟨fun c hc => isNumeralChar_of_isDigit (hds c hc), hrest.isNumeralChar⟩
  · have hexponent := hrest.exponentPart
    unfold NumberGrammar.magnitude
    rw [NumberGrammar.leadingDigits_append hds hrest.digitValue?_head]
    -- an exponent is no point, so no further digits are looked for
    cases hrest with
    | missing => simp [hne, hexponent]
    | written width e => simp [hne, hexponent]

/-- Digits with a point among them, perhaps with an exponent behind them. -/
theorem standsFor_point {ds fs rest : List Char} {e : Int} (hne : ds ≠ []) (hds : ∀ c ∈ ds, c.isDigit = true)
    (hfs : ∀ c ∈ fs, c.isDigit = true) (hrest : IsExponent rest e) :
    StandsFor (ds ++ '.' :: (fs ++ rest)) ((Nat.ofDigitChars 10 (ds ++ fs) 0 : Nat) * 10 ^ (e - fs.length)) := by
  have hpoint : ∀ c, ('.' :: (fs ++ rest)).head? = some c → digitValue? c = none := by
    rintro c hc
    obtain rfl := Option.some.inj hc
    decide
  refine ⟨?_, ?_, ⟨Nat.ofDigitChars 10 (ds ++ fs) 0, e - fs.length⟩, ?_, rfl⟩
  · obtain ⟨c, cs, rfl⟩ := List.exists_cons_of_ne_nil hne
    exact ⟨c, _, rfl, hds c List.mem_cons_self⟩
  · refine List.forall_mem_append.mpr ⟨fun c hc => isNumeralChar_of_isDigit (hds c hc), ?_⟩
    refine List.forall_mem_cons.mpr ⟨by decide, ?_⟩
    exact List.forall_mem_append.mpr ⟨fun c hc => isNumeralChar_of_isDigit (hfs c hc), hrest.isNumeralChar⟩
  · unfold NumberGrammar.magnitude
    rw [NumberGrammar.leadingDigits_append hds hpoint]
    simp [NumberGrammar.leadingDigits_append hfs hrest.digitValue?_head, hne, hrest.exponentPart,
      Nat.ofDigitChars_append]

/-! ## Decimals -/

theorem decimalDigits_ne_nil (n : Nat) : decimalDigits n ≠ [] := Nat.toDigits_ne_nil

theorem isDigit_decimalDigits (n : Nat) : ∀ c ∈ decimalDigits n, c.isDigit = true :=
  fun _ => isDigit_of_mem_decimalDigits

theorem isDigit_replicate_zero (n : Nat) : ∀ c ∈ List.replicate n '0', c.isDigit = true := by
  intro c hc
  rw [List.eq_of_mem_replicate hc]
  decide

/-- Digits with no needless zero in front. -/
structure IsWhole (ds : List Char) : Prop where
  ne_nil : ds ≠ []
  digits : ∀ c ∈ ds, c.isDigit = true
  lead : ds.head? = some '0' → ds = ['0']

theorem head?_decimalDigits {n : Nat} (hn : 0 < n) : (decimalDigits n).head? ≠ some '0' := by
  unfold decimalDigits
  induction n using Nat.strongRecOn with
  | ind n ih =>
    rcases Nat.lt_or_ge n 10 with hlt | hge
    · have hall : ∀ k : Fin 10, 0 < k.val → Nat.digitChar k ≠ '0' := by decide
      rw [Nat.toDigits_of_lt_base hlt, List.head?_singleton, Ne, Option.some.injEq]
      exact hall ⟨n, hlt⟩ hn
    · rw [Nat.toDigits_of_base_le (by decide) hge, List.head?_append_of_ne_nil _ Nat.toDigits_ne_nil]
      exact ih (n / 10) (Nat.div_lt_self hn (by decide)) (by omega)

theorem isWhole_decimalDigits (n : Nat) : IsWhole (decimalDigits n) := by
  refine ⟨decimalDigits_ne_nil n, isDigit_decimalDigits n, fun h => ?_⟩
  rcases Nat.eq_zero_or_pos n with rfl | hn
  · rfl
  · exact absurd h (head?_decimalDigits hn)

theorem IsWhole.take {ds : List Char} (h : IsWhole ds) {k : Nat} (hk : k + 1 < ds.length) :
    IsWhole (ds.take (k + 1)) := by
  have hne := h.ne_nil
  refine ⟨by simp [hne], fun c hc => h.digits c (List.mem_of_mem_take hc), fun hzero => ?_⟩
  rw [List.head?_take, if_neg (Nat.succ_ne_zero k)] at hzero
  rw [h.lead hzero] at hk
  exact absurd hk (by simp)

/-- A decimal as data has it: digits with no needless zero in front, and behind them a point with more digits, an
exponent, or both. -/
inductive IsDecimal : List Char → Nat → Int → Prop
  | point {ds fs rest : List Char} {e : Int} (hds : IsWhole ds) (hne : fs ≠ []) (hfs : ∀ c ∈ fs, c.isDigit = true)
      (hrest : IsExponent rest e) :
      IsDecimal (ds ++ '.' :: (fs ++ rest)) (Nat.ofDigitChars 10 (ds ++ fs) 0) (e - fs.length)
  | exponent {ds : List Char} (hds : IsWhole ds) (width : Nat) (e : Int) :
      IsDecimal (ds ++ 'e' :: exponentText width e) (Nat.ofDigitChars 10 ds 0) e

theorem IsDecimal.standsFor {body : List Char} {m : Nat} {e : Int} (h : IsDecimal body m e) :
    StandsFor body (m * 10 ^ e) := by
  cases h with
  | point hds hne hfs hrest => exact standsFor_point hds.ne_nil hds.digits hfs hrest
  | exponent hds width e => exact standsFor_digits hds.ne_nil hds.digits (.written width e)

/-- A decimal has a point or an exponent. -/
theorem IsDecimal.exists_mark {body : List Char} {m : Nat} {e : Int} (h : IsDecimal body m e) :
    ∃ c ∈ body, c = '.' ∨ c = 'e' := by
  cases h with
  | point => exact ⟨'.', by simp, .inl rfl⟩
  | exponent => exact ⟨'e', by simp, .inr rfl⟩

/-- Digits behind a point and zeros. -/
theorem isDecimal_leadingZeros {ds : List Char} (hne : ds ≠ []) (hds : ∀ c ∈ ds, c.isDigit = true) (n : Nat) :
    IsDecimal ('0' :: '.' :: (List.replicate n '0' ++ ds)) (Nat.ofDigitChars 10 ds 0)
      (-((n + ds.length : Nat) : Int)) := by
  have h := IsDecimal.point (isWhole_decimalDigits 0) (List.append_ne_nil_of_right_ne_nil _ hne)
    (List.forall_mem_append.mpr ⟨isDigit_replicate_zero n, hds⟩) .missing
  have hvalue : Nat.ofDigitChars 10 (decimalDigits 0 ++ (List.replicate n '0' ++ ds)) 0 = Nat.ofDigitChars 10 ds 0 := by
    show Nat.ofDigitChars 10 (List.replicate (n + 1) '0' ++ ds) 0 = _
    rw [Nat.ofDigitChars_append, Nat.ofDigitChars_replicate_zero, Nat.mul_zero]
  rwa [hvalue, List.append_nil, List.length_append, List.length_replicate, zero_sub] at h

/-- Digits and zeros before a point, and one zero behind it. -/
theorem isDecimal_trailingZeros {ds : List Char} {n : Nat} (h : IsWhole (ds ++ List.replicate n '0')) :
    IsDecimal (ds ++ List.replicate n '0' ++ '.' :: ['0']) (Nat.ofDigitChars 10 ds 0 * 10 ^ n * 10) (-1) := by
  have h := IsDecimal.point h (List.cons_ne_nil '0' []) (List.forall_mem_singleton.mpr rfl) .missing
  have hlast (k : Nat) : Nat.ofDigitChars 10 ['0'] k = k * 10 := by simp [Nat.ofDigitChars, Nat.mul_comm]
  rwa [Nat.ofDigitChars_append, Nat.ofDigitChars_append, Nat.ofDigitChars_replicate_zero, hlast,
    Nat.mul_comm (10 ^ n)] at h

/-- Digits with a point before the last of them. -/
theorem isDecimal_pointInside {ds : List Char} (h : IsWhole ds) {n : Nat} (hn : n + 1 < ds.length) :
    IsDecimal (ds.take (n + 1) ++ '.' :: ds.drop (n + 1)) (Nat.ofDigitChars 10 ds 0)
      (-((ds.length - (n + 1) : Nat) : Int)) := by
  have hrest : ds.drop (n + 1) ≠ [] := by
    rw [Ne, List.drop_eq_nil_iff]
    omega
  have h := IsDecimal.point (h.take hn) hrest (fun c hc => h.digits c (List.mem_of_mem_drop hc)) .missing
  rwa [List.take_append_drop, List.append_nil, List.length_drop, zero_sub] at h

/-! ## Shortest digits -/

/-- The exponent of the leading digit of a shortest form. -/
def topOf (digits : Nat) (exponent : Int) : Int :=
  if digits = 0 then 0 else exponent + ((decimalDigits digits).length - 1 : Nat)

/-- The exponent of the last digit, if the first has the exponent `top`. -/
def lastOf (ds : List Char) (top : Int) : Int := top - (ds.length - 1 : Nat)

theorem lastOf_topOf {digits : Nat} (hne : digits ≠ 0) (exponent : Int) :
    lastOf (decimalDigits digits) (topOf digits exponent) = exponent := by
  rw [lastOf, topOf, if_neg hne, add_sub_cancel_right]

theorem mul_zpow_lastOf (digits : Nat) (exponent : Int) :
    (digits : Rat) * 10 ^ lastOf (decimalDigits digits) (topOf digits exponent) = digits * 10 ^ exponent := by
  by_cases hne : digits = 0
  · simp [hne]
  · rw [lastOf_topOf hne]

/-- Zeros may stand behind digits, unless the digits are a zero themselves. -/
theorem isWhole_trailingZeros (digits : Nat) {n : Nat} (hn : digits = 0 → n = 0) :
    IsWhole (decimalDigits digits ++ List.replicate n '0') := by
  have hwhole := isWhole_decimalDigits digits
  rcases Nat.eq_zero_or_pos digits with hzero | hpos
  · rw [hn hzero, List.replicate_zero, List.append_nil]
    exact hwhole
  · refine ⟨List.append_ne_nil_of_left_ne_nil hwhole.ne_nil _,
      List.forall_mem_append.mpr ⟨hwhole.digits, isDigit_replicate_zero _⟩, fun h => ?_⟩
    rw [List.head?_append_of_ne_nil _ hwhole.ne_nil] at h
    exact absurd h (head?_decimalDigits hpos)

/-- Digits with a point are a decimal, whose last digit is the last of the digits or a zero behind the point. -/
theorem exists_isDecimal_positional {ds : List Char} (h : IsWhole ds) {top : Int}
    (hzeros : IsWhole (ds ++ List.replicate (top.toNat + 1 - ds.length) '0')) :
    ∃ m e, IsDecimal (positional ds top) m e ∧ (m : Rat) * 10 ^ e = Nat.ofDigitChars 10 ds 0 * 10 ^ lastOf ds top ∧
      (e = lastOf ds top ∨ e = -1) := by
  have hlength : 0 < ds.length := List.length_pos_iff.mpr h.ne_nil
  unfold positional
  split_ifs with hneg
  · -- zeros stand before the digits, the first of them before the point
    have he : -(((-top - 1).toNat + ds.length : Nat) : Int) = lastOf ds top := by
      unfold lastOf
      omega
    exact ⟨_, _, isDecimal_leadingZeros h.ne_nil h.digits (-top - 1).toNat, by rw [he], .inl he⟩
  · dsimp only
    by_cases hall : ds.length ≤ top.toNat + 1
    · -- all digits stand before the point, and zeros behind them
      have he : lastOf ds top = ((top.toNat + 1 - ds.length : Nat) : Int) := by
        unfold lastOf
        omega
      rw [List.take_of_length_le hall, List.drop_eq_nil_iff.mpr hall, List.isEmpty_nil, if_pos rfl]
      refine ⟨_, _, isDecimal_trailingZeros hzeros, ?_, .inr rfl⟩
      rw [he, zpow_natCast]
      push_cast
      norm_num
      ring
    · have hrest : (ds.drop (top.toNat + 1)).isEmpty = false := by
        rw [List.isEmpty_eq_false_iff, Ne, List.drop_eq_nil_iff]
        exact hall
      have htake : top.toNat + 1 - (ds.take (top.toNat + 1)).length = 0 := by
        rw [List.length_take]
        omega
      have he : -((ds.length - (top.toNat + 1) : Nat) : Int) = lastOf ds top := by
        unfold lastOf
        omega
      rw [hrest, htake, List.replicate_zero, List.append_nil, if_neg Bool.false_ne_true]
      exact ⟨_, _, isDecimal_pointInside h (not_le.mp hall), by rw [he], .inl he⟩

theorem isDecimal_scientific {ds : List Char} (h : IsWhole ds) (width : Nat) (top : Int) :
    IsDecimal (mantissaText ds ++ 'e' :: exponentText width top) (Nat.ofDigitChars 10 ds 0) (lastOf ds top) := by
  match ds with
  | [] => exact absurd rfl h.ne_nil
  | [d] =>
    have he : lastOf [d] top = top := sub_zero top
    rw [he]
    exact .exponent h width top
  | d :: d' :: ds =>
    have hfirst : IsWhole [d] := by
      refine ⟨List.cons_ne_nil d [], List.forall_mem_singleton.mpr (h.digits d List.mem_cons_self), fun hzero => ?_⟩
      rw [Option.some.inj hzero]
    exact .point hfirst (List.cons_ne_nil d' ds) (fun c hc => h.digits c (List.mem_cons_of_mem d hc))
      (.written width top)

/-! ## Texts of shortest forms -/

/-- Whether a text begins like that of a finite number: with a digit, or with a minus sign and a digit. -/
def beginsAsNumber : List Char → Bool
  | '-' :: c :: _ => c.isDigit
  | c :: _ => c.isDigit
  | [] => false

theorem StandsFor.beginsAsNumber {body : List Char} {q : Rat} (h : StandsFor body q) (negative : Bool) :
    beginsAsNumber (if negative then '-' :: body else body) = true := by
  obtain ⟨c, rest, rfl, hc⟩ := h.digit
  have hminus : c ≠ '-' := by
    rintro rfl
    exact absurd hc (by decide)
  cases negative with
  | false => simp [Drawing.beginsAsNumber, hminus, hc]
  | true => exact hc

namespace Shortest

/-- The text of shortest digits is a decimal that stands for the same number. -/
theorem exists_isDecimal (layout : NumberLayout) (negative : Bool) (digits : Nat) (exponent : Int) :
    ∃ body m e, IsDecimal body m e ∧ (m : Rat) * 10 ^ e = digits * 10 ^ exponent ∧
      (digits ≠ 0 → e = exponent ∨ e = -1) ∧
      ((finite negative digits exponent).text layout).toList = if negative then '-' :: body else body := by
  have htext : (finite negative digits exponent).text layout = String.ofList (
      let top := topOf digits exponent
      let body := if layout.least ≤ top ∧ top ≤ layout.greatest then positional (decimalDigits digits) top
        else mantissaText (decimalDigits digits) ++ 'e' :: exponentText layout.exponentWidth top
      if negative then '-' :: body else body) := rfl
  have hwhole := isWhole_decimalDigits digits
  have hvalue : Nat.ofDigitChars 10 (decimalDigits digits) 0 = digits := ofDigitChars_padded 0 digits
  rw [htext, String.toList_ofList]
  dsimp only
  by_cases hlayout : layout.least ≤ topOf digits exponent ∧ topOf digits exponent ≤ layout.greatest
  · rw [if_pos hlayout]
    have hzeros := isWhole_trailingZeros digits
      (n := (topOf digits exponent).toNat + 1 - (decimalDigits digits).length) fun h => by rw [h]; rfl
    obtain ⟨m, e, h, hq, he⟩ := exists_isDecimal_positional hwhole hzeros
    rw [hvalue, mul_zpow_lastOf] at hq
    exact ⟨_, m, e, h, hq, fun hne => by rwa [lastOf_topOf hne] at he, rfl⟩
  · rw [if_neg hlayout]
    have h := isDecimal_scientific hwhole layout.exponentWidth (topOf digits exponent)
    rw [hvalue] at h
    exact ⟨_, _, _, h, mul_zpow_lastOf digits exponent, fun hne => .inl (lastOf_topOf hne exponent), rfl⟩

theorem toList_text_finite (layout : NumberLayout) (negative : Bool) (digits : Nat) (exponent : Int) :
    ∃ body, StandsFor body (digits * 10 ^ exponent) ∧ (∃ c ∈ body, c = '.' ∨ c = 'e') ∧
      ((finite negative digits exponent).text layout).toList = if negative then '-' :: body else body := by
  obtain ⟨body, m, e, h, hq, -, htext⟩ := exists_isDecimal layout negative digits exponent
  exact ⟨body, hq ▸ h.standsFor, h.exists_mark, htext⟩

/-- Two shortest forms that say the same: the same word, or under the same sign digits for the same number. -/
def Alike : Shortest → Shortest → Prop
  | .finite negative digits exponent, .finite negative' digits' exponent' =>
    negative = negative' ∧ (digits : Rat) * 10 ^ exponent = digits' * 10 ^ exponent'
  | s, t => s = t

theorem text_finite_ne {layout : NumberLayout} {negative : Bool} {digits : Nat} {exponent : Int} {word : String}
    (h : beginsAsNumber word.toList = false) : (finite negative digits exponent).text layout ≠ word := by
  rintro rfl
  obtain ⟨body, hbody, -, htext⟩ := toList_text_finite layout negative digits exponent
  rw [htext, hbody.beginsAsNumber] at h
  exact nomatch h

theorem alike_of_text_finite {layout : NumberLayout} {negative negative' : Bool} {digits digits' : Nat}
    {exponent exponent' : Int}
    (h : (finite negative digits exponent).text layout = (finite negative' digits' exponent').text layout) :
    Alike (finite negative digits exponent) (finite negative' digits' exponent') := by
  obtain ⟨body, hbody, -, htext⟩ := toList_text_finite layout negative digits exponent
  obtain ⟨body', hbody', -, htext'⟩ := toList_text_finite layout negative' digits' exponent'
  rw [h, htext'] at htext
  have hminus {cs : List Char} {q : Rat} (hcs : StandsFor cs q) {r : List Char} : cs ≠ '-' :: r := by
    rintro rfl
    obtain ⟨c, rest, heq, hc⟩ := hcs.digit
    obtain ⟨rfl, -⟩ := List.cons.inj heq
    exact absurd hc (by decide)
  cases negative <;> cases negative'
  · obtain rfl : body' = body := htext
    exact ⟨rfl, hbody.unique hbody'⟩
  · exact absurd htext.symm (hminus hbody)
  · exact absurd htext (hminus hbody')
  · obtain rfl : body' = body := List.tail_eq_of_cons_eq htext
    exact ⟨rfl, hbody.unique hbody'⟩

/-- In messages, what is not finite has words of its own, so every text tells which form it is of. -/
theorem alike_of_text_message {s t : Shortest} (h : s.text .message = t.text .message) : s.Alike t := by
  have hword {u : Shortest} (hu : ∀ negative digits exponent, u ≠ finite negative digits exponent) :
      beginsAsNumber (u.text .message).toList = false := by
    cases u with
    | notANumber => decide
    | infinite negative => cases negative <;> decide
    | finite negative digits exponent => exact absurd rfl (hu negative digits exponent)
  cases s with
  | finite negative digits exponent =>
    cases t with
    | finite negative' digits' exponent' => exact alike_of_text_finite h
    | notANumber => exact absurd h (text_finite_ne (hword nofun))
    | infinite negative' => exact absurd h (text_finite_ne (hword nofun))
  | notANumber =>
    cases t with
    | finite negative' digits' exponent' => exact absurd h.symm (text_finite_ne (hword nofun))
    | notANumber => rfl
    | infinite negative' => cases negative' <;> exact absurd h (by decide)
  | infinite negative =>
    cases t with
    | finite negative' digits' exponent' => exact absurd h.symm (text_finite_ne (hword nofun))
    | notANumber => cases negative <;> exact absurd h (by decide)
    | infinite negative' => cases negative <;> cases negative' <;> first | rfl | exact absurd h (by decide)

/-- Texts in messages are made of a few characters. -/
theorem not_mem_text_message {d : Char} (hd : d = 'x' ∨ d = ':') (s : Shortest) :
    d ∉ (s.text .message).toList := by
  cases s with
  | notANumber => rcases hd with rfl | rfl <;> decide
  | infinite negative => rcases hd with rfl | rfl <;> cases negative <;> decide
  | finite negative digits exponent =>
    obtain ⟨body, hbody, -, htext⟩ := toList_text_finite .message negative digits exponent
    have hbody' : d ∉ body := by
      intro hmem
      have := hbody.chars d hmem
      rcases hd with rfl | rfl <;> exact absurd this (by decide)
    rw [htext]
    cases negative with
    | false => exact hbody'
    | true => exact List.not_mem_cons_of_ne_of_not_mem (by rcases hd with rfl | rfl <;> decide) hbody'

/-- No text in messages is made of digits and signs alone. -/
theorem exists_mem_text_message (s : Shortest) :
    ∃ c ∈ (s.text .message).toList, c = '.' ∨ c = 'e' ∨ c = 'n' := by
  cases s with
  | notANumber => exact ⟨'n', by decide, by decide⟩
  | infinite negative => exact ⟨'n', by cases negative <;> decide, by decide⟩
  | finite negative digits exponent =>
    obtain ⟨body, -, ⟨c, hc, hmark⟩, htext⟩ := toList_text_finite .message negative digits exponent
    refine ⟨c, ?_, hmark.imp_right .inl⟩
    rw [htext]
    cases negative with
    | false => exact hc
    | true => exact List.mem_cons_of_mem _ hc

end Shortest

/-! ## Whole numbers -/

theorem toList_toString_int (n : Int) :
    (toString n).toList = if n < 0 then '-' :: decimalDigits n.natAbs else decimalDigits n.natAbs := by
  cases n with
  | ofNat m =>
    have hneg : ¬ Int.ofNat m < 0 := Int.not_lt.mpr (Int.natCast_nonneg m)
    rw [toList_toString_ofNat, if_neg hneg]
    rfl
  | negSucc m =>
    rw [toList_toString_negSucc, if_pos (Int.negSucc_lt_zero m)]
    rfl

theorem isDigit_or_minus_of_mem_toString {n : Int} {c : Char} (h : c ∈ (toString n).toList) :
    c.isDigit = true ∨ c = '-' := by
  rw [toList_toString_int] at h
  split_ifs at h
  · rcases List.mem_cons.mp h with rfl | h
    · exact .inr rfl
    · exact .inl (isDigit_of_mem_decimalDigits h)
  · exact .inl (isDigit_of_mem_decimalDigits h)

theorem decimalDigits_inj {m n : Nat} (h : decimalDigits m = decimalDigits n) : m = n := by
  have hvalue (k : Nat) : Nat.ofDigitChars 10 (decimalDigits k) 0 = k := ofDigitChars_padded 0 k
  rw [← hvalue m, h, hvalue]

theorem toString_int_inj {m n : Int} (h : toString m = toString n) : m = n := by
  have hlist := congrArg String.toList h
  have hminus (k : Nat) {cs : List Char} : decimalDigits k ≠ '-' :: cs := by
    intro heq
    have := isDigit_decimalDigits k '-' (heq ▸ List.mem_cons_self)
    exact absurd this (by decide)
  rw [toList_toString_int, toList_toString_int] at hlist
  split_ifs at hlist
  · have := decimalDigits_inj (List.tail_eq_of_cons_eq hlist)
    omega
  · exact absurd hlist.symm (hminus _)
  · exact absurd hlist (hminus _)
  · have := decimalDigits_inj hlist
    omega

/-! ## Numbers -/

section

variable {α : Type} [Scalar α] [DecimalText α] [ToldByDigits α]

theorem eq_of_alike {x y : α} (h : (DecimalText.shortest x).Alike (DecimalText.shortest y)) : x = y := by
  cases hx : Scalar.isFinite x with
  | false =>
    refine ToldByDigits.eq_of_word hx ?_
    cases hs : DecimalText.shortest x with
    | finite negative digits exponent =>
      have hfinite : Scalar.isFinite x = true := ToldByDigits.isFinite_iff.mpr ⟨_, _, _, hs⟩
      exact nomatch hx.symm.trans hfinite
    | notANumber => rw [hs] at h; exact h
    | infinite negative => rw [hs] at h; exact h
  | true =>
    obtain ⟨negative, digits, exponent, hs⟩ := ToldByDigits.isFinite_iff.mp hx
    rw [hs] at h
    cases ht : DecimalText.shortest y with
    | finite negative' digits' exponent' =>
      rw [ht] at h
      obtain ⟨rfl, hvalue⟩ := h
      exact ToldByDigits.eq_of_digits hs ht hvalue
    | notANumber => rw [ht] at h; exact nomatch h
    | infinite negative' => rw [ht] at h; exact nomatch h

/-- **The text of a number in messages tells it from all others**, whole or not. -/
theorem Numeral.eq_of_text {m n : Numeral α} (h : m.text = n.text) : m = n := by
  have hmark (k : Int) (x : α) : toString k ≠ (DecimalText.shortest x).text .message := by
    intro heq
    obtain ⟨c, hc, hmark⟩ := Shortest.exists_mem_text_message (DecimalText.shortest x)
    rw [← heq] at hc
    have := isDigit_or_minus_of_mem_toString hc
    rcases hmark with rfl | rfl | rfl <;> exact absurd this (by decide)
  cases m with
  | whole k =>
    cases n with
    | whole k' => exact congrArg whole (toString_int_inj h)
    | real y => exact absurd h (hmark k y)
  | real x =>
    cases n with
    | whole k' => exact absurd h.symm (hmark k' x)
    | real y => exact congrArg real (eq_of_alike (Shortest.alike_of_text_message h))

omit [Scalar α] [ToldByDigits α] in
theorem Numeral.not_mem_text {d : Char} (hd : d = 'x' ∨ d = ':') (n : Numeral α) : d ∉ n.text.toList := by
  cases n with
  | whole k =>
    intro hmem
    have := isDigit_or_minus_of_mem_toString hmem
    rcases hd with rfl | rfl <;> exact absurd this (by decide)
  | real x => exact Shortest.not_mem_text_message hd _

end

end Drawing
