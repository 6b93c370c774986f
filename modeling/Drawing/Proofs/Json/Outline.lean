import Drawing.Json.Printer
import Drawing.Proofs.Number.Legible

/-!
# `Drawing/Proofs/Json/Outline.lean` — what the text of raw data tells

Raw data is printed without blanks, so where one value ends and the next begins is a matter of the characters alone: a
string ends at the first quotation mark that no backslash precedes, a number at the first character that no number
has, a list at its bracket. So a text is the text of one tree. It tells all of it but the numbers, which it tells as far
as their own texts do, and what is not finite is written as `null`.

> **equal texts have equal outlines**, where the outline is the tree with texts in place of its numbers.
-/

namespace Drawing

namespace Json

variable {α : Type}

/-- What holds of raw data if it holds of the values in lists and objects. -/
@[elab_as_elim]
theorem induction {P : Json α → Prop} (null : P .null) (bool : ∀ b, P (.bool b)) (num : ∀ n, P (.num n))
    (str : ∀ s, P (.str s)) (arr : ∀ items, (∀ v ∈ items, P v) → P (.arr items))
    (obj : ∀ fields, (∀ f ∈ fields, P f.2) → P (.obj fields)) (v : Json α) : P v := by
  refine @Json.rec α P (fun items => ∀ v ∈ items, P v) (fun fields => ∀ f ∈ fields, P f.2) (fun f => P f.2)
    null bool num str arr obj ?_ ?_ ?_ ?_ ?_ v
  · exact nofun
  · exact fun _ _ hv hrest => List.forall_mem_cons.mpr ⟨hv, hrest⟩
  · exact nofun
  · exact fun _ _ hf hrest => List.forall_mem_cons.mpr ⟨hf, hrest⟩
  · exact fun _ _ hv => hv

/-! ## Strings -/

theorem hexText_four {n : Nat} (h : n < 65536) :
    hexText 4 n = [(n / 4096).digitChar, (n / 256 % 16).digitChar, (n / 16 % 16).digitChar, (n % 16).digitChar] := by
  have hlast {k : Nat} (hk : k < 16) : Nat.toDigits 16 k = [k.digitChar] := Nat.toDigits_of_lt_base hk
  have hstep {k : Nat} (hk : 16 ≤ k) : Nat.toDigits 16 k = Nat.toDigits 16 (k / 16) ++ [(k % 16).digitChar] :=
    Nat.toDigits_of_base_le (by decide) hk
  unfold hexText
  dsimp only
  rcases Nat.lt_or_ge n 16 with h1 | h1
  · rw [hlast h1]
    simp [Nat.div_eq_of_lt h1, Nat.mod_eq_of_lt h1, Nat.div_eq_of_lt (show n < 256 by omega),
      Nat.div_eq_of_lt (show n < 4096 by omega)]
  rcases Nat.lt_or_ge n 256 with h2 | h2
  · rw [hstep h1, hlast (by omega)]
    simp [Nat.div_eq_of_lt h2, Nat.mod_eq_of_lt (show n / 16 < 16 by omega),
      Nat.div_eq_of_lt (show n < 4096 by omega)]
  rcases Nat.lt_or_ge n 4096 with h3 | h3
  · rw [hstep h1, hstep (by omega), hlast (by omega)]
    simp [Nat.div_div_eq_div_mul, Nat.div_eq_of_lt h3, Nat.mod_eq_of_lt (show n / 256 < 16 by omega)]
  · rw [hstep h1, hstep (by omega), hstep (by omega), hlast (by omega)]
    simp [Nat.div_div_eq_div_mul]

theorem digitChar_inj {m n : Nat} (hm : m < 16) (hn : n < 16) (h : m.digitChar = n.digitChar) : m = n := by
  have hall : ∀ i j : Fin 16, Nat.digitChar i = Nat.digitChar j → i = j := by decide
  exact congrArg Fin.val (hall ⟨m, hm⟩ ⟨n, hn⟩ h)

theorem hexText_append_inj {m n : Nat} (hm : m < 65536) (hn : n < 65536) {r r' : List Char}
    (h : hexText 4 m ++ r = hexText 4 n ++ r') : m = n ∧ r = r' := by
  rw [hexText_four hm, hexText_four hn] at h
  simp only [List.cons_append, List.nil_append, List.cons.injEq] at h
  obtain ⟨h1, h2, h3, h4, hr⟩ := h
  have h1 := digitChar_inj (by omega) (by omega) h1
  have h2 := digitChar_inj (by omega) (by omega) h2
  have h3 := digitChar_inj (by omega) (by omega) h3
  have h4 := digitChar_inj (by omega) (by omega) h4
  exact ⟨by omega, hr⟩

/-- The characters with an escape of one letter, and that letter. -/
def shortEscapes : List (Char × Char) :=
  [('"', '"'), ('\\', '\\'), ('\n', 'n'), ('\r', 'r'), ('\t', 't'), ('\x08', 'b'), ('\x0c', 'f')]

/-- The three ways a character is written: as it is, as a backslash and a letter, or by a number. -/
inductive IsEscape (c : Char) : List Char → Prop
  | plain (hquote : c ≠ '"') (hslash : c ≠ '\\') : IsEscape c [c]
  | short {k : Char} (h : (c, k) ∈ shortEscapes) : IsEscape c ['\\', k]
  | numbered {n : Nat} (hn : n < 65536) (h : n < 0x20 ∧ c.toNat = n ∨ 0x20 ≤ n ∧ c.toNat = standInPlane + n) :
      IsEscape c ('\\' :: 'u' :: hexText 4 n)

theorem isEscape_textChar (c : Char) : IsEscape c (textChar c) := by
  unfold textChar
  split_ifs with h1 h2 h3 h4 h5 h6 h7 h8
  · exact .short (by rw [h1]; decide)
  · exact .short (by rw [h2]; decide)
  · exact .short (by rw [h3]; decide)
  · exact .short (by rw [h4]; decide)
  · exact .short (by rw [h5]; decide)
  · exact .short (by rw [h6]; decide)
  · exact .short (by rw [h7]; decide)
  · exact .numbered (by omega) (.inl ⟨h8, rfl⟩)
  · split
    · next n hn =>
      unfold surrogate? at hn
      dsimp only at hn
      split_ifs at hn with hhalf
      obtain rfl := Option.some.inj hn
      simp only [isHighSurrogate, isLowSurrogate, Bool.or_eq_true, Bool.and_eq_true, decide_eq_true_eq] at hhalf
      exact .numbered (by omega) (.inr ⟨by omega, by omega⟩)
    · exact .plain h1 h2

theorem IsEscape.append_inj {c c' : Char} {cs cs' r r' : List Char} (hc : IsEscape c cs) (hc' : IsEscape c' cs')
    (h : cs ++ r = cs' ++ r') : c = c' ∧ r = r' := by
  have hshort : ∀ p ∈ shortEscapes, p.2 ≠ 'u' ∧ ∀ q ∈ shortEscapes, p.2 = q.2 → p = q := by decide
  cases hc with
  | plain hquote hslash =>
    cases hc' with
    | plain => exact List.cons.inj h
    | short => exact absurd (List.head_eq_of_cons_eq h) hslash
    | numbered => exact absurd (List.head_eq_of_cons_eq h) hslash
  | short hk =>
    cases hc' with
    | plain hquote hslash => exact absurd (List.head_eq_of_cons_eq h).symm hslash
    | short hk' =>
      obtain ⟨hletter, hr⟩ := List.cons.inj (List.tail_eq_of_cons_eq h)
      exact ⟨congrArg Prod.fst ((hshort _ hk).2 _ hk' hletter), hr⟩
    | numbered => exact absurd (List.cons.inj (List.tail_eq_of_cons_eq h)).1 (hshort _ hk).1
  | numbered hn hcode =>
    cases hc' with
    | plain hquote hslash => exact absurd (List.head_eq_of_cons_eq h).symm hslash
    | short hk' => exact absurd (List.cons.inj (List.tail_eq_of_cons_eq h)).1.symm (hshort _ hk').1
    | numbered hn' hcode' =>
      obtain ⟨rfl, hr⟩ := hexText_append_inj hn hn' (List.tail_eq_of_cons_eq (List.tail_eq_of_cons_eq h))
      exact ⟨Char.toNat_inj.mp (by omega), hr⟩

theorem IsEscape.head {c : Char} {cs : List Char} (h : IsEscape c cs) : ∃ d rest, cs = d :: rest ∧ d ≠ '"' := by
  cases h with
  | plain hquote => exact ⟨c, [], rfl, hquote⟩
  | short => exact ⟨_, _, rfl, by decide⟩
  | numbered => exact ⟨_, _, rfl, by decide⟩

/-- A string ends at the first mark that belongs to no escape. -/
theorem escaped_append_inj {cs cs' r r' : List Char}
    (h : cs.flatMap textChar ++ '"' :: r = cs'.flatMap textChar ++ '"' :: r') : cs = cs' ∧ r = r' := by
  have hmark (c : Char) (cs r r' : List Char) : '"' :: r ≠ (c :: cs).flatMap textChar ++ r' := by
    intro heq
    obtain ⟨d, rest, hd, hne⟩ := (isEscape_textChar c).head
    rw [List.flatMap_cons, hd] at heq
    exact hne (List.head_eq_of_cons_eq heq).symm
  induction cs generalizing cs' with
  | nil =>
    cases cs' with
    | nil => exact ⟨rfl, List.tail_eq_of_cons_eq h⟩
    | cons c' cs' => exact absurd h (hmark c' cs' _ _)
  | cons c cs ih =>
    cases cs' with
    | nil => exact absurd h.symm (hmark c cs _ _)
    | cons c' cs' =>
      rw [List.flatMap_cons, List.flatMap_cons, List.append_assoc, List.append_assoc] at h
      obtain ⟨rfl, hrest⟩ := (isEscape_textChar c).append_inj (isEscape_textChar c') h
      obtain ⟨rfl, hr⟩ := ih hrest
      exact ⟨rfl, hr⟩

theorem stringText_append_inj {s s' : String} {r r' : List Char}
    (h : (stringText s).toList ++ r = (stringText s').toList ++ r') : s = s' ∧ r = r' := by
  unfold stringText at h
  rw [String.toList_ofList, String.toList_ofList, List.append_assoc, List.append_assoc] at h
  obtain ⟨hs, hr⟩ := escaped_append_inj (List.tail_eq_of_cons_eq h)
  exact ⟨String.toList_inj.mp hs, hr⟩

/-! ## Numbers -/

/-- What stands behind a value: nothing, or a character that no number has. -/
def Ends (r : List Char) : Prop := ∀ c, r.head? = some c → isNumeralChar c = false

theorem Ends.cons {c : Char} (h : isNumeralChar c = false) (r : List Char) : Ends (c :: r) := by
  rintro d hd
  obtain rfl := Option.some.inj hd
  exact h

theorem numerals_append_inj {cs cs' r r' : List Char} (hcs : ∀ c ∈ cs, isNumeralChar c = true)
    (hcs' : ∀ c ∈ cs', isNumeralChar c = true) (hr : Ends r) (hr' : Ends r') (h : cs ++ r = cs' ++ r') :
    cs = cs' ∧ r = r' := by
  have hspan := spanChars_append hcs hr
  rw [h, spanChars_append hcs' hr'] at hspan
  obtain ⟨rfl, rfl⟩ := Prod.mk.inj hspan
  exact ⟨rfl, rfl⟩

variable [DecimalText α]

/-- A number is written as `null`, or as what begins as a number and has the characters of one. -/
theorem numeralText_cases (n : Numeral α) :
    numeralText .document n = "null" ∨ beginsAsNumber (numeralText .document n).toList = true ∧
      ∀ c ∈ (numeralText .document n).toList, isNumeralChar c = true := by
  have hsigned {body : List Char} {q : Rat} (h : StandsFor body q) (negative : Bool) :
      beginsAsNumber (if negative then '-' :: body else body) = true ∧
        ∀ c ∈ (if negative then '-' :: body else body), isNumeralChar c = true := by
    refine ⟨h.beginsAsNumber negative, ?_⟩
    cases negative with
    | false => exact h.chars
    | true => exact List.forall_mem_cons.mpr ⟨by decide, h.chars⟩
  cases n with
  | whole n =>
    have h := hsigned (standsFor_digits (decimalDigits_ne_nil n.natAbs) (isDigit_decimalDigits _) .missing)
      (decide (n < 0))
    rw [List.append_nil] at h
    simp only [decide_eq_true_eq] at h
    rw [← toList_toString_int] at h
    exact .inr h
  | real x =>
    have htext : numeralText .document (.real x) = (DecimalText.shortest x).text .document := rfl
    rw [htext]
    cases DecimalText.shortest x with
    | notANumber => exact .inl rfl
    | infinite negative => cases negative <;> exact .inl rfl
    | finite negative digits exponent =>
      obtain ⟨body, hbody, -, htext⟩ := Shortest.toList_text_finite .document negative digits exponent
      rw [htext]
      exact .inr (hsigned hbody negative)

/-! ## Outlines -/

/-- The outline of a number: its text, unless it is written as `null`. -/
def numeralOutline (n : Numeral α) : Json String :=
  if numeralText .document n = "null" then .null else .num (.real (numeralText .document n))

mutual

/-- Raw data with the texts of numbers in their places. -/
def outline : Json α → Json String
  | .null => .null
  | .bool b => .bool b
  | .num n => numeralOutline n
  | .str s => .str s
  | .arr items => .arr (itemOutlines items)
  | .obj fields => .obj (fieldOutlines fields)

/-- The outlines of the items of a list. -/
def itemOutlines : List (Json α) → List (Json String)
  | [] => []
  | v :: rest => outline v :: itemOutlines rest

/-- The outlines of the fields of an object. -/
def fieldOutlines : List (String × Json α) → List (String × Json String)
  | [] => []
  | (name, v) :: rest => (name, outline v) :: fieldOutlines rest

end

theorem itemOutlines_eq_map (items : List (Json α)) : itemOutlines items = items.map outline := by
  induction items with
  | nil => rfl
  | cons v rest ih => rw [itemOutlines, ih, List.map_cons]

theorem fieldOutlines_eq_map (fields : List (String × Json α)) :
    fieldOutlines fields = fields.map fun f => (f.1, outline f.2) := by
  induction fields with
  | nil => rfl
  | cons f rest ih => rw [fieldOutlines, ih, List.map_cons]

/-- The text of a field. -/
def fieldText (f : String × Json α) : String := stringText f.1 ++ ":" ++ textIn .document f.2

theorem itemTexts_eq_map (items : List (Json α)) : itemTexts .document items = items.map (textIn .document) := by
  induction items with
  | nil => rfl
  | cons v rest ih => rw [itemTexts, ih, List.map_cons]

theorem fieldTexts_eq_map (fields : List (String × Json α)) :
    fieldTexts .document fields = fields.map fieldText := by
  induction fields with
  | nil => rfl
  | cons f rest ih => rw [fieldTexts, ih, List.map_cons]; rfl

/-! ### Beginnings

The first character of a text tells what kind of value it is of. -/

/-- A first character as far as it matters: all beginnings of numbers are one. -/
def kindOf (c : Char) : Char := if c.isDigit || c == '-' then '0' else c

/-- The kind of first character that the text with an outline has. -/
def opening : Json String → Char
  | .null => 'n'
  | .bool true => 't'
  | .bool false => 'f'
  | .num _ => '0'
  | .str _ => '"'
  | .arr _ => '['
  | .obj _ => '\x7b'

theorem exists_opening (v : Json α) :
    ∃ c rest, (textIn .document v).toList = c :: rest ∧ kindOf c = opening v.outline := by
  cases v with
  | null => exact ⟨'n', ['u', 'l', 'l'], by rw [textIn]; decide, rfl⟩
  | bool b =>
    cases b with
    | false => exact ⟨'f', ['a', 'l', 's', 'e'], by rw [textIn]; decide, rfl⟩
    | true => exact ⟨'t', ['r', 'u', 'e'], by rw [textIn]; decide, rfl⟩
  | num n =>
    rw [textIn, outline, numeralOutline]
    split_ifs with hnull
    · rw [hnull]
      exact ⟨'n', ['u', 'l', 'l'], by decide, rfl⟩
    · obtain ⟨hbegins, -⟩ := (numeralText_cases n).resolve_left hnull
      cases htext : (numeralText .document n).toList with
      | nil => rw [htext] at hbegins; exact nomatch hbegins
      | cons c rest =>
        refine ⟨c, rest, rfl, ?_⟩
        show kindOf c = '0'
        by_cases hminus : c = '-'
        · rw [hminus]
          decide
        · have hdigit : c.isDigit = true := by
            rw [htext] at hbegins
            simpa [beginsAsNumber, hminus] using hbegins
          simp [kindOf, hdigit]
  | str s => exact ⟨'"', _, by rw [textIn, stringText, String.toList_ofList]; rfl, rfl⟩
  | arr items =>
    rw [textIn, String.toList_append, String.toList_append, List.append_assoc]
    exact ⟨'[', _, rfl, rfl⟩
  | obj fields =>
    rw [textIn, String.toList_append, String.toList_append, List.append_assoc]
    exact ⟨'\x7b', _, rfl, rfl⟩

/-- Outlines with one opening are of one kind. -/
theorem eq_of_opening {o o' : Json String} (h : opening o = opening o') :
    (o = .null ∧ o' = .null) ∨ (∃ b, o = .bool b ∧ o' = .bool b) ∨ (∃ n n', o = .num n ∧ o' = .num n') ∨
      (∃ s s', o = .str s ∧ o' = .str s') ∨ (∃ os os', o = .arr os ∧ o' = .arr os') ∨
      ∃ fs fs', o = .obj fs ∧ o' = .obj fs' := by
  cases o with
  | bool b => cases o' with
    | bool b' => cases b <;> cases b' <;> simp [opening] at h ⊢
    | _ => cases b <;> simp [opening] at h
  | _ => cases o' with
    | bool b' => cases b' <;> simp [opening] at h
    | _ => simp [opening] at h ⊢

theorem opening_ne (o : Json String) : opening o ≠ ']' := by
  cases o with
  | bool b => cases b <;> simp [opening]
  | _ => simp [opening]

/-- What an outline says of the raw data that it is of. -/
theorem outline_tells (v : Json α) :
    match v.outline with
    | .null => textIn .document v = "null"
    | .bool b => v = .bool b
    | .num m => ∃ n, v = .num n ∧ m = .real (numeralText .document n) ∧ numeralText .document n ≠ "null"
    | .str s => v = .str s
    | .arr outlines => ∃ items, v = .arr items ∧ items.map outline = outlines
    | .obj outlines => ∃ fields, v = .obj fields ∧ (fields.map fun f => (f.1, outline f.2)) = outlines := by
  cases v with
  | null =>
    show textIn .document .null = "null"
    rw [textIn]
  | bool b => rfl
  | num n =>
    rw [outline, numeralOutline]
    split_ifs with hnull
    · rw [textIn, hnull]
    · exact ⟨n, rfl, rfl, hnull⟩
  | str s => rfl
  | arr items => exact ⟨items, rfl, (itemOutlines_eq_map items).symm⟩
  | obj fields => exact ⟨fields, rfl, (fieldOutlines_eq_map fields).symm⟩

/-! ## Lists and objects -/

section Pieces

variable {β γ : Type}

/-- Pieces with commas between them, and what closes them. -/
def pieces (text : β → String) (close : Char) (xs : List β) (r : List Char) : List Char :=
  (",".intercalate (xs.map text)).toList ++ close :: r

/-- What stands behind the first of some pieces. -/
def behindPiece (text : β → String) (close : Char) : List β → List Char → List Char
  | [], r => close :: r
  | x :: xs, r => ',' :: pieces text close (x :: xs) r

theorem pieces_cons (text : β → String) (close : Char) (x : β) (xs : List β) (r : List Char) :
    pieces text close (x :: xs) r = (text x).toList ++ behindPiece text close xs r := by
  unfold pieces
  cases xs with
  | nil =>
    rw [List.map_singleton, String.intercalate_singleton]
    rfl
  | cons y ys =>
    rw [List.map_cons, List.map_cons, String.intercalate_cons_cons, String.toList_append, String.toList_append,
      List.append_assoc, List.append_assoc]
    rfl

/-- Pieces that can be told where they end can be told one by one. -/
theorem pieces_inj {text : β → String} {out : β → γ} {close : Char} (hclose : isNumeralChar close = false)
    (hcomma : close ≠ ',') (hopen : ∀ x, ∃ c rest, (text x).toList = c :: rest ∧ c ≠ close) {xs xs' : List β}
    (hinj : ∀ x ∈ xs, ∀ x' s s', Ends s → Ends s' → (text x).toList ++ s = (text x').toList ++ s' →
      out x = out x' ∧ s = s') {r r' : List Char} (h : pieces text close xs r = pieces text close xs' r') :
    xs.map out = xs'.map out ∧ r = r' := by
  have hne (x : β) (xs : List β) (r r' : List Char) : pieces text close [] r ≠ pieces text close (x :: xs) r' := by
    intro heq
    obtain ⟨c, rest, hc, hne⟩ := hopen x
    rw [pieces_cons, hc] at heq
    exact hne (List.head_eq_of_cons_eq heq).symm
  have hends (xs : List β) (r : List Char) : Ends (behindPiece text close xs r) := by
    cases xs with
    | nil => exact .cons hclose r
    | cons x xs => exact .cons (by decide) _
  induction xs generalizing xs' with
  | nil =>
    cases xs' with
    | nil => exact ⟨rfl, List.tail_eq_of_cons_eq h⟩
    | cons x' xs' => exact absurd h (hne x' xs' _ _)
  | cons x xs ih =>
    cases xs' with
    | nil => exact absurd h.symm (hne x xs _ _)
    | cons x' xs' =>
      obtain ⟨hx, hxs⟩ := List.forall_mem_cons.mp hinj
      rw [pieces_cons, pieces_cons] at h
      obtain ⟨hout, hbehind⟩ := hx x' _ _ (hends xs r) (hends xs' r') h
      -- a comma says that there are more pieces, and then there are on both sides
      cases xs with
      | nil =>
        cases xs' with
        | nil => exact ⟨by simp [hout], List.tail_eq_of_cons_eq hbehind⟩
        | cons y' ys' => exact absurd (List.head_eq_of_cons_eq hbehind) hcomma
      | cons y ys =>
        cases xs' with
        | nil => exact absurd (List.head_eq_of_cons_eq hbehind).symm hcomma
        | cons y' ys' =>
          obtain ⟨hrest, hr⟩ := ih hxs (List.tail_eq_of_cons_eq hbehind)
          exact ⟨by rw [List.map_cons, hout, hrest, ← List.map_cons], hr⟩

end Pieces

theorem toList_textIn_arr (items : List (Json α)) (r : List Char) :
    (textIn .document (.arr items)).toList ++ r = '[' :: pieces (textIn .document) ']' items r := by
  rw [textIn, itemTexts_eq_map, String.toList_append, String.toList_append, List.append_assoc, List.append_assoc]
  rfl

theorem toList_textIn_obj (fields : List (String × Json α)) (r : List Char) :
    (textIn .document (.obj fields)).toList ++ r = '\x7b' :: pieces fieldText '\x7d' fields r := by
  rw [textIn, fieldTexts_eq_map, String.toList_append, String.toList_append, List.append_assoc, List.append_assoc]
  rfl

theorem toList_fieldText (f : String × Json α) (r : List Char) :
    (fieldText f).toList ++ r = (stringText f.1).toList ++ ':' :: ((textIn .document f.2).toList ++ r) := by
  rw [fieldText, String.toList_append, String.toList_append, List.append_assoc, List.append_assoc]
  rfl

/-- A value whose text, whatever stands behind it, tells its outline and where it ends. -/
def TextTells (v : Json α) : Prop :=
  ∀ ⦃v' : Json α⦄ ⦃r r' : List Char⦄, Ends r → Ends r' →
    (textIn .document v).toList ++ r = (textIn .document v').toList ++ r' → v.outline = v'.outline ∧ r = r'

/-- Values can be told apart in a list: none begins with the bracket that closes it. -/
theorem itemPieces_inj {items items' : List (Json α)} (hitems : ∀ x ∈ items, TextTells x) {r r' : List Char}
    (h : pieces (textIn .document) ']' items r = pieces (textIn .document) ']' items' r') :
    items.map outline = items'.map outline ∧ r = r' := by
  refine pieces_inj (by decide) (by decide) (fun x => ?_) (fun x hx _ _ _ hs hs' heq => hitems x hx hs hs' heq) h
  obtain ⟨c, rest, hc, hkind⟩ := exists_opening x
  refine ⟨c, rest, hc, ?_⟩
  rintro rfl
  exact opening_ne x.outline hkind.symm

theorem fieldPieces_inj {fields fields' : List (String × Json α)} (hfields : ∀ f ∈ fields, TextTells f.2)
    {r r' : List Char} (h : pieces fieldText '\x7d' fields r = pieces fieldText '\x7d' fields' r') :
    (fields.map fun f => (f.1, f.2.outline)) = (fields'.map fun f => (f.1, f.2.outline)) ∧ r = r' := by
  have hopen (f : String × Json α) : ∃ c rest, (fieldText f).toList = c :: rest ∧ c ≠ '\x7d' := by
    rw [fieldText, stringText, String.toList_append, String.toList_append, String.toList_ofList]
    exact ⟨'"', _, rfl, by decide⟩
  refine pieces_inj (by decide) (by decide) hopen (fun f hf f' s s' hs hs' heq => ?_) h
  rw [toList_fieldText, toList_fieldText] at heq
  obtain ⟨hname, heq⟩ := stringText_append_inj heq
  obtain ⟨hvalue, hs⟩ := hfields f hf hs hs' (List.tail_eq_of_cons_eq heq)
  rw [hname, hvalue]
  exact ⟨rfl, hs⟩

theorem textTells_step {v : Json α} (harr : ∀ items, v = .arr items → ∀ x ∈ items, TextTells x)
    (hobj : ∀ fields, v = .obj fields → ∀ f ∈ fields, TextTells f.2) : TextTells v := by
  intro v' r r' hr hr' h
  -- The first characters agree, and with them the kinds, so that only values of one kind are left to compare.
  have hopening : opening v.outline = opening v'.outline := by
    obtain ⟨c, rest, hc, hkind⟩ := exists_opening v
    obtain ⟨c', rest', hc', hkind'⟩ := exists_opening v'
    rw [hc, hc'] at h
    rw [← hkind, ← hkind', List.head_eq_of_cons_eq h]
  have hplain {o : Json String} (hv : v.outline = o) (hv' : v'.outline = o)
      (htext : textIn .document v = textIn .document v') : v.outline = v'.outline ∧ r = r' := by
    rw [htext] at h
    exact ⟨hv.trans hv'.symm, List.append_cancel_left h⟩
  have hshape := outline_tells v
  have hshape' := outline_tells v'
  rcases eq_of_opening hopening with ⟨hv, hv'⟩ | ⟨b, hv, hv'⟩ | ⟨n, n', hv, hv'⟩ | ⟨s, s', hv, hv'⟩ |
    ⟨os, os', hv, hv'⟩ | ⟨fs, fs', hv, hv'⟩ <;> rw [hv] at hshape <;> rw [hv'] at hshape'
  · exact hplain hv hv' (hshape.trans hshape'.symm)
  · exact hplain hv hv' (congrArg (textIn .document) (hshape.trans hshape'.symm))
  · obtain ⟨m, rfl, rfl, hne⟩ := hshape
    obtain ⟨m', rfl, rfl, hne'⟩ := hshape'
    have hm := ((numeralText_cases m).resolve_left hne).2
    have hm' := ((numeralText_cases m').resolve_left hne').2
    rw [textIn, textIn] at h
    obtain ⟨htext, hr⟩ := numerals_append_inj hm hm' hr hr' h
    rw [hv, hv', String.toList_inj.mp htext]
    exact ⟨rfl, hr⟩
  · obtain rfl : v = .str s := hshape
    obtain rfl : v' = .str s' := hshape'
    rw [textIn, textIn] at h
    obtain ⟨rfl, hr⟩ := stringText_append_inj h
    exact ⟨rfl, hr⟩
  · obtain ⟨items, rfl, rfl⟩ := hshape
    obtain ⟨items', rfl, rfl⟩ := hshape'
    rw [toList_textIn_arr, toList_textIn_arr] at h
    obtain ⟨hitems, hr⟩ := itemPieces_inj (harr items rfl) (List.tail_eq_of_cons_eq h)
    rw [hv, hv', hitems]
    exact ⟨rfl, hr⟩
  · obtain ⟨fields, rfl, rfl⟩ := hshape
    obtain ⟨fields', rfl, rfl⟩ := hshape'
    rw [toList_textIn_obj, toList_textIn_obj] at h
    obtain ⟨hfields, hr⟩ := fieldPieces_inj (hobj fields rfl) (List.tail_eq_of_cons_eq h)
    rw [hv, hv', hfields]
    exact ⟨rfl, hr⟩

/-- By induction on raw data: the values in a list or an object can be told where they end. -/
theorem textTells (v : Json α) : TextTells v := by
  induction v using Json.induction with
  | null => exact textTells_step nofun nofun
  | bool b => exact textTells_step nofun nofun
  | num n => exact textTells_step nofun nofun
  | str s => exact textTells_step nofun nofun
  | arr items ih =>
    refine textTells_step ?_ nofun
    rintro _ ⟨⟩
    exact ih
  | obj fields ih =>
    refine textTells_step nofun ?_
    rintro _ ⟨⟩
    exact ih

/-- **Equal texts have equal outlines.** -/
theorem outline_eq_of_text {v v' : Json α} (h : v.text = v'.text) : v.outline = v'.outline := by
  have hends : Ends [] := nofun
  exact (textTells v hends hends (congrArg (·.toList ++ []) h)).1

end Json

end Drawing
