import Drawing.Markup.Attribute
import Drawing.Path.Check
import Drawing.Proofs.Fallible
import Drawing.Proofs.Path.Groups
import Drawing.Proofs.Path.Points
import Drawing.Proofs.Text.Pieces

/-!
# `Drawing/Proofs/Path/Data.lean` — our own path data passes its check

Path data is written as words with single blanks between them, a letter for each command and a number for each
coordinate. The check reads it from left to right with a grammar of its own. That it finds again just the words that
were written is a matter of where a number ends, and at a blank it always does. So commands that begin with a move
leave nothing to complain of; no commands at all are empty data.
-/

namespace Drawing

/-! ## Coordinates -/

/-- Digits, perhaps with a point and more digits behind them. -/
inductive IsUnsigned : List Char → Prop
  | whole {ds : List Char} (hne : ds ≠ []) (hds : ∀ c ∈ ds, c.isDigit = true) : IsUnsigned ds
  | fraction {ds fs : List Char} (hne : ds ≠ []) (hds : ∀ c ∈ ds, c.isDigit = true) (hfne : fs ≠ [])
      (hfs : ∀ c ∈ fs, c.isDigit = true) : IsUnsigned (ds ++ '.' :: fs)

/-- The form that finite coordinates are written in. -/
inductive IsCoordinate : List Char → Prop
  | unsigned {cs : List Char} (h : IsUnsigned cs) : IsCoordinate cs
  | negative {cs : List Char} (h : IsUnsigned cs) : IsCoordinate ('-' :: cs)

theorem IsUnsigned.exists_cons {cs : List Char} (h : IsUnsigned cs) :
    ∃ c rest, cs = c :: rest ∧ c.isDigit = true := by
  cases h with
  | whole hne hds =>
    obtain ⟨c, rest, rfl⟩ := List.exists_cons_of_ne_nil hne
    exact ⟨c, rest, rfl, hds c List.mem_cons_self⟩
  | fraction hne hds =>
    obtain ⟨c, rest, rfl⟩ := List.exists_cons_of_ne_nil hne
    exact ⟨c, _, rfl, hds c List.mem_cons_self⟩

theorem isDigit_of_mem_decimalDigits {n : Nat} {c : Char} (h : c ∈ decimalDigits n) : c.isDigit = true :=
  Nat.isDigit_of_mem_toDigits (by decide) (by decide) h

theorem isUnsigned_decimalDigits (n : Nat) : IsUnsigned (decimalDigits n) :=
  .whole Nat.toDigits_ne_nil fun _ => isDigit_of_mem_decimalDigits

theorem toList_toString_ofNat (n : Nat) : (toString (Int.ofNat n)).toList = decimalDigits n := by
  show (Nat.repr n).toList = _
  exact Nat.toList_repr

theorem toList_toString_negSucc (n : Nat) :
    (toString (Int.negSucc n)).toList = '-' :: decimalDigits (n + 1) := by
  show ("-" ++ Nat.repr (n + 1)).toList = _
  rw [String.toList_append, Nat.toList_repr]
  rfl

theorem isCoordinate_toString (n : Int) : IsCoordinate (toString n).toList := by
  cases n with
  | ofNat n =>
    rw [toList_toString_ofNat]
    exact .unsigned (isUnsigned_decimalDigits n)
  | negSucc n =>
    rw [toList_toString_negSucc]
    exact .negative (isUnsigned_decimalDigits (n + 1))

theorem isDigit_of_mem_padZeros (width n : Nat) : ∀ c ∈ padZeros width (decimalDigits n), c.isDigit = true := by
  intro c hc
  rcases List.mem_append.mp hc with hc | hc
  · rw [List.eq_of_mem_replicate hc]
    decide
  · exact isDigit_of_mem_decimalDigits hc

theorem le_length_padZeros (width : Nat) (cs : List Char) : width ≤ (padZeros width cs).length := by
  unfold padZeros
  rw [List.length_append, List.length_replicate]
  omega

theorem isUnsigned_fixedDigits {places : Nat} (hp : 0 < places) (q : Rat) :
    IsUnsigned (fixedDigits places q) := by
  unfold fixedDigits
  dsimp only
  generalize nearestNat (q.num.natAbs * tenTo places) q.den = n
  have hdigits := isDigit_of_mem_padZeros (places + 1) n
  have hlength := le_length_padZeros (places + 1) (decimalDigits n)
  rw [if_neg (Nat.ne_of_gt hp)]
  refine .fraction ?_ (fun c hc => hdigits c (List.mem_of_mem_take hc)) ?_
    fun c hc => hdigits c (List.mem_of_mem_drop hc)
  · refine List.ne_nil_of_length_pos ?_
    rw [List.length_take]
    omega
  · refine List.ne_nil_of_length_pos ?_
    rw [List.length_drop]
    omega

theorem isCoordinate_coordinateText {α : Type} [Scalar α] {x : α} (h : Scalar.isFinite x = true) :
    IsCoordinate (coordinateText x).toList := by
  obtain ⟨q, hq⟩ := Option.isSome_iff_exists.mp h
  unfold coordinateText
  rw [hq]
  dsimp only
  split_ifs
  · exact isCoordinate_toString q.num
  · exact isCoordinate_toString 0
  · unfold Scalar.fixedText
    rw [hq]
    dsimp only
    rw [String.toList_ofList]
    split_ifs
    · exact .negative (isUnsigned_fixedDigits (by decide) q)
    · exact .unsigned (isUnsigned_fixedDigits (by decide) q)

/-- What holds of digits, of a point and of a minus holds of all characters of a coordinate. -/
theorem IsCoordinate.forall_mem {P : Char → Prop} {cs : List Char} (h : IsCoordinate cs)
    (hdigit : ∀ c : Char, c.isDigit = true → P c) (hpoint : P '.') (hminus : P '-') : ∀ c ∈ cs, P c := by
  have hunsigned {cs : List Char} (h : IsUnsigned cs) : ∀ c ∈ cs, P c := by
    cases h with
    | whole _ hds => exact fun c hc => hdigit c (hds c hc)
    | fraction _ hds _ hfs =>
      exact List.forall_mem_append.mpr ⟨fun c hc => hdigit c (hds c hc),
        List.forall_mem_cons.mpr ⟨hpoint, fun c hc => hdigit c (hfs c hc)⟩⟩
  cases h with
  | unsigned h => exact hunsigned h
  | negative h => exact List.forall_mem_cons.mpr ⟨hminus, hunsigned h⟩

/-! ## Reading coordinates -/

theorem digitValue?_of_isDigit {c : Char} (h : c.isDigit = true) :
    digitValue? c = some (c.toNat - '0'.toNat) := by
  have hlt : c.toNat < 0x80 := by
    have := (Char.isDigit_iff_toNat.mp h).2
    have h9 : '9'.toNat = 57 := rfl
    omega
  unfold digitValue?
  rw [if_pos hlt, if_pos h]
  rfl

theorem isAnyDigit_of_isDigit {c : Char} (h : c.isDigit = true) : isAnyDigit c = true := by
  unfold isAnyDigit
  rw [digitValue?_of_isDigit h]
  rfl

namespace LexemeGrammar

/-- A grammar in which plain digits are digits, and neither a blank nor a point is one. -/
structure IsPlain (g : LexemeGrammar) : Prop where
  digit : ∀ c : Char, c.isDigit = true → g.isDigit c = true
  blank : g.isDigit ' ' = false
  point : g.isDigit '.' = false

theorem isPlain_own : own.IsPlain := ⟨fun _ => isAnyDigit_of_isDigit, by decide, by decide⟩

variable {g : LexemeGrammar}

theorem digits?_of_isUnsigned (hg : g.IsPlain) {cs rest : List Char} (h : IsUnsigned cs)
    (hrest : Follows " ".toList rest) : g.digits? (cs ++ rest) = some (cs, rest) := by
  -- digits end at the blank behind them, or with the text
  have hblank : ∀ c, rest.head? = some c → g.isDigit c = false := by
    rcases hrest with rfl | ⟨r, rfl⟩
    · exact nofun
    · rintro c hc
      obtain rfl := Option.some.inj hc
      exact hg.blank
  cases h with
  | whole hne hds =>
    have hspan : spanChars g.isDigit (cs ++ rest) = (cs, rest) :=
      spanChars_append (fun c hc => hg.digit c (hds c hc)) hblank
    unfold digits?
    rw [hspan]
    rcases hrest with rfl | ⟨r, rfl⟩ <;> simp [hne]
  | @fraction ds fs hne hds hfne hfs =>
    have hspan : spanChars g.isDigit (ds ++ '.' :: (fs ++ rest)) = (ds, '.' :: (fs ++ rest)) := by
      refine spanChars_append (fun c hc => hg.digit c (hds c hc)) ?_
      rintro c hc
      obtain rfl := Option.some.inj hc
      exact hg.point
    have hspan' : spanChars g.isDigit (fs ++ rest) = (fs, rest) :=
      spanChars_append (fun c hc => hg.digit c (hfs c hc)) hblank
    unfold digits?
    rw [List.append_assoc, List.cons_append, hspan]
    cases fs with
    | nil => exact absurd rfl hfne
    | cons f fs => simp only [hspan']

theorem exponent_of_follows {rest : List Char} (h : Follows " ".toList rest) : g.exponent rest = ([], rest) := by
  rcases h with rfl | ⟨r, rfl⟩
  · rfl
  · simp [exponent]

/-- A coordinate is read to the end of its word. -/
theorem number?_of_isCoordinate (hg : g.IsPlain) {cs rest : List Char} (h : IsCoordinate cs)
    (hrest : Follows " ".toList rest) : g.number? (cs ++ rest) = some (cs, rest) := by
  cases h with
  | unsigned h =>
    -- it begins with a digit, so no sign is taken off it
    have hsign : ∃ c r, cs ++ rest = c :: r ∧ c ≠ '-' ∧ c ≠ '+' := by
      obtain ⟨c, r, rfl, hc⟩ := h.exists_cons
      refine ⟨c, r ++ rest, rfl, ?_, ?_⟩
      · rintro rfl
        exact absurd hc (by decide)
      · rintro rfl
        exact absurd hc (by decide)
    obtain ⟨c, r, hcs, hminus, hplus⟩ := hsign
    have hdigits := digits?_of_isUnsigned hg h hrest
    rw [hcs] at hdigits ⊢
    simp [number?, hminus, hplus, hdigits, exponent_of_follows hrest]
  | @negative cs h =>
    have hdigits := digits?_of_isUnsigned hg h hrest
    unfold number?
    simp [hdigits, exponent_of_follows hrest]

theorem number?_blank (hg : g.IsPlain) (rest : List Char) : g.number? (' ' :: rest) = none := by
  simp [number?, digits?, spanChars, hg.blank]

end LexemeGrammar

/-! ## Reading words -/

/-- The tokens of a text, each read where the one before it ends. -/
inductive Tokens : List Char → List DataToken → Prop
  | nil : Tokens [] []
  | letter {c : Char} {rest : List Char} {ts : List DataToken} (hc : c.isAlpha = true)
      (h : Tokens rest ts) : Tokens (c :: rest) (.letter c :: ts)
  | number {c : Char} {cs number rest : List Char} {ts : List DataToken} (hc : c.isAlpha = false)
      (hn : LexemeGrammar.own.number? (c :: cs) = some (number, rest)) (hlen : rest.length ≤ cs.length)
      (h : Tokens rest ts) : Tokens (c :: cs) (.number (String.ofList number) :: ts)
  | skip {c : Char} {rest : List Char} {ts : List DataToken} (hc : c.isAlpha = false)
      (hn : LexemeGrammar.own.number? (c :: rest) = none) (h : Tokens rest ts) : Tokens (c :: rest) ts

/-- As many steps as there are characters are enough to read all of them. -/
theorem Tokens.dataTokens_eq {cs : List Char} {ts : List DataToken} (h : Tokens cs ts) {fuel : Nat}
    (hf : cs.length ≤ fuel) : dataTokens fuel cs = ts := by
  induction h generalizing fuel with
  | nil => cases fuel <;> rfl
  | letter hc _ ih =>
    obtain ⟨fuel, rfl⟩ := Nat.exists_eq_succ_of_ne_zero (Nat.ne_of_gt (Nat.zero_lt_of_lt hf))
    rw [dataTokens, if_pos hc, ih (Nat.le_of_succ_le_succ hf)]
  | number hc hn hlen _ ih =>
    obtain ⟨fuel, rfl⟩ := Nat.exists_eq_succ_of_ne_zero (Nat.ne_of_gt (Nat.zero_lt_of_lt hf))
    rw [dataTokens, if_neg (by simp [hc]), hn]
    dsimp only
    rw [ih (Nat.le_trans hlen (Nat.le_of_succ_le_succ hf))]
  | skip hc hn _ ih =>
    obtain ⟨fuel, rfl⟩ := Nat.exists_eq_succ_of_ne_zero (Nat.ne_of_gt (Nat.zero_lt_of_lt hf))
    rw [dataTokens, if_neg (by simp [hc]), hn]
    exact ih (Nat.le_of_succ_le_succ hf)

/-- A word of path data and the token it is. -/
inductive IsWord : String → DataToken → Prop
  | letter (l : Letter) : IsWord l.text (.letter l.char)
  | number {s : String} (h : IsCoordinate s.toList) : IsWord s (.number s)

theorem isAlpha_of_isDigit {c : Char} (h : c.isDigit = true) : c.isAlpha = false := by
  have h9 : c.val.toNat ≤ 57 := (Char.isDigit_iff_toNat.mp h).2
  have hupper : ¬ (65 : UInt32) ≤ c.val := by
    rw [UInt32.le_iff_toNat_le]
    show ¬ 65 ≤ c.val.toNat
    omega
  have hlower : ¬ (97 : UInt32) ≤ c.val := by
    rw [UInt32.le_iff_toNat_le]
    show ¬ 97 ≤ c.val.toNat
    omega
  refine Bool.or_eq_false_iff.mpr ⟨decide_eq_false fun h => hupper h.1, ?_⟩
  exact Bool.and_eq_false_iff.mpr (.inl (decide_eq_false hlower))

theorem IsCoordinate.exists_cons {cs : List Char} (h : IsCoordinate cs) :
    ∃ c rest, cs = c :: rest ∧ c.isAlpha = false := by
  cases h with
  | negative h => exact ⟨'-', _, rfl, by decide⟩
  | unsigned h =>
    obtain ⟨c, rest, rfl, hc⟩ := h.exists_cons
    exact ⟨c, rest, rfl, isAlpha_of_isDigit hc⟩

theorem IsWord.tokens {w : String} {t : DataToken} (hw : IsWord w t) {rest : List Char}
    {ts : List DataToken} (hrest : Follows " ".toList rest) (h : Tokens rest ts) :
    Tokens (w.toList ++ rest) (t :: ts) := by
  cases hw with
  | letter l =>
    have htext : l.text.toList = [l.char] := by cases l <;> decide
    have halpha : l.char.isAlpha = true := by cases l <;> decide
    rw [htext]
    exact .letter halpha h
  | number hc =>
    have hnumber := LexemeGrammar.number?_of_isCoordinate LexemeGrammar.isPlain_own hc hrest
    obtain ⟨c, cs, hcs, halpha⟩ := hc.exists_cons
    have htokens := Tokens.number halpha (by rw [← List.cons_append, ← hcs]; exact hnumber) (by simp) h
    rw [String.ofList_toList] at htokens
    rwa [hcs]

/-- Words with blanks between them are read as the tokens they are. -/
theorem tokens_intercalate {ws : List String} {ts : List DataToken} (h : List.Forall₂ IsWord ws ts) :
    Tokens (" ".intercalate ws).toList ts := by
  have hread : Tokens (" ".intercalate ws).toList (ts.flatMap fun t => [t]) :=
    reads_intercalate .nil (fun h => .skip (by decide) (LexemeGrammar.number?_blank LexemeGrammar.isPlain_own _) h)
      (fun hw hrest h => hw.tokens hrest h) h
  rwa [List.flatMap_singleton'] at hread

/-! ## Commands -/

variable {α : Type} [Scalar α]

/-- The words that a command is written as. -/
def Command.words (c : Command α) : List String := c.letter.text :: c.coords.map coordinateText

/-- The tokens that a command is read as. -/
def Command.tokens (c : Command α) : List DataToken :=
  .letter c.letter.char :: c.coords.map fun x => .number (coordinateText x)

theorem pathData_eq (cs : List (Command α)) : pathData cs = " ".intercalate (cs.flatMap Command.words) := by
  induction cs with
  | nil => rfl
  | cons c cs ih =>
    rw [List.flatMap_cons]
    cases cs with
    | nil =>
      rw [List.flatMap_nil, List.append_nil]
      exact String.intercalate_singleton
    | cons d ds =>
      have hne : (d :: ds).flatMap Command.words ≠ [] := by simp [Command.words]
      have hne' : c.words ≠ [] := List.cons_ne_nil _ _
      rw [String.intercalate_append_of_ne_nil hne' hne, ← ih]
      exact String.intercalate_cons_cons

theorem Command.isWord_words {c : Command α} (h : ∀ p ∈ c.points, p.IsFinite) :
    List.Forall₂ IsWord c.words c.tokens := by
  refine .cons (.letter _) (List.forall₂_map_left_iff.mpr (List.forall₂_map_right_iff.mpr ?_))
  exact List.forall₂_same.mpr fun x hx => .number (isCoordinate_coordinateText (isFinite_of_mem_coords h hx))

theorem isWord_flatMap_words {cs : List (Command α)} (h : ∀ p ∈ pointsOf cs, p.IsFinite) :
    List.Forall₂ IsWord (cs.flatMap Command.words) (cs.flatMap Command.tokens) := by
  induction cs with
  | nil => exact .nil
  | cons c cs ih =>
    have hsplit : pointsOf (c :: cs) = c.points ++ pointsOf cs := List.flatMap_cons
    rw [hsplit] at h
    rw [List.flatMap_cons, List.flatMap_cons]
    exact List.rel_append (Command.isWord_words fun p hp => h p (List.mem_append_left _ hp))
      (ih fun p hp => h p (List.mem_append_right _ hp))

theorem tokensOf_pathData {cs : List (Command α)} (h : ∀ p ∈ pointsOf cs, p.IsFinite) :
    tokensOf (pathData cs) = cs.flatMap Command.tokens := by
  have htokens := tokens_intercalate (isWord_flatMap_words h)
  rw [← pathData_eq] at htokens
  exact htokens.dataTokens_eq (Nat.le_of_eq String.length_toList)

/-- The group of tokens that a command is read as. -/
def Command.group (c : Command α) : TokenGroup where
  letter := c.letter
  numbers := c.coords.map coordinateText
  length_numbers := by rw [List.length_map, c.length_coords]

theorem Command.tokens_group (c : Command α) : c.group.tokens = c.tokens := by
  simp [TokenGroup.tokens, group, tokens]

theorem flatMap_tokens_group (cs : List (Command α)) :
    (cs.map Command.group).flatMap TokenGroup.tokens = cs.flatMap Command.tokens := by
  rw [List.flatMap_map]
  exact List.flatMap_congr fun c _ => c.tokens_group

/-! ## Characters -/

/-- Whether a character is one that path data of our own is made of. -/
def isDataChar (c : Char) : Bool := c.isAlphanum || c == '.' || c == '-' || c == ' '

theorem isDataJunk_of_isDataChar {c : Char} (h : isDataChar c = true) : isDataJunk c = false := by
  unfold isDataChar at h
  unfold isDataJunk
  simp only [Bool.or_eq_true, beq_iff_eq] at h
  rcases h with ((h | rfl) | rfl) | rfl
  · simp [h]
  · decide
  · decide
  · decide

/-- Whether a character is one that coordinates are made of. -/
def isNumberChar (c : Char) : Bool := c.isAlphanum || c == '.' || c == '-'

theorem isDataChar_of_isNumberChar {c : Char} (h : isNumberChar c = true) : isDataChar c = true :=
  Bool.or_eq_true_iff.mpr (.inl h)

theorem IsCoordinate.isNumberChar {cs : List Char} (h : IsCoordinate cs) :
    ∀ c ∈ cs, isNumberChar c = true :=
  h.forall_mem (fun c hc => by simp [Drawing.isNumberChar, Char.isAlphanum, hc]) (by decide) (by decide)

/-- A coordinate that is not finite is written as a word. -/
theorem isNumberChar_coordinateText (x : α) : ∀ c ∈ (coordinateText x).toList, isNumberChar c = true := by
  cases h : Scalar.isFinite x with
  | true => exact (isCoordinate_coordinateText h).isNumberChar
  | false =>
    have hnone : Scalar.toRat? x = none := Option.isNone_iff_eq_none.mp (Option.isSome_eq_false_iff.mp h)
    unfold coordinateText
    rw [hnone]
    dsimp only
    unfold Scalar.unboundedText
    split_ifs <;> exact List.all_eq_true.mp (by decide)

theorem isDataChar_pathData (cs : List (Command α)) : ∀ c ∈ (pathData cs).toList, isDataChar c = true := by
  rw [pathData_eq]
  refine forall_mem_intercalate (List.all_eq_true.mp (by decide)) fun w hw => ?_
  obtain ⟨c, -, hw⟩ := List.mem_flatMap.mp hw
  rcases List.mem_cons.mp hw with rfl | hw
  · cases c.letter <;> exact List.all_eq_true.mp (by decide)
  · obtain ⟨x, -, rfl⟩ := List.mem_map.mp hw
    exact fun c hc => isDataChar_of_isNumberChar (isNumberChar_coordinateText x c hc)

/-- All that can be wrong with our own path data is that there are no commands, or that the first is no move. -/
theorem dataProblems_pathData_eq {cs : List (Command α)} (hfinite : ∀ p ∈ pointsOf cs, p.IsFinite) :
    dataProblems (pathData cs) =
      match cs with
      | [] => [.empty]
      | c :: _ => if c.letter = .move then [] else [.noMove] := by
  have hjunk : (pathData cs).toList.any isDataJunk = false :=
    List.any_eq_false.mpr fun c hc => by
      simp [isDataJunk_of_isDataChar (isDataChar_pathData cs c hc)]
  unfold dataProblems
  rw [tokensOf_pathData hfinite, hjunk]
  cases cs with
  | nil => rfl
  | cons c cs =>
    have hproblems : tokenProblems ((c :: cs).flatMap Command.tokens).length true ((c :: cs).flatMap Command.tokens) =
        if c.letter = .move then [] else [.noMove] := by
      rw [← flatMap_tokens_group, tokenProblems_groups (Nat.le_refl _)]
      simp [Command.group]
    exact hproblems

/-- Our own path data passes its check, unless there are no commands. -/
theorem dataProblems_pathData {cs : List (Command α)} (hfinite : ∀ p ∈ pointsOf cs, p.IsFinite)
    (hmove : ∀ c, cs.head? = some c → c.letter = .move) :
    dataProblems (pathData cs) = if cs = [] then [.empty] else [] := by
  rw [dataProblems_pathData_eq hfinite]
  cases cs with
  | nil => rfl
  | cons c cs => simp [hmove c rfl]

end Drawing
