import Drawing.Proofs.Text.Pieces

/-!
# `Drawing/Proofs/Path/Lexeme.lean` — where a number ends

Numbers in path data stand back to back, so where one ends cannot be told from what is between them. Which texts are
numbers is said here without reading any; what is read from the front of a text is then told apart from all other
numbers that stand there by its length.

> **the number at the front of a text** is the longest that stands there, and one is found wherever one stands.
-/

namespace Drawing

/-- A sign, or none. -/
inductive IsSign : List Char → Prop
  | none : IsSign []
  | minus : IsSign ['-']
  | plus : IsSign ['+']

namespace LexemeGrammar

/-- Digits with a point among them, in front of them or, if a point may end a number, behind them; or with none. -/
inductive IsDigits (g : LexemeGrammar) : List Char → Prop
  | whole {ds : List Char} (hne : ds ≠ []) (hds : ∀ c ∈ ds, g.isDigit c = true) : IsDigits g ds
  | pointed {ds fs : List Char} (hds : ∀ c ∈ ds, g.isDigit c = true) (hfs : ∀ c ∈ fs, g.isDigit c = true)
      (hne : fs ≠ [] ∨ ds ≠ [] ∧ g.trailingPoint = true) : IsDigits g (ds ++ '.' :: fs)

/-- An exponent with its mark, or none. -/
inductive IsExponent (g : LexemeGrammar) : List Char → Prop
  | none : IsExponent g []
  | some {mark : Char} {sign ds : List Char} (hmark : mark = 'e' ∨ mark = 'E') (hsign : IsSign sign) (hne : ds ≠ [])
      (hds : ∀ c ∈ ds, g.isDigit c = true) : IsExponent g (mark :: (sign ++ ds))

/-- The texts that are numbers. -/
def IsNumber (g : LexemeGrammar) (cs : List Char) : Prop :=
  ∃ sign digits exponent, IsSign sign ∧ g.IsDigits digits ∧ g.IsExponent exponent ∧ cs = sign ++ (digits ++ exponent)

/-- A number in front of some text, and no longer one stands there. -/
def IsLongest (g : LexemeGrammar) (number rest : List Char) : Prop :=
  g.IsNumber number ∧ ∀ longer, g.IsNumber longer → longer <+: number ++ rest → longer.length ≤ number.length

/-- The characters of numbers that are no digits. -/
def marks : List Char := ['.', '-', '+', 'e', 'E']

/-- A grammar in which no other character of a number is a digit. -/
def Separates (g : LexemeGrammar) : Prop := ∀ c ∈ marks, g.isDigit c = false

theorem forall_mem_marks {P : Char → Prop} : (∀ c ∈ marks, P c) ↔ P '.' ∧ P '-' ∧ P '+' ∧ P 'e' ∧ P 'E' := by
  simp [marks]

theorem separates_own : own.Separates := by
  unfold Separates
  rw [forall_mem_marks]
  decide

variable {g : LexemeGrammar}

theorem Separates.ne (hg : g.Separates) {c d : Char} (hc : g.isDigit c = true) (hd : d ∈ marks) :
    c ≠ d := by
  rintro rfl
  exact absurd hc (by simp [hg c hd])

/-- Digits begin with a digit or with a point. -/
theorem IsDigits.exists_cons {ds : List Char} (h : g.IsDigits ds) :
    ∃ c rest, ds = c :: rest ∧ (g.isDigit c = true ∨ c = '.') := by
  cases h with
  | whole hne hds =>
    obtain ⟨c, rest, rfl⟩ := List.exists_cons_of_ne_nil hne
    exact ⟨c, rest, rfl, .inl (hds c List.mem_cons_self)⟩
  | @pointed ds fs hds _ _ =>
    cases ds with
    | nil => exact ⟨'.', fs, rfl, .inr rfl⟩
    | cons c ds => exact ⟨c, _, rfl, .inl (hds c List.mem_cons_self)⟩

/-- Digits begin with no sign. -/
theorem IsDigits.head (hg : g.Separates) {ds rest : List Char} (h : g.IsDigits ds) {c : Char}
    (hc : (ds ++ rest).head? = some c) : c ≠ '-' ∧ c ≠ '+' := by
  obtain ⟨d, more, rfl, hd⟩ := h.exists_cons
  obtain rfl := Option.some.inj hc
  rcases hd with hd | rfl
  · exact ⟨hg.ne hd (by simp [marks]), hg.ne hd (by simp [marks])⟩
  · decide

/-- What holds of digits and of the other characters of numbers holds of all characters of a number. -/
theorem IsNumber.forall_mem {P : Char → Prop} {cs : List Char} (h : g.IsNumber cs)
    (hdigit : ∀ c, g.isDigit c = true → P c) (hmark : ∀ c ∈ marks, P c) : ∀ c ∈ cs, P c := by
  obtain ⟨sign, ds, e, hsign, hds, he, rfl⟩ := h
  have hsigned {sign : List Char} (hsign : IsSign sign) : ∀ c ∈ sign, P c := by
    cases hsign with
    | none => exact List.forall_mem_nil _
    | minus => exact List.forall_mem_singleton.mpr (hmark '-' (by simp [marks]))
    | plus => exact List.forall_mem_singleton.mpr (hmark '+' (by simp [marks]))
  have hall {ds : List Char} (hds : ∀ c ∈ ds, g.isDigit c = true) : ∀ c ∈ ds, P c := fun c hc => hdigit c (hds c hc)
  refine List.forall_mem_append.mpr ⟨hsigned hsign, List.forall_mem_append.mpr ⟨?_, ?_⟩⟩
  · cases hds with
    | whole _ hds => exact hall hds
    | pointed hds hfs _ =>
      exact List.forall_mem_append.mpr ⟨hall hds, List.forall_mem_cons.mpr ⟨hmark '.' (by simp [marks]), hall hfs⟩⟩
  · cases he with
    | none => exact List.forall_mem_nil _
    | some hfirst hsign _ hds =>
      refine List.forall_mem_cons.mpr ⟨hmark _ ?_, List.forall_mem_append.mpr ⟨hsigned hsign, hall hds⟩⟩
      rcases hfirst with rfl | rfl <;> simp [marks]

/-- A number begins with a digit, a sign or a point. -/
theorem IsNumber.exists_cons {cs : List Char} (h : g.IsNumber cs) :
    ∃ c rest, cs = c :: rest ∧ (g.isDigit c = true ∨ c = '.' ∨ c = '-' ∨ c = '+') := by
  obtain ⟨sign, ds, e, hsign, hds, -, rfl⟩ := h
  cases hsign with
  | minus => exact ⟨'-', _, rfl, by simp⟩
  | plus => exact ⟨'+', _, rfl, by simp⟩
  | none =>
    obtain ⟨c, rest, rfl, hc⟩ := hds.exists_cons
    exact ⟨c, rest ++ e, rfl, hc.imp_right .inl⟩

/-- Two grammars have the same numbers among texts in which they have the same digits. -/
theorem IsNumber.congr {g' : LexemeGrammar} (htrailing : g.trailingPoint = g'.trailingPoint) {cs : List Char}
    (hdigit : ∀ c ∈ cs, g.isDigit c = g'.isDigit c) (h : g.IsNumber cs) : g'.IsNumber cs := by
  obtain ⟨sign, ds, e, hsign, hds, he, rfl⟩ := h
  obtain ⟨-, hdigit⟩ := List.forall_mem_append.mp hdigit
  obtain ⟨hinside, hbehind⟩ := List.forall_mem_append.mp hdigit
  have hall {ds : List Char} (hsame : ∀ c ∈ ds, g.isDigit c = g'.isDigit c) (hds : ∀ c ∈ ds, g.isDigit c = true) :
      ∀ c ∈ ds, g'.isDigit c = true := fun c hc => (hsame c hc).symm.trans (hds c hc)
  refine ⟨sign, ds, e, hsign, ?_, ?_, rfl⟩
  · cases hds with
    | whole hne hds => exact .whole hne (hall hinside hds)
    | pointed hds hfs hne =>
      obtain ⟨hleft, hright⟩ := List.forall_mem_append.mp hinside
      exact .pointed (hall hleft hds) (hall (List.forall_mem_cons.mp hright).2 hfs) (htrailing ▸ hne)
  · cases he with
    | none => exact .none
    | some hmark hsign hne hds =>
      have hsame := (List.forall_mem_append.mp (List.forall_mem_cons.mp hbehind).2).2
      exact .some hmark hsign hne (hall hsame hds)

theorem IsLongest.congr {g' : LexemeGrammar} (htrailing : g.trailingPoint = g'.trailingPoint)
    {number rest : List Char} (hdigit : ∀ c ∈ number ++ rest, g.isDigit c = g'.isDigit c)
    (h : g.IsLongest number rest) : g'.IsLongest number rest := by
  refine ⟨h.1.congr htrailing fun c hc => hdigit c (List.mem_append_left _ hc), fun longer hlonger hfront => ?_⟩
  exact h.2 longer (hlonger.congr htrailing.symm fun c hc => (hdigit c (hfront.subset hc)).symm) hfront

/-- There is one longest number at the front of a text, if there is any. -/
theorem IsLongest.unique {number number' rest rest' : List Char} (h : g.IsLongest number rest)
    (h' : g.IsLongest number' rest') (hsame : number ++ rest = number' ++ rest') : number = number' ∧ rest = rest' := by
  refine List.append_inj hsame (Nat.le_antisymm ?_ ?_)
  · exact h'.2 number h.1 ⟨rest, hsame⟩
  · exact h.2 number' h'.1 ⟨rest', hsame.symm⟩

/-! ## Signs -/

/-- The sign at the front of a text, if there is one, and the rest. -/
def takeSign (cs : List Char) : List Char × List Char :=
  match cs with
  | '-' :: r => (['-'], r)
  | '+' :: r => (['+'], r)
  | r => ([], r)

theorem takeSign_spec (cs : List Char) : IsSign (takeSign cs).1 ∧ (takeSign cs).1 ++ (takeSign cs).2 = cs := by
  unfold takeSign
  split
  · exact ⟨.minus, rfl⟩
  · exact ⟨.plus, rfl⟩
  · exact ⟨.none, rfl⟩

theorem takeSign_append {sign rest : List Char} (hsign : IsSign sign)
    (hrest : ∀ c, rest.head? = some c → c ≠ '-' ∧ c ≠ '+') : takeSign (sign ++ rest) = (sign, rest) := by
  cases hsign with
  | minus => rfl
  | plus => rfl
  | none =>
    cases rest with
    | nil => rfl
    | cons c r =>
      obtain ⟨hminus, hplus⟩ := hrest c rfl
      simp [takeSign, hminus, hplus]

theorem number?_eq (cs : List Char) : g.number? cs = (g.digits? (takeSign cs).2).map fun found =>
    ((takeSign cs).1 ++ found.1 ++ (g.exponent found.2).1, (g.exponent found.2).2) := by
  rfl

/-! ## Exponents -/

/-- Behind the mark of an exponent there may be a sign, and then digits up to the first character that is none. -/
theorem exponent_mark {mark : Char} (hmark : mark = 'e' ∨ mark = 'E') (cs : List Char) :
    g.exponent (mark :: cs) =
      if (takeSign cs).2.takeWhile g.isDigit = [] then ([], mark :: cs)
      else (mark :: ((takeSign cs).1 ++ (takeSign cs).2.takeWhile g.isDigit), (takeSign cs).2.dropWhile g.isDigit) := by
  unfold exponent spanChars
  dsimp only
  rw [if_pos hmark]
  split
  case h_1 hnone => exact (if_pos (Prod.mk.inj hnone).1).symm
  case h_2 hne hsome =>
    obtain ⟨rfl, rfl⟩ := Prod.mk.inj hsome
    exact (if_neg hne).symm

theorem exponent_of_not_mark {cs : List Char} (h : ∀ c, cs.head? = some c → c ≠ 'e' ∧ c ≠ 'E') :
    g.exponent cs = ([], cs) := by
  cases cs with
  | nil => rfl
  | cons c rest =>
    obtain ⟨he, hE⟩ := h c rfl
    simp [exponent, he, hE]

theorem exponent_spec (cs : List Char) :
    g.IsExponent (g.exponent cs).1 ∧ (g.exponent cs).1 ++ (g.exponent cs).2 = cs := by
  by_cases hmark : ∃ mark rest, cs = mark :: rest ∧ (mark = 'e' ∨ mark = 'E')
  · obtain ⟨mark, rest, rfl, hmark⟩ := hmark
    obtain ⟨hsign, hrest⟩ := takeSign_spec rest
    rw [exponent_mark hmark]
    split_ifs with hne
    · exact ⟨.none, rfl⟩
    · refine ⟨.some hmark hsign hne (List.all_eq_true.mp List.all_takeWhile), ?_⟩
      dsimp only
      rw [List.cons_append, List.append_assoc, List.takeWhile_append_dropWhile, hrest]
  · rw [exponent_of_not_mark]
    · exact ⟨.none, rfl⟩
    · rintro c hc
      obtain ⟨rest, rfl⟩ := List.head?_eq_some_iff.mp hc
      exact not_or.mp fun hor => hmark ⟨c, rest, rfl, hor⟩

/-- An exponent at the front of a text is read, perhaps with more digits. -/
theorem length_le_exponent (hg : g.Separates) {e : List Char} (h : g.IsExponent e) (rest : List Char) :
    e.length ≤ (g.exponent (e ++ rest)).1.length := by
  cases h with
  | none => exact Nat.zero_le _
  | @some mark sign ds hmark hsign hne hds =>
    have htake : takeSign (sign ++ (ds ++ rest)) = (sign, ds ++ rest) := by
      refine takeSign_append hsign fun c hc => ?_
      obtain ⟨d, ds, rfl⟩ := List.exists_cons_of_ne_nil hne
      obtain rfl := Option.some.inj hc
      have hd := hds _ List.mem_cons_self
      exact ⟨hg.ne hd (by simp [marks]), hg.ne hd (by simp [marks])⟩
    rw [List.cons_append, List.append_assoc, exponent_mark hmark, htake]
    dsimp only
    rw [List.takeWhile_append_of_pos hds, if_neg (by simp [hne])]
    simp

/-! ## Digits -/

/-- Digits in front of what does not go on with them. -/
theorem digits?_whole {ds rest : List Char} (hds : ∀ c ∈ ds, g.isDigit c = true)
    (hrest : ∀ c, rest.head? = some c → g.isDigit c = false ∧ c ≠ '.') :
    g.digits? (ds ++ rest) = if ds = [] then none else some (ds, rest) := by
  have hspan : spanChars g.isDigit (ds ++ rest) = (ds, rest) :=
    spanChars_append hds fun c hc => (hrest c hc).1
  unfold digits?
  rw [hspan]
  cases rest with
  | nil => simp
  | cons c rest =>
    have hc := (hrest c rfl).2
    simp [hc]

/-- Digits in front of a point, and all that stand behind it. -/
theorem digits?_pointed (hg : g.Separates) {ds fs rest : List Char} (hds : ∀ c ∈ ds, g.isDigit c = true)
    (hfs : ∀ c ∈ fs, g.isDigit c = true) (hrest : ∀ c, rest.head? = some c → g.isDigit c = false) :
    g.digits? (ds ++ '.' :: (fs ++ rest)) =
      if fs = [] then
        if ds = [] then none
        else if g.trailingPoint = true then some (ds ++ ['.'], rest) else some (ds, '.' :: rest)
      else some (ds ++ '.' :: fs, rest) := by
  have hspan : spanChars g.isDigit (ds ++ '.' :: (fs ++ rest)) = (ds, '.' :: (fs ++ rest)) := by
    refine spanChars_append hds fun c hc => ?_
    obtain rfl := Option.some.inj hc
    exact hg '.' (by simp [marks])
  have hspan' : spanChars g.isDigit (fs ++ rest) = (fs, rest) := spanChars_append hfs hrest
  unfold digits?
  rw [hspan]
  cases fs with
  | nil =>
    cases ds with
    | nil => simp_all
    | cons d ds => simp_all
  | cons f fs => simp only [hspan', if_neg (List.cons_ne_nil f fs)]

/-- The digits at the front of a text, and what does not go on with them. -/
theorem exists_span (g : LexemeGrammar) (cs : List Char) :
    ∃ ds rest, cs = ds ++ rest ∧ (∀ c ∈ ds, g.isDigit c = true) ∧ ∀ c, rest.head? = some c → g.isDigit c = false := by
  refine ⟨_, _, List.takeWhile_append_dropWhile.symm, List.all_eq_true.mp List.all_takeWhile, fun c hc => ?_⟩
  have hhead := List.head?_dropWhile_not g.isDigit cs
  rwa [hc] at hhead

/-- Any text is digits and what does not go on with them, or digits with a point among them. -/
theorem exists_digits (g : LexemeGrammar) (cs : List Char) :
    (∃ ds rest, cs = ds ++ rest ∧ (∀ c ∈ ds, g.isDigit c = true) ∧
        ∀ c, rest.head? = some c → g.isDigit c = false ∧ c ≠ '.') ∨
      ∃ ds fs rest, cs = ds ++ '.' :: (fs ++ rest) ∧ (∀ c ∈ ds, g.isDigit c = true) ∧
        (∀ c ∈ fs, g.isDigit c = true) ∧ ∀ c, rest.head? = some c → g.isDigit c = false := by
  obtain ⟨ds, rest, rfl, hds, hrest⟩ := g.exists_span cs
  by_cases hpoint : rest.head? = some '.'
  · obtain ⟨after, rfl⟩ := List.head?_eq_some_iff.mp hpoint
    obtain ⟨fs, rest, rfl, hfs, hrest⟩ := g.exists_span after
    exact .inr ⟨ds, fs, rest, rfl, hds, hfs, hrest⟩
  · refine .inl ⟨ds, rest, rfl, hds, fun c hc => ⟨hrest c hc, ?_⟩⟩
    rintro rfl
    exact hpoint hc

theorem digits?_spec (hg : g.Separates) {cs ds rest : List Char} (h : g.digits? cs = some (ds, rest)) :
    g.IsDigits ds ∧ ds ++ rest = cs := by
  rcases g.exists_digits cs with ⟨ds, rest, rfl, hds, hrest⟩ | ⟨ds, fs, rest, rfl, hds, hfs, hrest⟩
  · rw [digits?_whole hds hrest] at h
    split_ifs at h with hne
    obtain ⟨rfl, rfl⟩ := Prod.mk.inj (Option.some.inj h)
    exact ⟨.whole hne hds, rfl⟩
  · rw [digits?_pointed hg hds hfs hrest] at h
    split_ifs at h with hfs hne htrailing
    · obtain ⟨rfl, rfl⟩ := Prod.mk.inj (Option.some.inj h)
      exact ⟨.pointed hds (List.forall_mem_nil _) (.inr ⟨hne, htrailing⟩), by simp [hfs]⟩
    · obtain ⟨rfl, rfl⟩ := Prod.mk.inj (Option.some.inj h)
      exact ⟨.whole hne hds, by simp [hfs]⟩
    · obtain ⟨rfl, rfl⟩ := Prod.mk.inj (Option.some.inj h)
      exact ⟨.pointed hds ‹_› (.inl hfs), by simp⟩

/-- Digits are read to their end if what follows does not go on with them. -/
theorem digits?_append (hg : g.Separates) {ds rest : List Char} (h : g.IsDigits ds)
    (hrest : ∀ c, rest.head? = some c → g.isDigit c = false ∧ c ≠ '.') : g.digits? (ds ++ rest) = some (ds, rest) := by
  cases h with
  | whole hne hds => rw [digits?_whole hds hrest, if_neg hne]
  | @pointed ds fs hds hfs hne =>
    rw [List.append_assoc, List.cons_append, digits?_pointed hg hds hfs fun c hc => (hrest c hc).1]
    split_ifs with hnil hnone htrailing
    · exact absurd hne (by simp [hnil, hnone])
    · rw [hnil]
    · exact absurd hne (by simp [hnil, htrailing])
    · rfl

/-- Digits at the front of a text are read, perhaps with more. -/
theorem length_le_digits? (hg : g.Separates) {ds : List Char} (h : g.IsDigits ds) (rest : List Char) :
    ∃ found, g.digits? (ds ++ rest) = some found ∧ ds.length ≤ found.1.length := by
  cases h with
  | whole hne hds =>
    rcases g.exists_digits rest with ⟨ds', rest, rfl, hds', hrest⟩ | ⟨ds', fs, rest, rfl, hds', hfs, hrest⟩
    · rw [← List.append_assoc, digits?_whole (List.forall_mem_append.mpr ⟨hds, hds'⟩) hrest, if_neg (by simp [hne])]
      exact ⟨_, rfl, by simp⟩
    · rw [← List.append_assoc, digits?_pointed hg (List.forall_mem_append.mpr ⟨hds, hds'⟩) hfs hrest]
      split_ifs with hnil hnone
      · exact absurd hnone (by simp [hne])
      all_goals exact ⟨_, rfl, by simp⟩
  | @pointed ds fs hds hfs hne =>
    obtain ⟨fs', rest, rfl, hfs', hrest⟩ := g.exists_span rest
    rw [List.append_assoc, List.cons_append, ← List.append_assoc fs,
      digits?_pointed hg hds (List.forall_mem_append.mpr ⟨hfs, hfs'⟩) hrest]
    split_ifs with hnil hnone htrailing
    · exact absurd hne (by simp_all)
    · exact ⟨_, rfl, by simp_all⟩
    · exact absurd hne (by simp_all)
    · exact ⟨_, rfl, by simp⟩

/-! ## Numbers -/

theorem number?_spec (hg : g.Separates) {cs number rest : List Char} (h : g.number? cs = some (number, rest)) :
    g.IsNumber number ∧ number ++ rest = cs := by
  rw [number?_eq] at h
  obtain ⟨⟨ds, after⟩, hdigits, h⟩ := Option.map_eq_some_iff.mp h
  obtain ⟨rfl, rfl⟩ := Prod.mk.inj h
  obtain ⟨hsign, hcs⟩ := takeSign_spec cs
  obtain ⟨hds, hunsigned⟩ := digits?_spec hg hdigits
  obtain ⟨hexponent, hafter⟩ := g.exponent_spec after
  refine ⟨⟨_, ds, _, hsign, hds, hexponent, List.append_assoc _ _ _⟩, ?_⟩
  dsimp only
  rw [List.append_assoc, hafter, List.append_assoc, hunsigned, hcs]

/-- A number at the front of a text is read, or one that goes on behind it. -/
theorem length_le_number? (hg : g.Separates) {number : List Char} (h : g.IsNumber number) (rest : List Char) :
    ∃ found, g.number? (number ++ rest) = some found ∧ number.length ≤ found.1.length := by
  obtain ⟨sign, ds, e, hsign, hds, he, rfl⟩ := h
  have htake : takeSign (sign ++ (ds ++ (e ++ rest))) = (sign, ds ++ (e ++ rest)) :=
    takeSign_append hsign fun c hc => hds.head hg hc
  -- the digits end at the mark of an exponent; without one there may be more of them
  have hread : ∃ found, g.digits? (ds ++ (e ++ rest)) = some found ∧
      (ds ++ e).length ≤ (found.1 ++ (g.exponent found.2).1).length := by
    have hlonger := length_le_exponent hg he rest
    cases he with
    | none =>
      obtain ⟨found, hfound, hle⟩ := length_le_digits? hg hds ([] ++ rest)
      refine ⟨found, hfound, ?_⟩
      rw [List.append_nil, List.length_append]
      omega
    | @some mark sign ds' hmark _ _ _ =>
      refine ⟨_, digits?_append hg hds ?_, ?_⟩
      · intro c hc
        obtain rfl := Option.some.inj hc
        rcases hmark with rfl | rfl
        · exact ⟨hg 'e' (by simp [marks]), by decide⟩
        · exact ⟨hg 'E' (by simp [marks]), by decide⟩
      · rw [List.length_append, List.length_append]
        exact Nat.add_le_add_left hlonger _
  obtain ⟨found, hfound, hle⟩ := hread
  rw [List.append_assoc, List.append_assoc, number?_eq, htake, hfound]
  refine ⟨_, rfl, ?_⟩
  simp only [List.length_append] at hle ⊢
  omega

/-- **The number at the front of a text** is the longest that stands there. -/
theorem number?_eq_some_iff (hg : g.Separates) {cs number rest : List Char} :
    g.number? cs = some (number, rest) ↔ cs = number ++ rest ∧ g.IsLongest number rest := by
  constructor
  · intro h
    obtain ⟨hnumber, rfl⟩ := number?_spec hg h
    refine ⟨rfl, hnumber, ?_⟩
    rintro longer hlonger ⟨more, hmore⟩
    obtain ⟨found, hfound, hle⟩ := length_le_number? hg hlonger more
    rw [hmore, h] at hfound
    obtain rfl := Option.some.inj hfound
    exact hle
  · rintro ⟨rfl, hnumber, hlongest⟩
    obtain ⟨⟨number', rest'⟩, hfound, hle⟩ := length_le_number? hg hnumber rest
    obtain ⟨hnumber', hsame⟩ := number?_spec hg hfound
    have hlength := hlongest number' hnumber' ⟨rest', hsame⟩
    obtain ⟨rfl, rfl⟩ := List.append_inj hsame (Nat.le_antisymm hlength hle)
    exact hfound

/-- **A number is found wherever one stands.** -/
theorem number?_eq_none_iff (hg : g.Separates) {cs : List Char} :
    g.number? cs = none ↔ ∀ number, g.IsNumber number → ¬ number <+: cs := by
  constructor
  · rintro h number hnumber ⟨rest, rfl⟩
    obtain ⟨found, hfound, -⟩ := length_le_number? hg hnumber rest
    rw [h] at hfound
    exact nomatch hfound
  · intro h
    cases hfound : g.number? cs with
    | none => rfl
    | some found =>
      obtain ⟨hnumber, hcs⟩ := number?_spec hg hfound
      exact absurd ⟨_, hcs⟩ (h _ hnumber)

end LexemeGrammar

end Drawing
