import Drawing.Path.Check
import Drawing.Proofs.Path.Points

/-!
# `Drawing/Proofs/Path/Groups.lean` — letters with the numbers they take

The check of path data goes through tokens with a letter in hand, and what it skips after a problem depends on which
problem it was. Tokens that it goes through without one are easier to tell: letter by letter, each with as many
numbers as it takes.

> **tokens have nothing wrong with them** exactly if they are such groups, and the first of all is a move.
-/

namespace Drawing

/-- A letter with the texts of the numbers it takes. -/
structure TokenGroup where
  letter : Letter
  numbers : List String
  length_numbers : numbers.length = letter.arity

/-- The tokens of a group. -/
def TokenGroup.tokens (g : TokenGroup) : List DataToken := .letter g.letter.char :: g.numbers.map .number

/-- Tokens as strict path data have them. -/
def IsStrict (ts : List DataToken) : Prop :=
  ∃ groups : List TokenGroup, ts = groups.flatMap TokenGroup.tokens ∧
    groups.head?.map TokenGroup.letter = some .move

theorem Letter.ofChar?_char (l : Letter) : Letter.ofChar? l.char = some l := by cases l <;> rfl

theorem Letter.char_of_ofChar? {c : Char} {l : Letter} (h : Letter.ofChar? c = some l) : l.char = c :=
  beq_iff_eq.mp (List.find?_some (p := fun l : Letter => l.char == c) h)

theorem head?_flatMap_tokens {groups : List TokenGroup} {t : DataToken}
    (h : (groups.flatMap TokenGroup.tokens).head? = some t) : t.isLetter = true := by
  cases groups with
  | nil => exact nomatch h
  | cons g rest =>
    obtain rfl := Option.some.inj h
    rfl

/-- One group is gone through, and the check goes on behind it. -/
theorem tokenProblems_group (g : TokenGroup) (groups : List TokenGroup) (fuel : Nat) (first : Bool) :
    tokenProblems (fuel + 1) first (g.tokens ++ groups.flatMap TokenGroup.tokens) =
      (if (first && g.letter != .move) = true then [.noMove] else []) ++
        tokenProblems fuel false (groups.flatMap TokenGroup.tokens) := by
  have hcount : (g.numbers.map DataToken.number).length = g.letter.arity := by
    rw [List.length_map, g.length_numbers]
  have hnumbers : (g.numbers.map DataToken.number).any DataToken.isLetter = false := by
    simp [DataToken.isLetter]
  have hletter : (DataToken.letter g.letter.char).command? = some g.letter := g.letter.ofChar?_char
  have hnext (t : DataToken) (ht : (groups.flatMap TokenGroup.tokens).head? = some t) := head?_flatMap_tokens ht
  generalize groups.flatMap TokenGroup.tokens = rest at hnext ⊢
  rw [TokenGroup.tokens, List.cons_append, tokenProblems, hletter]
  -- just the numbers of this letter are taken, so the check goes on at the next one
  simp only [List.take_left' hcount, List.drop_left' hcount, hcount, hnumbers]
  cases rest with
  | nil => simp
  | cons t rest => simp [hnext t rfl]

/-- All that can be wrong with groups is that the first one is no move. -/
theorem tokenProblems_groups {groups : List TokenGroup} {fuel : Nat}
    (hf : (groups.flatMap TokenGroup.tokens).length ≤ fuel) (first : Bool) :
    tokenProblems fuel first (groups.flatMap TokenGroup.tokens) =
      if first = true ∧ ∃ g, groups.head? = some g ∧ g.letter ≠ .move then [.noMove] else [] := by
  induction groups generalizing first fuel with
  | nil => cases fuel <;> simp [tokenProblems]
  | cons g rest ih =>
    rw [List.flatMap_cons] at hf ⊢
    obtain ⟨fuel, rfl⟩ := Nat.exists_eq_succ_of_ne_zero (n := fuel) (by
      rintro rfl
      simp [TokenGroup.tokens] at hf)
    have hrest : (rest.flatMap TokenGroup.tokens).length ≤ fuel := by
      simp only [TokenGroup.tokens, List.length_append, List.length_cons] at hf
      omega
    rw [tokenProblems_group, ih hrest]
    simp

theorem exists_numbers {ts : List DataToken} (h : ∀ t ∈ ts, t.isLetter = false) :
    ∃ numbers : List String, ts = numbers.map .number := by
  induction ts with
  | nil => exact ⟨[], rfl⟩
  | cons t rest ih =>
    obtain ⟨ht, hrest⟩ := List.forall_mem_cons.mp h
    obtain ⟨numbers, rfl⟩ := ih hrest
    cases t with
    | letter c => exact nomatch ht
    | number s => exact ⟨s :: numbers, rfl⟩

theorem command?_eq_some {t : DataToken} {l : Letter} (h : t.command? = some l) : t = .letter l.char := by
  cases t with
  | letter c => rw [Letter.char_of_ofChar? h]
  | number s => exact nomatch h

/-- What is gone through without a problem begins with a group. -/
theorem exists_group {t : DataToken} {rest : List DataToken} {fuel : Nat} {first : Bool}
    (h : tokenProblems (fuel + 1) first (t :: rest) = []) :
    ∃ g : TokenGroup, ∃ after, t :: rest = g.tokens ++ after ∧ (first = true → g.letter = .move) ∧
      tokenProblems fuel false after = [] := by
  rw [tokenProblems] at h
  cases hcommand : t.command? with
  | none =>
    rw [hcommand] at h
    exact nomatch h
  | some l =>
    rw [hcommand] at h
    dsimp only at h
    obtain ⟨htaken, hrest⟩ := List.append_eq_nil_iff.mp h
    obtain ⟨hopening, hproblems⟩ := List.append_eq_nil_iff.mp htaken
    have hmove : first = true → l = .move := by
      rintro rfl
      exact Classical.byContradiction fun hne =>
        List.cons_ne_nil _ _ (ite_eq_right_iff.mp hopening (bne_iff_ne.mpr hne))
    split_ifs at hproblems hrest with hargs
    obtain ⟨hcount, hnumbers⟩ : (rest.take l.arity).length = l.arity ∧
        ∀ t ∈ rest.take l.arity, t.isLetter = false := by
      simpa using hargs
    obtain ⟨numbers, htake⟩ := exists_numbers hnumbers
    have hafter : tokenProblems fuel false (rest.drop l.arity) = [] := by
      cases hdrop : rest.drop l.arity with
      | nil => cases fuel <;> rfl
      | cons next after =>
        rw [hdrop] at hproblems hrest
        dsimp only at hproblems hrest
        split_ifs at hproblems hrest
        exact hrest
    have hlength : numbers.length = l.arity := by
      rw [← hcount, htake, List.length_map]
    refine ⟨⟨l, numbers, hlength⟩, rest.drop l.arity, ?_, hmove, hafter⟩
    show t :: rest = .letter l.char :: (numbers.map .number ++ rest.drop l.arity)
    rw [command?_eq_some hcommand, ← htake, List.take_append_drop]

/-- **Tokens without problems** fall into groups, the first of them a move if none has been met before. -/
theorem tokenProblems_eq_nil_iff {ts : List DataToken} {fuel : Nat} (hf : ts.length ≤ fuel) (first : Bool) :
    tokenProblems fuel first ts = [] ↔ ∃ groups : List TokenGroup, ts = groups.flatMap TokenGroup.tokens ∧
      (first = true → ∀ g, groups.head? = some g → g.letter = .move) := by
  constructor
  · intro h
    induction fuel generalizing ts first with
    | zero =>
      obtain rfl := List.eq_nil_of_length_eq_zero (Nat.le_zero.mp hf)
      exact ⟨[], rfl, fun _ _ hg => nomatch hg⟩
    | succ fuel ih =>
      cases ts with
      | nil => exact ⟨[], rfl, fun _ _ hg => nomatch hg⟩
      | cons t rest =>
        obtain ⟨g, after, heq, hmove, hafter⟩ := exists_group h
        have hlength : after.length ≤ fuel := by
          have := congrArg List.length heq
          simp only [TokenGroup.tokens, List.length_cons, List.length_append] at this hf
          omega
        obtain ⟨groups, rfl, -⟩ := ih hlength false hafter
        refine ⟨g :: groups, heq, fun hfirst g' hg' => ?_⟩
        obtain rfl := Option.some.inj hg'
        exact hmove hfirst
  · rintro ⟨groups, rfl, hmove⟩
    rw [tokenProblems_groups hf, if_neg]
    rintro ⟨hfirst, g, hg, hne⟩
    exact hne (hmove hfirst g hg)

/-- **Strict tokens** are tokens without problems, if there are any. -/
theorem isStrict_iff {ts : List DataToken} : IsStrict ts ↔ ts ≠ [] ∧ tokenProblems ts.length true ts = [] := by
  rw [tokenProblems_eq_nil_iff (Nat.le_refl _)]
  constructor
  · rintro ⟨groups, rfl, hmove⟩
    cases groups with
    | nil => exact nomatch hmove
    | cons g rest =>
      refine ⟨by simp [TokenGroup.tokens], g :: rest, rfl, fun _ g' hg' => ?_⟩
      obtain rfl := Option.some.inj hg'
      exact Option.some.inj hmove
  · rintro ⟨hne, groups, rfl, hmove⟩
    cases groups with
    | nil => exact absurd rfl hne
    | cons g rest => exact ⟨g :: rest, rfl, congrArg some (hmove rfl g rfl)⟩

end Drawing
