import Drawing.Markup.Attribute
import Drawing.Path.Lexeme
import Drawing.Text.Word
import Mathlib.Data.List.Forall2
import Mathlib.Tactic.SplitIfs

/-!
# `Drawing/Proofs/Text/Pieces.lean` — text put together and taken apart

Texts are written piece by piece with something between the pieces: words with blanks, attributes with blanks,
lines with breaks. They are read from the left, and what is found depends on what still follows. So reading is
spoken of as a relation between what is left and what will be found there, and what is said of one piece is said
with the rest behind it. `reads_intercalate` is the step from the pieces to the whole.
-/

namespace Drawing

/-- What stands behind a piece: nothing, or the mark that sets pieces off and more. -/
def Follows (sep rest : List Char) : Prop := rest = [] ∨ ∃ more, rest = sep ++ more

/-- A text of pieces is read piece by piece, if each piece is, whatever follows it, and if what stands between
them is passed over. -/
theorem reads_intercalate {β γ : Type} {Reads : List Char → List β → Prop} {found : γ → List β}
    {Piece : String → γ → Prop} {sep : String} (hnil : Reads [] [])
    (hsep : ∀ {rest bs}, Reads rest bs → Reads (sep.toList ++ rest) bs)
    (hpiece : ∀ {s g rest bs}, Piece s g → Follows sep.toList rest → Reads rest bs →
      Reads (s.toList ++ rest) (found g ++ bs))
    {ss : List String} {gs : List γ} (h : List.Forall₂ Piece ss gs) :
    Reads (sep.intercalate ss).toList (gs.flatMap found) := by
  induction h with
  | nil => exact hnil
  | @cons s g ss gs hs hss ih =>
    rw [List.flatMap_cons]
    cases hss with
    | nil =>
      have hlast := hpiece hs (.inl rfl) hnil
      rw [List.append_nil] at hlast
      rwa [String.intercalate_singleton]
    | cons _ _ =>
      rw [String.intercalate_cons_cons, String.toList_append, String.toList_append, List.append_assoc]
      exact hpiece hs (.inr ⟨_, rfl⟩) (hsep ih)

/-- What holds of the characters of every piece, and of those between them, holds of all characters. -/
theorem forall_mem_intercalate {P : Char → Prop} {sep : String} {ss : List String}
    (hsep : ∀ c ∈ sep.toList, P c) (h : ∀ s ∈ ss, ∀ c ∈ s.toList, P c) :
    ∀ c ∈ (sep.intercalate ss).toList, P c := by
  induction ss with
  | nil => exact nofun
  | cons s ss ih =>
    obtain ⟨hs, hss⟩ := List.forall_mem_cons.mp h
    cases ss with
    | nil => rwa [String.intercalate_singleton]
    | cons s' ss =>
      rw [String.intercalate_cons_cons, String.toList_append, String.toList_append]
      exact List.forall_mem_append.mpr ⟨List.forall_mem_append.mpr ⟨hs, hsep⟩, ih hss⟩

theorem spanChars_append {p : Char → Bool} {cs rest : List Char} (hcs : ∀ c ∈ cs, p c = true)
    (hrest : ∀ c, rest.head? = some c → p c = false) : spanChars p (cs ++ rest) = (cs, rest) := by
  have htake : rest.takeWhile p = [] := by
    cases rest with
    | nil => rfl
    | cons c r => exact List.takeWhile_cons_of_neg (by simp [hrest c rfl])
  have hdrop : rest.dropWhile p = rest := by
    cases rest with
    | nil => rfl
    | cons c r => exact List.dropWhile_cons_of_neg (by simp [hrest c rfl])
  unfold spanChars
  rw [List.takeWhile_append_of_pos hcs, List.dropWhile_append_of_pos hcs, htake, hdrop, List.append_nil]

/-- All characters up to the first one of a kind. -/
theorem spanChars_until {d : Char} {cs : List Char} (h : d ∉ cs) (rest : List Char) :
    spanChars (· != d) (cs ++ d :: rest) = (cs, d :: rest) := by
  refine spanChars_append (fun c hc => bne_iff_ne.mpr fun hcd => h (hcd ▸ hc)) ?_
  rintro c hc
  obtain rfl := Option.some.inj hc
  exact bne_self_eq_false _

/-! ## Occurrences -/

theorem occursIn_append_right {word cs : List Char} (h : occursIn word cs = true) (rest : List Char) :
    occursIn word (cs ++ rest) = true := by
  induction cs with
  | nil =>
    obtain rfl := List.isEmpty_iff.mp h
    cases rest <;> rfl
  | cons c cs ih =>
    rcases Bool.or_eq_true_iff.mp h with h | h
    · have hprefix := List.isPrefixOf_iff_prefix.mp h
      refine Bool.or_eq_true_iff.mpr (.inl (List.isPrefixOf_iff_prefix.mpr ?_))
      exact hprefix.trans (List.prefix_append _ _)
    · exact Bool.or_eq_true_iff.mpr (.inr (ih h))

theorem occursIn_append_left {word cs : List Char} (h : occursIn word cs = true) (before : List Char) :
    occursIn word (before ++ cs) = true := by
  induction before with
  | nil => exact h
  | cons c before ih => exact Bool.or_eq_true_iff.mpr (.inr ih)

/-- What occurs in a piece occurs in the whole. -/
theorem occursIn_intercalate {word : List Char} {sep s : String} {ss : List String} (hs : s ∈ ss)
    (h : occursIn word s.toList = true) : occursIn word (sep.intercalate ss).toList = true := by
  induction ss with
  | nil => exact absurd hs List.not_mem_nil
  | cons s' ss ih =>
    cases ss with
    | nil =>
      obtain rfl := List.mem_singleton.mp hs
      rwa [String.intercalate_singleton]
    | cons s'' ss =>
      rw [String.intercalate_cons_cons, String.toList_append, String.toList_append, List.append_assoc]
      rcases List.mem_cons.mp hs with rfl | hs
      · exact occursIn_append_right h _
      · exact occursIn_append_left (occursIn_append_left (ih hs) _) _

/-! ## Escapes -/

theorem bracket_not_mem_escapeTextChar {d : Char} (hd : d = '<' ∨ d = '>') (c : Char) :
    d ∉ escapeTextChar c := by
  unfold escapeTextChar
  split_ifs with hamp hlt hgt
  · rcases hd with rfl | rfl <;> decide
  · rcases hd with rfl | rfl <;> decide
  · rcases hd with rfl | rfl <;> decide
  · intro hm
    obtain rfl := List.mem_singleton.mp hm
    exact hd.elim hlt hgt

theorem bracket_not_mem_escapeText {d : Char} (hd : d = '<' ∨ d = '>') (cs : List Char) :
    d ∉ escapeText cs := by
  intro h
  obtain ⟨c, -, hc⟩ := List.mem_flatMap.mp h
  exact bracket_not_mem_escapeTextChar hd c hc

theorem bracket_not_mem_escapeValue {d : Char} (hd : d = '<' ∨ d = '>') (cs : List Char) :
    d ∉ escapeValue cs := by
  intro h
  obtain ⟨c, -, hc⟩ := List.mem_flatMap.mp h
  unfold escapeValueChar at hc
  split_ifs at hc
  · rcases hd with rfl | rfl <;> exact absurd hc (by decide)
  · rcases hd with rfl | rfl <;> exact absurd hc (by decide)
  · exact bracket_not_mem_escapeTextChar hd c hc

/-- A value without special characters is written as it is. -/
theorem escapeValue_eq_self {cs : List Char}
    (h : ∀ c ∈ cs, c ≠ '&' ∧ c ≠ '<' ∧ c ≠ '>' ∧ c ≠ '"' ∧ c ≠ '\x27') : escapeValue cs = cs := by
  have hchar : ∀ c ∈ cs, escapeValueChar c = [c] := by
    intro c hc
    obtain ⟨hamp, hlt, hgt, hquote, happ⟩ := h c hc
    unfold escapeValueChar escapeTextChar
    rw [if_neg hquote, if_neg happ, if_neg hamp, if_neg hlt, if_neg hgt]
  unfold escapeValue
  rw [List.flatMap_congr hchar]
  exact List.flatMap_singleton' cs

end Drawing
