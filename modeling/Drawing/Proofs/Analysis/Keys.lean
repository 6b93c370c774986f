import Drawing.Analysis.Analyzer
import Drawing.Proofs.Analysis.Contents

/-!
# `Drawing/Proofs/Analysis/Keys.lean` — what the keys of an analyzer tell

Keys are texts put together from others, of which ids and layouts can be any text at all: a colon, a bar or an `x` in a
key may be one that separates or one of theirs. Read from its end, a key can be taken apart nevertheless. The sizes of
a canvas contain none of these characters, and the digest in which a signature ends is of one length:

> **equal keys have equal digests** — and equal sizes, if they are of measures, and if they are of merges, as many
> layers.
-/

namespace Drawing

/-! ## The digest of a text -/

theorem le_length_hexText (width n : Nat) : width ≤ (hexText width n).length := by
  rw [hexText, List.length_append, List.length_replicate]
  omega

theorem length_shortDigest (s : String) : (shortDigest s).toList.length = 16 := by
  have hdigits : 16 ≤ (Digest.text s).toList.length := by
    rw [Digest.text, String.toList_ofList, Digest.digestWords]
    generalize Digest.absorbAll _ Digest.State.start _ = state
    have hword (w : UInt32) := le_length_hexText 8 w.toNat
    simp only [Digest.State.words, List.flatMap_cons, List.length_append]
    have ha := hword state.a
    have hb := hword state.b
    omega
  rw [shortDigest, String.toList_ofList, List.length_take]
  exact Nat.min_eq_left hdigits

/-- A digest whose texts are all of one length. -/
def IsEven (digest : String → String) : Prop := ∀ s t, (digest s).toList.length = (digest t).toList.length

theorem isEven_shortDigest : IsEven shortDigest := fun s t => by rw [length_shortDigest, length_shortDigest]

/-! ## Texts read from their end -/

/-- What stands behind the last separator of a text is told by it. -/
theorem separated_inj {d : Char} {xs xs' ys ys' : List Char} (hy : d ∉ ys) (hy' : d ∉ ys')
    (h : xs ++ d :: ys = xs' ++ d :: ys') : xs = xs' ∧ ys = ys' := by
  have hnil {as zs zs' : List Char} (hz : d ∉ zs) (h : d :: zs = as ++ d :: zs') : as = [] := by
    cases as with
    | nil => rfl
    | cons a as =>
      refine absurd ?_ hz
      rw [List.tail_eq_of_cons_eq h]
      simp
  rcases List.append_eq_append_iff.mp h with ⟨as, rfl, has⟩ | ⟨as, rfl, has⟩
  · obtain rfl := hnil hy has
    exact ⟨(List.append_nil xs).symm, List.tail_eq_of_cons_eq has⟩
  · obtain rfl := hnil hy' has
    exact ⟨List.append_nil xs', (List.tail_eq_of_cons_eq has).symm⟩

section

variable {α : Type} [DecimalText α] {digest : String → String}

/-- What stands in front of the digest in a signature. -/
def Layer.heading (l : Layer α) : String := s!"layer:{l.id}:{l.layoutText}:{l.paths.length}:"

theorem Layer.toList_signature (l : Layer α) :
    (l.signature digest).toList = l.heading.toList ++ (digest l.contents).toList := by
  rw [← String.toList_append]
  rfl

theorem Layer.signature_ne_nil (l : Layer α) : (l.signature digest).toList ≠ [] := by
  rw [toList_signature]
  exact List.append_ne_nil_of_left_ne_nil (by simp [heading]) _

/-- **Texts that end in equal signatures end in equal digests.** -/
theorem Layer.digest_eq_of_append (hdigest : IsEven digest) {l m : Layer α} {cs cs' : List Char}
    (h : cs ++ (l.signature digest).toList = cs' ++ (m.signature digest).toList) :
    digest l.contents = digest m.contents := by
  rw [toList_signature, toList_signature, ← List.append_assoc, ← List.append_assoc] at h
  exact String.toList_inj.mp (List.append_inj_right' h (hdigest _ _))

end

/-! ## Keys of measures -/

section

variable {α : Type} [Scalar α] [DecimalText α] [ToldByDigits α] {a : Analyzer α} {l m : Layer α}
  {width height width' height' : Numeral α}

/-- **The key of measures** tells the sizes of the canvas and the digest of the layer. -/
theorem Analyzer.measureKey_inj (ha : IsEven a.digest)
    (h : a.measureKey l width height = a.measureKey m width' height') :
    a.digest l.contents = a.digest m.contents ∧ width = width' ∧ height = height' := by
  have hkey (l : Layer α) (width height : Numeral α) : (a.measureKey l width height).toList =
      ((a.signature l).toList ++ ':' :: width.text.toList) ++ 'x' :: height.text.toList := by
    unfold measureKey
    simp only [String.toList_append, List.append_assoc]
    rfl
  replace h := congrArg String.toList h
  rw [hkey, hkey] at h
  obtain ⟨h, hheight⟩ := separated_inj (Numeral.not_mem_text (.inl rfl) _) (Numeral.not_mem_text (.inl rfl) _) h
  obtain ⟨h, hwidth⟩ := separated_inj (Numeral.not_mem_text (.inr rfl) _) (Numeral.not_mem_text (.inr rfl) _) h
  have hsignature : [] ++ (a.signature l).toList = [] ++ (a.signature m).toList := by
    rw [List.nil_append, List.nil_append, h]
  exact ⟨Layer.digest_eq_of_append ha hsignature, Numeral.eq_of_text (String.toList_inj.mp hwidth),
    Numeral.eq_of_text (String.toList_inj.mp hheight)⟩

end

/-! ## Keys of merges -/

section

variable {α : Type} [DecimalText α] {a : Analyzer α} {ls ms : List (Layer α)}

/-- The signatures of layers, each with a bar in front of it. -/
def Analyzer.barred (a : Analyzer α) (ls : List (Layer α)) : List Char :=
  ls.flatMap fun l => '|' :: (a.signature l).toList

theorem Analyzer.barred_concat (a : Analyzer α) (ls : List (Layer α)) (l : Layer α) :
    a.barred (ls ++ [l]) = (a.barred ls ++ ['|']) ++ (a.signature l).toList := by
  unfold barred
  rw [List.flatMap_append, List.flatMap_singleton, List.append_assoc]
  rfl

theorem Analyzer.barred_eq (a : Analyzer α) (hne : ls ≠ []) :
    a.barred ls = '|' :: ("|".intercalate (ls.map a.signature)).toList := by
  induction ls with
  | nil => exact absurd rfl hne
  | cons l ls ih =>
    cases ls with
    | nil =>
      rw [List.map_singleton, String.intercalate_singleton]
      exact List.flatMap_singleton ..
    | cons m ls =>
      have hrest := ih (List.cons_ne_nil m ls)
      rw [List.map_cons, List.map_cons, String.intercalate_cons_cons, String.toList_append, String.toList_append,
        ← List.map_cons, List.append_assoc]
      unfold barred at hrest ⊢
      rw [List.flatMap_cons, hrest]
      rfl

theorem Analyzer.intercalate_ne_nil (a : Analyzer α) (hne : ls ≠ []) :
    ("|".intercalate (ls.map a.signature)).toList ≠ [] := by
  intro hnil
  obtain ⟨l, rest, rfl⟩ := List.exists_cons_of_ne_nil hne
  have hbarred := a.barred_eq hne
  rw [hnil] at hbarred
  have hlength := congrArg List.length hbarred
  unfold barred at hlength
  rw [List.flatMap_cons, List.length_append, List.length_cons, List.length_singleton] at hlength
  have hpos : 0 < (a.signature l).toList.length := List.length_pos_iff.mpr l.signature_ne_nil
  omega

theorem Analyzer.barred_eq_of_optimizationKey (h : a.optimizationKey ls = a.optimizationKey ms) :
    a.barred ls = a.barred ms := by
  have htext (ls : List (Layer α)) :
      (a.optimizationKey ls).toList = "opt:".toList ++ ("|".intercalate (ls.map a.signature)).toList :=
    String.toList_append
  have hkey : ("|".intercalate (ls.map a.signature)).toList = ("|".intercalate (ms.map a.signature)).toList := by
    replace h := congrArg String.toList h
    rw [htext, htext] at h
    exact List.append_cancel_left h
  by_cases hls : ls = []
  · subst hls
    by_cases hms : ms = []
    · rw [hms]
    · exact absurd hkey.symm (a.intercalate_ne_nil hms)
  by_cases hms : ms = []
  · subst hms
    exact absurd hkey (a.intercalate_ne_nil hls)
  · rw [a.barred_eq hls, a.barred_eq hms, hkey]

/-- **The key of merges** tells the layers, if their digests do. -/
theorem Analyzer.layers_eq_of_optimizationKey (ha : IsEven a.digest)
    (hinj : ∀ l ∈ ls, ∀ m ∈ ms, a.digest l.contents = a.digest m.contents → l = m)
    (h : a.optimizationKey ls = a.optimizationKey ms) : ls = ms := by
  replace h := barred_eq_of_optimizationKey h
  have hne (ls : List (Layer α)) (l : Layer α) : a.barred (ls ++ [l]) ≠ [] := by
    rw [barred_concat, List.append_assoc]
    exact List.append_ne_nil_of_right_ne_nil _ (List.cons_ne_nil _ _)
  -- A bar may be part of an id, so the signatures cannot be told from the front. The last one ends in a digest of known
  -- length, and so the layers are taken off from the end.
  induction ls using List.reverseRecOn generalizing ms with
  | nil =>
    cases ms using List.reverseRecOn with
    | nil => rfl
    | append_singleton ms m => exact absurd h.symm (hne ms m)
  | append_singleton ls l ih =>
    cases ms using List.reverseRecOn with
    | nil => exact absurd h (hne ls l)
    | append_singleton ms m =>
      rw [barred_concat, barred_concat] at h
      obtain rfl : l = m := hinj l (by simp) m (by simp) (Layer.digest_eq_of_append ha h)
      rw [ih (fun l hl m hm => hinj l (List.mem_append_left _ hl) m (List.mem_append_left _ hm))
        (List.append_cancel_right (List.append_cancel_right h))]

end

end Drawing
