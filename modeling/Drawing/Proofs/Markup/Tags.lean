import Drawing.Markup.Reader
import Drawing.Proofs.Markup.Root
import Drawing.Proofs.Path.Data
import Drawing.Proofs.Table

/-!
# `Drawing/Proofs/Markup/Tags.lean` — a page is read back as it was written

The reader of markup knows nothing of nesting or entities; it looks for the marks of a path tag and for quoted
values. On a page of ours that is enough, because escaping leaves no mark in anything that is not one:

> **the path tags of a page are its paths** — one for each path, in the order in which they are painted, with
> the id and the path data that were written.

Whatever ids, labels, styles and regions say, they add no tag and hide none.
-/

namespace Drawing

/-! ## Attributes -/

/-- The attributes in a text, each read where the one before it ends. -/
inductive Attributes : List Char → List (String × String) → Prop
  | nil : Attributes [] []
  | skip {c : Char} {rest : List Char} {ps : List (String × String)} (hc : isNameChar c = false)
      (h : Attributes rest ps) : Attributes (c :: rest) ps
  | pair {name value rest : List Char} {ps : List (String × String)} (hne : name ≠ [])
      (hname : ∀ c ∈ name, isNameChar c = true) (hvalue : '"' ∉ value) (h : Attributes rest ps) :
      Attributes (name ++ '=' :: '"' :: (value ++ '"' :: rest))
        ((String.ofList name, String.ofList value) :: ps)

theorem quotedValue?_eq {value : List Char} (h : '"' ∉ value) (rest : List Char) :
    quotedValue? ('=' :: '"' :: (value ++ '"' :: rest)) = some (value, rest) := by
  have heq : isBlank '=' = false := by decide
  have hquote : isBlank '"' = false := by decide
  simp [quotedValue?, heq, hquote, spanChars_until h]

theorem Attributes.pairs_eq {cs : List Char} {ps : List (String × String)} (h : Attributes cs ps)
    {fuel : Nat} (hf : cs.length ≤ fuel) : attributePairs fuel cs = ps := by
  induction h generalizing fuel with
  | nil => cases fuel <;> rfl
  | skip hc _ ih =>
    obtain ⟨fuel, rfl⟩ := Nat.exists_eq_succ_of_ne_zero (Nat.ne_of_gt (Nat.zero_lt_of_lt hf))
    rw [attributePairs, if_neg (by simp [hc]), ih (Nat.le_of_succ_le_succ hf)]
  | @pair name value rest ps hne hname hvalue _ ih =>
    obtain ⟨n, ns, rfl⟩ := List.exists_cons_of_ne_nil hne
    obtain ⟨fuel, rfl⟩ := Nat.exists_eq_succ_of_ne_zero (Nat.ne_of_gt (Nat.zero_lt_of_lt hf))
    have hends : ∀ c, ('=' :: '"' :: (value ++ '"' :: rest)).head? = some c → isNameChar c = false := by
      rintro c hc
      obtain rfl := Option.some.inj hc
      decide +kernel
    have hspan := spanChars_append hname hends
    rw [List.cons_append] at hspan
    have hrest : rest.length ≤ fuel := by
      simp only [List.length_append, List.length_cons] at hf
      omega
    rw [List.cons_append, attributePairs, if_pos (hname n List.mem_cons_self), hspan]
    simp only [quotedValue?_eq hvalue, ih hrest]

section

variable {α : Type} [Scalar α] [DecimalText α]

/-- An attribute as it is read back, `none` for one that is left out. -/
def readBack? (a : Attribute α) : Option (String × String) :=
  (attributeValue? a.2).map fun v => (a.1, String.ofList (escapeValue v.toList))

/-- Names that attributes may have. -/
def IsName (s : String) : Prop := s ≠ "" ∧ ∀ c ∈ s.toList, isNameChar c = true

instance (s : String) : Decidable (IsName s) :=
  decidable_of_iff (s ≠ "" ∧ s.toList.all isNameChar = true) (and_congr_right fun _ => List.all_eq_true)

/-- The text of an attribute and what is read from it. -/
inductive IsAttribute : String → String × String → Prop
  | mk {name : String} (hname : IsName name) (value : List Char) :
      IsAttribute (name ++ "=\"" ++ String.ofList (escapeValue value) ++ "\"")
        (name, String.ofList (escapeValue value))

theorem isAttribute_texts {as : List (Attribute α)} (h : ∀ a ∈ as, IsName a.1) :
    List.Forall₂ IsAttribute (as.filterMap attributeText?) (as.filterMap readBack?) := by
  induction as with
  | nil => exact .nil
  | cons a as ih =>
    obtain ⟨ha, has⟩ := List.forall_mem_cons.mp h
    cases hv : attributeValue? a.2 with
    | none =>
      have htext : attributeText? a = none := by simp [attributeText?, hv]
      have hread : readBack? a = none := by simp [readBack?, hv]
      rw [List.filterMap_cons_none htext, List.filterMap_cons_none hread]
      exact ih has
    | some v =>
      have htext : attributeText? a =
          some (a.1 ++ "=\"" ++ String.ofList (escapeValue v.toList) ++ "\"") := by
        simp [attributeText?, hv]
      have hread : readBack? a = some (a.1, String.ofList (escapeValue v.toList)) := by
        simp [readBack?, hv]
      rw [List.filterMap_cons_some htext, List.filterMap_cons_some hread]
      exact .cons (.mk ha v.toList) (ih has)

theorem IsAttribute.attributes {s : String} {p : String × String} (h : IsAttribute s p)
    {rest : List Char} {ps : List (String × String)} (hrest : Attributes rest ps) :
    Attributes (s.toList ++ rest) (p :: ps) := by
  obtain ⟨⟨hne, hname⟩, value⟩ := h
  have hpair := Attributes.pair (mt String.toList_eq_nil_iff.mp hne) hname
    (quote_not_mem_escapeValue value) hrest
  rw [String.ofList_toList] at hpair
  simpa using hpair

/-- Attributes are read back as they were written. -/
theorem attributes_text {as : List (Attribute α)} (h : ∀ a ∈ as, IsName a.1) :
    Attributes (attributesText as).toList (as.filterMap readBack?) := by
  have hread : Attributes (attributesText as).toList ((as.filterMap readBack?).flatMap fun p => [p]) :=
    reads_intercalate .nil (fun h => .skip (by decide +kernel) h) (fun ha _ h => ha.attributes h)
      (isAttribute_texts h)
  rwa [List.flatMap_singleton'] at hread

theorem bracket_not_mem_attributesText {as : List (Attribute α)} (h : ∀ a ∈ as, IsName a.1) {d : Char}
    (hd : d = '<' ∨ d = '>') : d ∉ (attributesText as).toList := by
  have hname : isNameChar d = false := by rcases hd with rfl | rfl <;> decide +kernel
  have hmark : d ∉ ['=', '"'] := by rcases hd with rfl | rfl <;> decide
  have hplain : ∀ c ∈ (attributesText as).toList, c ≠ d := by
    refine forall_mem_intercalate (by rcases hd with rfl | rfl <;> simp) fun s hs => ?_
    obtain ⟨p, -, ⟨⟨-, hn⟩, value⟩⟩ := exists_left_of_mem (isAttribute_texts h).flip hs
    rintro c hc rfl
    simp only [String.toList_append, List.mem_append, String.toList_ofList] at hc
    rcases hc with ((hc | hc) | hc) | hc
    · exact absurd (hn c hc) (by simp [hname])
    · exact hmark hc
    · exact bracket_not_mem_escapeValue hd value hc
    · exact hmark (List.mem_cons_of_mem _ hc)
  exact fun hm => hplain d hm rfl

end

/-! ## Tags -/

/-- The insides of the path tags in a text, each read where the one before it ends. -/
inductive PathTags : List Char → List (List Char) → Prop
  | nil : PathTags [] []
  | skip {c : Char} {rest : List Char} {ts : List (List Char)} (hc : pathTag? (c :: rest) = none)
      (h : PathTags rest ts) : PathTags (c :: rest) ts
  | tag {c : Char} {cs inside rest : List Char} {ts : List (List Char)}
      (hc : pathTag? (c :: cs) = some (inside, rest)) (hlen : rest.length ≤ cs.length)
      (h : PathTags rest ts) : PathTags (c :: cs) (inside :: ts)

theorem PathTags.tags_eq {cs : List Char} {ts : List (List Char)} (h : PathTags cs ts) {fuel : Nat}
    (hf : cs.length ≤ fuel) : pathTags fuel cs = ts := by
  induction h generalizing fuel with
  | nil => cases fuel <;> rfl
  | skip hc _ ih =>
    obtain ⟨fuel, rfl⟩ := Nat.exists_eq_succ_of_ne_zero (Nat.ne_of_gt (Nat.zero_lt_of_lt hf))
    rw [pathTags, hc]
    exact ih (Nat.le_of_succ_le_succ hf)
  | tag hc hlen _ ih =>
    obtain ⟨fuel, rfl⟩ := Nat.exists_eq_succ_of_ne_zero (Nat.ne_of_gt (Nat.zero_lt_of_lt hf))
    rw [pathTags, hc]
    exact congrArg _ (ih (Nat.le_trans hlen (Nat.le_of_succ_le_succ hf)))

theorem eq_of_toLower_eq {c : Char} (h : c.toLower = '<') : c = '<' := by
  unfold Char.toLower at h
  split_ifs at h with hupper
  · -- a small letter is no bracket
    have hval : c.val + 32 = 60 := congrArg Char.val h
    have hnat := congrArg UInt32.toNat hval
    have hle : c.val.toNat ≤ 90 := hupper.2
    have hge : 65 ≤ c.val.toNat := hupper.1
    simp only [UInt32.toNat_add, UInt32.reduceToNat] at hnat
    omega
  · exact h

theorem pathTag?_of_ne {c : Char} (hc : c ≠ '<') (rest : List Char) : pathTag? (c :: rest) = none := by
  have hword : "<path".toList = ['<', 'p', 'a', 't', 'h'] := rfl
  have hlower : c.toLower ≠ '<' := mt eq_of_toLower_eq hc
  simp [pathTag?, afterWord?, hword, hlower]

theorem pathTag?_of_other {d : Char} (hd : d.toLower ≠ 'p') (rest : List Char) :
    pathTag? ('<' :: d :: rest) = none := by
  have hword : "<path".toList = ['<', 'p', 'a', 't', 'h'] := rfl
  simp [pathTag?, afterWord?, hword, hd]

theorem PathTags.append_left {cs rest : List Char} {ts : List (List Char)} (hcs : '<' ∉ cs)
    (h : PathTags rest ts) : PathTags (cs ++ rest) ts := by
  induction cs with
  | nil => exact h
  | cons c cs ih =>
    obtain ⟨hc, hcs⟩ := not_or.mp (mt List.mem_cons.mpr hcs)
    exact .skip (pathTag?_of_ne (Ne.symm hc) _) (ih hcs)

theorem pathTag?_path {inside : List Char} (h : '>' ∉ inside) (rest : List Char) :
    pathTag? ("<path".toList ++ ' ' :: (inside ++ '/' :: '>' :: rest)) = some (' ' :: inside, rest) := by
  have hword : "<path".toList = ['<', 'p', 'a', 't', 'h'] := rfl
  have hblank : isWordChar ' ' = false := by decide +kernel
  -- a path closes itself, so the slash at its end is none of its inside
  have hspan : spanChars (· != '>') (' ' :: (inside ++ '/' :: '>' :: rest)) =
      ((' ' :: inside) ++ ['/'], '>' :: rest) := by
    have hinside : '>' ∉ (' ' :: inside) ++ ['/'] := by simp [h]
    simpa using spanChars_until hinside rest
  have hafter : afterWord? "<path".toList ("<path".toList ++ ' ' :: (inside ++ '/' :: '>' :: rest)) =
      some (' ' :: (inside ++ '/' :: '>' :: rest)) := by
    simp [afterWord?, hword]
  unfold pathTag?
  rw [hafter]
  simp only [List.head?_cons, Option.any_some, hblank, hspan, List.getLast?_concat, List.dropLast_concat]
  rfl

/-- A line of a page and the insides of the path tags on it: a line has a single tag, of a path or of something
else. -/
inductive IsLine : String → List (List Char) → Prop
  | other {s : String} (before : List Char) (d : Char) (after : List Char)
      (hs : s.toList = before ++ '<' :: d :: after) (hbefore : '<' ∉ before) (hd : d.toLower ≠ 'p')
      (hafter : '<' ∉ d :: after) : IsLine s []
  | path {s : String} (before inside : List Char)
      (hs : s.toList = before ++ ("<path".toList ++ ' ' :: (inside ++ ['/', '>'])))
      (hbefore : '<' ∉ before) (hinside : '>' ∉ inside) : IsLine s [' ' :: inside]

theorem IsLine.tags {s : String} {ts us : List (List Char)} (h : IsLine s ts) {rest : List Char}
    (hrest : PathTags rest us) : PathTags (s.toList ++ rest) (ts ++ us) := by
  cases h with
  | other before d after hs hbefore hd hafter =>
    rw [hs, List.append_assoc]
    exact .append_left hbefore (.skip (pathTag?_of_other hd _) (.append_left hafter hrest))
  | path before inside hs hbefore hinside =>
    rw [hs, List.append_assoc]
    have htag := pathTag?_path hinside rest
    refine .append_left hbefore ?_
    rw [List.append_assoc, List.cons_append, List.append_assoc]
    exact .tag htag (by simp; omega) hrest

end Drawing
