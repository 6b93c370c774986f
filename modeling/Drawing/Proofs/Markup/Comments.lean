import Drawing.Proofs.Markup.Accepted

/-!
# `Drawing/Proofs/Markup/Comments.lean` — what the comments of a page hold

A page has a comment in front of each layer, with the label of the layer in it, and labels may hold anything. A comment
must hold neither brackets nor two hyphens in a row. Brackets are escaped, and two hyphens are set apart, pair by pair
from the left:

> **a comment has two hyphens in a row just where its label has three** — the second of a pair that was set apart
> stands right in front of a third.

So a comment is what it should be as long as no label has three hyphens in a row, and then only.
-/

namespace Drawing

/-! ## Reading comments -/

/-- What stands in front of the first place where a mark occurs, and what stands behind it. -/
def splitAtMark? (mark : List Char) : List Char → Option (List Char × List Char)
  | [] => none
  | c :: rest =>
    if mark.isPrefixOf (c :: rest) then some ([], (c :: rest).drop mark.length)
    else (splitAtMark? mark rest).map fun (before, after) => (c :: before, after)

/-- The texts of the comments in a text, each up to the first mark that ends one. -/
def commentTexts (fuel : Nat) (cs : List Char) : List (List Char) :=
  match fuel, cs with
  | 0, _ => []
  | _, [] => []
  | fuel + 1, c :: rest =>
    if "<!--".toList.isPrefixOf (c :: rest) then
      match splitAtMark? "-->".toList (rest.drop 3) with
      | some (text, rest) => text :: commentTexts fuel rest
      | none => []
    else commentTexts fuel rest

/-- The texts of all comments of a page, in order. -/
def readComments (markup : String) : List String :=
  (commentTexts markup.length markup.toList).map String.ofList

theorem splitAtMark?_comment {text : List Char} (h : '>' ∉ text) (rest : List Char) :
    splitAtMark? "-->".toList (text ++ ("-->".toList ++ rest)) = some (text, rest) := by
  have hword : "-->".toList = ['-', '-', '>'] := rfl
  induction text with
  | nil => rfl
  | cons c text ih =>
    obtain ⟨-, htext⟩ := not_or.mp (mt List.mem_cons.mpr h)
    -- a mark ends in a bracket, and there is none before the one that is looked for
    have hmark : "-->".toList.isPrefixOf (c :: (text ++ ("-->".toList ++ rest))) = false := by
      match text, htext with
      | [], _ => simp [hword, List.isPrefixOf_cons_cons]
      | [d], _ => simp [hword, List.isPrefixOf_cons_cons]
      | d :: e :: text, htext =>
        have he : '>' ≠ e := fun he => htext (he ▸ List.mem_cons_of_mem _ List.mem_cons_self)
        simp [hword, List.isPrefixOf_cons_cons, he]
    rw [List.cons_append, splitAtMark?, hmark, if_neg Bool.false_ne_true, ih htext]
    rfl

/-- The comments in a text, each read where the one before it ends. -/
inductive Comments : List Char → List (List Char) → Prop
  | nil : Comments [] []
  | skip {c : Char} {rest : List Char} {ts : List (List Char)} (hc : "<!--".toList.isPrefixOf (c :: rest) = false)
      (h : Comments rest ts) : Comments (c :: rest) ts
  | comment {text rest : List Char} {ts : List (List Char)} (htext : '>' ∉ text) (h : Comments rest ts) :
      Comments ("<!--".toList ++ (text ++ ("-->".toList ++ rest))) (text :: ts)

theorem Comments.texts_eq {cs : List Char} {ts : List (List Char)} (h : Comments cs ts) {fuel : Nat}
    (hf : cs.length ≤ fuel) : commentTexts fuel cs = ts := by
  induction h generalizing fuel with
  | nil => cases fuel <;> rfl
  | skip hc _ ih =>
    obtain ⟨fuel, rfl⟩ := Nat.exists_eq_succ_of_ne_zero (Nat.ne_of_gt (Nat.zero_lt_of_lt hf))
    rw [commentTexts, hc]
    exact ih (Nat.le_of_succ_le_succ hf)
  | @comment text rest ts htext _ ih =>
    obtain ⟨fuel, rfl⟩ := Nat.exists_eq_succ_of_ne_zero (Nat.ne_of_gt (Nat.zero_lt_of_lt hf))
    have hlength : rest.length ≤ fuel := by
      simp only [List.length_append, show "<!--".toList.length = 4 from rfl] at hf
      omega
    have hdrop : commentTexts (fuel + 1) ("<!--".toList ++ (text ++ ("-->".toList ++ rest))) =
        match splitAtMark? "-->".toList (text ++ ("-->".toList ++ rest)) with
        | some (text, rest) => text :: commentTexts fuel rest
        | none => [] := rfl
    rw [hdrop, splitAtMark?_comment htext, ← ih hlength]

theorem Comments.append_left {cs rest : List Char} {ts : List (List Char)} (hcs : '<' ∉ cs)
    (h : Comments rest ts) : Comments (cs ++ rest) ts := by
  have hopening : "<!--".toList = ['<', '!', '-', '-'] := rfl
  induction cs with
  | nil => exact h
  | cons c cs ih =>
    obtain ⟨hc, hcs⟩ := not_or.mp (mt List.mem_cons.mpr hcs)
    exact .skip (by simp [hopening, List.isPrefixOf_cons_cons, hc]) (ih hcs)

/-! ## The lines of a page -/

/-- A line of a page and the texts of the comments on it: a line has a single bracket that opens something, and that
is a comment or something else. -/
inductive IsCommented : String → List (List Char) → Prop
  | tag {s : String} (before : List Char) (d : Char) (after : List Char) (hs : s.toList = before ++ '<' :: d :: after)
      (hbefore : '<' ∉ before) (hd : d ≠ '!') (hafter : '<' ∉ d :: after) : IsCommented s []
  | comment {s : String} (before text : List Char)
      (hs : s.toList = before ++ ("<!--".toList ++ (text ++ "-->".toList))) (hbefore : '<' ∉ before)
      (htext : '>' ∉ text) : IsCommented s [text]

theorem IsCommented.comments {s : String} {ts us : List (List Char)} (h : IsCommented s ts) {rest : List Char}
    (hrest : Comments rest us) : Comments (s.toList ++ rest) (ts ++ us) := by
  cases h with
  | tag before d after hs hbefore hd hafter =>
    have hopening : "<!--".toList = ['<', '!', '-', '-'] := rfl
    rw [hs, List.append_assoc]
    exact .append_left hbefore (.skip (by simp [hopening, List.isPrefixOf_cons_cons, Ne.symm hd]) (.append_left hafter hrest))
  | comment before text hs hbefore htext =>
    rw [hs]
    simp only [List.append_assoc]
    exact .append_left hbefore (.comment htext hrest)

/-- What a layer is called: its label, or its id if it has none. -/
def Layer.caption {α : Type} (l : Layer α) : String := if l.label = "" then l.id else l.label

/-- The text of the comment in front of a layer. -/
def Layer.commentText {α : Type} (l : Layer α) : String := " Layer: " ++ Drawing.commentText l.caption ++ " "

theorem bracket_not_mem_comment {α : Type} {d : Char} (hd : d = '<' ∨ d = '>') (l : Layer α) :
    d ∉ l.commentText.toList := by
  have hname : d ∉ " Layer: ".toList := by rcases hd with rfl | rfl <;> decide
  have hblank : d ≠ ' ' := by rcases hd with rfl | rfl <;> decide
  have htext : d ∉ (commentText l.caption).toList := by
    unfold commentText
    rw [String.toList_ofList]
    exact fun h => (mem_of_mem_parted h).elim (bracket_not_mem_escapeText hd _) hblank
  unfold Layer.commentText
  rw [String.toList_append, String.toList_append]
  simp only [List.mem_append, not_or]
  exact ⟨⟨hname, htext⟩, by simpa using hblank⟩

theorem Layer.isCommented_comment {α : Type} (l : Layer α) :
    IsCommented ("  <!-- Layer: " ++ Drawing.commentText (if l.label = "" then l.id else l.label) ++ " -->")
      [l.commentText.toList] := by
  refine .comment "  ".toList _ ?_ (by decide) (bracket_not_mem_comment (.inr rfl) l)
  unfold commentText caption
  simp only [String.toList_append, List.append_assoc]
  rfl

section

variable {α : Type} [Scalar α] [DecimalText α]

/-- A tag with attributes is no comment, whatever they are. -/
theorem isCommented_tag {name close : String} {as : List (Attribute α)} (before : List Char) (d : Char)
    (after : List Char) (hname : name.toList = before ++ '<' :: d :: after) (hbefore : '<' ∉ before) (hd : d ≠ '!')
    (hafter : '<' ∉ d :: after) (hclose : '<' ∉ close.toList) (has : ∀ a ∈ as, IsName a.1) :
    IsCommented (name ++ attributesText as ++ close) [] := by
  refine .tag before d (after ++ ((attributesText as).toList ++ close.toList)) ?_ hbefore hd ?_
  · rw [String.toList_append, String.toList_append, hname]
    simp
  · simp only [← List.cons_append, List.mem_append, not_or]
    exact ⟨hafter, bracket_not_mem_attributesText has (.inl rfl), hclose⟩

/-- The lines of a layer have the comment in front of it and no other. -/
theorem Document.isCommented_layerLines (d : Document α) (l : Layer α) :
    List.Forall₂ IsCommented (d.layerLines l)
      ([[l.commentText.toList], []] ++ (l.paintedPaths.map fun _ => []) ++ [[]]) := by
  have hgroup : IsCommented ("  <g " ++ attributesText (d.layerAttributes l) ++ ">") [] :=
    isCommented_tag "  ".toList 'g' [' '] rfl (by decide) (by decide) (by decide) (by decide)
      (isName_layerAttributes d l)
  have hpaths : List.Forall₂ IsCommented (l.paintedPaths.map ShapePath.element)
      (l.paintedPaths.map fun _ => []) :=
    List.forall₂_map_left_iff.mpr <| List.forall₂_map_right_iff.mpr <| List.forall₂_same.mpr fun p _ =>
      isCommented_tag "    ".toList 'p' "ath ".toList rfl (by decide) (by decide) (by decide) (by decide)
        (isName_attributes p)
  have hclose : IsCommented "  </g>" [] :=
    .tag "  ".toList '/' "g>".toList rfl (by decide) (by decide) (by decide)
  exact List.rel_append (.cons l.isCommented_comment (.cons hgroup hpaths)) (.cons hclose .nil)

theorem isCommented_openTag (viewBox : String) (width height : α) :
    IsCommented (openTag (.str viewBox) width height) [] := by
  have hnames : ∀ n ∈ ["xmlns", "viewBox", "width", "height"], IsName n := by decide +kernel
  exact isCommented_tag [] 's' ['v', 'g', ' '] rfl (by decide) (by decide) (by decide) (by decide)
    (List.forall_mem_map.mp hnames)

/-- The comments of a page are those in front of its layers. -/
theorem Document.readComments_markup [Trig α] {d r : Document α} {markup : String} (hr : d.resolve = .ok r)
    (hm : d.markup = .ok markup) : readComments markup = r.paintedLayers.map Layer.commentText := by
  obtain ⟨r', width, height, hr', -, rfl⟩ := markup_eq_ok_iff.mp hm
  obtain rfl := Except.ok.inj (hr'.symm.trans hr)
  have hlayers : List.Forall₂ IsCommented (r'.paintedLayers.flatMap r'.layerLines)
      (r'.paintedLayers.flatMap fun l =>
        [[l.commentText.toList], []] ++ (l.paintedPaths.map fun _ => []) ++ [[]]) :=
    List.rel_flatMap (List.forall₂_same.mpr fun _ _ => rfl) fun l l' h => h ▸ r'.isCommented_layerLines l
  have hclose : IsCommented "</svg>" [] :=
    .tag [] '/' "svg>".toList rfl (by decide) (by decide) (by decide)
  have hlines := List.rel_append (.cons (isCommented_openTag d.canvas.viewBoxText width height) hlayers) (.cons hclose .nil)
  have hread : Comments ("\n".intercalate _).toList (List.flatMap id _) :=
    reads_intercalate .nil (fun h => .append_left (by decide) h) (fun hs _ h => hs.comments h) hlines
  have htexts : List.flatMap id ([] :: (r'.paintedLayers.flatMap fun l =>
      [[l.commentText.toList], []] ++ (l.paintedPaths.map fun _ => []) ++ [[]]) ++ [[]]) =
        r'.paintedLayers.map fun l => l.commentText.toList := by
    rw [List.flatMap_append, List.flatMap_cons, List.flatMap_assoc]
    simp [← List.map_eq_flatMap]
  unfold readComments
  rw [hread.texts_eq (Nat.le_of_eq String.length_toList), htexts, List.map_map]
  exact List.map_congr_left fun l _ => String.ofList_toList

end

/-! ## Hyphens -/

/-- Hyphens are left as they are when a text is escaped. -/
theorem isPrefixOf_hyphens_escapeText (n : Nat) (cs : List Char) :
    (List.replicate n '-').isPrefixOf (escapeText cs) = (List.replicate n '-').isPrefixOf cs := by
  induction cs generalizing n with
  | nil => rfl
  | cons c cs ih =>
    have hescape : escapeText (c :: cs) = escapeTextChar c ++ escapeText cs := rfl
    cases n with
    | zero => simp
    | succ n =>
      rw [hescape, List.replicate_succ]
      unfold escapeTextChar
      split_ifs with hamp hlt hgt
      · subst hamp
        rfl
      · subst hlt
        rfl
      · subst hgt
        rfl
      · simp [List.isPrefixOf_cons_cons, ih]

theorem occursIn_append_of_notMem {d : Char} {word cs : List Char} (hcs : d ∉ cs) (rest : List Char) :
    occursIn (d :: word) (cs ++ rest) = occursIn (d :: word) rest := by
  induction cs with
  | nil => rfl
  | cons c cs ih =>
    obtain ⟨hc, hcs⟩ := not_or.mp (mt List.mem_cons.mpr hcs)
    rw [List.cons_append, occursIn, ih hcs]
    simp [List.isPrefixOf_cons_cons, hc]

theorem occursIn_hyphens_escapeText (n : Nat) (cs : List Char) :
    occursIn (List.replicate (n + 1) '-') (escapeText cs) = occursIn (List.replicate (n + 1) '-') cs := by
  induction cs with
  | nil => rfl
  | cons c cs ih =>
    have hescape : escapeText (c :: cs) = escapeTextChar c ++ escapeText cs := rfl
    have hprefix := isPrefixOf_hyphens_escapeText n cs
    -- an entity holds no hyphen, and neither does what it stands for
    have hentity (hc : c ≠ '-') (he : '-' ∉ escapeTextChar c) :
        occursIn (List.replicate (n + 1) '-') (escapeText (c :: cs)) =
          occursIn (List.replicate (n + 1) '-') (c :: cs) := by
      have hplain : '-' ∉ [c] := by simpa using Ne.symm hc
      rw [List.replicate_succ] at ih ⊢
      rw [hescape, occursIn_append_of_notMem he, ih]
      exact (occursIn_append_of_notMem hplain cs).symm
    by_cases hamp : c = '&'
    · exact hentity (by simp [hamp]) (by simp [hamp, escapeTextChar])
    by_cases hlt : c = '<'
    · exact hentity (by simp [hlt]) (by simp [hlt, escapeTextChar])
    by_cases hgt : c = '>'
    · exact hentity (by simp [hgt]) (by simp [hgt, escapeTextChar])
    have hchar : escapeTextChar c = [c] := by simp [escapeTextChar, hamp, hlt, hgt]
    rw [hescape, hchar, List.singleton_append, occursIn, occursIn, ih, List.replicate_succ]
    simp [List.isPrefixOf_cons_cons, hprefix]

theorem head?_parted (cs : List Char) : (parted cs).head? = cs.head? := by
  unfold parted
  split <;> rfl

theorem isPrefixOf_of_head? {d : Char} {ds cs : List Char} (h : cs.head? ≠ some d) : (d :: ds).isPrefixOf cs = false := by
  cases cs with
  | nil => rfl
  | cons c cs =>
    have hne : d ≠ c := fun hdc => h (by rw [hdc]; rfl)
    simp [List.isPrefixOf_cons_cons, hne]

theorem isPrefixOf_singleton {d : Char} (cs : List Char) : [d].isPrefixOf cs = (cs.head? == some d) := by
  cases cs <;> simp [List.isPrefixOf_cons_cons, eq_comm]

/-- Setting pairs of hyphens apart leaves a pair where there were three. -/
theorem occursIn_parted (cs : List Char) : occursIn ['-', '-'] (parted cs) = occursIn ['-', '-', '-'] cs := by
  fun_induction parted cs with
  | case1 rest ih =>
    -- of the two hyphens only the second can stand in front of another, and that is a third one
    simp only [occursIn, List.isPrefixOf_cons_cons, isPrefixOf_singleton, head?_parted, ih]
    by_cases hhead : rest.head? = some '-'
    · simp [hhead]
    · simp [beq_eq_false_iff_ne.mpr hhead, isPrefixOf_of_head? hhead]
  | case2 c rest hc ih =>
    simp only [occursIn, List.isPrefixOf_cons_cons, isPrefixOf_singleton, head?_parted, ih]
    by_cases hdash : c = '-'
    · have hhead : rest.head? ≠ some '-' := by
        intro hhead
        obtain ⟨more, rfl⟩ := List.head?_eq_some_iff.mp hhead
        exact hc more hdash rfl
      rw [isPrefixOf_of_head? hhead, beq_eq_false_iff_ne.mpr hhead]
    · rw [beq_eq_false_iff_ne.mpr (Ne.symm hdash), Bool.false_and, Bool.false_and]
  | case3 => rfl

/-- What stands around a comment's words does not add to its hyphens. -/
theorem occursIn_append_singleton {c d : Char} (h : c ≠ d) (cs : List Char) :
    occursIn [d, d] (cs ++ [c]) = occursIn [d, d] cs := by
  induction cs with
  | nil => simp [occursIn, List.isPrefixOf_cons_cons]
  | cons e cs ih =>
    have hhead : ((cs ++ [c]).head? == some d) = (cs.head? == some d) := by
      cases cs <;> simp [h]
    rw [List.cons_append, occursIn, occursIn, ih]
    simp only [List.isPrefixOf_cons_cons, isPrefixOf_singleton, hhead]

theorem Layer.containsText_commentText {α : Type} (l : Layer α) :
    containsText l.commentText "--" = containsText l.caption "---" := by
  have hname : '-' ∉ " Layer: ".toList := by decide
  have hescaped : occursIn ['-', '-', '-'] (escapeText l.caption.toList) = occursIn ['-', '-', '-'] l.caption.toList :=
    occursIn_hyphens_escapeText 2 _
  have htext : l.commentText.toList = " Layer: ".toList ++ (parted (escapeText l.caption.toList) ++ [' ']) := by
    unfold commentText Drawing.commentText
    simp
  calc occursIn ['-', '-'] l.commentText.toList
      = occursIn ['-', '-'] (parted (escapeText l.caption.toList) ++ [' ']) := by
        rw [htext, occursIn_append_of_notMem hname]
    _ = occursIn ['-', '-'] (parted (escapeText l.caption.toList)) := occursIn_append_singleton (by decide) _
    _ = occursIn ['-', '-', '-'] l.caption.toList := by rw [occursIn_parted, hescaped]

/-- **A page has a comment for every layer, in the order of painting. No bracket is in it, and two hyphens are next to
each other in it just where what the layer is called has three in a row.** -/
theorem comments_of_markup {α : Type} [Scalar α] [DecimalText α] [Trig α] {d : Document α} {markup : String}
    (hm : d.markup = .ok markup) :
    List.Forall₂ (fun l text => '<' ∉ text.toList ∧ '>' ∉ text.toList ∧
      containsText text "--" = containsText l.caption "---") d.paintedLayers (readComments markup) := by
  obtain ⟨r, hr, -⟩ := bind_eq_ok_iff.mp hm
  have hpainted : List.Forall₂ (fun l l' : Layer α => l'.caption = l.caption) d.paintedLayers r.paintedLayers := by
    have hredrawn := (Document.redrawn_resolve hr).layers
    refine (forall₂_paintOrder (fun l l' hl => by rw [hl.layout]) hredrawn).imp fun l l' hl => ?_
    rw [hl.frame]
    rfl
  rw [Document.readComments_markup hr hm, List.forall₂_map_right_iff]
  refine hpainted.imp fun l l' hcaption => ?_
  exact ⟨bracket_not_mem_comment (.inl rfl) l', bracket_not_mem_comment (.inr rfl) l',
    by rw [l'.containsText_commentText, hcaption]⟩

/-- Layers that are called by what looks like the end of a comment, and by hyphens, two, three and four in a row. -/
def hyphenated : Document Float where
  canvas := .ofAspect .square
  layout := none
  resolved := false
  layers := [⟨"a", "--> <g id=\"x\">", [], none⟩, ⟨"b--", "", [], none⟩, ⟨"c", "---", [], none⟩,
    ⟨"d", "-&----", [], none⟩]

theorem comments_of_markup_hyphenated : ∃ markup, hyphenated.markup = .ok markup ∧
    List.Forall₂ (fun l text => '<' ∉ text.toList ∧ '>' ∉ text.toList ∧
      containsText text "--" = containsText l.caption "---") hyphenated.paintedLayers (readComments markup) := by
  have hpainted : hyphenated.markup.toOption.isSome = true := by decide +kernel
  obtain ⟨markup, hm⟩ := exists_ok_of_isSome hpainted
  exact ⟨markup, hm, comments_of_markup hm⟩

/-- A layer that is called by three hyphens. -/
def dashed : Document Float := { hyphenated with layers := [⟨"c", "---", [], none⟩] }

/-- A comment may have two hyphens next to each other. -/
theorem comments_of_markup_dashed : ¬ ∀ (d : Document Float) (markup : String), d.markup = .ok markup →
    ∀ text ∈ readComments markup, containsText text "--" = false := by
  intro hnone
  have hread : (dashed.markup.toOption.map fun markup =>
      (readComments markup).map fun text => containsText text "--") = some [true] := by
    decide +kernel
  obtain ⟨markup, hm, htexts⟩ := Option.map_eq_some_iff.mp hread
  obtain ⟨text, htext, hpair⟩ := List.mem_map.mp (htexts ▸ List.mem_singleton_self true)
  exact absurd (hnone dashed markup (eq_ok_of_toOption hm) text htext) (by simp [hpair])

end Drawing
