import Drawing.Markup.Check
import Drawing.Markup.Page
import Drawing.Proofs.Markup.Tags
import Drawing.Proofs.Validation.Settled

/-!
# `Drawing/Proofs/Markup/Page.lean` — what a check finds on a page of ours

The check of markup reads a page as text and knows nothing of the document behind it. What it finds is told here
in terms of that document:

> **empty paths and nothing else** — if all points are finite and every path that has commands begins with a
> move, the check finds the paths without commands, in the order in which they are painted.
-/

namespace Drawing

variable {α : Type} [Scalar α]

/-! ## Lines -/

theorem mem_of_mem_parted {c : Char} {cs : List Char} (h : c ∈ parted cs) : c ∈ cs ∨ c = ' ' := by
  fun_induction parted cs with
  | case1 rest ih =>
    simp only [List.mem_cons] at h ⊢
    rcases h with h | h | h | h
    · exact .inl (.inl h)
    · exact .inr h
    · exact .inl (.inl h)
    · exact (ih h).imp (fun h => .inr (.inr h)) id
  | case2 d rest _ ih =>
    simp only [List.mem_cons] at h ⊢
    rcases h with h | h
    · exact .inl (.inl h)
    · exact (ih h).imp .inr id
  | case3 => exact .inl h

theorem bracket_not_mem_commentText (s : String) : '<' ∉ (commentText s).toList := by
  unfold commentText
  rw [String.toList_ofList]
  intro h
  rcases mem_of_mem_parted h with h | h
  · exact bracket_not_mem_escapeText (.inl rfl) _ h
  · exact absurd h (by decide)

theorem isName_layerAttributes (d : Document α) (l : Layer α) : ∀ a ∈ d.layerAttributes l, IsName a.1 := by
  have hnames : (d.layerAttributes l).map Prod.fst =
      ["id", "data-label", "data-region", "data-anchor", "data-z-index"] := rfl
  have hall : ∀ n ∈ (d.layerAttributes l).map Prod.fst, IsName n := by
    rw [hnames]
    decide +kernel
  exact List.forall_mem_map.mp hall

/-- The names that the attributes of a path may have. -/
theorem ShapePath.fst_attributes (p : ShapePath α) :
    let names := ["id", "d", "fill", "stroke", "stroke-width", "stroke-linecap", "stroke-linejoin", "opacity"]
    p.attributes.map Prod.fst = names ∨ p.attributes.map Prod.fst = names ++ ["data-region", "data-anchor"] := by
  cases hl : p.layout with
  | none =>
    left
    simp [attributes, hl]
  | some l =>
    right
    simp [attributes, hl]

theorem isName_attributes (p : ShapePath α) : ∀ a ∈ p.attributes, IsName a.1 := by
  have hall : ∀ n ∈ p.attributes.map Prod.fst, IsName n := by
    rcases p.fst_attributes with h | h
    all_goals
      rw [h]
      decide +kernel
  exact List.forall_mem_map.mp hall

theorem ShapePath.nodup_attributes (p : ShapePath α) : (p.attributes.map Prod.fst).Nodup := by
  rcases p.fst_attributes with h | h
  all_goals
    rw [h]
    decide

section

variable [DecimalText α]

/-- What stands in the tag of a path. -/
def ShapePath.inside (p : ShapePath α) : List Char := ' ' :: (attributesText p.attributes).toList

theorem ShapePath.isLine_element (p : ShapePath α) : IsLine p.element [p.inside] := by
  refine .path "    ".toList _ ?_ (by decide)
    (bracket_not_mem_attributesText (isName_attributes p) (.inr rfl))
  unfold ShapePath.element
  rw [String.toList_append, String.toList_append, List.append_assoc]
  rfl

theorem isLine_comment (s : String) : IsLine ("  <!-- Layer: " ++ commentText s ++ " -->") [] := by
  -- the exclamation mark behind the bracket is what tells a comment from a path
  refine .other "  ".toList '!' ("-- Layer: ".toList ++ ((commentText s).toList ++ " -->".toList)) ?_
    (by decide) (by decide) ?_
  · rw [String.toList_append, String.toList_append, List.append_assoc]
    rfl
  · have hname : '<' ∉ '!' :: "-- Layer: ".toList := by decide
    have hend : '<' ∉ " -->".toList := by decide
    simp only [← List.cons_append, List.mem_append, not_or]
    exact ⟨hname, bracket_not_mem_commentText s, hend⟩

theorem isLine_open {name : String} {as : List (Attribute α)} (before : List Char) (d : Char)
    (after : List Char) (hname : name.toList = before ++ '<' :: d :: after) (hbefore : '<' ∉ before)
    (hd : d.toLower ≠ 'p') (hafter : '<' ∉ d :: after) (has : ∀ a ∈ as, IsName a.1) :
    IsLine (name ++ attributesText as ++ ">") [] := by
  have hend : '<' ∉ ">".toList := by decide
  refine .other before d (after ++ ((attributesText as).toList ++ ">".toList)) ?_ hbefore hd ?_
  · rw [String.toList_append, String.toList_append, hname]
    simp
  · simp only [← List.cons_append, List.mem_append, not_or]
    exact ⟨hafter, bracket_not_mem_attributesText has (.inl rfl), hend⟩

/-- The lines of a layer have the tags of its paths. -/
theorem Document.isLine_layerLines (d : Document α) (l : Layer α) :
    List.Forall₂ IsLine (d.layerLines l)
      ([[], []] ++ (l.paintedPaths.map fun p => [p.inside]) ++ [[]]) := by
  have hgroup : IsLine ("  <g " ++ attributesText (d.layerAttributes l) ++ ">") [] :=
    isLine_open "  ".toList 'g' [' '] rfl (by decide) (by decide) (by decide)
      (isName_layerAttributes d l)
  have hpaths : List.Forall₂ IsLine (l.paintedPaths.map ShapePath.element)
      (l.paintedPaths.map fun p => [p.inside]) :=
    List.forall₂_map_left_iff.mpr <| List.forall₂_map_right_iff.mpr <|
      List.forall₂_same.mpr fun p _ => p.isLine_element
  have hclose : IsLine "  </g>" [] :=
    .other "  ".toList '/' "g>".toList rfl (by decide) (by decide) (by decide)
  exact List.rel_append (.cons (isLine_comment _) (.cons hgroup hpaths)) (.cons hclose .nil)

theorem isLine_openTag (viewBox : String) (width height : α) : IsLine (openTag (.str viewBox) width height) [] := by
  refine isLine_open [] 's' ['v', 'g', ' '] rfl (by decide) (by decide) (by decide) ?_
  have hnames : ∀ n ∈ ["xmlns", "viewBox", "width", "height"], IsName n := by decide +kernel
  exact List.forall_mem_map.mp hnames

/-- The paths of a document in the order in which they are painted. -/
def Document.paintedPaths (d : Document α) : List (ShapePath α) := d.paintedLayers.flatMap Layer.paintedPaths

omit [DecimalText α] [Scalar α] in
theorem Document.mem_paintedPaths {d : Document α} {p : ShapePath α} :
    p ∈ d.paintedPaths ↔ ∃ l ∈ d.layers, p ∈ l.paths := by
  simp [paintedPaths, paintedLayers, Layer.paintedPaths, paintOrder]

/-- The same, each with its layer. -/
def Document.paintedPairs (d : Document α) : List (Layer α × ShapePath α) :=
  d.paintedLayers.flatMap fun l => l.paintedPaths.map fun p => (l, p)

omit [DecimalText α] [Scalar α] in
theorem Document.map_snd_paintedPairs (d : Document α) : d.paintedPairs.map Prod.snd = d.paintedPaths := by
  simp [paintedPairs, paintedPaths, List.map_flatMap, Function.comp_def]

omit [DecimalText α] [Scalar α] in
theorem Document.mem_paintedPairs {d : Document α} {l : Layer α} {p : ShapePath α} :
    (l, p) ∈ d.paintedPairs ↔ l ∈ d.layers ∧ p ∈ l.paths := by
  simp [paintedPairs, paintedLayers, Layer.paintedPaths, paintOrder]

/-- The path tags of a page are its paths. -/
theorem Document.readPathTags_markup [Trig α] {d r : Document α} {markup : String}
    (hr : d.resolve = .ok r) (hm : d.markup = .ok markup) :
    readPathTags markup = r.paintedPaths.map fun p => readAttributes p.inside := by
  obtain ⟨r', width, height, hr', -, rfl⟩ := markup_eq_ok_iff.mp hm
  obtain rfl := Except.ok.inj (hr'.symm.trans hr)
  have hlayers : List.Forall₂ IsLine (r'.paintedLayers.flatMap r'.layerLines)
      (r'.paintedLayers.flatMap fun l => [[], []] ++ (l.paintedPaths.map fun p => [p.inside]) ++ [[]]) :=
    List.rel_flatMap (List.forall₂_same.mpr fun _ _ => rfl) fun l l' h => h ▸ r'.isLine_layerLines l
  have hclose : IsLine "</svg>" [] :=
    .other [] '/' "svg>".toList rfl (by decide) (by decide) (by decide)
  have hlines := List.rel_append (.cons (isLine_openTag d.canvas.viewBoxText width height) hlayers) (.cons hclose .nil)
  have hread : PathTags ("\n".intercalate _).toList (List.flatMap id _) :=
    reads_intercalate .nil (fun h => .append_left (by decide) h) (fun hs _ h => hs.tags h) hlines
  have hpaths (ps : List (ShapePath α)) :
      (ps.map fun p => [p.inside]).flatten = ps.map ShapePath.inside := by
    rw [← List.flatMap_def, ← List.map_eq_flatMap]
  -- only the lines of paths have a tag on them, so just these are left of all lines
  have htags : List.flatMap id ([] :: (r'.paintedLayers.flatMap fun l =>
      [[], []] ++ (l.paintedPaths.map fun p => [p.inside]) ++ [[]]) ++ [[]]) =
        r'.paintedPaths.map ShapePath.inside := by
    rw [List.flatMap_append, List.flatMap_cons, List.flatMap_assoc]
    simp [hpaths, paintedPaths, List.map_flatMap]
  unfold readPathTags
  rw [hread.tags_eq (Nat.le_of_eq String.length_toList), htags, List.map_map]
  rfl

/-! ## Paths -/

/-- The id of a path as it stands on a page. -/
def ShapePath.writtenId (p : ShapePath α) : String := String.ofList (escapeValue p.id.toList)

theorem get?_foldl_put {name : String} {ps : List (String × String)} (h : ∀ q ∈ ps, q.1 ≠ name)
    (t : Table String) :
    Table.get? (ps.foldl (fun t (n, v) => Table.put n v t) t) name = Table.get? t name := by
  induction ps generalizing t with
  | nil => rfl
  | cons q ps ih =>
    obtain ⟨hq, hps⟩ := List.forall_mem_cons.mp h
    rw [List.foldl_cons, ih hps]
    exact Table.get?_put_of_ne (Ne.symm hq) t

theorem get?_foldl_put_of_mem {name value : String} {ps : List (String × String)}
    (hnodup : (ps.map Prod.fst).Nodup) (h : (name, value) ∈ ps) (t : Table String) :
    Table.get? (ps.foldl (fun t (n, v) => Table.put n v t) t) name = some value := by
  induction ps generalizing t with
  | nil => exact absurd h List.not_mem_nil
  | cons q ps ih =>
    obtain ⟨hq, hps⟩ := List.nodup_cons.mp hnodup
    rw [List.foldl_cons]
    rcases List.mem_cons.mp h with rfl | h
    · have hother : ∀ q ∈ ps, q.1 ≠ name := fun q hq' heq => hq (List.mem_map.mpr ⟨q, hq', heq⟩)
      rw [get?_foldl_put hother]
      exact Table.get?_put_self t
    · exact ih hps h _

theorem fst_readBack_sublist (as : List (Attribute α)) :
    ((as.filterMap readBack?).map Prod.fst).Sublist (as.map Prod.fst) := by
  induction as with
  | nil => exact .slnil
  | cons a as ih =>
    cases h : readBack? a with
    | none =>
      rw [List.filterMap_cons_none h]
      exact ih.cons _
    | some q =>
      obtain ⟨v, -, rfl⟩ := Option.map_eq_some_iff.mp h
      rw [List.filterMap_cons_some h]
      exact ih.cons_cons _

/-- The text of an attribute is found again under its name. -/
theorem ShapePath.get?_inside {p : ShapePath α} {name value : String} (h : (name, .str value) ∈ p.attributes) :
    Table.get? (readAttributes p.inside) name = some (String.ofList (escapeValue value.toList)) := by
  have hread : Attributes p.inside (p.attributes.filterMap readBack?) :=
    .skip (by decide +kernel) (attributes_text (isName_attributes p))
  unfold readAttributes
  rw [hread.pairs_eq (Nat.le_refl _)]
  -- attributes are put into a table one by one, so it matters that no name is used twice
  exact get?_foldl_put_of_mem (p.nodup_attributes.sublist (fst_readBack_sublist _))
    (List.mem_filterMap.mpr ⟨_, h, rfl⟩) []

omit [DecimalText α] [Scalar α] in
theorem escapeValue_of_isDataChar {cs : List Char} (h : ∀ c ∈ cs, isDataChar c = true) :
    escapeValue cs = cs := by
  refine escapeValue_eq_self fun c hc => ?_
  have hdata := h c hc
  refine ⟨?_, ?_, ?_, ?_, ?_⟩ <;>
    · rintro rfl
      exact absurd hdata (by decide)

omit [DecimalText α] in
theorem escapeValue_pathData (cs : List (Command α)) :
    String.ofList (escapeValue (pathData cs).toList) = pathData cs := by
  rw [escapeValue_of_isDataChar (isDataChar_pathData cs), String.ofList_toList]

/-- A check finds nothing wrong with a path that begins with a move, and complains of one that is empty. -/
theorem ShapePath.pathIssues_inside {p : ShapePath α} (hfinite : ∀ q ∈ pointsOf p.commands, q.IsFinite)
    (hmove : p.startsWithMove = true) (index : Nat) :
    pathIssues index (readAttributes p.inside) =
      if p.commands.isEmpty then [⟨p.writtenId, DataProblem.empty.text⟩] else [] := by
  have hfirst : ∀ c, p.commands.head? = some c → c.letter = .move :=
    fun c hc => startsWithMove_iff.mp hmove c.letter (by rw [List.head?_map, hc]; rfl)
  have hid : Table.get? (readAttributes p.inside) "id" = some p.writtenId :=
    get?_inside List.mem_cons_self
  have hdata : Table.get? (readAttributes p.inside) "d" =
      some (String.ofList (escapeValue (pathData p.commands).toList)) :=
    get?_inside (List.mem_cons_of_mem _ List.mem_cons_self)
  unfold pathIssues
  rw [hid, hdata, escapeValue_pathData]
  simp only [dataProblems_pathData hfinite hfirst]
  cases p.commands <;> rfl

theorem allPathIssues_inside {ps : List (ShapePath α)}
    (hfinite : ∀ p ∈ ps, ∀ q ∈ pointsOf p.commands, q.IsFinite)
    (hmove : ∀ p ∈ ps, p.startsWithMove = true) (index : Nat) :
    allPathIssues index (ps.map fun p => readAttributes p.inside) =
      (ps.filter fun p => p.commands.isEmpty).map fun p => ⟨p.writtenId, DataProblem.empty.text⟩ := by
  induction ps generalizing index with
  | nil => rfl
  | cons p ps ih =>
    obtain ⟨hpf, hpsf⟩ := List.forall_mem_cons.mp hfinite
    obtain ⟨hpm, hpsm⟩ := List.forall_mem_cons.mp hmove
    rw [List.map_cons, allPathIssues, p.pathIssues_inside hpf hpm, ih hpsf hpsm, List.filter_cons]
    split_ifs <;> rfl

/-! ## Pages -/

theorem occursIn_attributesText {as : List (Attribute α)} {name v : String} {word : List Char}
    (ha : (name, .str v) ∈ as)
    (h : occursIn word (name ++ "=\"" ++ String.ofList (escapeValue v.toList) ++ "\"").toList = true) :
    occursIn word (attributesText as).toList = true :=
  occursIn_intercalate (List.mem_filterMap.mpr ⟨_, ha, rfl⟩) h

theorem openTag_marks (viewBox : String) (width height : α) {mark : String}
    (hmark : mark ∈ ["<svg", "xmlns=\"" ++ svgNamespace ++ "\"", "viewBox="]) :
    occursIn mark.toList (openTag (.str viewBox) width height).toList = true := by
  have hattributes {word : List Char} (h : occursIn word (attributesText [
      ("xmlns", .str svgNamespace), ("viewBox", .str viewBox), ("width", .ofReal width),
      ("height", .ofReal height)]).toList = true) :
      occursIn word (openTag (.str viewBox) width height).toList = true := by
    unfold openTag
    rw [String.toList_append, String.toList_append]
    exact occursIn_append_right (occursIn_append_left h _) _
  simp only [List.mem_cons, List.not_mem_nil, or_false] at hmark
  rcases hmark with rfl | rfl | rfl
  · unfold openTag
    rw [String.toList_append, String.toList_append, List.append_assoc]
    exact occursIn_append_right (by decide) _
  · refine hattributes (occursIn_attributesText List.mem_cons_self ?_)
    decide +kernel
  · refine hattributes (occursIn_attributesText (List.mem_cons_of_mem _ List.mem_cons_self) ?_)
    rw [String.toList_append, String.toList_append, List.append_assoc]
    exact occursIn_append_right (by decide) _

/-- Every page has the marks that its root needs. -/
theorem Document.lacking_markup [Trig α] {d : Document α} {markup : String} (hm : d.markup = .ok markup) :
    (checkMarkup markup).lacking = [] := by
  obtain ⟨r, width, height, -, -, rfl⟩ := markup_eq_ok_iff.mp hm
  have hopening {mark : String}
      (hmark : mark ∈ ["<svg", "xmlns=\"" ++ svgNamespace ++ "\"", "viewBox="]) :=
    openTag_marks d.canvas.viewBoxText width height hmark
  have hmarks : ∀ m ∈ rootMarks, containsText ("\n".intercalate
      (openTag (.str d.canvas.viewBoxText) width height :: r.paintedLayers.flatMap r.layerLines ++
        ["</svg>"])) m.1 = true := by
    intro m hm
    simp only [rootMarks, List.mem_cons, List.not_mem_nil, or_false] at hm
    rcases hm with rfl | rfl | rfl | rfl
    · exact occursIn_intercalate List.mem_cons_self (hopening (by simp))
    · exact occursIn_intercalate (List.mem_append_right _ (List.mem_singleton_self _)) (by decide)
    · exact occursIn_intercalate List.mem_cons_self (hopening (by simp))
    · exact occursIn_intercalate List.mem_cons_self (hopening (by simp))
  exact List.filterMap_eq_nil_iff.mpr fun m hm => if_pos (hmarks m hm)

/-- **What a check finds on a page**: the paths without commands. -/
theorem Document.checkMarkup_markup [Trig α] {d r : Document α} {markup : String}
    (hr : d.resolve = .ok r) (hm : d.markup = .ok markup)
    (hfinite : ∀ l ∈ r.layers, ∀ p ∈ l.paths, ∀ q ∈ pointsOf p.commands, q.IsFinite)
    (hmove : ∀ l ∈ r.layers, ∀ p ∈ l.paths, p.startsWithMove = true) :
    checkMarkup markup = ⟨[], (r.paintedPaths.filter fun p => p.commands.isEmpty).map fun p =>
      ⟨p.writtenId, DataProblem.empty.text⟩⟩ := by
  have hissues : (checkMarkup markup).issues = allPathIssues 0 (r.paintedPaths.map fun p =>
      readAttributes p.inside) := by
    rw [← readPathTags_markup hr hm]
    rfl
  rw [allPathIssues_inside (fun p hp => ?_) fun p hp => ?_] at hissues
  · rw [← hissues, ← lacking_markup hm]
  · obtain ⟨l, hl, hp⟩ := mem_paintedPaths.mp hp
    exact hfinite l hl p hp
  · obtain ⟨l, hl, hp⟩ := mem_paintedPaths.mp hp
    exact hmove l hl p hp

end

end Drawing
