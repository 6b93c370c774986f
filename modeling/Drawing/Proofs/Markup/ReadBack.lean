import Drawing.Proofs.Document.Redrawn
import Drawing.Proofs.Markup.Page
import Drawing.Proofs.Markup.PaintOrder
import Drawing.Proofs.Number.Printed

/-!
# `Drawing/Proofs/Markup/ReadBack.lean` — a page read back

Ids, labels and paints are any text, and the reader of markup is led by nothing but marks. It still finds on a page
what was written there:

> **a page reads back** — one entry for each path in the order in which they are painted, with its id, its paints
> and its path data, and the four numbers of the view box as they were printed.
-/

namespace Drawing

/-! ## Words between blanks -/

theorem splitRuns_append {p : Char → Bool} {cs : List Char} (hcs : ∀ c ∈ cs, p c = false)
    (word rest : List Char) : splitRuns p word (cs ++ rest) = splitRuns p (cs.reverse ++ word) rest := by
  induction cs generalizing word with
  | nil => rfl
  | cons c cs ih =>
    obtain ⟨hc, hcs⟩ := List.forall_mem_cons.mp hcs
    simp [splitRuns, hc, ih hcs]

theorem blankWords_blank (rest : List Char) : blankWords (' ' :: rest) = blankWords rest := by
  have hblank : isBlank ' ' = true := by decide
  simp [blankWords, splitRuns, hblank]

theorem blankWords_word {w rest : List Char} (hne : w ≠ []) (hw : ∀ c ∈ w, isBlank c = false)
    (hrest : Follows " ".toList rest) : blankWords (w ++ rest) = w :: blankWords rest := by
  unfold blankWords
  rw [splitRuns_append hw, List.append_nil]
  rcases hrest with rfl | ⟨more, rfl⟩
  · simp [splitRuns, hne]
  · have hblank : isBlank ' ' = true := by decide
    have hword : " ".toList = [' '] := rfl
    simp [splitRuns, hblank, hne, hword]

/-- The words that are found in a text. -/
def Words (cs : List Char) (ws : List (List Char)) : Prop := blankWords cs = ws

/-- Words set off by single blanks are found again. -/
theorem words_intercalate {ws : List String}
    (h : ∀ w ∈ ws, w.toList ≠ [] ∧ ∀ c ∈ w.toList, isBlank c = false) :
    Words (" ".intercalate ws).toList (ws.map String.toList) := by
  have hpieces : List.Forall₂
      (fun (w : String) (g : List Char) => w.toList = g ∧ g ≠ [] ∧ ∀ c ∈ g, isBlank c = false)
      ws (ws.map String.toList) :=
    List.forall₂_map_right_iff.mpr (List.forall₂_same.mpr fun w hw => ⟨rfl, h w hw⟩)
  have hpiece {s : String} {g rest : List Char} {gs : List (List Char)}
      (hs : s.toList = g ∧ g ≠ [] ∧ ∀ c ∈ g, isBlank c = false) (hfollows : Follows " ".toList rest)
      (hrest : Words rest gs) : Words (s.toList ++ rest) ([g] ++ gs) := by
    obtain ⟨rfl, hne, hg⟩ := hs
    exact (blankWords_word hne hg hfollows).trans (congrArg _ hrest)
  have hblank {rest : List Char} {gs : List (List Char)} (hrest : Words rest gs) :
      Words (" ".toList ++ rest) gs := (blankWords_blank rest).trans hrest
  have hnil : Words [] [] := rfl
  have hread : Words (" ".intercalate ws).toList ((ws.map String.toList).flatMap fun g => [g]) :=
    reads_intercalate hnil (fun hrest => hblank hrest)
      (fun hs hfollows hrest => hpiece hs hfollows hrest) hpieces
  rwa [List.flatMap_singleton'] at hread

/-! ## The view box -/

theorem viewBoxValue?_cons {c : Char} (hc : c ≠ 'v') (rest : List Char) :
    viewBoxValue? (c :: rest) = viewBoxValue? rest := by
  have hword : "viewBox".toList = ['v', 'i', 'e', 'w', 'B', 'o', 'x'] := rfl
  rw [viewBoxValue?]
  simp [hword, Ne.symm hc]

/-- The first letter of the name is not enough. -/
theorem viewBoxValue?_cons_cons {c : Char} (hc : c ≠ 'i') (rest : List Char) :
    viewBoxValue? ('v' :: c :: rest) = viewBoxValue? (c :: rest) := by
  have hword : "viewBox".toList = ['v', 'i', 'e', 'w', 'B', 'o', 'x'] := rfl
  rw [viewBoxValue?]
  simp [hword, Ne.symm hc]

theorem viewBoxValue?_mark {value : List Char} (h : '"' ∉ value) (rest : List Char) :
    viewBoxValue? ("viewBox".toList ++ '=' :: '"' :: (value ++ '"' :: rest)) = some value := by
  have hword : "viewBox".toList = ['v', 'i', 'e', 'w', 'B', 'o', 'x'] := rfl
  simp [viewBoxValue?, hword, quotedValue?_eq h]

section

variable {α : Type} [Scalar α]

/-- The text of a number and the number that is read from it. -/
structure IsNumberText (s : String) (x : α) : Prop where
  chars : ∀ c ∈ s.toList, isNumberChar c = true
  read : NumberGrammar.anyScript.read? s = some x

theorem IsNumberText.ne_nil {s : String} {x : α} (h : IsNumberText s x) : s.toList ≠ [] := by
  intro hs
  have hread := h.read
  rw [read?_of_isNumberChar h.chars, hs] at hread
  exact Option.some_ne_none x hread.symm

theorem isNumberText_coordinateText (x : α) : IsNumberText (coordinateText x) (Scalar.printed x) :=
  ⟨isNumberChar_coordinateText x, read?_coordinateText x⟩

/-- Numbers set off by single blanks are read one by one. -/
theorem readNumbers?_intercalate {ws : List String} {xs : List α} (h : List.Forall₂ IsNumberText ws xs) :
    readNumbers? (" ".intercalate ws).toList = some xs := by
  have hword : ∀ w ∈ ws, ∃ x : α, IsNumberText w x := by
    intro w hw
    obtain ⟨x, -, hx⟩ := exists_left_of_mem h.flip hw
    exact ⟨x, hx⟩
  have hplain : ∀ c ∈ (" ".intercalate ws).toList, c ≠ ',' := by
    refine forall_mem_intercalate (List.forall_mem_singleton.mpr (by decide)) fun w hw c hc => ?_
    obtain ⟨x, hx⟩ := hword w hw
    rintro rfl
    exact absurd (hx.chars _ hc) (by decide)
  have hcommas : (" ".intercalate ws).toList.map (fun c => if c = ',' then ' ' else c) =
      (" ".intercalate ws).toList :=
    (List.map_congr_left fun c hc => if_neg (hplain c hc)).trans (List.map_id _)
  have hwords : blankWords (" ".intercalate ws).toList = ws.map String.toList := by
    refine words_intercalate fun w hw => ?_
    obtain ⟨x, hx⟩ := hword w hw
    exact ⟨hx.ne_nil, fun c hc => isBlank_of_isNumberChar (hx.chars c hc)⟩
  unfold readNumbers?
  rw [hcommas, hwords]
  clear hword hplain hcommas hwords
  induction h with
  | nil => rfl
  | @cons w x ws xs hx _ ih =>
    rw [List.map_cons, List.mapM_cons, String.ofList_toList, hx.read, ih]
    rfl

theorem isDataChar_intercalate {ws : List String} {xs : List α} (h : List.Forall₂ IsNumberText ws xs) :
    ∀ c ∈ (" ".intercalate ws).toList, isDataChar c = true := by
  refine forall_mem_intercalate (List.forall_mem_singleton.mpr (by decide)) fun w hw c hc => ?_
  obtain ⟨x, -, hx⟩ := exists_left_of_mem h.flip hw
  exact isDataChar_of_isNumberChar (hx.chars c hc)

variable [DecimalText α]

theorem viewBoxValue?_openTag (v : String) (w h : α) (rest : List Char) :
    viewBoxValue? ((openTag (.str v) w h).toList ++ rest) = some (escapeValue v.toList) := by
  have hspaced (a b c d : String) : " ".intercalate [a, b, c, d] = a ++ " " ++ b ++ " " ++ c ++ " " ++ d := rfl
  have hescape : escapeValue svgNamespace.toList = "http://www.w3.org/2000/svg".toList := by decide +kernel
  have hmark (r : List Char) : viewBoxValue? ('v' :: 'i' :: 'e' :: 'w' :: 'B' :: 'o' :: 'x' :: '=' :: '"' ::
      (escapeValue v.toList ++ '"' :: r)) = some (escapeValue v.toList) :=
    viewBoxValue?_mark (quote_not_mem_escapeValue v.toList) r
  -- before the view box there is no other text like its name
  simp [openTag, attributesText, attributeText?, attributeValue?, Json.ofReal, hspaced, hescape,
    viewBoxValue?_cons, viewBoxValue?_cons_cons, hmark]

/-- The view box of a page is read as the four numbers of its text, by whatever scalars. -/
theorem Document.readViewBox?_of_text [Trig α] {β : Type} [Scalar β] {d : Document α} {markup : String}
    (hm : d.markup = .ok markup) {ws : List String} {x y w h : β} (htext : d.canvas.viewBoxText = " ".intercalate ws)
    (hws : List.Forall₂ IsNumberText ws [x, y, w, h]) : readViewBox? markup = some [x, y, w, h] := by
  obtain ⟨r, width, height, -, -, rfl⟩ := markup_eq_ok_iff.mp hm
  unfold readViewBox?
  rw [List.cons_append, String.intercalate_cons_of_ne_nil (by simp), String.append_assoc, String.toList_append,
    viewBoxValue?_openTag, htext, escapeValue_of_isDataChar (isDataChar_intercalate hws), Option.bind_some,
    readNumbers?_intercalate hws]

/-- What is read from the tag of a path. -/
structure ShapePath.IsEntry (p : ShapePath α) (entry : Table String) : Prop where
  id : entry.get? "id" = some (String.ofList (escapeValue p.id.toList))
  fill : entry.get? "fill" = some (String.ofList (escapeValue (paintValue p.style.fill).toList))
  stroke : entry.get? "stroke" = some (String.ofList (escapeValue (paintValue p.style.stroke).toList))
  data : entry.get? "d" = some (pathData p.commands)

theorem ShapePath.isEntry_inside (p : ShapePath α) : p.IsEntry (readAttributes p.inside) where
  id := get?_inside (by simp [attributes])
  fill := get?_inside (by simp [attributes])
  stroke := get?_inside (by simp [attributes])
  data := by
    rw [← escapeValue_pathData]
    exact get?_inside (by simp [attributes])

end

end Drawing
