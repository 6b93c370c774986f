import Drawing.Proofs.Repair.Design
import Drawing.Proofs.Repair.Written
import Drawing.Proofs.Studio.Attempt

/-!
# `Drawing/Proofs/Repair/Unreported.lean` — what a repair does without a word

Whether a drawing counts as repaired is read off the actions that its repair told of. Here each repair is followed
through on the assumption that it told of none, and what it has done all the same is written down. Most repairs then
have done nothing. Three have: closes in front of a path are dropped, a close is made a capital letter without
numbers, and what stands for a list of paths but is none becomes an empty one. So

> **a drawing that is repaired without an action is the same drawing** exactly if every layer has a list of paths and
> the commands of every path are tidy.

Not everything else stays as it was written either: labels and styles that are none are filled in, and the numbers of
an offset are written as scalars.
-/

namespace Drawing

section

variable {α : Type} [Scalar α]

/-! ## Layouts -/

omit [Scalar α] in
/-- A name that is looked up without a word stays. -/
theorem lookedUp_silent {layout : Fields α} {v : Json α} {found : Bool} {removed : Fields α} {action : RepairAction α}
    {r : Repaired α (Fields α)}
    (h : (do
      if ← lookUp v found then return Repaired.same layout
      else return ⟨removed, [action]⟩ : Except (Fault α) _) = .ok r) (hsilent : r.actions = []) :
    r.value = layout := by
  obtain ⟨b, -, h⟩ := bind_eq_ok_iff.mp h
  split at h
  · obtain rfl := pure_eq_ok_iff.mp h
    rfl
  · obtain rfl := pure_eq_ok_iff.mp h
    exact nomatch hsilent

theorem repairRegionName_silent {owner : LayoutOwner} {names : List (Json α)} {layout : Fields α}
    {r : Repaired α (Fields α)} (h : repairRegionName owner names layout = .ok r) (hsilent : r.actions = []) :
    r.value = layout := by
  unfold repairRegionName at h
  split at h
  · obtain rfl := Except.ok.inj h
    rfl
  · exact lookedUp_silent h hsilent

omit [Scalar α] in
theorem repairAnchorName_silent {owner : LayoutOwner} {layout : Fields α} {r : Repaired α (Fields α)}
    (h : repairAnchorName owner layout = .ok r) (hsilent : r.actions = []) : r.value = layout := by
  unfold repairAnchorName at h
  split at h
  · obtain rfl := Except.ok.inj h
    rfl
  · exact lookedUp_silent h hsilent

/-- A layout that is the same, but for an offset that is written with other numerals for the same two numbers. -/
def SameLayout (before after : Fields α) : Prop :=
  after = before ∨ ∃ (v : Json α) (p q : Point α), Table.get? before "offset" = some v ∧
    offsetPair? v = .ok (some p) ∧ (q == p) = true ∧ after = Table.put "offset" q.json before

theorem repairOffset_silent {owner : LayoutOwner} {layout : Fields α} {r : Repaired α (Fields α)}
    (h : repairOffset owner layout = .ok r) (hsilent : r.actions = []) : SameLayout layout r.value := by
  unfold repairOffset at h
  split at h
  · obtain rfl := Except.ok.inj h
    exact .inl rfl
  · next v hv =>
    obtain ⟨pair, hpair, h⟩ := bind_eq_ok_iff.mp h
    cases pair with
    | none =>
      obtain rfl := pure_eq_ok_iff.mp h
      exact nomatch hsilent
    | some p =>
      obtain rfl := pure_eq_ok_iff.mp h
      dsimp only at hsilent
      split at hsilent
      · next hsame => exact .inr ⟨v, p, _, get?_of_givenField? hv, hpair, hsame, rfl⟩
      · exact nomatch hsilent

/-- A layer or path that is kept with its layout. -/
def LayoutKept (before after : Fields α) : Prop :=
  Table.get? after "layout" = Table.get? before "layout" ∨ ∃ layout layout',
    Table.get? before "layout" = some (.obj layout) ∧ Table.get? after "layout" = some (.obj layout') ∧
      SameLayout layout layout'

theorem repairLayout_silent {owner : LayoutOwner} {names : List (Json α)} {fields : Fields α}
    {r : Repaired α (Fields α)} (h : repairLayout owner names fields = .ok r) (hsilent : r.actions = []) :
    LayoutKept fields r.value := by
  unfold repairLayout at h
  split at h
  · obtain rfl := Except.ok.inj h
    exact .inl rfl
  · next layout hlayout =>
    obtain ⟨region, hregion, h⟩ := bind_eq_ok_iff.mp h
    obtain ⟨anchor, hanchor, h⟩ := bind_eq_ok_iff.mp h
    obtain ⟨offset, hoffset, h⟩ := bind_eq_ok_iff.mp h
    obtain rfl := pure_eq_ok_iff.mp h
    obtain ⟨hanchorSilent, offset', hoffset', hov, hoffsetSilent⟩ := Repaired.andThen_silent hoffset hsilent
    obtain ⟨hregionSilent, anchor', hanchor', hav, hanchorSilent'⟩ := Repaired.andThen_silent hanchor hanchorSilent
    rw [repairRegionName_silent hregion hregionSilent] at hanchor'
    rw [hav, repairAnchorName_silent hanchor' hanchorSilent'] at hoffset'
    refine .inr ⟨layout, offset.value, get?_of_givenField? hlayout, Table.get?_put_self _, ?_⟩
    rw [hov]
    exact repairOffset_silent hoffset' hoffsetSilent
  · obtain rfl := Except.ok.inj h
    exact nomatch hsilent

theorem LayoutKept.congr {before before' after after' : Fields α} (h : LayoutKept before after)
    (hbefore : Table.get? before' "layout" = Table.get? before "layout")
    (hafter : Table.get? after' "layout" = Table.get? after "layout") : LayoutKept before' after' := by
  unfold LayoutKept
  rwa [hbefore, hafter]

end

/-! ## Tidy commands -/

section

variable {α : Type}

/-- Whether a written command closes the subpath. -/
def WrittenCommand.isClose (w : WrittenCommand α) : Bool := w.letter.toUpper == 'Z'

/-- A written command as it is kept: a close is a capital letter without numbers. -/
def WrittenCommand.tidied (w : WrittenCommand α) : WrittenCommand α := if w.isClose then ⟨'Z', []⟩ else w

/-- Written commands as they are kept: closes in front are dropped. -/
def tidied (ws : List (WrittenCommand α)) : List (WrittenCommand α) :=
  (ws.dropWhile WrittenCommand.isClose).map WrittenCommand.tidied

/-- Commands that are tidy as they are written: they do not begin with a close, and a close is a capital letter
without numbers. -/
structure Tidy (ws : List (WrittenCommand α)) : Prop where
  opens : ∀ w, ws.head? = some w → w.isClose = false
  closes : ∀ w ∈ ws, w.isClose = true → w = ⟨'Z', []⟩

theorem tidied_eq_self_iff {ws : List (WrittenCommand α)} : tidied ws = ws ↔ Tidy ws := by
  have hclosed {w : WrittenCommand α} : w.tidied = w ↔ (w.isClose = true → w = ⟨'Z', []⟩) := by
    unfold WrittenCommand.tidied
    split
    · next hclose => exact ⟨fun h _ => h.symm, fun h => (h hclose).symm⟩
    · next hopen => exact iff_of_true rfl fun hclose => absurd hclose hopen
  constructor
  · intro h
    have hkept : ws.dropWhile WrittenCommand.isClose = ws := by
      refine (List.dropWhile_suffix _).eq_of_length ?_
      have hlength := congrArg List.length h
      rwa [tidied, List.length_map] at hlength
    rw [tidied, hkept] at h
    refine ⟨fun w hw => ?_, fun w hw => hclosed.mp ?_⟩
    · cases ws with
      | nil => exact nomatch hw
      | cons v rest =>
        obtain rfl := Option.some.inj hw
        refine Bool.eq_false_iff.mpr fun hclose => ?_
        rw [List.dropWhile_cons_of_pos hclose] at hkept
        have hshort := (List.dropWhile_suffix WrittenCommand.isClose (l := rest)).length_le
        rw [hkept, List.length_cons] at hshort
        omega
    · exact List.map_inj_left.mp (h.trans (List.map_id ws).symm) w hw
  · intro h
    have hkept : ws.dropWhile WrittenCommand.isClose = ws := by
      cases ws with
      | nil => rfl
      | cons v rest => exact List.dropWhile_cons_of_neg (Bool.eq_false_iff.mp (h.opens v rfl))
    rw [tidied, hkept]
    exact (List.map_congr_left fun w hw => hclosed.mpr (h.closes w hw)).trans (List.map_id ws)

theorem tidied_subset {ws : List (WrittenCommand α)} {w : WrittenCommand α} (hw : w ∈ tidied ws) :
    ∃ w' ∈ ws, w.numbers ⊆ w'.numbers := by
  obtain ⟨w', hw', rfl⟩ := List.mem_map.mp hw
  refine ⟨w', (List.dropWhile_suffix _).mem hw', ?_⟩
  unfold WrittenCommand.tidied
  split
  · exact List.nil_subset _
  · exact List.Subset.refl _

theorem WrittenCommand.isClose_tidied (w : WrittenCommand α) : w.tidied.isClose = w.isClose := by
  unfold tidied
  split
  · next h => exact h.symm
  · rfl

theorem Command.isClose_written (c : Command α) : c.written.isClose = c.isClose := by
  cases c <;> rfl

/-- Whether the closes in front are dropped before or after the rest is tidied makes no difference. -/
theorem written_dropWhile {commands : List (Command α)} {ws : List (WrittenCommand α)}
    (h : commands.map Command.written = ws.map WrittenCommand.tidied) :
    (commands.dropWhile Command.isClose).map Command.written = tidied ws := by
  have hcommands : (commands.dropWhile Command.isClose).map Command.written =
      (commands.map Command.written).dropWhile WrittenCommand.isClose := by
    rw [List.dropWhile_map]
    exact congrArg (fun p => (commands.dropWhile p).map _) (funext fun c => c.isClose_written.symm)
  rw [hcommands, h, List.dropWhile_map]
  exact congrArg (fun p => (ws.dropWhile p).map _) (funext fun w => w.isClose_tidied)

end

/-! ## What is kept -/

section

variable {α : Type}

theorem objectsOf_map (layers : List (Fields α)) : objectsOf (layers.map Json.obj) = layers := by
  induction layers with
  | nil => rfl
  | cons fields rest ih => rw [List.map_cons, objectsOf_obj, ih]

theorem objects_inj {layers layers' : List (Fields α)} (h : layers.map Json.obj = layers'.map Json.obj) :
    layers = layers' := List.map_injective_iff.mpr (fun _ _ => Json.obj.inj) h

variable [Scalar α]

/-- A path's field of commands writes some commands. -/
def PathWrites (path : Fields α) (ws : List (WrittenCommand α)) : Prop :=
  ∃ items, Table.get? path "commands" = some (.arr items) ∧ List.Forall₂ Writes items ws

/-- A path writes one list of commands. -/
theorem PathWrites.unique {path : Fields α} {ws ws' : List (WrittenCommand α)} (h : PathWrites path ws)
    (h' : PathWrites path ws') : ws = ws' := by
  obtain ⟨items, hitems, hws⟩ := h
  obtain ⟨items', hitems', hws'⟩ := h'
  obtain rfl := Json.arr.inj (Option.some.inj (hitems.symm.trans hitems'))
  refine List.right_unique_forall₂' (fun item w w' hw hw' => ?_) hws hws'
  have heq := (writtenCommand?_eq_some_iff.mpr hw).symm.trans (writtenCommand?_eq_some_iff.mpr hw')
  exact Option.some.inj (Except.ok.inj heq)

/-- A path that is kept, up to a change in what it writes. -/
structure PathKept (change : List (WrittenCommand α) → List (WrittenCommand α)) (before after : Fields α) : Prop where
  frame : AgreeBeyond ["style", "layout", "commands", "d"] before after
  style : ∀ style, Table.get? before "style" = some (.obj style) → Table.get? after "style" = some (.obj style)
  layout : LayoutKept before after
  commands : ∃ ws, PathWrites before ws ∧ PathWrites after (change ws)

/-- A layer that is kept with its paths, up to a change in what these write. It has none if it has no list of
them. -/
structure LayerKept (change : List (WrittenCommand α) → List (WrittenCommand α)) (before after : Fields α) : Prop where
  frame : AgreeBeyond ["label", "layout", "paths"] before after
  label : ((Table.get? before "label").getD .null).isTruthy = true →
    Table.get? after "label" = Table.get? before "label"
  layout : LayoutKept before after
  paths : ∃ paths paths' : List (Fields α), listField before "paths" = paths.map .obj ∧
    Table.get? after "paths" = some (.arr (paths'.map .obj)) ∧ List.Forall₂ (PathKept change) paths paths'

/-- A design that is kept with its layers, up to a change in what their paths write. -/
def DesignKept (change : List (WrittenCommand α) → List (WrittenCommand α)) (before after : Fields α) : Prop :=
  ∃ layers layers' : List (Fields α), Table.get? before "layers" = some (.arr (layers.map .obj)) ∧
    Table.get? after "layers" = some (.arr (layers'.map .obj)) ∧ List.Forall₂ (LayerKept change) layers layers'

/-- A path all of whose commands are tidy. -/
def PathTidy (path : Fields α) : Prop := ∀ ws, PathWrites path ws → Tidy ws

/-- A layer all of whose paths are tidy. -/
def LayerTidy (layer : Fields α) : Prop := ∀ path ∈ objectsOf (listField layer "paths"), PathTidy path

/-- A drawing that is the same before and after: it has the same layers, each with the same paths, and every path the
same commands. -/
def SameDrawing (before after : Fields α) : Prop :=
  DesignKept id before after ∧
    ∀ layer ∈ objectsOf (listField before "layers"), ∃ entries, Table.get? layer "paths" = some (.arr entries)

theorem PathKept.same_iff {before after : Fields α} (h : PathKept tidied before after) :
    PathKept id before after ↔ PathTidy before := by
  obtain ⟨hframe, hstyle, hlayout, ws, hbefore, hafter⟩ := h
  constructor
  · rintro ⟨-, -, -, ws', hbefore', hafter'⟩ ws'' hbefore''
    obtain rfl := hbefore.unique hbefore'
    obtain rfl := hbefore.unique hbefore''
    exact tidied_eq_self_iff.mp (hafter.unique hafter')
  · intro htidy
    exact ⟨hframe, hstyle, hlayout, ws, hbefore, (tidied_eq_self_iff.mpr (htidy ws hbefore)) ▸ hafter⟩

theorem LayerKept.same_iff {before after : Fields α} (h : LayerKept tidied before after) :
    LayerKept id before after ↔ LayerTidy before := by
  obtain ⟨hframe, hlabel, hlayout, paths, paths', hbefore, hafter, hall⟩ := h
  have hpaths : List.Forall₂ (PathKept id) paths paths' ↔ LayerTidy before := by
    unfold LayerTidy
    rw [hbefore, objectsOf_map]
    exact forall₂_iff_of_forall₂ hall fun _ _ hpath => hpath.same_iff
  rw [← hpaths]
  constructor
  · rintro ⟨-, -, -, other, other', hbefore', hafter', hsame⟩
    obtain rfl := objects_inj (hbefore.symm.trans hbefore')
    obtain rfl := objects_inj (Json.arr.inj (Option.some.inj (hafter.symm.trans hafter')))
    exact hsame
  · exact fun hsame => ⟨hframe, hlabel, hlayout, paths, paths', hbefore, hafter, hsame⟩

theorem DesignKept.same_iff {before after : Fields α} (h : DesignKept tidied before after) :
    DesignKept id before after ↔ ∀ layer ∈ objectsOf (listField before "layers"), LayerTidy layer := by
  obtain ⟨layers, layers', hbefore, hafter, hall⟩ := h
  rw [listField_of_get? hbefore, objectsOf_map,
    ← forall₂_iff_of_forall₂ hall fun _ _ hlayer => hlayer.same_iff]
  constructor
  · rintro ⟨other, other', hbefore', hafter', hsame⟩
    obtain rfl := objects_inj (Json.arr.inj (Option.some.inj (hbefore.symm.trans hbefore')))
    obtain rfl := objects_inj (Json.arr.inj (Option.some.inj (hafter.symm.trans hafter')))
    exact hsame
  · exact fun hsame => ⟨layers, layers', hbefore, hafter, hsame⟩

end

/-! ## Commands -/

section

variable {α : Type}

/-- A command may be written with any letter and as many coordinates as it takes. -/
theorem Command.exists_written {l : Letter} {xs : List α} (h : xs.length = l.arity) :
    ∃ c : Command α, c.written = ⟨l.char, xs⟩ := by
  cases l with
  | move => match xs, h with | [x, y], _ => exact ⟨.move ⟨x, y⟩, rfl⟩
  | line => match xs, h with | [x, y], _ => exact ⟨.line ⟨x, y⟩, rfl⟩
  | quadratic => match xs, h with | [a, b, x, y], _ => exact ⟨.quadratic ⟨a, b⟩ ⟨x, y⟩, rfl⟩
  | cubic => match xs, h with | [a, b, c, d, x, y], _ => exact ⟨.cubic ⟨a, b⟩ ⟨c, d⟩ ⟨x, y⟩, rfl⟩
  | close => match xs, h with | [], _ => exact ⟨.close, rfl⟩

theorem toUpper_of_isLower_eq_false {c : Char} (h : c.isLower = false) : c.toUpper = c := by
  have hlower : ¬ ('a'.val ≤ c.val ∧ c.val ≤ 'z'.val) := of_decide_eq_false ((Bool.decide_and _ _).trans h)
  unfold Char.toUpper
  exact dif_neg hlower

theorem openWithMove_silent {path : String} {commands : List (Command α)}
    (h : (openWithMove path commands).actions = []) :
    (openWithMove path commands).value = commands.dropWhile Command.isClose := by
  unfold openWithMove at h ⊢
  split
  · next hmove => rw [hmove]; rfl
  · next hline => rw [hline] at h; exact nomatch h
  · next hcubic => rw [hcubic] at h; exact nomatch h
  · next hquadratic => rw [hquadratic] at h; exact nomatch h
  · rfl

variable [Scalar α]

/-- A letter with its numbers is drawn without a word only if it is absolute and has as many numbers as it takes. -/
theorem Pen.drawLetter_silent {pen : Pen α} {path : String} {letter : Letter} {w : WrittenCommand α}
    (h : (pen.drawLetter path letter w).2.1 = []) :
    w.letter.isLower = false ∧ w.numbers.length = letter.arity := by
  unfold drawLetter at h
  dsimp only at h
  split at h
  · exact nomatch h
  · obtain ⟨hsplit, hrelative⟩ := List.append_eq_nil_iff.mp h
    constructor
    · split at hrelative
      · exact nomatch hrelative
      · next hlower => exact Bool.eq_false_iff.mpr hlower
    · split at hsplit
      · next hone => exact hone.2
      · exact nomatch hsplit

/-- A written command is told of, or it is a close, or it is drawn by its letter. -/
theorem Pen.carryOut_cases (pen : Pen α) (path : String) (w : WrittenCommand α) :
    (pen.carryOut path w).2.1 ≠ [] ∨
      (Letter.ofChar? w.letter.toUpper = some .close ∧ (pen.carryOut path w).1 = [.close]) ∨
      ∃ l, Letter.ofChar? w.letter.toUpper = some l ∧ l ≠ .close ∧
        pen.carryOut path w = pen.drawLetter path l w := by
  unfold carryOut
  dsimp only
  split
  · exact .inl (List.cons_ne_nil _ _)
  · exact .inl (List.cons_ne_nil _ _)
  · split
    · exact .inl (List.cons_ne_nil _ _)
    · next hclose => exact .inr (.inl ⟨hclose, rfl⟩)
    · next l hne hl => exact .inr (.inr ⟨l, hl, hne, rfl⟩)

/-- What is carried out without a word is an absolute command already, or a close. -/
theorem Pen.carryOut_silent {pen : Pen α} {path : String} {w : WrittenCommand α} (h : (pen.carryOut path w).2.1 = []) :
    ∃ c : Command α, (pen.carryOut path w).1 = [c] ∧ c.written = w.tidied := by
  rcases pen.carryOut_cases path w with htold | ⟨hl, hdrawn⟩ | ⟨l, hl, hclose, hdrawn⟩
  · exact absurd h htold
  · have hz : w.isClose = true := beq_iff_eq.mpr (Letter.char_of_ofChar? hl).symm
    exact ⟨.close, hdrawn, (if_pos hz).symm⟩
  · rw [hdrawn] at h
    obtain ⟨hlower, hcount⟩ := drawLetter_silent h
    obtain ⟨c, hc⟩ := Command.exists_written hcount
    have hchar := Letter.char_of_ofChar? hl
    have hw : c.written = w := by rw [hc, hchar, toUpper_of_isLower_eq_false hlower]
    have hopen : w.isClose = false := by
      unfold WrittenCommand.isClose
      rw [← hchar]
      cases l with
      | close => exact absurd rfl hclose
      | move | line | cubic | quadratic => decide
    obtain ⟨after, hcarry⟩ := pen.carryOut_written path c
    exact ⟨c, by rw [← hw, hcarry], hw.trans (if_neg (Bool.eq_false_iff.mp hopen)).symm⟩

/-- Items that are followed without a word all write commands, and these are what is left. -/
theorem followItems_silent {path : String} {pen : Pen α} {items : List (Json α)} {r : Repaired α (List (Command α))}
    (h : followItems path pen items = .ok r) (hsilent : r.actions = []) :
    ∃ ws, List.Forall₂ Writes items ws ∧ r.value.map Command.written = ws.map WrittenCommand.tidied := by
  induction items generalizing pen r with
  | nil =>
    obtain rfl := Except.ok.inj h
    exact ⟨[], .nil, rfl⟩
  | cons item rest ih =>
    rw [followItems] at h
    obtain ⟨written, hwritten, h⟩ := bind_eq_ok_iff.mp h
    cases written with
    | none =>
      obtain ⟨t, -, h⟩ := bind_eq_ok_iff.mp h
      obtain rfl := pure_eq_ok_iff.mp h
      exact absurd hsilent (List.cons_ne_nil _ _)
    | some w =>
      rcases hcarry : pen.carryOut path w with ⟨drawn, actions, after⟩
      simp only [hcarry] at h
      obtain ⟨t, ht, h⟩ := bind_eq_ok_iff.mp h
      obtain rfl := pure_eq_ok_iff.mp h
      obtain ⟨hactions, hrest⟩ := List.append_eq_nil_iff.mp hsilent
      obtain ⟨ws, hws, hvalue⟩ := ih ht hrest
      have htold : (pen.carryOut path w).2.1 = [] := by rw [hcarry, hactions]
      obtain ⟨c, hc, hcw⟩ := Pen.carryOut_silent htold
      obtain rfl : drawn = [c] := by rw [← hc, hcarry]
      refine ⟨w :: ws, .cons (writtenCommand?_eq_some_iff.mp hwritten) hws, ?_⟩
      simp only [Repaired.value_after, Repaired.value_map, List.map_append, List.map_cons, List.map_nil, hvalue, hcw]
      rfl

/-- Commands that are stored write what they are written as, if that was read. -/
theorem writes_tidied {items : List (Json α)} {ws : List (WrittenCommand α)} {commands : List (Command α)}
    (hws : List.Forall₂ Writes items ws) (h : commands.map Command.written = tidied ws) :
    List.Forall₂ Writes (commands.map (Command.json .stored)) (tidied ws) := by
  have hfinite : ∀ c ∈ commands, ∀ x ∈ c.coords, Scalar.isFinite x = true := by
    intro c hc x hx
    obtain ⟨w, hw, hsub⟩ := tidied_subset (h ▸ List.mem_map_of_mem hc : c.written ∈ tidied ws)
    obtain ⟨item, -, fields, coords, -, -, -, -, hfinite⟩ := exists_left_of_mem hws hw
    exact hfinite x (hsub hx)
  rw [← h, List.forall₂_map_left_iff, List.forall₂_map_right_iff, List.forall₂_same]
  exact fun c hc => Command.writes_written (hfinite c hc)

variable [Trig α]

theorem commandItems_silent {path : String} {fields : Fields α} (h : (commandItems path fields).actions = [])
    (hne : (commandItems path fields).value ≠ []) :
    Table.get? fields "commands" = some (.arr (commandItems path fields).value) := by
  rcases commandItems_cases path fields with ⟨items, hitems, hvalue⟩ | hvalue | ⟨commands, hvalue⟩
  · rw [hvalue]
    exact hitems
  · exact absurd (congrArg Repaired.value hvalue) hne
  · rw [hvalue] at h
    exact nomatch h

/-- Commands that are repaired without a word are those that were written, tidied. -/
theorem repairCommands_silent {path : String} {fields : Fields α} {r : Repaired α (List (Command α))}
    (h : repairCommands path fields = .ok r) (hsilent : r.actions = []) (hne : r.value ≠ []) :
    ∃ ws, PathWrites fields ws ∧ r.value.map Command.written = tidied ws := by
  obtain ⟨followed, hfollowed, h⟩ := bind_eq_ok_iff.mp h
  obtain ⟨hfollowedSilent, opened, hopened, hvalue, hopenedSilent⟩ := Repaired.andThen_silent h hsilent
  obtain ⟨hitemsSilent, followed', hfollowed', hfollowedValue, hfollowedSilent'⟩ :=
    Repaired.andThen_silent hfollowed hfollowedSilent
  obtain rfl := Except.ok.inj hopened
  obtain ⟨ws, hws, hwritten⟩ := followItems_silent hfollowed' hfollowedSilent'
  rw [hvalue, openWithMove_silent hopenedSilent, hfollowedValue] at hne ⊢
  refine ⟨ws, ⟨_, commandItems_silent hitemsSilent ?_, hws⟩, written_dropWhile hwritten⟩
  intro hnil
  rw [hnil] at hws
  obtain rfl := List.forall₂_nil_left_iff.mp hws
  rw [List.map_eq_nil_iff.mp hwritten] at hne
  exact hne rfl

end

/-! ## Paths, layers and designs -/

section

variable {α : Type} [Scalar α] [Trig α] [UnitOrder α]

theorem repairPath_silent {names : List (Json α)} {layer id : String} {fields : Fields α}
    {r : Repaired α (Option (Fields α))} (h : repairPath names layer id fields = .ok r) (hsilent : r.actions = []) :
    ∃ path, r.value = some path ∧ PathKept tidied fields path := by
  obtain ⟨laidOut, hlaidOut, h⟩ := bind_eq_ok_iff.mp h
  obtain ⟨commands, hcommands, h⟩ := bind_eq_ok_iff.mp h
  split at h
  · obtain rfl := pure_eq_ok_iff.mp h
    exact absurd (List.append_eq_nil_iff.mp hsilent).2 (List.cons_ne_nil _ _)
  · next hdraws =>
    obtain rfl := pure_eq_ok_iff.mp h
    obtain ⟨hothers, hcommandsSilent⟩ := List.append_eq_nil_iff.mp hsilent
    obtain ⟨hstyle, hid⟩ := withStyle_spec id fields
    have hlayout := (repairLayout_mended hlaidOut).frame
    obtain ⟨hitems, hwritten⟩ := withCommandItems_spec commands.value laidOut.value
    obtain ⟨ws, ⟨items, hread, hws⟩, hkept⟩ := repairCommands_silent hcommands hcommandsSilent
      fun hnil => hdraws (List.isEmpty_iff.mpr hnil)
    obtain ⟨hrenamed, hlayoutSilent⟩ := List.append_eq_nil_iff.mp hothers
    have hgiven := renameActions_eq_nil_iff.mp hrenamed
    have hframe := hstyle.of_same (hid.trans hgiven.symm)
    refine ⟨_, rfl, ?_, fun style hs => ?_, ?_, ws, ⟨items, ?_, hws⟩, _, hwritten, writes_tidied hws hkept⟩
    · exact ((hframe.mono (by simp)).trans (hlayout.mono (by simp))).trans (hitems.mono (by simp))
    · rw [hitems "style" (by decide), hlayout "style" (by decide), withStyle_of_style hgiven hs, hs]
    · exact (repairLayout_silent hlaidOut hlayoutSilent).congr (hstyle "layout" (by decide)).symm
        (hitems "layout" (by decide))
    · rw [← hread, hlayout "commands" (by decide), hstyle "commands" (by decide)]

theorem repairPaths_silent {names : List (Json α)} {layer : String} {place : Nat} {taken : List String}
    {entries : List (Json α)} {r : Repaired α (List (Json α))}
    (h : repairPaths names layer place taken entries = .ok r) (hsilent : r.actions = []) :
    ∃ before after : List (Fields α), entries = before.map .obj ∧ r.value = after.map .obj ∧
      List.Forall₂ (PathKept tidied) before after := by
  induction entries generalizing place taken r with
  | nil =>
    obtain rfl := Except.ok.inj h
    exact ⟨[], [], rfl, rfl, .nil⟩
  | cons entry rest ih =>
    cases entry with
    | obj fields =>
      obtain ⟨path, hpath, h⟩ := bind_eq_ok_iff.mp h
      obtain ⟨others, hothers, h⟩ := bind_eq_ok_iff.mp h
      obtain rfl := pure_eq_ok_iff.mp h
      obtain ⟨hpathSilent, hrest⟩ := List.append_eq_nil_iff.mp hsilent
      obtain ⟨before, after, rfl, hvalue, hall⟩ := ih hothers hrest
      obtain ⟨kept, hkept, hpathKept⟩ := repairPath_silent hpath hpathSilent
      exact ⟨fields :: before, kept :: after, rfl, by simp [hkept, hvalue], .cons hpathKept hall⟩
    | null | bool | num | str | arr =>
      obtain ⟨others, -, h⟩ := bind_eq_ok_iff.mp h
      obtain rfl := pure_eq_ok_iff.mp h
      exact nomatch hsilent

theorem repairLayer_silent {names : List (Json α)} {place : Nat} {id : String} {fields : Fields α}
    {r : Repaired α (Fields α)} (h : repairLayer names place id fields = .ok r) (hsilent : r.actions = []) :
    LayerKept tidied fields r.value := by
  obtain ⟨laidOut, hlaidOut, h⟩ := bind_eq_ok_iff.mp h
  obtain ⟨paths, hpaths, h⟩ := bind_eq_ok_iff.mp h
  obtain rfl := pure_eq_ok_iff.mp h
  obtain ⟨hothers, hpathsSilent⟩ := List.append_eq_nil_iff.mp hsilent
  obtain ⟨hrenamed, hlayoutSilent⟩ := List.append_eq_nil_iff.mp hothers
  obtain ⟨hlabel, hid⟩ := withLabel_spec id fields
  have hgiven := renameActions_eq_nil_iff.mp hrenamed
  have hframe := hlabel.of_same (hid.trans hgiven.symm)
  have hlayout := (repairLayout_mended hlaidOut).frame
  have hentries : listField laidOut.value "paths" = listField fields "paths" :=
    listField_congr ((hlayout "paths" (by decide)).trans (hlabel "paths" (by decide)))
  obtain ⟨before, after, hbefore, hafter, hall⟩ := repairPaths_silent hpaths hpathsSilent
  refine ⟨?_, fun htruthy => ?_, ?_, before, after, hentries.symm.trans hbefore, ?_, hall⟩
  · exact ((hframe.mono (by simp)).trans (hlayout.mono (by simp))).put _ (by simp) _
  · rw [Table.get?_put_of_ne (by decide), hlayout "label" (by decide), withLabel_of_label hgiven (.inl htruthy)]
  · exact (repairLayout_silent hlaidOut hlayoutSilent).congr (hlabel "layout" (by decide)).symm
      (Table.get?_put_of_ne (by decide) _)
  · rw [← hafter, Table.get?_put_self]

theorem repairLayers_silent {names : List (Json α)} {place : Nat} {taken : List String}
    {entries : List (Json α)} {r : Repaired α (List (Json α))}
    (h : repairLayers names place taken entries = .ok r) (hsilent : r.actions = []) :
    ∃ before after : List (Fields α), entries = before.map .obj ∧ r.value = after.map .obj ∧
      List.Forall₂ (LayerKept tidied) before after := by
  induction entries generalizing place taken r with
  | nil =>
    obtain rfl := Except.ok.inj h
    exact ⟨[], [], rfl, rfl, .nil⟩
  | cons entry rest ih =>
    cases entry with
    | obj fields =>
      obtain ⟨layer, hlayer, h⟩ := bind_eq_ok_iff.mp h
      obtain ⟨others, hothers, h⟩ := bind_eq_ok_iff.mp h
      obtain rfl := pure_eq_ok_iff.mp h
      obtain ⟨hlayerSilent, hrest⟩ := List.append_eq_nil_iff.mp hsilent
      obtain ⟨before, after, rfl, hvalue, hall⟩ := ih hothers hrest
      exact ⟨fields :: before, layer.value :: after, rfl, by simp [hvalue],
        .cons (repairLayer_silent hlayer hlayerSilent) hall⟩
    | null | bool | num | str | arr =>
      obtain ⟨others, -, h⟩ := bind_eq_ok_iff.mp h
      obtain rfl := pure_eq_ok_iff.mp h
      exact nomatch hsilent

theorem repairLayerList_silent {names : List (Json α)} {design : Fields α} {r : Repaired α (Fields α)}
    (h : repairLayerList names design = .ok r) (hsilent : r.actions = []) : DesignKept tidied design r.value := by
  obtain ⟨repaired, hrepaired, h⟩ := bind_eq_ok_iff.mp h
  obtain rfl := pure_eq_ok_iff.mp h
  obtain ⟨hentries, layers, hlayers, hvalue, hlayersSilent⟩ := Repaired.andThen_silent hrepaired hsilent
  obtain ⟨before, after, hbefore, hafter, hall⟩ := repairLayers_silent hlayers hlayersSilent
  refine ⟨before, after, ?_, ?_, hall⟩
  · unfold layerEntries at hentries hbefore
    split at hentries
    · next items hitems =>
      rw [hitems] at hbefore ⊢
      exact congrArg (fun items => some (Json.arr items)) hbefore
    · exact nomatch hentries
  · rw [Repaired.value_map, hvalue, hafter, Table.get?_put_self]

theorem repairDesign_kept {design : Fields α} {r : Repaired α (Fields α)} (h : repairDesign design = .ok r)
    (hsilent : r.actions = []) : DesignKept tidied design r.value := by
  obtain ⟨canvas, hcanvas, h⟩ := bind_eq_ok_iff.mp h
  obtain ⟨regions, hregions, h⟩ := bind_eq_ok_iff.mp h
  obtain ⟨-, list, hlist, hvalue, hlistSilent⟩ := Repaired.andThen_silent h hsilent
  obtain ⟨canvas', hcanvas', hcv⟩ := Repaired.of_andThen hcanvas
  obtain ⟨regions', hregions', hrv⟩ := Repaired.of_andThen hregions
  have hkept : DesignKept tidied regions.value.1 list.value := repairLayerList_silent hlist hlistSilent
  rw [hrv, ← hvalue] at hkept
  obtain ⟨before, after, hbefore, hafter, hall⟩ := hkept
  refine ⟨before, after, ?_, hafter, hall⟩
  -- nothing touches the list of layers before it is its turn
  rw [← hbefore, (repairRegions_spec hregions').1 "layers" (by decide), hcv,
    repairCanvas_frame hcanvas' "layers" (by decide), repairVersion_frame design "layers" (by decide)]

omit [UnitOrder α] in
/-- What the orchestration calls unrepaired was accepted as it came, or repaired without an action. -/
theorem Studio.ReadsAs.unrepaired {aspect : Aspect} {reply : String} {document : Document α} {design : Fields α}
    {r : Repaired α (Fields α)} (hread : Studio.ReadsAs aspect reply document false)
    (hreply : readReply reply = .ok design) (h : repairDesign design = .ok r) :
    (∃ outcome, validateData design (some (.ofAspect aspect)) = .ok outcome ∧ outcome.isOk = true) ∨
      r.actions = [] := by
  obtain ⟨design', outcome, actions, hdesign, hexamine, -, hflag⟩ := hread
  obtain rfl := Except.ok.inj (hreply.symm.trans hdesign)
  obtain ⟨first, hfirst, hexamine⟩ := bind_eq_ok_iff.mp hexamine
  split at hexamine
  · next hok => exact .inl ⟨first, hfirst, hok⟩
  · obtain ⟨repaired, hrepaired, hexamine⟩ := bind_eq_ok_iff.mp hexamine
    obtain rfl := Except.ok.inj (h.symm.trans hrepaired)
    obtain ⟨second, -, hexamine⟩ := bind_eq_ok_iff.mp hexamine
    obtain ⟨-, rfl⟩ := Prod.mk.inj (pure_eq_ok_iff.mp hexamine)
    obtain ⟨hempty, -⟩ := Bool.or_eq_false_iff.mp hflag.symm
    exact .inr (by simpa using hempty)

/-- **What a repair does without a word.** If it tells of nothing, the layers and paths are those that there were and
the commands of each path the same but for what is tidied; so the drawing is the same just if every layer has a list of
paths and every path is tidy. And what the orchestration calls unrepaired was accepted as it came, or a repair of it
tells of nothing. -/
theorem repairDesign_silent {design : Fields α} {r : Repaired α (Fields α)} (h : repairDesign design = .ok r) :
    (r.actions = [] → DesignKept tidied design r.value ∧ (SameDrawing design r.value ↔
      ∀ layer ∈ objectsOf (listField design "layers"),
        (∃ entries, Table.get? layer "paths" = some (.arr entries)) ∧ LayerTidy layer)) ∧
    ∀ (aspect : Aspect) (reply : String) (document : Document α), readReply reply = .ok design →
      Studio.ReadsAs aspect reply document false →
      (∃ outcome, validateData design (some (.ofAspect aspect)) = .ok outcome ∧ outcome.isOk = true) ∨
        r.actions = [] := by
  refine ⟨fun hsilent => ?_, fun aspect reply document hreply hread => hread.unrepaired hreply h⟩
  have hkept := repairDesign_kept h hsilent
  refine ⟨hkept, ?_⟩
  unfold SameDrawing
  rw [hkept.same_iff]
  exact ⟨fun ⟨htidy, hlisted⟩ layer hl => ⟨hlisted layer hl, htidy layer hl⟩,
    fun hall => ⟨fun layer hl => (hall layer hl).2, fun layer hl => (hall layer hl).1⟩⟩

end

/-! ## A drawing that is changed without a word -/

/-- A reply with a layer whose path begins with a close, and a layer with an object in place of its list of paths. -/
def untoldReply : String :=
  "\x7b\"version\":\"unified-layered-1.0\"," ++
    "\"canvas\":\x7b\"width\":512,\"height\":512,\"aspectRatio\":\"1:1\"\x7d,\"layers\":[" ++
    "\x7b\"id\":\"a\",\"label\":\"A\",\"paths\":[\x7b\"id\":\"p\",\"style\":\x7b\x7d,\"commands\":[" ++
    "\x7b\"cmd\":\"Z\"\x7d,\x7b\"cmd\":\"M\",\"coords\":[0,0]\x7d," ++
    "\x7b\"cmd\":\"L\",\"coords\":[8,4]\x7d]\x7d]\x7d," ++
    "\x7b\"id\":\"b\",\"label\":\"B\",\"paths\":\x7b\"commands\":[]\x7d\x7d]\x7d"

/-- Whether a layer has a list of paths. -/
def hasPathList {α : Type} (layer : Fields α) : Bool :=
  match Table.get? layer "paths" with
  | some (.arr _) => true
  | _ => false

/-- That reply is repaired without an action, and what is read of it counts as unrepaired. -/
theorem untold_is_read : ∃ (design : Fields Float) (r : Repaired Float (Fields Float)) (document : Document Float),
    readReply untoldReply = .ok design ∧ repairDesign design = .ok r ∧ r.actions = [] ∧
      Studio.ReadsAs .square untoldReply document false ∧
      (objectsOf (listField design "layers")).all hasPathList = false := by
  have hruns : ((readReply untoldReply : Except (Fault Float) (Fields Float)).toOption.any fun design =>
      (repairDesign design).toOption.any (fun r => r.actions.isEmpty) &&
        (Studio.examine design (.ofAspect .square)).toOption.any (fun examined =>
          examined.1.accepted?.isSome && (!examined.2.isEmpty || examined.1.isSanitized) == false) &&
        (objectsOf (listField design "layers")).all hasPathList == false) = true := by decide +kernel
  obtain ⟨design, hdesign, hruns⟩ := (Option.any_eq_true _ _).mp hruns
  obtain ⟨hruns, hpaths⟩ := Bool.and_eq_true_iff.mp hruns
  obtain ⟨hrepairs, hexamines⟩ := Bool.and_eq_true_iff.mp hruns
  obtain ⟨r, hr, hactions⟩ := (Option.any_eq_true _ _).mp hrepairs
  obtain ⟨examined, hexamined, hread⟩ := (Option.any_eq_true _ _).mp hexamines
  obtain ⟨haccepted, hflag⟩ := Bool.and_eq_true_iff.mp hread
  obtain ⟨document, hdocument⟩ := Option.isSome_iff_exists.mp haccepted
  exact ⟨design, r, document, eq_ok_of_toOption hdesign, eq_ok_of_toOption hr, List.isEmpty_iff.mp hactions,
    ⟨design, examined.1, examined.2, eq_ok_of_toOption hdesign, eq_ok_of_toOption hexamined, hdocument,
      (beq_iff_eq.mp hflag).symm⟩, beq_iff_eq.mp hpaths⟩

theorem repairDesign_silent_untold : ∃ (design : Fields Float) (r : Repaired Float (Fields Float))
    (document : Document Float), repairDesign design = .ok r ∧ r.actions = [] ∧
      (DesignKept tidied design r.value ∧ (SameDrawing design r.value ↔
        ∀ layer ∈ objectsOf (listField design "layers"),
          (∃ entries, Table.get? layer "paths" = some (.arr entries)) ∧ LayerTidy layer)) ∧
      readReply untoldReply = .ok design ∧ Studio.ReadsAs .square untoldReply document false ∧
      ((∃ outcome, validateData design (some (.ofAspect .square)) = .ok outcome ∧ outcome.isOk = true) ∨
        r.actions = []) := by
  obtain ⟨design, r, document, hreply, hr, hsilent, hread, -⟩ := untold_is_read
  obtain ⟨hkept, hflag⟩ := repairDesign_silent hr
  exact ⟨design, r, document, hr, hsilent, hkept hsilent, hreply, hread,
    hflag .square untoldReply document hreply hread⟩

/-- The object is replaced by an empty list of paths, and nothing tells of that. -/
theorem repairDesign_untold : ¬ ∀ (design : Fields Float) (r : Repaired Float (Fields Float)),
    repairDesign design = .ok r → r.actions = [] → SameDrawing design r.value := by
  intro h
  obtain ⟨design, r, -, -, hr, hsilent, -, hpaths⟩ := untold_is_read
  obtain ⟨-, hlisted⟩ := h design r hr hsilent
  have hall : (objectsOf (listField design "layers")).all hasPathList = true := by
    refine List.all_eq_true.mpr fun layer hl => ?_
    obtain ⟨entries, hentries⟩ := hlisted layer hl
    unfold hasPathList
    rw [hentries]
  exact nomatch hpaths.symm.trans hall

end Drawing
