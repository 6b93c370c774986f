import Drawing.Proofs.Repair.Commands
import Drawing.Proofs.Repair.Layout
import Drawing.Proofs.Repair.Name
import Drawing.Repair.Design

/-!
# `Drawing/Proofs/Repair/Design.lean` — a repaired design is in order

The seven repairs are made one after another, each on its own fields, so what one has put right the next ones
leave as it is. What they come to together:

> **nothing usable is lost, and all that is left is in order** — the layers are the objects among the entries,
> the paths of each are those that draw something, and every id, command, layout and region is as a document
> needs it.
-/

namespace Drawing

section

variable {α : Type}

/-- The objects among some entries. -/
def objectsOf (entries : List (Json α)) : List (Fields α) :=
  entries.filterMap fun
    | .obj fields => some fields
    | _ => none

@[simp] theorem objectsOf_obj (fields : Fields α) (entries : List (Json α)) :
    objectsOf (.obj fields :: entries) = fields :: objectsOf entries := rfl

theorem listField_congr {fields fields' : Fields α} {name : String}
    (h : Table.get? fields name = Table.get? fields' name) :
    listField fields name = listField fields' name := by
  unfold listField
  rw [h]

theorem listField_of_get? {name : String} {fields : Fields α} {items : List (Json α)}
    (h : Table.get? fields name = some (.arr items)) : listField fields name = items := by
  unfold listField
  rw [h]

/-! ## Ids -/

/-- Objects with ids that are not empty, all different, and not taken yet. -/
def FreshIds (taken : List String) (entries : List (Fields α)) : Prop :=
  ∃ ids : List String, entries.map (fun fields => Table.get? fields "id") = ids.map (some ∘ .str) ∧
    "" ∉ ids ∧ ids.Nodup ∧ ∀ id ∈ ids, id ∉ taken

namespace FreshIds

variable {taken : List String} {id : String} {entries : List (Fields α)}

theorem nil : FreshIds taken ([] : List (Fields α)) :=
  ⟨[], rfl, List.not_mem_nil, List.nodup_nil, nofun⟩

theorem cons {fields : Fields α} (hid : Table.get? fields "id" = some (.str id)) (hne : id ≠ "")
    (hfree : id ∉ taken) (h : FreshIds (id :: taken) entries) : FreshIds taken (fields :: entries) := by
  obtain ⟨ids, hids, hempty, hnodup, htaken⟩ := h
  refine ⟨id :: ids, ?_, ?_, ?_, ?_⟩
  · rw [List.map_cons, List.map_cons, hids, hid]
    rfl
  · simpa [hne.symm] using hempty
  · exact List.nodup_cons.mpr ⟨fun hmem => htaken id hmem List.mem_cons_self, hnodup⟩
  · exact List.forall_mem_cons.mpr
      ⟨hfree, fun other ho hmem => htaken other ho (List.mem_cons_of_mem id hmem)⟩

/-- An id that was taken by something dropped may as well be free. -/
theorem weaken (h : FreshIds (id :: taken) entries) : FreshIds taken entries := by
  obtain ⟨ids, hids, hempty, hnodup, htaken⟩ := h
  exact ⟨ids, hids, hempty, hnodup,
    fun other ho hmem => htaken other ho (List.mem_cons_of_mem id hmem)⟩

theorem of_cons {fields : Fields α} {rest : List (Fields α)} (h : FreshIds taken (fields :: rest)) :
    ∃ id, Table.get? fields "id" = some (.str id) ∧ id ≠ "" ∧ id ∉ taken ∧ FreshIds (id :: taken) rest := by
  obtain ⟨ids, hids, hempty, hnodup, htaken⟩ := h
  cases ids with
  | nil => exact nomatch hids
  | cons id ids =>
    obtain ⟨hid, hrest⟩ := List.cons.inj hids
    obtain ⟨hnew, hnodup⟩ := List.nodup_cons.mp hnodup
    obtain ⟨hne, hempty⟩ := not_or.mp (List.mem_cons.not.mp hempty)
    obtain ⟨hfree, htaken⟩ := List.forall_mem_cons.mp htaken
    refine ⟨id, hid, Ne.symm hne, hfree, ids, hrest, hempty, hnodup, fun other ho hmem => ?_⟩
    rcases List.mem_cons.mp hmem with rfl | hmem
    · exact hnew ho
    · exact htaken other ho hmem

end FreshIds

/-- An object that has its id already is not renamed. -/
theorem renameActions_eq_nil_iff {fields : Fields α} {id : String} {action : RepairAction α} :
    renameActions fields id action = [] ↔ Table.get? fields "id" = some (.str id) := by
  unfold renameActions
  split
  · next s hs =>
    rw [hs, Option.some.injEq, Json.str.injEq]
    split
    · next hid => exact iff_of_true rfl hid
    · next hid => exact iff_of_false (List.cons_ne_nil _ _) hid
  · next hother => exact iff_of_false (List.cons_ne_nil _ _) fun hs => hother id hs

/-! ## Frames -/

/-- An object that is given an id, and perhaps another field behind it. -/
theorem given_id {id name : String} {fields after : Fields α} (hname : name ≠ "id")
    (h : after = Table.put "id" (.str id) fields ∨
      ∃ v, after = Table.put name v (Table.put "id" (.str id) fields)) :
    AgreeBeyond ["id", name] fields after ∧ Table.get? after "id" = some (.str id) := by
  have hput := (AgreeBeyond.refl ["id", name] fields).put "id" (by simp) (.str id)
  rcases h with rfl | ⟨v, rfl⟩
  · exact ⟨hput, Table.get?_put_self fields⟩
  · refine ⟨hput.put name (by simp) v, ?_⟩
    rw [Table.get?_put_of_ne hname.symm, Table.get?_put_self]

theorem withStyle_spec (id : String) (fields : Fields α) :
    AgreeBeyond ["id", "style"] fields (withStyle id fields) ∧
      Table.get? (withStyle id fields) "id" = some (.str id) := by
  refine given_id (by decide) ?_
  simp only [withStyle]
  split
  · exact .inl rfl
  · exact .inr ⟨_, rfl⟩

theorem style_withStyle (id : String) (fields : Fields α) :
    ∃ style, Table.get? (withStyle id fields) "style" = some (.obj style) := by
  simp only [withStyle]
  split
  · next style hstyle => exact ⟨style, hstyle⟩
  · exact ⟨[], Table.get?_put_self _⟩

theorem withStyle_of_style {id : String} {fields style : Fields α}
    (hid : Table.get? fields "id" = some (.str id)) (hstyle : Table.get? fields "style" = some (.obj style)) :
    withStyle id fields = fields := by
  simp only [withStyle, Table.put_of_get? hid, hstyle]

theorem withLabel_spec [Scalar α] (id : String) (fields : Fields α) :
    AgreeBeyond ["id", "label"] fields (withLabel id fields) ∧
      Table.get? (withLabel id fields) "id" = some (.str id) := by
  refine given_id (by decide) ?_
  simp only [withLabel]
  split
  · exact .inl rfl
  · exact .inr ⟨_, rfl⟩

theorem label_withLabel [Scalar α] (id : String) (fields : Fields α) :
    ((Table.get? (withLabel id fields) "label").getD .null).isTruthy = true ∨
      Table.get? (withLabel id fields) "label" = some (.str (labelOfId id)) := by
  simp only [withLabel]
  split
  · next htruthy => exact .inl htruthy
  · exact .inr (Table.get?_put_self _)

theorem withLabel_of_label [Scalar α] {id : String} {fields : Fields α}
    (hid : Table.get? fields "id" = some (.str id))
    (hlabel : ((Table.get? fields "label").getD .null).isTruthy = true ∨
      Table.get? fields "label" = some (.str (labelOfId id))) : withLabel id fields = fields := by
  simp only [withLabel, Table.put_of_get? hid]
  split
  · rfl
  · next hfalsy =>
    rcases hlabel with htruthy | hlabel
    · exact absurd htruthy hfalsy
    · exact Table.put_of_get? hlabel

theorem withCommandItems_spec (commands : List (Command α)) (fields : Fields α) :
    AgreeBeyond ["commands", "d"] fields (withCommandItems commands fields) ∧
      Table.get? (withCommandItems commands fields) "commands" =
        some (.arr (commands.map (Command.json .stored))) := by
  unfold withCommandItems
  refine ⟨((AgreeBeyond.refl _ _).put _ (by simp) _).erase _ (by simp), ?_⟩
  rw [Table.get?_erase_of_ne (by decide), Table.get?_put_self]

theorem repairVersion_frame (design : Fields α) :
    AgreeBeyond ["version"] design (repairVersion design).value := by
  have hput := (AgreeBeyond.refl ["version"] design).put "version" (by simp)
    (.str schemaVersion)
  unfold repairVersion
  split
  · split
    · exact .refl _ _
    · exact hput
  · exact hput

theorem version_repairVersion (design : Fields α) :
    Table.get? (repairVersion design).value "version" = some (.str schemaVersion) := by
  unfold repairVersion
  split
  · next s hs =>
    split_ifs with hcurrent
    · rw [← hcurrent]
      exact hs
    · exact Table.get?_put_self _
  · exact Table.get?_put_self _

theorem repairVersion_of_version {design : Fields α}
    (h : Table.get? design "version" = some (.str schemaVersion)) : repairVersion design = .same design := by
  unfold repairVersion
  rw [h]
  exact if_pos rfl

theorem repairCanvas_frame [Scalar α] {design : Fields α} {r : Repaired α (Fields α)}
    (h : repairCanvas design = .ok r) : AgreeBeyond ["canvas"] design r.value := by
  unfold repairCanvas at h
  split at h
  · obtain ⟨sides, -, h⟩ := bind_eq_ok_iff.mp h
    obtain ⟨aspect, -, h⟩ := bind_eq_ok_iff.mp h
    obtain rfl := pure_eq_ok_iff.mp h
    exact (AgreeBeyond.refl _ _).put _ (by simp) _
  · obtain rfl := Except.ok.inj h
    exact (AgreeBeyond.refl _ _).put _ (by simp) _

/-! ## Custom regions -/

/-- The custom regions of a design. -/
def customRegions (design : Fields α) : List (Json α) :=
  match Table.get? design "layout" with
  | some (.obj layout) => listField layout "regions"
  | _ => []

/-- The names of the custom regions of a design. -/
def customNames (design : Fields α) : List (Json α) := (customRegions design).filterMap regionName?

theorem customRegions_congr {design design' : Fields α}
    (h : Table.get? design "layout" = Table.get? design' "layout") :
    customRegions design = customRegions design' := by
  unfold customRegions
  rw [h]

theorem customRegions_put (kept : List (Json α)) (layout design : Fields α) :
    customRegions (Table.put "layout" (.obj (Table.put "regions" (.arr kept) layout)) design) = kept := by
  simp only [customRegions, listField, Table.get?_put_self]

/-- Only lists have entries that are objects. -/
theorem mem_listField_of_entriesOf {layout fields : Fields α} {name : String} {entries : List (Json α)}
    (h : entriesOf ((Table.get? layout name).getD .null) = .ok entries) (hmem : .obj fields ∈ entries) :
    .obj fields ∈ listField layout name := by
  unfold listField
  cases hv : Table.get? layout name with
  | none =>
    rw [hv] at h
    exact nomatch h
  | some v =>
    rw [hv] at h
    cases v with
    | arr items =>
      obtain rfl := Except.ok.inj h
      exact hmem
    | str s =>
      obtain rfl := Except.ok.inj h
      obtain ⟨_, -, hc⟩ := List.mem_map.mp hmem
      exact nomatch hc
    | obj inner =>
      obtain rfl := Except.ok.inj h
      obtain ⟨_, -, hc⟩ := List.mem_map.mp hmem
      exact nomatch hc
    | null | bool | num => exact nomatch h

/-- The custom regions of a design are those entries of its list that may be registered, if its layout is one. -/
theorem repairRegions_cases [Scalar α] {design : Fields α}
    {r : Repaired α (Fields α × List (Json α))} (h : repairRegions design = .ok r) :
    (∃ (layout : Fields α) (kept : List (Json α × Json α)),
      Table.get? design "layout" = some (.obj layout) ∧
        (∀ p ∈ kept, p.1 ∈ listField layout "regions" ∧ Registrable p.1 ∧ regionName? p.1 = some p.2) ∧
        r.value = (Table.put "layout" (.obj (Table.put "regions" (.arr (kept.map Prod.fst)) layout)) design,
          kept.map Prod.snd)) ∨
      (∀ layout, Table.get? design "layout" ≠ some (.obj layout)) ∧ r.value = (design, []) := by
  unfold repairRegions at h
  split at h
  · next layout hlayout =>
    refine .inl ⟨layout, ?_⟩
    dsimp only at h
    split_ifs at h
    · obtain ⟨entries, hentries, h⟩ := bind_eq_ok_iff.mp h
      obtain rfl := pure_eq_ok_iff.mp h
      refine ⟨_, hlayout, fun p hp => ?_, rfl⟩
      obtain ⟨hentry, hregistrable, hname⟩ := keepRegistrable_mem entries p hp
      have ⟨fields, _, _, _, hfields, _⟩ := hregistrable
      rw [hfields] at hentry
      exact ⟨hfields ▸ mem_listField_of_entriesOf (mapError_eq_ok_iff.mp hentries) hentry, hregistrable, hname⟩
    · obtain rfl := pure_eq_ok_iff.mp h
      exact ⟨[], hlayout, fun p hp => absurd hp List.not_mem_nil, rfl⟩
  · next hlayout =>
    obtain rfl := Except.ok.inj h
    exact .inr ⟨hlayout, rfl⟩

/-- The custom regions that are kept may be registered, and it is their names that layouts may use. -/
theorem repairRegions_spec [Scalar α] {design : Fields α}
    {r : Repaired α (Fields α × List (Json α))} (h : repairRegions design = .ok r) :
    AgreeBeyond ["layout"] design r.value.1 ∧
      (∀ region ∈ customRegions r.value.1, Registrable region) ∧
      r.value.2 = customNames r.value.1 := by
  rcases repairRegions_cases h with ⟨layout, kept, -, hmem, hr⟩ | ⟨hlayout, hr⟩
  · rw [hr, customNames, customRegions_put]
    refine ⟨(AgreeBeyond.refl _ _).put _ (by simp) _, ?_, ?_⟩
    · intro region hregion
      obtain ⟨p, hp, rfl⟩ := List.mem_map.mp hregion
      exact (hmem p hp).2.1
    · rw [List.filterMap_map]
      exact (List.filterMap_eq_map_iff_forall_eq_some.mpr fun p hp => (hmem p hp).2.2).symm
  · have hnone : customRegions design = [] := by
      unfold customRegions
      split
      · next layout hobj => exact absurd hobj (hlayout layout)
      · rfl
    rw [hr, customNames, hnone]
    exact ⟨.refl _ _, by simp, rfl⟩

end

variable {α : Type} [Scalar α] [Trig α]

/-! ## Paths -/

/-- Whether the commands of a path repair to any. -/
def drawsSomething (path : Fields α) : Bool :=
  match repairCommands "" path with
  | .ok commands => !commands.value.isEmpty
  | .error _ => false

/-- A path and what it is repaired to, if custom regions of the given names are kept. -/
structure PathRepaired (names : List (Json α)) (before after : Fields α) : Prop where
  frame : AgreeBeyond ["id", "style", "layout", "commands", "d"] before after
  layout : ∀ v, givenField? after "layout" = some v → IsLayout names v
  commands : ∃ r, repairCommands "" before = .ok r ∧
    Table.get? after "commands" = some (.arr (r.value.map (Command.json .stored))) ∧
    WritesPath (r.value.map (Command.json .stored))

/-- What the repair of a path comes to, part by part, if the path is left. -/
theorem repairPath_parts [UnitOrder α] {names : List (Json α)} {layer id : String} {fields path : Fields α}
    {r : Repaired α (Option (Fields α))} (h : repairPath names layer id fields = .ok r)
    (hpath : r.value = some path) :
    AgreeBeyond ["layout", "commands", "d"] (withStyle id fields) path ∧
      (∃ laidOut, repairLayout (.path id) names (withStyle id fields) = .ok laidOut ∧
        Table.get? path "layout" = Table.get? laidOut.value "layout") ∧
      ∃ commands : List (Command α),
        Table.get? path "commands" = some (.arr (commands.map (Command.json .stored))) := by
  obtain ⟨laidOut, hlaidOut, h⟩ := bind_eq_ok_iff.mp h
  obtain ⟨commands, -, h⟩ := bind_eq_ok_iff.mp h
  split at h
  · obtain rfl := pure_eq_ok_iff.mp h
    exact nomatch hpath
  · obtain rfl := pure_eq_ok_iff.mp h
    obtain rfl := Option.some.inj hpath
    obtain ⟨hframe, hwritten⟩ := withCommandItems_spec commands.value laidOut.value
    refine ⟨?_, ⟨laidOut, hlaidOut, hframe "layout" (by decide)⟩, commands.value, hwritten⟩
    exact ((repairLayout_mended hlaidOut).frame.mono (by simp)).trans (hframe.mono (by simp))

/-- A path that gets an id keeps it, unless it draws nothing and is dropped. -/
theorem repairPath_spec [UnitOrder α] {names : List (Json α)} {layer id : String} {fields : Fields α}
    {r : Repaired α (Option (Fields α))} (h : repairPath names layer id fields = .ok r) :
    (drawsSomething fields = false ∧ r.value = none) ∨
      drawsSomething fields = true ∧ ∃ path, r.value = some path ∧
        Table.get? path "id" = some (.str id) ∧ PathRepaired names fields path := by
  obtain ⟨laidOut, hlaidOut, h⟩ := bind_eq_ok_iff.mp h
  obtain ⟨commands, hcommands, h⟩ := bind_eq_ok_iff.mp h
  have hlayout := repairLayout_mended hlaidOut
  obtain ⟨hstyle, hid⟩ := withStyle_spec id fields
  have hframe : AgreeBeyond ["id", "style", "layout"] fields laidOut.value :=
    (hstyle.mono (by simp)).trans (hlayout.frame.mono (by simp))
  -- so the commands that were repaired are still those that were written
  obtain ⟨own, hown, hvalue⟩ := repairCommands_congr "" (hframe "commands" (by decide))
    (hframe "d" (by decide)) hcommands
  split at h
  · next hempty =>
    obtain rfl := pure_eq_ok_iff.mp h
    refine .inl ⟨?_, rfl⟩
    simp only [drawsSomething, hown, hvalue, hempty, Bool.not_true]
  · next hdraws =>
    obtain rfl := pure_eq_ok_iff.mp h
    obtain ⟨hitems, hwritten⟩ := withCommandItems_spec commands.value laidOut.value
    refine .inr ⟨?_, _, rfl, ?_, (hframe.mono (by simp)).trans (hitems.mono (by simp)), ?_, own, hown, ?_, ?_⟩
    · simp only [drawsSomething, hown, hvalue, hdraws, Bool.not_false]
    · exact (hitems "id" (by decide)).trans ((hlayout.frame "id" (by decide)).trans hid)
    · exact fun v hv => hlayout.good v ((givenField?_congr (hitems "layout" (by decide))).symm.trans hv)
    · rw [hvalue, hwritten]
    · rw [hvalue]
      exact repairCommands_writesPath hcommands fun hnil => hdraws (List.isEmpty_iff.mpr hnil)

/-- What the repair of a path does to every path that is left, the repair of a list does to all of them. -/
theorem repairPaths_forall₂ [UnitOrder α] {R : Fields α → Fields α → Prop} {names : List (Json α)}
    {layer : String} {place : Nat} {taken : List String} {entries : List (Json α)}
    {r : Repaired α (List (Json α))}
    (hR : ∀ fields ∈ objectsOf entries, ∀ place taken r path,
      repairPath names layer (freeId (wantedId (Table.get? fields "id") s!"{layer}_path_{place + 1}") taken)
        fields = .ok r → r.value = some path → R fields path)
    (h : repairPaths names layer place taken entries = .ok r) :
    ∃ paths : List (Fields α), r.value = paths.map .obj ∧
      List.Forall₂ R ((objectsOf entries).filter drawsSomething) paths ∧ FreshIds taken paths := by
  induction entries generalizing place taken r with
  | nil =>
    obtain rfl := Except.ok.inj h
    exact ⟨[], rfl, .nil, .nil⟩
  | cons entry rest ih =>
    cases entry with
    | obj fields =>
      obtain ⟨path, hpath, h⟩ := bind_eq_ok_iff.mp h
      obtain ⟨others, hothers, h⟩ := bind_eq_ok_iff.mp h
      obtain rfl := pure_eq_ok_iff.mp h
      rw [objectsOf_obj] at hR ⊢
      obtain ⟨hfirst, hrest⟩ := List.forall_mem_cons.mp hR
      obtain ⟨paths, hvalue, hall, hids⟩ := ih hrest hothers
      rw [List.filter_cons]
      rcases repairPath_spec hpath with ⟨hdraws, hnone⟩ | ⟨hdraws, after, hsome, hid, -⟩
      -- a path that is dropped still takes its id
      · refine ⟨paths, ?_, ?_, hids.weaken⟩
        · simp [hnone, hvalue]
        · simpa [hdraws] using hall
      · refine ⟨after :: paths, ?_, ?_, .cons hid ?_ (freeId_not_mem _ _) hids⟩
        · simp [hsome, hvalue]
        · rw [if_pos hdraws]
          exact .cons (hfirst _ _ _ _ hpath hsome) hall
        · refine freeId_ne_empty (wantedId_ne_empty ?_ _) _
          simp
    | _ =>
      obtain ⟨others, hothers, h⟩ := bind_eq_ok_iff.mp h
      obtain rfl := pure_eq_ok_iff.mp h
      obtain ⟨paths, hrest⟩ := ih hR hothers
      exact ⟨paths, hrest⟩

theorem repairPaths_spec [UnitOrder α] {names : List (Json α)} {layer : String} {place : Nat}
    {taken : List String} {entries : List (Json α)} {r : Repaired α (List (Json α))}
    (h : repairPaths names layer place taken entries = .ok r) :
    ∃ paths : List (Fields α), r.value = paths.map .obj ∧
      List.Forall₂ (PathRepaired names) ((objectsOf entries).filter drawsSomething) paths ∧
      FreshIds taken paths := by
  refine repairPaths_forall₂ (fun fields _ _ _ _ path hpath hsome => ?_) h
  rcases repairPath_spec hpath with ⟨-, hnone⟩ | ⟨-, after, hafter, -, hrepaired⟩
  · exact nomatch hnone.symm.trans hsome
  · exact Option.some.inj (hafter.symm.trans hsome) ▸ hrepaired

/-! ## Layers -/

/-- A layer and what it is repaired to, if custom regions of the given names are kept. -/
structure LayerRepaired (names : List (Json α)) (before after : Fields α) : Prop where
  frame : AgreeBeyond ["id", "label", "layout", "paths"] before after
  layout : ∀ v, givenField? after "layout" = some v → IsLayout names v
  paths : ∃ paths : List (Fields α), Table.get? after "paths" = some (.arr (paths.map .obj)) ∧
    List.Forall₂ (PathRepaired names) ((objectsOf (listField before "paths")).filter drawsSomething) paths ∧
    FreshIds [] paths

/-- What the repair of a layer comes to, part by part. -/
theorem repairLayer_parts [UnitOrder α] {names : List (Json α)} {place : Nat} {id : String}
    {fields : Fields α} {r : Repaired α (Fields α)} (h : repairLayer names place id fields = .ok r) :
    AgreeBeyond ["layout", "paths"] (withLabel id fields) r.value ∧
      (∃ laidOut, repairLayout (.layer id) names (withLabel id fields) = .ok laidOut ∧
        Table.get? r.value "layout" = Table.get? laidOut.value "layout") ∧
      ∃ paths, repairPaths names id 0 [] (listField fields "paths") = .ok paths ∧
        Table.get? r.value "paths" = some (.arr paths.value) := by
  obtain ⟨laidOut, hlaidOut, h⟩ := bind_eq_ok_iff.mp h
  obtain ⟨paths, hpaths, h⟩ := bind_eq_ok_iff.mp h
  obtain rfl := pure_eq_ok_iff.mp h
  have hlayout := (repairLayout_mended hlaidOut).frame
  have hentries : listField laidOut.value "paths" = listField fields "paths" :=
    listField_congr ((hlayout "paths" (by decide)).trans ((withLabel_spec id fields).1 "paths" (by decide)))
  rw [hentries] at hpaths
  refine ⟨(hlayout.mono (by simp)).put _ (by simp) _, ⟨laidOut, hlaidOut, ?_⟩, paths, hpaths, ?_⟩
  · exact Table.get?_put_of_ne (by decide) _
  · exact Table.get?_put_self _

theorem repairLayer_spec [UnitOrder α] {names : List (Json α)} {place : Nat} {id : String}
    {fields : Fields α} {r : Repaired α (Fields α)} (h : repairLayer names place id fields = .ok r) :
    Table.get? r.value "id" = some (.str id) ∧ LayerRepaired names fields r.value := by
  obtain ⟨hframe, ⟨laidOut, hlaidOut, hlayout⟩, paths, hpaths, hwritten⟩ := repairLayer_parts h
  obtain ⟨hlabel, hid⟩ := withLabel_spec id fields
  obtain ⟨kept, hkept, hall, hids⟩ := repairPaths_spec hpaths
  refine ⟨(hframe "id" (by decide)).trans hid, (hlabel.mono (by simp)).trans (hframe.mono (by simp)), ?_,
    kept, hkept ▸ hwritten, hall, hids⟩
  exact fun v hv => (repairLayout_mended hlaidOut).good v ((givenField?_congr hlayout).symm.trans hv)

/-- What the repair of a layer does to every layer, the repair of a list does to all of them. -/
theorem repairLayers_forall₂ [UnitOrder α] {R : Fields α → Fields α → Prop} {names : List (Json α)}
    {place : Nat} {taken : List String} {entries : List (Json α)} {r : Repaired α (List (Json α))}
    (hR : ∀ fields ∈ objectsOf entries, ∀ place taken r,
      repairLayer names place (freeId (wantedId (Table.get? fields "id") s!"layer_{place + 1}") taken) fields =
        .ok r → R fields r.value)
    (h : repairLayers names place taken entries = .ok r) :
    ∃ layers : List (Fields α), r.value = layers.map .obj ∧
      List.Forall₂ R (objectsOf entries) layers ∧ FreshIds taken layers := by
  induction entries generalizing place taken r with
  | nil =>
    obtain rfl := Except.ok.inj h
    exact ⟨[], rfl, .nil, .nil⟩
  | cons entry rest ih =>
    cases entry with
    | obj fields =>
      obtain ⟨layer, hlayer, h⟩ := bind_eq_ok_iff.mp h
      obtain ⟨others, hothers, h⟩ := bind_eq_ok_iff.mp h
      obtain rfl := pure_eq_ok_iff.mp h
      rw [objectsOf_obj] at hR ⊢
      obtain ⟨hfirst, hrest⟩ := List.forall_mem_cons.mp hR
      obtain ⟨layers, hvalue, hall, hids⟩ := ih hrest hothers
      obtain ⟨hid, -⟩ := repairLayer_spec hlayer
      refine ⟨layer.value :: layers, ?_, .cons (hfirst _ _ _ hlayer) hall,
        .cons hid ?_ (freeId_not_mem _ _) hids⟩
      · simp [hvalue]
      · refine freeId_ne_empty (wantedId_ne_empty ?_ _) _
        simp
    | _ =>
      obtain ⟨others, hothers, h⟩ := bind_eq_ok_iff.mp h
      obtain rfl := pure_eq_ok_iff.mp h
      obtain ⟨layers, hrest⟩ := ih hR hothers
      exact ⟨layers, hrest⟩

theorem repairLayers_spec [UnitOrder α] {names : List (Json α)} {place : Nat} {taken : List String}
    {entries : List (Json α)} {r : Repaired α (List (Json α))}
    (h : repairLayers names place taken entries = .ok r) :
    ∃ layers : List (Fields α), r.value = layers.map .obj ∧
      List.Forall₂ (LayerRepaired names) (objectsOf entries) layers ∧ FreshIds taken layers :=
  repairLayers_forall₂ (fun _ _ _ _ _ hlayer => (repairLayer_spec hlayer).2) h

/-! ## Designs -/

/-- A design and what it is repaired to. -/
structure DesignRepaired (before after : Fields α) : Prop where
  frame : AgreeBeyond ["version", "canvas", "layout", "layers"] before after
  regions : ∀ region ∈ customRegions after, Registrable region
  layers : ∃ layers : List (Fields α), Table.get? after "layers" = some (.arr (layers.map .obj)) ∧
    List.Forall₂ (LayerRepaired (customNames after)) (objectsOf (listField before "layers")) layers ∧
    FreshIds [] layers

omit [Scalar α] [Trig α] in
theorem layerEntries_value (design : Fields α) : (layerEntries design).value = listField design "layers" := by
  unfold layerEntries listField
  split <;> rfl

/-- The layers of a design are replaced by what they are repaired to, and nothing else is. -/
theorem repairLayerList_layers {names : List (Json α)} {design : Fields α}
    {r : Repaired α (Fields α)} (h : repairLayerList names design = .ok r) :
    ∃ layers, repairLayers names 0 [] (listField design "layers") = .ok layers ∧
      r.value = Table.put "layers" (.arr layers.value) design := by
  obtain ⟨repaired, hrepaired, h⟩ := bind_eq_ok_iff.mp h
  obtain rfl := pure_eq_ok_iff.mp h
  obtain ⟨layers, hlayers, hvalue⟩ := Repaired.of_andThen hrepaired
  rw [layerEntries_value] at hlayers
  exact ⟨layers, hlayers, by rw [Repaired.value_map, hvalue]⟩

theorem repairLayerList_spec [UnitOrder α] {names : List (Json α)} {design : Fields α}
    {r : Repaired α (Fields α)} (h : repairLayerList names design = .ok r) :
    AgreeBeyond ["layers"] design r.value ∧
      ∃ layers : List (Fields α), Table.get? r.value "layers" = some (.arr (layers.map .obj)) ∧
        List.Forall₂ (LayerRepaired names) (objectsOf (listField design "layers")) layers ∧
        FreshIds [] layers := by
  obtain ⟨repaired, hrepaired, hr⟩ := repairLayerList_layers h
  obtain ⟨layers, hlayers, hall, hids⟩ := repairLayers_spec hrepaired
  rw [hr]
  refine ⟨(AgreeBeyond.refl _ _).put _ (by simp) _, layers, ?_, hall, hids⟩
  rw [Table.get?_put_self, hlayers]

/-- What the repair of a design comes to, part by part. -/
theorem repairDesign_parts {design : Fields α} {r : Repaired α (Fields α)} (h : repairDesign design = .ok r) :
    Table.get? r.value "version" = some (.str schemaVersion) ∧
      (∃ canvas, repairCanvas (repairVersion design).value = .ok canvas ∧
        Table.get? r.value "canvas" = Table.get? canvas.value "canvas") ∧
      ∃ before regions layers, AgreeBeyond ["version", "canvas"] design before ∧
        repairRegions before = .ok regions ∧
        Table.get? r.value "layout" = Table.get? regions.value.1 "layout" ∧
        repairLayers regions.value.2 0 [] (listField design "layers") = .ok layers ∧
        Table.get? r.value "layers" = some (.arr layers.value) := by
  obtain ⟨canvas, hcanvas, h⟩ := bind_eq_ok_iff.mp h
  obtain ⟨regions, hregions, h⟩ := bind_eq_ok_iff.mp h
  obtain ⟨canvas', hcanvas', hcv⟩ := Repaired.of_andThen hcanvas
  obtain ⟨regions', hregions', hrv⟩ := Repaired.of_andThen hregions
  obtain ⟨list, hlist, hlv⟩ := Repaired.of_andThen h
  rw [hcv] at hregions'
  rw [hrv] at hlist
  obtain ⟨layers, hlayers, hvalue⟩ := repairLayerList_layers hlist
  have hcanvasFrame := repairCanvas_frame hcanvas'
  have hregionsFrame := (repairRegions_spec hregions').1
  have hbefore : AgreeBeyond ["version", "canvas"] design canvas'.value :=
    ((repairVersion_frame design).mono (by simp)).trans (hcanvasFrame.mono (by simp))
  have hafter : AgreeBeyond ["layers"] regions'.value.1 r.value := by
    rw [hlv, hvalue]
    exact (AgreeBeyond.refl _ _).put _ (by simp) _
  rw [listField_congr ((hregionsFrame "layers" (by decide)).trans (hbefore "layers" (by decide)))] at hlayers
  refine ⟨?_, ⟨canvas', hcanvas', ?_⟩, canvas'.value, regions', layers, hbefore, hregions', ?_, hlayers, ?_⟩
  · rw [hafter "version" (by decide), hregionsFrame "version" (by decide), hcanvasFrame "version" (by decide)]
    exact version_repairVersion design
  · rw [hafter "canvas" (by decide), hregionsFrame "canvas" (by decide)]
  · exact hafter "layout" (by decide)
  · rw [hlv, hvalue, Table.get?_put_self]

/-- A repaired design is in order, whatever it was made of. -/
theorem repairDesign_repaired [UnitOrder α] {design : Fields α} {r : Repaired α (Fields α)}
    (h : repairDesign design = .ok r) : DesignRepaired design r.value := by
  obtain ⟨canvas, hcanvas, h⟩ := bind_eq_ok_iff.mp h
  obtain ⟨regions, hregions, h⟩ := bind_eq_ok_iff.mp h
  obtain ⟨canvas', hcanvas', hcv⟩ := Repaired.of_andThen hcanvas
  obtain ⟨regions', hregions', hrv⟩ := Repaired.of_andThen hregions
  obtain ⟨layers', hlayers', hlv⟩ := Repaired.of_andThen h
  rw [hcv] at hregions'
  rw [hrv] at hlayers'
  obtain ⟨hregionsFrame, hregistrable, hnames⟩ := repairRegions_spec hregions'
  obtain ⟨hlayersFrame, layers, hlayers, hall, hids⟩ := repairLayerList_spec hlayers'
  have hcustom : customRegions r.value = customRegions regions'.value.1 := by
    rw [hlv]
    exact customRegions_congr (hlayersFrame "layout" (by decide))
  have hbefore : AgreeBeyond ["version", "canvas", "layout"] design regions'.value.1 :=
    (((repairVersion_frame design).mono (by simp)).trans
      ((repairCanvas_frame hcanvas').mono (by simp))).trans (hregionsFrame.mono (by simp))
  refine ⟨?_, hcustom ▸ hregistrable, layers, hlv ▸ hlayers, ?_, hids⟩
  · rw [hlv]
    exact (hbefore.mono (by simp)).trans (hlayersFrame.mono (by simp))
  · -- the layers that are repaired are still those of the design
    rw [hnames, listField_congr (hbefore "layers" (by decide))] at hall
    rwa [customNames, hcustom]

/-- A design with something wrong at every place: two layers of one id with a text between them, a reserved
region beside a fit one, unknown names, an offset that goes too far, and a path that begins with a close. -/
def messyDesign : Fields Float := [
  ("layout", .obj [("regions", .arr [
    .obj [("name", .str "center"), ("bounds", .obj [("x", .ofInt 0), ("y", .ofInt 0),
      ("width", .ofInt 1), ("height", .ofInt 1)])],
    .obj [("name", .str "stage"), ("bounds", .obj [("x", .ofInt 0), ("y", .ofInt 0),
      ("width", .ofInt 1), ("height", .ofInt 1)])]])]),
  ("layers", .arr [
    .obj [("id", .str "sky"), ("layout", .obj [("region", .str "stage"), ("anchor", .str "nowhere")]),
      ("paths", .arr [
        .obj [("layout", .obj [("offset", .arr [.ofInt 7, .ofInt 0])]),
          ("commands", .arr [
            .obj [("cmd", .str "Z")],
            .obj [("cmd", .str "l"), ("coords", .arr [.ofInt 5, .ofInt 6, .ofInt 7])],
            .obj [("cmd", .str "H"), ("coords", .arr [.ofInt 9])]])],
        .obj [("id", .str "empty"), ("commands", .arr [])]])],
    .str "none",
    .obj [("id", .str "sky"), ("paths", .null)]])]

theorem repairDesign_repaired_messy :
    ∃ r, repairDesign messyDesign = .ok r ∧ DesignRepaired messyDesign r.value := by
  obtain ⟨r, hr⟩ := exists_ok_of_isSome (x := repairDesign messyDesign) (by decide +kernel)
  exact ⟨r, hr, repairDesign_repaired hr⟩

end Drawing
