import Drawing.Proofs.Repair.Design

/-!
# `Drawing/Proofs/Repair/Fresh.lean` — ids that are given one after another

Layers ask for ids, and so do the paths of each layer. A request is given the first of its candidates that is free,
and what it is given is taken for all the requests behind it. Nothing but the ids taken decides when the search for
a free candidate is over, and they may look like candidates themselves:

> **a search looks at one candidate more than there are ids taken at most** — and so requests that follow one another
> are given ids that are not empty, all different, and new (`given_ids_fresh`).
-/

namespace Drawing

/-! ## The search -/

/-- The search for an id from one of its candidates on. A candidate that is taken is passed over for the next one, and
the first that is free is found. Beside the id it is told how many candidates were looked at. -/
inductive IdSearch (wanted : String) (taken : List String) : Nat → Nat → String → Prop
  | free {n : Nat} (h : idCandidate wanted n ∉ taken) : IdSearch wanted taken n 1 (idCandidate wanted n)
  | passed {n looks : Nat} {id : String} (h : idCandidate wanted n ∈ taken)
      (rest : IdSearch wanted taken (n + 1) looks id) : IdSearch wanted taken n (looks + 1) id

namespace IdSearch

variable {wanted id id' : String} {taken : List String} {n looks looks' : Nat}

theorem unique (h : IdSearch wanted taken n looks id) (h' : IdSearch wanted taken n looks' id') :
    looks = looks' ∧ id = id' := by
  induction h generalizing looks' with
  | free hfree =>
    cases h' with
    | free => exact ⟨rfl, rfl⟩
    | passed htaken => exact absurd htaken hfree
  | passed htaken _ ih =>
    cases h' with
    | free hfree => exact absurd htaken hfree
    | passed _ rest =>
      obtain ⟨rfl, rfl⟩ := ih rest
      exact ⟨rfl, rfl⟩

/-- A search comes to the first candidate that is free. -/
theorem of_first {gap : Nat} (hfree : idCandidate wanted (n + gap) ∉ taken)
    (htaken : ∀ m < n + gap, idCandidate wanted m ∈ taken) :
    IdSearch wanted taken n (gap + 1) (idCandidate wanted (n + gap)) := by
  induction gap generalizing n with
  | zero => exact .free hfree
  | succ gap ih =>
    have hnext : n + (gap + 1) = n + 1 + gap := by omega
    rw [hnext] at hfree htaken ⊢
    exact .passed (htaken n (by omega)) (ih hfree htaken)

end IdSearch

/-- **A search ends**, and what it finds is the id that is chosen. -/
theorem exists_idSearch (wanted : String) (taken : List String) :
    ∃ most ≤ taken.toFinset.card + 1, ∀ looks id,
      IdSearch wanted taken 0 looks id ↔ looks = most ∧ id = freeId wanted taken := by
  obtain ⟨n, hcard, hid, hfree, htaken⟩ := freeId_first wanted taken
  have hsearch : IdSearch wanted taken 0 (n + 1) (freeId wanted taken) := by
    rw [← Nat.zero_add n] at hid hfree htaken
    rw [hid]
    exact .of_first hfree htaken
  -- the candidates that are passed over are taken, and the one that is found is looked at, too
  refine ⟨n + 1, Nat.succ_le_succ hcard, fun looks id => ⟨fun h => h.unique hsearch, ?_⟩⟩
  rintro ⟨rfl, rfl⟩
  exact hsearch

/-! ## Requests -/

section

variable {α : Type}

/-- A request for an id: what the raw data has for it, if it has anything, and the id that stands in. -/
structure IdRequest (α : Type) where
  value : Option (Json α)
  fallback : String

/-- The id that a request is given, and the ids taken from then on. -/
def IdRequest.give (q : IdRequest α) (taken : List String) : String × List String :=
  let id := freeId (wantedId q.value q.fallback) taken
  (id, id :: taken)

/-- The ids that some requests are given one after another, and the ids taken from then on. -/
def giveIds : List (IdRequest α) → List String → List String × List String
  | [], taken => ([], taken)
  | q :: rest, taken =>
    let (id, taken) := q.give taken
    let (ids, taken) := giveIds rest taken
    (id :: ids, taken)

/-- Ids that are not empty, all different and not taken yet; they are all that is taken in addition. -/
structure GivenFresh (taken ids after : List String) : Prop where
  nonempty : "" ∉ ids
  nodup : ids.Nodup
  free : ∀ id ∈ ids, id ∉ taken
  after : ∀ id, id ∈ after ↔ id ∈ ids ∨ id ∈ taken

theorem IdRequest.give_ne_empty {q : IdRequest α} (h : q.fallback ≠ "") (taken : List String) :
    (q.give taken).1 ≠ "" := freeId_ne_empty (wantedId_ne_empty h q.value) taken

/-- **A run of requests** is given new ids, each of them new to all that were given before it. -/
theorem giveIds_fresh {requests : List (IdRequest α)} (h : ∀ q ∈ requests, q.fallback ≠ "") (taken : List String) :
    GivenFresh taken (giveIds requests taken).1 (giveIds requests taken).2 := by
  induction requests generalizing taken with
  | nil => exact ⟨List.not_mem_nil, List.nodup_nil, nofun, fun id => by simp [giveIds]⟩
  | cons q rest ih =>
    obtain ⟨hq, hrest⟩ := List.forall_mem_cons.mp h
    have hgiven := ih hrest (q.give taken).2
    refine ⟨?_, ?_, ?_, fun id => ?_⟩
    · exact fun hmem => (List.mem_cons.mp hmem).elim (q.give_ne_empty hq taken).symm hgiven.nonempty
    · exact List.nodup_cons.mpr ⟨fun hmem => hgiven.free _ hmem List.mem_cons_self, hgiven.nodup⟩
    · exact List.forall_mem_cons.mpr
        ⟨freeId_not_mem _ _, fun id hid htaken => hgiven.free id hid (List.mem_cons_of_mem _ htaken)⟩
    · exact (hgiven.after id).trans (by simp [giveIds, IdRequest.give, or_assoc, or_left_comm])

/-! ## The requests of a repair -/

/-- The requests of the objects among some entries, the first of which has a given place. -/
def idRequests (standIn : Nat → String) (place : Nat) : List (Json α) → List (IdRequest α)
  | [] => []
  | .obj fields :: rest => ⟨Table.get? fields "id", standIn place⟩ :: idRequests standIn (place + 1) rest
  | _ :: rest => idRequests standIn (place + 1) rest

variable [Scalar α] [Trig α] [UnitOrder α]

/-- **The layers of a repair** have the ids that their requests are given. -/
theorem ids_repairLayers {names : List (Json α)} {place : Nat} {taken : List String} {entries : List (Json α)}
    {r : Repaired α (List (Json α))} (h : repairLayers names place taken entries = .ok r) :
    ∃ layers : List (Fields α), r.value = layers.map .obj ∧
      layers.map (fun layer => Table.get? layer "id") =
        (giveIds (idRequests (fun i => s!"layer_{i + 1}") place entries) taken).1.map (some ∘ .str) := by
  induction entries generalizing place taken r with
  | nil =>
    obtain rfl := Except.ok.inj h
    exact ⟨[], rfl, rfl⟩
  | cons entry rest ih =>
    cases entry with
    | obj fields =>
      obtain ⟨layer, hlayer, h⟩ := bind_eq_ok_iff.mp h
      obtain ⟨others, hothers, h⟩ := bind_eq_ok_iff.mp h
      obtain rfl := pure_eq_ok_iff.mp h
      obtain ⟨layers, hvalue, hids⟩ := ih hothers
      refine ⟨layer.value :: layers, by simp [hvalue], ?_⟩
      rw [List.map_cons, (repairLayer_spec hlayer).1, hids]
      rfl
    | _ =>
      obtain ⟨others, hothers, h⟩ := bind_eq_ok_iff.mp h
      obtain rfl := pure_eq_ok_iff.mp h
      obtain ⟨layers, hrest⟩ := ih hothers
      exact ⟨layers, hrest⟩

/-- **The paths of a repair** have ids that their requests are given. A path that draws nothing is given one, too, and
takes it away with it. -/
theorem ids_repairPaths {names : List (Json α)} {layer : String} {place : Nat} {taken : List String}
    {entries : List (Json α)} {r : Repaired α (List (Json α))}
    (h : repairPaths names layer place taken entries = .ok r) :
    ∃ (paths : List (Fields α)) (ids : List String), r.value = paths.map .obj ∧
      paths.map (fun path => Table.get? path "id") = ids.map (some ∘ .str) ∧
      ids.Sublist (giveIds (idRequests (fun i => s!"{layer}_path_{i + 1}") place entries) taken).1 := by
  induction entries generalizing place taken r with
  | nil =>
    obtain rfl := Except.ok.inj h
    exact ⟨[], [], rfl, rfl, List.nil_sublist _⟩
  | cons entry rest ih =>
    cases entry with
    | obj fields =>
      obtain ⟨path, hpath, h⟩ := bind_eq_ok_iff.mp h
      obtain ⟨others, hothers, h⟩ := bind_eq_ok_iff.mp h
      obtain rfl := pure_eq_ok_iff.mp h
      obtain ⟨paths, ids, hvalue, hids, hsublist⟩ := ih hothers
      rcases repairPath_spec hpath with ⟨-, hnone⟩ | ⟨-, after, hsome, hid, -⟩
      -- the id of a path that is dropped is taken all the same, so it is missing from those that are left
      · exact ⟨paths, ids, by simp [hnone, hvalue], hids, hsublist.cons _⟩
      · refine ⟨after :: paths, _ :: ids, by simp [hsome, hvalue], ?_, hsublist.cons_cons _⟩
        rw [List.map_cons, hid, hids]
        rfl
    | _ =>
      obtain ⟨others, hothers, h⟩ := bind_eq_ok_iff.mp h
      obtain rfl := pure_eq_ok_iff.mp h
      obtain ⟨paths, hrest⟩ := ih hothers
      exact ⟨paths, hrest⟩

/-- **Every id that is given is a new one.** The search for it ends, after one look more than there are ids taken at
most. What is found is not empty and was not taken; it is the id that is asked for, if that is a text, not empty and
free; and it is all that is taken in addition. So requests that follow one another are given ids that are all
different. Such are the ids of the layers of a repair, and those of the paths that are left in a layer. -/
theorem given_ids_fresh :
    (∀ (q : IdRequest α) (taken : List String), q.fallback ≠ "" →
      (∃ most ≤ taken.toFinset.card + 1, ∀ looks id,
        IdSearch (wantedId q.value q.fallback) taken 0 looks id ↔ looks = most ∧ id = (q.give taken).1) ∧
      (q.give taken).1 ≠ "" ∧ (q.give taken).1 ∉ taken ∧
      (∀ s, q.value = some (.str s) → s ≠ "" → s ∉ taken → (q.give taken).1 = s) ∧
      ∀ id, id ∈ (q.give taken).2 ↔ id = (q.give taken).1 ∨ id ∈ taken) ∧
    (∀ (requests : List (IdRequest α)) (taken : List String), (∀ q ∈ requests, q.fallback ≠ "") →
      GivenFresh taken (giveIds requests taken).1 (giveIds requests taken).2) ∧
    (∀ (names : List (Json α)) (place : Nat) (taken : List String) (entries : List (Json α))
      (r : Repaired α (List (Json α))), repairLayers names place taken entries = .ok r →
        ∃ layers : List (Fields α), r.value = layers.map .obj ∧
          layers.map (fun layer => Table.get? layer "id") =
            (giveIds (idRequests (fun i => s!"layer_{i + 1}") place entries) taken).1.map (some ∘ .str)) ∧
    ∀ (names : List (Json α)) (layer : String) (place : Nat) (taken : List String) (entries : List (Json α))
      (r : Repaired α (List (Json α))), repairPaths names layer place taken entries = .ok r →
        ∃ (paths : List (Fields α)) (ids : List String), r.value = paths.map .obj ∧
          paths.map (fun path => Table.get? path "id") = ids.map (some ∘ .str) ∧
          ids.Sublist (giveIds (idRequests (fun i => s!"{layer}_path_{i + 1}") place entries) taken).1 := by
  refine ⟨fun q taken hq => ⟨exists_idSearch _ taken, q.give_ne_empty hq taken, freeId_not_mem _ taken, ?_, ?_⟩,
    fun requests taken h => giveIds_fresh h taken, fun _ _ _ _ _ => ids_repairLayers,
    fun _ _ _ _ _ _ => ids_repairPaths⟩
  · intro s hvalue hs hfree
    show freeId (wantedId q.value q.fallback) taken = s
    rw [hvalue, wantedId_of_text hs, freeId_of_not_mem hfree]
  · exact fun id => List.mem_cons

end

/-- Two objects that ask for one id, with one between them that asks for a number behind it and draws nothing, one that
asks for no id, and one that asks for the id that stands in for none. -/
def namesakes : List (Json Float) :=
  let dot : String × Json Float :=
    ("commands", .arr [.obj [("cmd", .str "M"), ("coords", .arr [.ofInt 1, .ofInt 2])]])
  [.obj [("id", .str "sky"), dot], .obj [("id", .str "sky_2")], .obj [("id", .str "sky"), dot],
    .str "none", .obj [("id", .null), dot], .obj [("id", .str "layer_5"), dot]]

/-- The requests of namesakes among layers. -/
def namesakeRequests : List (IdRequest Float) := idRequests (fun i => s!"layer_{i + 1}") 0 namesakes

theorem given_ids_fresh_namesakes :
    (∀ q ∈ namesakeRequests, q.fallback ≠ "") ∧
      (giveIds namesakeRequests []).1 = ["sky", "sky_2", "sky_3", "layer_5", "layer_5_2"] ∧
      GivenFresh [] (giveIds namesakeRequests []).1 (giveIds namesakeRequests []).2 ∧
      (∃ most ≤ ["sky_2", "sky", "sky"].toFinset.card + 1, ∀ looks id,
        IdSearch "sky" ["sky_2", "sky", "sky"] 0 looks id ↔ looks = most ∧ id = "sky_3") ∧
      (∃ r, repairLayers [] 0 [] namesakes = .ok r ∧ ∃ layers : List (Fields Float), r.value = layers.map .obj ∧
        layers.map (fun layer => Table.get? layer "id") = (giveIds namesakeRequests []).1.map (some ∘ .str)) ∧
      ∃ r, repairPaths [] "hill" 0 [] namesakes = .ok r ∧
        ∃ (paths : List (Fields Float)) (ids : List String), r.value = paths.map .obj ∧
          paths.map (fun path => Table.get? path "id") = ids.map (some ∘ .str) ∧
          ids.Sublist ["sky", "sky_2", "sky_3", "hill_path_5", "layer_5"] := by
  have hfallback : ∀ q ∈ namesakeRequests, q.fallback ≠ "" := by decide +kernel
  have hids : (giveIds namesakeRequests []).1 = ["sky", "sky_2", "sky_3", "layer_5", "layer_5_2"] := by decide +kernel
  have hpathIds : (giveIds (idRequests (fun i => s!"hill_path_{i + 1}") 0 namesakes) []).1 =
      ["sky", "sky_2", "sky_3", "hill_path_5", "layer_5"] := by decide +kernel
  have hthird : freeId "sky" ["sky_2", "sky", "sky"] = "sky_3" := by decide +kernel
  obtain ⟨r, hr⟩ := exists_ok_of_isSome (x := repairLayers [] 0 [] namesakes) (by decide +kernel)
  obtain ⟨s, hs⟩ := exists_ok_of_isSome (x := repairPaths [] "hill" 0 [] namesakes) (by decide +kernel)
  obtain ⟨hgive, hfresh, hlayers, hpaths⟩ := given_ids_fresh (α := Float)
  have hsearch := (hgive ⟨some (.str "sky"), "layer_1"⟩ ["sky_2", "sky", "sky"] (by decide)).1
  have hleft := hpaths [] "hill" 0 [] namesakes s hs
  refine ⟨hfallback, hids, hfresh _ _ hfallback, ?_, ⟨r, hr, hlayers [] 0 [] namesakes r hr⟩, s, hs, ?_⟩
  · rwa [← hthird]
  · rwa [← hpathIds]

end Drawing
