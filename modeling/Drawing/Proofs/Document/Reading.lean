import Drawing.Proofs.Document.Records
import Drawing.Proofs.Path.Points

/-!
# `Drawing/Proofs/Document/Reading.lean` — what reading sees to

Three things are settled before a document is looked at as a whole: its points are finite, the sizes it asks for are
positive, and what it repeats it repeats at least once.
-/

namespace Drawing

variable {α : Type}

/-- A count that asks for one thing at least. -/
def RepeatCount.IsPositive : RepeatCount → Prop
  | one n => 0 < n
  | pair a b => 0 < a ∧ 0 < b

/-- The numbers of a size. -/
def SizeSpec.numbers : SizeSpec α → List α
  | absolute w h => [w, h]
  | relative share => [share]
  | constrained w aspect => [w, aspect]

/-- A size all of whose numbers are above zero. -/
def SizeSpec.IsPositive [Scalar α] (z : SizeSpec α) : Prop := ∀ x ∈ z.numbers, Scalar.zero < x

/-- A layout that repeats nothing, or repeats it at least once. -/
def LayoutSpec.Repeats (spec : LayoutSpec α) : Prop :=
  ∀ r, spec.repetition = some r → r.count.IsPositive

/-! ## Counts -/

section

variable [Scalar α]

theorem RepeatCount.isPositive_of_check {values : List Int} {count given : RepeatCount}
    (h : check values given = .valid count) : count = given ∧ ∀ n ∈ values, 1 ≤ n := by
  unfold check at h
  split_ifs at h with hn
  · exact nomatch h
  · refine ⟨(Checked.valid.inj h).symm, ?_⟩
    simpa using hn

theorem RepeatCount.read_isPositive {v : Json α} {count : RepeatCount} (h : read v = .valid count) :
    count.IsPositive := by
  unfold read at h
  split at h
  · obtain ⟨rfl, hn⟩ := isPositive_of_check h
    have hone := hn _ (List.mem_singleton_self _)
    simp only [IsPositive]
    omega
  · obtain ⟨rfl, hn⟩ := isPositive_of_check h
    have ha := hn _ List.mem_cons_self
    have hb := hn _ (List.mem_cons_of_mem _ (List.mem_singleton_self _))
    simp only [IsPositive]
    omega
  · exact nomatch h

theorem Repetition.read_isPositive {v : Json α} {r : Repetition α} (h : read v = .valid r) :
    r.count.IsPositive := by
  obtain ⟨fields, -, h⟩ := Schema.record_eq_valid_iff.mp h
  obtain ⟨-, hcount, -, -⟩ := readFields_eq_valid_iff.mp h
  obtain ⟨_, _, -, hcount⟩ := Schema.required_eq_valid_iff.mp hcount
  exact RepeatCount.read_isPositive hcount

theorem LayoutSpec.read_repeats {v : Json α} {spec : LayoutSpec α} (h : read v = .valid spec) :
    spec.Repeats := by
  obtain ⟨fields, -, h⟩ := Schema.record_eq_valid_iff.mp h
  obtain ⟨-, -, -, -, hrepetition, -⟩ := readFields_eq_valid_iff.mp h
  show ∀ r, spec.repetition = some r → r.count.IsPositive
  exact Schema.forall_of_optional_nullable hrepetition fun _ _ h => Repetition.read_isPositive h

/-! ## Sizes -/

/-- A pair of positive numbers. -/
theorem SizeSpec.isPositive_of_fields {form : α → α → SizeSpec α} (hform : ∀ a b, (form a b).numbers = [a, b])
    {key key' : Schema.Key} {fields : Fields α} {a b : α} (ha : Schema.required key Schema.positive fields = .valid a)
    (hb : Schema.required key' Schema.positive fields = .valid b) : (form a b).IsPositive := by
  obtain ⟨_, _, -, ha⟩ := Schema.required_eq_valid_iff.mp ha
  obtain ⟨_, _, -, hb⟩ := Schema.required_eq_valid_iff.mp hb
  unfold IsPositive
  rw [hform]
  exact List.forall_mem_cons.mpr ⟨Schema.positive_eq_valid ha,
    List.forall_mem_singleton.mpr (Schema.positive_eq_valid hb)⟩

theorem SizeSpec.read_isPositive {v : Json α} {z : SizeSpec α} (h : read v = .valid z) : z.IsPositive := by
  obtain ⟨fields, -, h⟩ := Schema.record_eq_valid_iff.mp h
  obtain ⟨a, b, c, ha, hb, hc, hchoose⟩ := readFields_eq_valid_iff.mp h
  have ha := Schema.forall_of_optional_nullable (P := IsPositive) ha fun _ _ h => by
    obtain ⟨fields, w, height, -, hw, hh, rfl⟩ := readAbsolute_eq_valid_iff.mp h
    exact isPositive_of_fields (fun _ _ => rfl) hw hh
  have hb := Schema.forall_of_optional_nullable (P := IsPositive) hb fun _ _ h => by
    obtain ⟨share, hshare, rfl⟩ := Checked.map_eq_valid_iff.mp h
    exact List.forall_mem_singleton.mpr (Schema.share_eq_valid hshare)
  have hc := Schema.forall_of_optional_nullable (P := IsPositive) hc fun _ _ h => by
    obtain ⟨fields, w, aspect, -, hw, haspect, rfl⟩ := readConstrained_eq_valid_iff.mp h
    exact isPositive_of_fields (fun _ _ => rfl) hw haspect
  unfold choose at hchoose
  split at hchoose
  · exact Checked.valid.inj hchoose ▸ ha _ rfl
  · exact Checked.valid.inj hchoose ▸ hb _ rfl
  · exact Checked.valid.inj hchoose ▸ hc _ rfl
  · cases hchoose

/-! ## Points -/

theorem Point.read_isFinite {v : Json α} {p : Point α} (h : read v = .valid p) : p.IsFinite := by
  obtain ⟨⟨x, y⟩, hpair, rfl⟩ := Checked.map_eq_valid_iff.mp h
  cases v with
  | arr items =>
    unfold Schema.pair at hpair
    dsimp only at hpair
    split_ifs at hpair
    · cases hpair
    · simp only [Checked.seq_eq_valid_iff, Checked.functor_map_eq_valid_iff] at hpair
      obtain ⟨_, _, ⟨_, hx, rfl⟩, hy, hxy⟩ := hpair
      obtain ⟨rfl, rfl⟩ := Prod.mk.inj hxy
      obtain ⟨_, hx⟩ := Schema.tupleItem_eq_valid hx
      obtain ⟨_, hy⟩ := Schema.tupleItem_eq_valid hy
      exact ⟨Schema.finite_eq_valid hx, Schema.finite_eq_valid hy⟩
  | null | bool | num | str | obj => cases hpair

theorem Command.read_isFinite {v : Json α} {c : Command α} (h : read v = .valid c) :
    ∀ p ∈ c.points, p.IsFinite := by
  obtain ⟨fields, -, h⟩ := Schema.record_eq_valid_iff.mp h
  obtain ⟨l, coords, -, hcoords, hcommand⟩ := readFields_eq_valid_iff.mp h
  refine isFinite_of_ofCoords ?_ hcommand
  exact Schema.forall_of_optional_list hcoords fun _ _ h => Schema.finite_eq_valid h

omit [Scalar α] in
theorem Letter.read_text (l : Letter) : Command.readLetter (.str l.text : Json α) = .valid l := by
  cases l <;> rfl

/-- A command of finite points that was written can be read. -/
theorem Command.read_json {c : Command α} (h : ∀ p ∈ c.points, p.IsFinite) :
    read (c.json .stored) = .valid c := by
  have hcoords : Schema.list Schema.finite (.arr (c.coords.map .ofReal)) = .valid c.coords := by
    refine Schema.list_eq_valid_iff.mpr ⟨_, rfl, ?_⟩
    rw [List.forall₂_map_left_iff, List.forall₂_same]
    intro x hx
    obtain ⟨p, hp, hx⟩ := List.mem_flatMap.mp hx
    rcases List.mem_pair.mp hx with rfl | rfl
    · exact Schema.finite_ofReal (h p hp).1
    · exact Schema.finite_ofReal (h p hp).2
  refine readFields_eq_valid_iff.mpr ⟨c.letter, c.coords, ?_, ?_, by cases c <;> rfl⟩
  · exact Schema.required_same_eq_valid_iff.mpr ⟨_, rfl, c.letter.read_text⟩
  · exact Schema.optional_same_eq_valid_iff.mpr (.inr ⟨_, rfl, hcoords⟩)

/-- A path with finite points and a layout that repeats it at least once, if it repeats it. -/
structure ShapePath.Sound (p : ShapePath α) : Prop where
  finite : CommandsFinite p.commands
  repeats : ∀ spec, p.layout = some spec → spec.Repeats

/-- A layer of such paths, with such a layout. -/
structure Layer.Sound (l : Layer α) : Prop where
  repeats : ∀ spec, l.layout = some spec → spec.Repeats
  paths : ∀ p ∈ l.paths, p.Sound

theorem ShapePath.read_sound {v : Json α} {p : ShapePath α} (h : read v = .valid p) : p.Sound := by
  obtain ⟨fields, -, h⟩ := Schema.record_eq_valid_iff.mp h
  obtain ⟨-, -, hcommands, hlayout⟩ := readFields_eq_valid_iff.mp h
  have hfinite : ∀ c ∈ p.commands, ∀ q ∈ c.points, q.IsFinite :=
    Schema.forall_of_optional_list hcommands fun _ _ h => Command.read_isFinite h
  constructor
  · intro q hq
    obtain ⟨c, hc, hq⟩ := List.mem_flatMap.mp hq
    exact hfinite c hc q hq
  · exact Schema.forall_of_optional_nullable hlayout fun _ _ h => LayoutSpec.read_repeats h

theorem Layer.read_sound {v : Json α} {l : Layer α} (h : read v = .valid l) : l.Sound := by
  obtain ⟨fields, -, h⟩ := Schema.record_eq_valid_iff.mp h
  obtain ⟨-, -, hpaths, hlayout⟩ := readFields_eq_valid_iff.mp h
  constructor
  · exact Schema.forall_of_optional_nullable hlayout fun _ _ h => LayoutSpec.read_repeats h
  · exact Schema.forall_of_optional_list hpaths fun _ _ h => ShapePath.read_sound h

/-- **What reading sees to**: finite points, and repetitions of at least one. -/
theorem Document.readFields_sound {fields : Fields α} {d : Document α} (h : readFields fields = .valid d) :
    ∀ l ∈ d.layers, l.Sound := by
  obtain ⟨-, -, -, hlayers, -⟩ := readFields_eq_valid_iff.mp h
  exact Schema.forall_of_optional_list hlayers fun _ _ h => Layer.read_sound h

end

end Drawing
