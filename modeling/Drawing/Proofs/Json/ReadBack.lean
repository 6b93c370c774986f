import Drawing.Proofs.Json.Number
import Drawing.Proofs.Json.Outline

/-!
# `Drawing/Proofs/Json/ReadBack.lean` — raw data read back from its text

Raw data is printed without blanks and read by its first characters: a quotation mark begins a string, brackets begin a
list or an object, and what is neither these nor a word is a number. So the text of a value is read to its end and no
further, whatever the list or object it stands in goes on with.

> **the text of raw data is read as the raw data**, if all of it can be read at all: no number is infinite or has too
> many digits, no text has half of a surrogate pair, no two fields of an object share a name, and nothing is nested too
> deep.
-/

namespace Drawing

/-- A number without too many digits, which only whole ones may have. -/
def Numeral.IsShort {α : Type} : Numeral α → Prop
  | .whole n => (decimalDigits n.natAbs).length ≤ Json.digitLimit
  | .real _ => True

instance {α : Type} : DecidablePred (Numeral.IsShort (α := α)) := fun n =>
  match n with
  | .whole n => inferInstanceAs (Decidable ((decimalDigits n.natAbs).length ≤ Json.digitLimit))
  | .real _ => inferInstanceAs (Decidable True)

/-- A number that is read back: a whole one without too many digits, or a finite one. -/
structure Numeral.IsReadable {α : Type} [Scalar α] (n : Numeral α) : Prop where
  finite : n.isFinite = true
  short : n.IsShort

namespace Json

/-! ## Strings -/

theorem hexValue?_digitChar {n : Nat} (hn : n < 16) : hexValue? n.digitChar = some n := by
  have hall : ∀ k : Fin 16, hexValue? (Nat.digitChar k) = some k.val := by decide
  exact hall ⟨n, hn⟩

theorem hex4?_digitChars {n : Nat} (hn : n < 65536) :
    hex4? (n / 4096).digitChar (n / 256 % 16).digitChar (n / 16 % 16).digitChar (n % 16).digitChar = some n := by
  unfold hex4?
  rw [hexValue?_digitChar (by omega), hexValue?_digitChar (by omega), hexValue?_digitChar (by omega),
    hexValue?_digitChar (by omega)]
  show some _ = some n
  congr 1
  omega

/-- An escape by number that is not half of a pair is read by itself, if the string goes on. -/
theorem stringBody_numbered {n : Nat} (hn : n < 0x20) (start : Nat) (read : List Char) (place : Nat) (x : Char)
    (rest : List Char) :
    stringBody start read place ('\\' :: 'u' :: (hexText 4 n ++ x :: rest)) =
      stringBody start (Char.ofNat n :: read) (place + 6) (x :: rest) := by
  have hhigh : isHighSurrogate n = false := by
    simp [isHighSurrogate]
    omega
  have hlow : isLowSurrogate n = false := by
    simp [isLowSurrogate]
    omega
  have hunit : codeUnit n = Char.ofNat n := by
    unfold codeUnit
    rw [hhigh, hlow]
    rfl
  have hhex := hex4?_digitChars (show n < 65536 by omega)
  rw [hexText_four (by omega)]
  simp only [List.cons_append, List.nil_append]
  -- what follows is looked at only if this were half of a pair
  by_cases hpair : ∃ e f g h y tail, x = '\\' ∧ rest = 'u' :: e :: f :: g :: h :: y :: tail
  · obtain ⟨e, f, g, h, y, tail, rfl, rfl⟩ := hpair
    rw [stringBody, hhex]
    dsimp only
    rw [hhigh, if_neg Bool.false_ne_true, hunit]
  · rw [stringBody, hhex]
    · dsimp only
      rw [hunit]
    · exact fun e f g h y tail hx hrest => hpair ⟨e, f, g, h, y, tail, hx, hrest⟩

theorem stringBody_short {c k : Char} (h : (c, k) ∈ shortEscapes) (start : Nat) (read : List Char) (place : Nat)
    (rest : List Char) :
    stringBody start read place ('\\' :: k :: rest) = stringBody start (c :: read) (place + 2) rest := by
  have hall : ∀ p ∈ shortEscapes, p.2 ≠ 'u' ∧ simpleEscape? p.2 = some p.1 := by decide
  obtain ⟨hne, hescape⟩ := hall _ h
  rw [stringBody, hescape]
  · exact fun _ _ _ _ _ _ _ _ _ _ hk _ => hne hk
  · exact fun _ _ _ _ _ _ hk _ => hne hk
  · exact hne

theorem stringBody_plain {c : Char} (hquote : c ≠ '"') (hslash : c ≠ '\\') (hcontrol : 0x20 ≤ c.toNat) (start : Nat)
    (read : List Char) (place : Nat) (rest : List Char) :
    stringBody start read place (c :: rest) = stringBody start (c :: read) (place + 1) rest := by
  rw [stringBody, if_neg (by omega)]
  · exact hquote
  · exact fun _ _ _ _ _ _ _ _ _ _ hc _ => hslash hc
  · exact fun _ _ _ _ _ _ hc _ => hslash hc
  · exact fun _ hc _ => hslash hc
  · exact fun hc _ => hslash hc
  · exact fun _ _ hc _ => hslash hc

/-- The text of a character that is no half of a pair is read as that character, if the string goes on. -/
theorem stringBody_textChar {c : Char} (hc : surrogate? c = none) (start : Nat) (read : List Char) (place : Nat)
    (x : Char) (rest : List Char) :
    ∃ place',
      stringBody start read place (textChar c ++ x :: rest) = stringBody start (c :: read) place' (x :: rest) := by
  unfold textChar
  split_ifs with h1 h2 h3 h4 h5 h6 h7 h8
  · exact ⟨_, stringBody_short (by rw [h1]; decide) start read place (x :: rest)⟩
  · exact ⟨_, stringBody_short (by rw [h2]; decide) start read place (x :: rest)⟩
  · exact ⟨_, stringBody_short (by rw [h3]; decide) start read place (x :: rest)⟩
  · exact ⟨_, stringBody_short (by rw [h4]; decide) start read place (x :: rest)⟩
  · exact ⟨_, stringBody_short (by rw [h5]; decide) start read place (x :: rest)⟩
  · exact ⟨_, stringBody_short (by rw [h6]; decide) start read place (x :: rest)⟩
  · exact ⟨_, stringBody_short (by rw [h7]; decide) start read place (x :: rest)⟩
  · have h := stringBody_numbered h8 start read place x rest
    rw [Char.ofNat_toNat] at h
    exact ⟨_, h⟩
  · rw [hc]
    exact ⟨_, stringBody_plain h1 h2 (not_lt.mp h8) start read place (x :: rest)⟩

/-- By induction on the characters: a string is read to its closing mark. -/
theorem stringBody_flatMap {cs : List Char} (hcs : ∀ c ∈ cs, surrogate? c = none) (start : Nat) (read : List Char)
    (place : Nat) (r : List Char) :
    ∃ place',
      stringBody start read place (cs.flatMap textChar ++ '"' :: r) = .ok (read.reverse ++ cs, ⟨r, place'⟩) := by
  induction cs generalizing read place with
  | nil =>
    rw [List.append_nil]
    exact ⟨_, stringBody.eq_2 start read place r⟩
  | cons c cs ih =>
    obtain ⟨hc, hrest⟩ := List.forall_mem_cons.mp hcs
    -- the string goes on behind the character, if only with its mark
    obtain ⟨x, rest, hx⟩ : ∃ x rest, cs.flatMap textChar ++ '"' :: r = x :: rest :=
      List.exists_cons_of_ne_nil (by simp)
    obtain ⟨place', h⟩ := stringBody_textChar hc start read place x rest
    obtain ⟨place'', hread⟩ := ih hrest (c :: read) place'
    refine ⟨place'', ?_⟩
    rw [List.flatMap_cons, List.append_assoc, hx, h, ← hx, hread, List.reverse_cons, List.append_assoc]
    rfl

/-- A string is read to its end, if it holds nothing but characters. -/
theorem readString_stringText {s : String} (hs : isWellFormed s = true) (r : List Char) (place : Nat) :
    ∃ place', readString ((⟨(stringText s).toList ++ r, place⟩ : Cursor).advance 1) = .ok (s, ⟨r, place'⟩) := by
  have hcs : ∀ c ∈ s.toList, surrogate? c = none := by
    simpa [isWellFormed] using hs
  obtain ⟨place', h⟩ := stringBody_flatMap hcs (place + 1 - 1) [] (place + 1) r
  have hbody : (stringText s).toList ++ r = '"' :: (s.toList.flatMap textChar ++ '"' :: r) := by
    rw [stringText, String.toList_ofList]
    simp
  rw [hbody, Cursor.advance_one]
  unfold readString
  dsimp only
  rw [h]
  exact ⟨place', by simp [Except.map, String.ofList_toList]⟩

/-! ## Readings -/

section Readings

variable {β γ : Type}

/-- A reading that comes to a value in front of a text. -/
def ReadsTo (x : β) (r : List Char) (reading : Reading (β × Cursor)) : Prop :=
  ∃ place, reading = .ok (x, ⟨r, place⟩)

variable {x : β} {r : List Char} {reading : Reading (β × Cursor)}

theorem ReadsTo.map (h : ReadsTo x r reading) (f : β → γ) :
    ReadsTo (f x) r (reading.map fun (y, c) => (f y, c)) := by
  obtain ⟨place, rfl⟩ := h
  exact ⟨place, rfl⟩

theorem ReadsTo.bind (h : ReadsTo x r reading) {next : β × Cursor → Reading (γ × Cursor)} {y : γ} {r' : List Char}
    (hnext : ∀ place, ReadsTo y r' (next (x, ⟨r, place⟩))) : ReadsTo y r' (reading >>= next) := by
  obtain ⟨place, rfl⟩ := h
  exact hnext place

end Readings

/-! ## Lists and objects -/

variable {α : Type} [DecimalText α]

theorem Cursor.skipBlanks_cons {c : Char} (hc : c ∉ [' ', '\t', '\n', '\r']) (r : List Char) (place : Nat) :
    (⟨c :: r, place⟩ : Cursor).skipBlanks = ⟨c :: r, place⟩ := by
  simp only [List.mem_cons, List.not_mem_nil, or_false, not_or] at hc
  simp [skipBlanks, hc]

/-- No value begins with a blank, with the bracket that closes a list or with a byte order mark. -/
theorem exists_head (v : Json α) (r : List Char) :
    ∃ c rest, (textIn .document v).toList ++ r = c :: rest ∧ c ∉ [' ', '\t', '\n', '\r'] ∧ c ≠ ']' ∧
      c ≠ '\ufeff' := by
  obtain ⟨c, rest, htext, hkind⟩ := exists_opening v
  have hopening : opening v.outline ∈ ['n', 't', 'f', '0', '"', '[', '\x7b'] := by
    cases v.outline with
    | bool b => cases b <;> simp [opening]
    | _ => simp [opening]
  have hnone : ∀ d ∈ [' ', '\t', '\n', '\r', ']', '\ufeff'], kindOf d ∉ ['n', 't', 'f', '0', '"', '[', '\x7b'] := by
    simp only [List.mem_cons, List.not_mem_nil, or_false]
    rintro d (rfl | rfl | rfl | rfl | rfl | rfl) <;> decide
  have hc : c ∉ [' ', '\t', '\n', '\r', ']', '\ufeff'] := fun hmem => hnone c hmem (hkind ▸ hopening)
  refine ⟨c, rest ++ r, by rw [htext]; rfl, fun hmem => hc (List.mem_append_left [']', '\ufeff'] hmem),
    fun heq => hc (by rw [heq]; decide), fun heq => hc (by rw [heq]; decide)⟩

theorem readContinuation_close {close : Char} (hclose : close ∉ [' ', '\t', '\n', '\r']) (r : List Char) (place : Nat) :
    readContinuation close ⟨close :: r, place⟩ = .ok (.closed ⟨r, place + 1⟩) := by
  unfold readContinuation
  rw [Cursor.skipBlanks_cons hclose]
  exact if_pos rfl

theorem skipBlanks_items (close : Char) (v : Json α) (rest : List (Json α)) (r : List Char) (place : Nat) :
    (⟨pieces (textIn .document) close (v :: rest) r, place⟩ : Cursor).skipBlanks =
      ⟨pieces (textIn .document) close (v :: rest) r, place⟩ := by
  obtain ⟨c, cs, hc, hblank, -⟩ := exists_head v (behindPiece (textIn .document) close rest r)
  rw [pieces_cons, hc, Cursor.skipBlanks_cons hblank]

theorem exists_quote_pieces (f : String × Json α) (rest : List (String × Json α)) (r : List Char) :
    ∃ cs, pieces fieldText '\x7d' (f :: rest) r = '"' :: cs := by
  rw [pieces_cons, toList_fieldText, stringText, String.toList_ofList]
  exact ⟨_, rfl⟩

theorem skipBlanks_fields (f : String × Json α) (rest : List (String × Json α)) (r : List Char) (place : Nat) :
    (⟨pieces fieldText '\x7d' (f :: rest) r, place⟩ : Cursor).skipBlanks =
      ⟨pieces fieldText '\x7d' (f :: rest) r, place⟩ := by
  obtain ⟨cs, hcs⟩ := exists_quote_pieces f rest r
  rw [hcs, Cursor.skipBlanks_cons (by decide)]

theorem readContinuation_comma {close : Char} (hclose : close ≠ ',') {cs : List Char} {place : Nat}
    (hcs : (⟨cs, place + 1⟩ : Cursor).skipBlanks = ⟨cs, place + 1⟩) :
    readContinuation close ⟨',' :: cs, place⟩ = .ok (.next ⟨cs, place + 1⟩) := by
  unfold readContinuation
  rw [Cursor.skipBlanks_cons (by decide)]
  dsimp only
  rw [if_neg hclose.symm, if_pos rfl, Cursor.advance_one, hcs]

variable [Scalar α]

/-- A value whose text is read back wherever it stands in a text with so much nesting to go. -/
def TextReads (depth : Nat) (v : Json α) : Prop :=
  ∀ ⦃fuel place : Nat⦄ ⦃r : List Char⦄, Closes r → 2 * ((textIn .document v).toList ++ r).length ≤ fuel →
    ReadsTo v r (readValue fuel depth ⟨(textIn .document v).toList ++ r, place⟩)

theorem closes_behindPiece {β : Type} (text : β → String) {close : Char} (hclose : close = ']' ∨ close = '\x7d')
    (xs : List β) (r : List Char) : Closes (behindPiece text close xs r) := by
  cases xs with
  | nil =>
    rintro c hc
    obtain rfl := Option.some.inj hc
    exact .inr hclose
  | cons x xs =>
    rintro c hc
    obtain rfl := Option.some.inj hc
    exact .inl rfl

/-- By induction on the items: a list is read to its end. -/
theorem readsTo_items {depth : Nat} {items : List (Json α)} (hitems : ∀ v ∈ items, TextReads depth v)
    (hne : items ≠ []) (read : List (Json α)) (fuel place : Nat) {r : List Char}
    (hfuel : 2 * (pieces (textIn .document) ']' items r).length + 1 ≤ fuel) :
    ReadsTo (read.reverse ++ items) r (readItems fuel depth read ⟨pieces (textIn .document) ']' items r, place⟩) := by
  induction items generalizing read fuel place with
  | nil => exact absurd rfl hne
  | cons v rest ih =>
    obtain ⟨hv, hrest⟩ := List.forall_mem_cons.mp hitems
    rw [pieces_cons] at hfuel ⊢
    cases fuel with
    | zero => omega
    | succ fuel =>
      rw [readItems]
      refine (hv (closes_behindPiece _ (.inl rfl) rest r) (by omega)).bind fun place => ?_
      cases rest with
      | nil =>
        rw [behindPiece]
        dsimp only
        rw [readContinuation_close (by decide)]
        exact ⟨place + 1, by rw [List.reverse_cons]; rfl⟩
      | cons w rest =>
        rw [behindPiece] at hfuel ⊢
        dsimp only
        rw [readContinuation_comma (by decide) (skipBlanks_items ']' w rest r (place + 1))]
        have hread := ih hrest (List.cons_ne_nil w rest) (v :: read) fuel (place + 1) (by
          simp only [List.length_append, List.length_cons] at hfuel ⊢
          omega)
        rwa [List.reverse_cons, List.append_assoc] at hread

/-- A name and its colon are read up to the value. -/
theorem readName_stringText {name : String} (hname : isWellFormed name = true) {c : Char}
    (hc : c ∉ [' ', '\t', '\n', '\r']) (r : List Char) (place : Nat) :
    ∃ place', readName ⟨(stringText name).toList ++ ':' :: c :: r, place⟩ = .ok (name, ⟨c :: r, place'⟩) := by
  obtain ⟨place', h⟩ := readString_stringText hname (':' :: c :: r) place
  obtain ⟨body, hbody⟩ : ∃ body, (stringText name).toList ++ ':' :: c :: r = '"' :: body := by
    rw [stringText, String.toList_ofList]
    exact ⟨_, rfl⟩
  rw [hbody] at h ⊢
  refine ⟨place' + 1, ?_⟩
  unfold readName
  dsimp only
  rw [h]
  simp only [bind, Except.bind, Cursor.skipBlanks_cons (show ':' ∉ [' ', '\t', '\n', '\r'] by decide),
    Cursor.advance_one, Cursor.skipBlanks_cons hc]
  rfl

theorem put_of_notMem {β : Type} {name : String} {value : β} {t : Table β} (h : name ∉ Table.names t) :
    Table.put name value t = t ++ [(name, value)] := by
  induction t with
  | nil => rfl
  | cons f rest ih =>
    have hne : f.1 ≠ name := fun heq => h (List.mem_map.mpr ⟨f, List.mem_cons_self, heq⟩)
    rw [Table.put, if_neg hne, ih fun hmem => h (List.mem_cons_of_mem _ hmem)]
    rfl

/-- By induction on the fields: an object is read to its end, if no two of its fields share a name. -/
theorem readsTo_fields {depth : Nat} {fields : List (String × Json α)} (hfields : ∀ f ∈ fields, TextReads depth f.2)
    (hnames : ∀ f ∈ fields, isWellFormed f.1 = true) (hne : fields ≠ []) (read : Fields α)
    (hnodup : (Table.names (read ++ fields)).Nodup) (fuel place : Nat) {r : List Char}
    (hfuel : 2 * (pieces fieldText '\x7d' fields r).length + 1 ≤ fuel) :
    ReadsTo (read ++ fields) r (readFields fuel depth read ⟨pieces fieldText '\x7d' fields r, place⟩) := by
  induction fields generalizing read fuel place with
  | nil => exact absurd rfl hne
  | cons f rest ih =>
    obtain ⟨hf, hrest⟩ := List.forall_mem_cons.mp hfields
    obtain ⟨hname, hnames'⟩ := List.forall_mem_cons.mp hnames
    rw [pieces_cons, toList_fieldText] at hfuel ⊢
    have hnew : f.1 ∉ Table.names read := by
      unfold Table.names at hnodup ⊢
      rw [List.map_append, List.nodup_append'] at hnodup
      exact fun hmem => hnodup.2.2 hmem List.mem_cons_self
    have hput : Table.put f.1 f.2 read ++ rest = read ++ f :: rest := by
      rw [put_of_notMem hnew, List.append_assoc]
      rfl
    cases fuel with
    | zero => omega
    | succ fuel =>
      obtain ⟨c, cs, hc, hblank, -⟩ := exists_head f.2 (behindPiece fieldText '\x7d' rest r)
      obtain ⟨place', hread⟩ := readName_stringText hname hblank cs place
      rw [readFields]
      rw [← hc] at hread
      rw [hread]
      refine (hf (closes_behindPiece _ (.inr rfl) rest r) (by
        simp only [List.length_append, List.length_cons] at hfuel ⊢
        omega)).bind fun place => ?_
      cases rest with
      | nil =>
        rw [behindPiece]
        dsimp only
        rw [readContinuation_close (by decide)]
        exact ⟨place + 1, by rw [← hput, List.append_nil]; rfl⟩
      | cons g rest =>
        rw [behindPiece] at hfuel ⊢
        dsimp only
        rw [readContinuation_comma (by decide) (skipBlanks_fields g rest r (place + 1))]
        have hread := ih hrest hnames' (List.cons_ne_nil g rest) (Table.put f.1 f.2 read) (by rwa [hput]) fuel
          (place + 1) (by
            simp only [List.length_append, List.length_cons] at hfuel ⊢
            omega)
        rwa [hput] at hread

/-! ## Numbers and words -/

/-- Whether a text begins as a number is a matter of its first two characters. -/
theorem beginsAsNumber_cons_cons (c d : Char) (cs : List Char) :
    beginsAsNumber (c :: d :: cs) = if c = '-' then d.isDigit else c.isDigit := by
  by_cases h : c = '-'
  · subst h
    rfl
  · simp [beginsAsNumber, h]

/-- What begins as a number is no word. -/
theorem Cursor.word?_eq_none {w : String} (hw : beginsAsNumber w.toList = false) (hlength : 2 ≤ w.toList.length)
    {cs : List Char} (hcs : beginsAsNumber cs = true) (r : List Char) (place : Nat) :
    (⟨cs ++ r, place⟩ : Cursor).word? w = none := by
  have hprefix : ¬ w.toList.isPrefixOf (cs ++ r) = true := by
    rw [List.isPrefixOf_iff_prefix]
    rintro ⟨rest, hrest⟩
    obtain ⟨a, tail, hlist⟩ := List.exists_cons_of_length_pos (Nat.lt_of_lt_of_le Nat.two_pos hlength)
    rw [hlist] at hw hlength hrest
    obtain ⟨b, tail, rfl⟩ := List.exists_cons_of_length_pos (Nat.lt_of_succ_lt_succ hlength)
    cases cs with
    | nil => exact Bool.false_ne_true hcs
    | cons c cs =>
      obtain rfl : a = c := List.head_eq_of_cons_eq hrest
      cases cs with
      | nil =>
        have hdigit : a.isDigit = true := by simpa [beginsAsNumber] using hcs
        have hminus : a ≠ '-' := by
          rintro rfl
          exact absurd hdigit (by decide)
        rw [beginsAsNumber_cons_cons, if_neg hminus, hdigit] at hw
        exact Bool.false_ne_true hw.symm
      | cons d cs =>
        obtain rfl : b = d := List.head_eq_of_cons_eq (List.tail_eq_of_cons_eq hrest)
        rw [beginsAsNumber_cons_cons] at hw hcs
        exact Bool.false_ne_true (hw.symm.trans hcs)
  exact if_neg hprefix

variable [ToldByDigits α] [ReadsDigits α]

theorem readsTo_numeral {n : Numeral α} (hn : n.IsReadable) {r : List Char} (hr : Closes r) (place : Nat) :
    ReadsTo n r (readNumber ⟨(numeralText .document n).toList ++ r, place⟩) := by
  cases n with
  | whole n =>
    rw [numeralText]
    exact readNumber_whole hn.short hr place
  | real x =>
    obtain ⟨negative, digits, exponent, hx⟩ := ToldByDigits.isFinite_iff.mp hn.finite
    obtain ⟨body, m, e, hbody, hq, he, htext⟩ := Shortest.exists_isDecimal .document negative digits exponent
    obtain ⟨place', h⟩ := readNumber_decimal (α := α) negative hbody hr place
    rw [numeralText, hx, htext]
    rw [ReadsDigits.ofSigned_of_shortest hx hq he] at h
    refine ⟨place', ?_⟩
    rw [← h]
    cases negative <;> rfl

omit [ReadsDigits α] in
/-- The text of a finite number begins as a number. -/
theorem beginsAsNumber_numeralText {n : Numeral α} (hn : n.IsReadable) :
    beginsAsNumber (numeralText .document n).toList = true := by
  cases n with
  | whole n =>
    have h := (standsFor_digits (decimalDigits_ne_nil n.natAbs) (isDigit_decimalDigits _) .missing).beginsAsNumber
      (decide (n < 0))
    rw [List.append_nil] at h
    simp only [decide_eq_true_eq] at h
    rwa [← toList_toString_int] at h
  | real x =>
    obtain ⟨negative, digits, exponent, hx⟩ := ToldByDigits.isFinite_iff.mp hn.finite
    obtain ⟨body, hbody, -, htext⟩ := Shortest.toList_text_finite .document negative digits exponent
    rw [numeralText, hx, htext]
    exact hbody.beginsAsNumber negative

theorem readsTo_numeric {n : Numeral α} (hn : n.IsReadable) {r : List Char} (hr : Closes r) (place : Nat) :
    ReadsTo (.num n) r (readNumeric ⟨(numeralText .document n).toList ++ r, place⟩) := by
  have hbegins := beginsAsNumber_numeralText hn
  unfold readNumeric
  rw [Cursor.word?_eq_none (by decide) (by decide) hbegins, Cursor.word?_eq_none (by decide) (by decide) hbegins,
    Cursor.word?_eq_none (by decide) (by decide) hbegins]
  exact (readsTo_numeral hn hr place).map Json.num

theorem readsTo_atom {n : Numeral α} (hn : n.IsReadable) {r : List Char} (hr : Closes r) (place : Nat) :
    ReadsTo (.num n) r (readAtom ⟨(numeralText .document n).toList ++ r, place⟩) := by
  have hbegins := beginsAsNumber_numeralText hn
  unfold readAtom
  rw [Cursor.word?_eq_none (by decide) (by decide) hbegins, Cursor.word?_eq_none (by decide) (by decide) hbegins,
    Cursor.word?_eq_none (by decide) (by decide) hbegins]
  exact readsTo_numeric hn hr place

/-! ## Values -/

/-- Raw data that is read back from its text: its numbers are, its texts hold nothing but characters, no two fields of
an object share a name, and lists and objects are nested no deeper than `depth`. -/
inductive IsReadable : Nat → Json α → Prop
  | null {depth : Nat} : IsReadable depth .null
  | bool {depth : Nat} (b : Bool) : IsReadable depth (.bool b)
  | num {depth : Nat} {n : Numeral α} (hn : n.IsReadable) : IsReadable depth (.num n)
  | str {depth : Nat} {s : String} (hs : isWellFormed s = true) : IsReadable depth (.str s)
  | arr {depth : Nat} {items : List (Json α)} (hitems : ∀ v ∈ items, IsReadable depth v) :
      IsReadable (depth + 1) (.arr items)
  | obj {depth : Nat} {fields : List (String × Json α)} (hnodup : (Table.names fields).Nodup)
      (hnames : ∀ f ∈ fields, isWellFormed f.1 = true) (hfields : ∀ f ∈ fields, IsReadable depth f.2) :
      IsReadable (depth + 1) (.obj fields)

omit [DecimalText α] [ToldByDigits α] [ReadsDigits α] in
theorem IsReadable.mono {depth depth' : Nat} {v : Json α} (h : IsReadable depth v) (hle : depth ≤ depth') :
    IsReadable depth' v := by
  induction h generalizing depth' with
  | null => exact .null
  | bool b => exact .bool b
  | num hn => exact .num hn
  | str hs => exact .str hs
  | arr _ ih =>
    cases depth' with
    | zero => omega
    | succ k => exact .arr fun v hv => ih v hv (by omega)
  | obj hnodup hnames _ ih =>
    cases depth' with
    | zero => omega
    | succ k => exact .obj hnodup hnames fun f hf => ih f hf (by omega)

omit [DecimalText α] [ToldByDigits α] [ReadsDigits α] in
theorem readValue_atom (fuel depth : Nat) {c : Char} (hc : c ≠ '"' ∧ c ≠ '[' ∧ c ≠ '\x7b') (r : List Char)
    (place : Nat) :
    (readValue (fuel + 1) depth ⟨c :: r, place⟩ : Reading (Json α × Cursor)) = readAtom ⟨c :: r, place⟩ := by
  unfold readValue
  dsimp only
  split
  · next heq => exact absurd (List.head_eq_of_cons_eq heq) hc.1
  · next heq => exact absurd (List.head_eq_of_cons_eq heq) hc.2.1
  · next heq => exact absurd (List.head_eq_of_cons_eq heq) hc.2.2
  · rfl

omit [DecimalText α] [ToldByDigits α] [ReadsDigits α] in
theorem readValue_arr (fuel depth : Nat) {c : Char} (hblank : c ∉ [' ', '\t', '\n', '\r']) (hbracket : c ≠ ']')
    (cs : List Char) (place : Nat) :
    (readValue (fuel + 1) (depth + 1) ⟨'[' :: c :: cs, place⟩ : Reading (Json α × Cursor)) =
      (readItems fuel depth [] ⟨c :: cs, place + 1⟩).map fun (items, rest) => (.arr items, rest) := by
  have hadvance : (⟨'[' :: c :: cs, place⟩ : Cursor).advance 1 = ⟨c :: cs, place + 1⟩ := rfl
  unfold readValue
  dsimp only
  rw [hadvance, Cursor.skipBlanks_cons hblank]
  split
  · next heq => exact absurd (List.head_eq_of_cons_eq heq) (by decide)
  · split
    · next heq => exact absurd (List.head_eq_of_cons_eq heq) hbracket
    · rfl
  · next heq => exact absurd (List.head_eq_of_cons_eq heq) (by decide)
  · next hnone _ => exact absurd rfl (hnone (c :: cs))

omit [DecimalText α] [ToldByDigits α] [ReadsDigits α] in
theorem readAtom_null (r : List Char) (place : Nat) :
    (readAtom ⟨"null".toList ++ r, place⟩ : Reading (Json α × Cursor)) = .ok (.null, ⟨r, place + 4⟩) := rfl

omit [DecimalText α] [ToldByDigits α] [ReadsDigits α] in
theorem readAtom_bool (b : Bool) (r : List Char) (place : Nat) :
    ∃ place', (readAtom ⟨(if b then "true" else "false").toList ++ r, place⟩ : Reading (Json α × Cursor)) =
      .ok (.bool b, ⟨r, place'⟩) := by
  cases b
  · exact ⟨_, rfl⟩
  · exact ⟨_, rfl⟩

omit [ToldByDigits α] [ReadsDigits α] in
/-- Every text has a character, so there is fuel. -/
theorem textReads_of_succ {depth : Nat} {v : Json α}
    (h : ∀ (fuel place : Nat) (r : List Char), Closes r → 2 * ((textIn .document v).toList ++ r).length ≤ fuel + 1 →
      ReadsTo v r (readValue (fuel + 1) depth ⟨(textIn .document v).toList ++ r, place⟩)) : TextReads depth v := by
  intro fuel place r hr hfuel
  obtain ⟨c, rest, htext, -⟩ := exists_head v r
  cases fuel with
  | zero =>
    rw [htext] at hfuel
    simp at hfuel
  | succ fuel => exact h fuel place r hr hfuel

omit [ToldByDigits α] [ReadsDigits α] in
theorem textReads_null (depth : Nat) : TextReads depth (.null : Json α) := by
  refine textReads_of_succ fun fuel place r hr hfuel => ?_
  rw [textIn]
  refine ⟨place + 4, ?_⟩
  exact (readValue_atom fuel depth (by decide) _ place).trans (readAtom_null r place)

omit [ToldByDigits α] [ReadsDigits α] in
theorem textReads_bool (depth : Nat) (b : Bool) : TextReads depth (.bool b : Json α) := by
  refine textReads_of_succ fun fuel place r hr hfuel => ?_
  obtain ⟨place', hread⟩ := readAtom_bool (α := α) b r place
  rw [textIn]
  refine ⟨place', ?_⟩
  rw [← hread]
  cases b
  · exact readValue_atom fuel depth (by decide) _ place
  · exact readValue_atom fuel depth (by decide) _ place

theorem textReads_num {depth : Nat} {n : Numeral α} (hn : n.IsReadable) : TextReads depth (.num n) := by
  refine textReads_of_succ fun fuel place r hr hfuel => ?_
  have hbegins := beginsAsNumber_numeralText hn
  have hread := readsTo_atom hn hr place
  rw [textIn]
  cases htext : (numeralText .document n).toList with
  | nil =>
    rw [htext] at hbegins
    exact absurd hbegins (by decide)
  | cons c cs =>
    rw [htext] at hread hbegins
    have hc : c ≠ '"' ∧ c ≠ '[' ∧ c ≠ '\x7b' := by
      refine ⟨?_, ?_, ?_⟩ <;> rintro rfl <;> exact absurd hbegins (by cases cs <;> simp [beginsAsNumber])
    rw [List.cons_append, readValue_atom fuel depth hc]
    exact hread

omit [ToldByDigits α] [ReadsDigits α] in
theorem textReads_str {depth : Nat} {s : String} (hs : isWellFormed s = true) : TextReads depth (.str s : Json α) := by
  refine textReads_of_succ fun fuel place r hr hfuel => ?_
  obtain ⟨place', hread⟩ := readString_stringText hs r place
  obtain ⟨body, hbody⟩ : ∃ body, (stringText s).toList ++ r = '"' :: body := by
    rw [stringText, String.toList_ofList]
    exact ⟨_, rfl⟩
  rw [textIn]
  rw [hbody] at hread ⊢
  refine ⟨place', ?_⟩
  unfold readValue
  dsimp only
  rw [hread]
  rfl

omit [ToldByDigits α] [ReadsDigits α] in
theorem textReads_arr {depth : Nat} {items : List (Json α)} (hitems : ∀ v ∈ items, TextReads depth v) :
    TextReads (depth + 1) (.arr items) := by
  refine textReads_of_succ fun fuel place r hr hfuel => ?_
  rw [toList_textIn_arr] at hfuel ⊢
  cases items with
  | nil => exact ⟨place + 2, rfl⟩
  | cons v rest =>
    obtain ⟨c, cs, hc, hblank, hbracket, -⟩ := exists_head v (behindPiece (textIn .document) ']' rest r)
    have hpieces : pieces (textIn .document) ']' (v :: rest) r = c :: cs := by rw [pieces_cons, hc]
    have hread := readsTo_items hitems (List.cons_ne_nil v rest) [] fuel (place + 1) (r := r) (by
      rw [List.length_cons] at hfuel
      omega)
    rw [hpieces] at hread ⊢
    rw [readValue_arr fuel depth hblank hbracket]
    exact hread.map Json.arr

omit [ToldByDigits α] [ReadsDigits α] in
theorem textReads_obj {depth : Nat} {fields : List (String × Json α)} (hnodup : (Table.names fields).Nodup)
    (hnames : ∀ f ∈ fields, isWellFormed f.1 = true) (hfields : ∀ f ∈ fields, TextReads depth f.2) :
    TextReads (depth + 1) (.obj fields) := by
  refine textReads_of_succ fun fuel place r hr hfuel => ?_
  rw [toList_textIn_obj] at hfuel ⊢
  cases fields with
  | nil => exact ⟨place + 2, rfl⟩
  | cons f rest =>
    obtain ⟨cs, hpieces⟩ := exists_quote_pieces f rest r
    have hread := readsTo_fields hfields hnames (List.cons_ne_nil f rest) [] hnodup fuel (place + 1)
      (r := r) (by
        rw [List.length_cons] at hfuel
        omega)
    rw [hpieces] at hread ⊢
    exact hread.map Json.obj

/-- By induction on raw data: the text of a value is read to its end. -/
theorem IsReadable.textReads {depth : Nat} {v : Json α} (h : IsReadable depth v) : TextReads depth v := by
  induction h with
  | null => exact textReads_null _
  | bool b => exact textReads_bool _ b
  | num hn => exact textReads_num hn
  | str hs => exact textReads_str hs
  | arr _ ih => exact textReads_arr ih
  | obj hnodup hnames _ ih => exact textReads_obj hnodup hnames ih

/-- **The text of raw data is read as the raw data.** -/
theorem read_text {v : Json α} (h : IsReadable depthLimit v) : read v.text.toList = .ok v := by
  obtain ⟨c, rest, htext, hblank, -, hmark⟩ := exists_head v []
  have hfuel : 2 * ((textIn .document v).toList ++ []).length ≤ 2 * v.text.toList.length + 2 := by
    rw [List.append_nil]
    exact Nat.le_add_right _ 2
  obtain ⟨place, hread⟩ : ReadsTo v [] (readValue (2 * v.text.toList.length + 2) depthLimit
      ⟨(textIn .document v).toList ++ [], 0⟩) := h.textReads nofun hfuel
  rw [List.append_nil] at htext hread
  have hstart : (⟨v.text.toList, 0⟩ : Cursor).skipBlanks = ⟨v.text.toList, 0⟩ := by
    unfold text
    rw [htext, Cursor.skipBlanks_cons hblank]
  unfold read
  split
  · next hfirst =>
    unfold text at hfirst
    exact absurd (List.head_eq_of_cons_eq (htext.symm.trans hfirst)) hmark
  · dsimp only
    rw [hstart]
    exact congrArg (· >>= _) hread

end Json

end Drawing
