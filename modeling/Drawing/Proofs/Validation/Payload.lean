import Drawing.Proofs.Json.ReadBack
import Drawing.Validation.Payload

/-!
# `Drawing/Proofs/Validation/Payload.lean` — a document is found whatever is around it

What a reply says around its document is cut off in several passes: blanks at both ends, a fence in front, a fence
behind, and last whatever stands outside the outermost braces. Each pass takes away a piece of one end, and no piece
has a brace in it. So a text in braces with no brace around it loses only what is around it (`Wraps`), pass by pass, and
the last pass leaves the text itself, with all blanks, breaks and fences it has inside.

> **A reply is read as the text in braces in it** (`readReply_wrapped`).
-/

namespace Drawing

/-! ## Texts in braces -/

/-- The marks that an object begins and ends with. -/
def braces : List Char := ['\x7b', '\x7d']

/-- A text without braces. -/
def Braceless (cs : List Char) : Prop := ∀ c ∈ cs, c ∉ braces

instance (cs : List Char) : Decidable (Braceless cs) := List.decidableBAll (· ∉ braces) cs

/-- A text that begins with an opening brace and ends with a closing one. -/
def Braced (cs : List Char) : Prop := cs.head? = some '\x7b' ∧ cs.getLast? = some '\x7d'

instance (cs : List Char) : Decidable (Braced cs) := inferInstanceAs (Decidable (_ ∧ _))

/-- A text that is another one with no brace around it. -/
def Wraps (t cs : List Char) : Prop := ∃ a b, cs = a ++ t ++ b ∧ Braceless a ∧ Braceless b

theorem braceless_takeWhile_isBlank (cs : List Char) : Braceless (cs.takeWhile isBlank) := by
  intro c hc hbrace
  have hblank : isBlank c = true := List.all_eq_true.mp List.all_takeWhile c hc
  rcases List.mem_pair.mp hbrace with rfl | rfl <;> exact absurd hblank (by decide)

namespace Wraps

variable {t cs rest piece : List Char} {c : Char}

theorem refl (t : List Char) : Wraps t t := ⟨[], [], by simp, nofun, nofun⟩

theorem reverse (h : Wraps t cs) : Wraps t.reverse cs.reverse := by
  obtain ⟨a, b, rfl, ha, hb⟩ := h
  refine ⟨b.reverse, a.reverse, by simp, ?_, ?_⟩
  · exact fun c hc => hb c (List.mem_reverse.mp hc)
  · exact fun c hc => ha c (List.mem_reverse.mp hc)

/-- A piece without braces that is taken away in front is taken from what is around the text. -/
theorem of_append (h : Wraps t (piece ++ rest)) (ht : t.head? = some c) (hc : c ∈ braces) (hpiece : Braceless piece) :
    Wraps t rest := by
  obtain ⟨a, b, heq, ha, hb⟩ := h
  rw [List.append_assoc] at heq
  rcases List.append_eq_append_iff.mp heq with ⟨a', rfl, rfl⟩ | ⟨inner, rfl, hinner⟩
  · exact ⟨a', b, (List.append_assoc ..).symm, fun c hc => ha c (List.mem_append_right _ hc), hb⟩
  · cases inner with
    | nil => exact ⟨[], b, hinner.symm, nofun, hb⟩
    | cons d inner =>
      -- the piece would reach into the text, that is, over its brace
      obtain ⟨t', rfl⟩ := List.head?_eq_some_iff.mp ht
      obtain rfl := List.head_eq_of_cons_eq hinner
      exact absurd hc (hpiece _ (List.mem_append_right _ List.mem_cons_self))

theorem dropBlanks (h : Wraps t cs) (ht : t.head? = some c) (hc : c ∈ braces) : Wraps t (cs.dropWhile isBlank) := by
  refine of_append ?_ ht hc (braceless_takeWhile_isBlank cs)
  rwa [List.takeWhile_append_dropWhile]

theorem dropPiece (h : Wraps t cs) (ht : t.head? = some c) (hc : c ∈ braces) (hpiece : Braceless piece)
    (hfront : piece.isPrefixOf cs = true) : Wraps t (cs.drop piece.length) := by
  obtain ⟨rest, rfl⟩ := List.isPrefixOf_iff_prefix.mp hfront
  rw [List.drop_left]
  exact h.of_append ht hc hpiece

/-! ## The passes -/

theorem trim (h : Wraps t cs) (ht : Braced t) : Wraps t (trimChars isBlank cs) := by
  have hfront := h.dropBlanks ht.1 (by decide)
  have hback := hfront.reverse.dropBlanks (List.head?_reverse.trans ht.2) (by decide)
  simpa [trimChars] using hback.reverse

theorem openingFence (h : Wraps t cs) (ht : Braced t) : Wraps t (dropOpeningFence cs) := by
  have hopen : '\x7b' ∈ braces := by decide
  unfold dropOpeningFence
  split
  · next hfence =>
    have hbody := h.dropPiece ht.1 hopen (by decide) hfence
    refine dropBlanks ?_ ht.1 hopen
    unfold dropWord
    split
    · next htag => exact hbody.dropPiece ht.1 hopen (by decide) htag
    · exact hbody
  · exact h

theorem closingFence (h : Wraps t cs) (ht : Braced t) : Wraps t (dropClosingFence cs) := by
  have hlast : t.reverse.head? = some '\x7d' := List.head?_reverse.trans ht.2
  have hclose : '\x7d' ∈ braces := by decide
  unfold dropClosingFence
  dsimp only
  split
  · next hfence =>
    have hbody := (h.reverse.dropBlanks hlast hclose).dropPiece hlast hclose (by decide) hfence
    split
    · next rest hbreak =>
      rw [hbreak] at hbody
      have hnewline : Braceless ['\n'] := by decide
      have hrest : Wraps t.reverse rest := of_append hbody hlast hclose hnewline
      simpa using hrest.reverse
    · simpa using hbody.reverse
  · exact h

/-- Between the outermost braces is the text itself. -/
theorem bracedPart?_eq (h : Wraps t cs) (ht : Braced t) : bracedPart? cs = some t := by
  obtain ⟨a, b, rfl, ha, hb⟩ := h
  obtain ⟨body, hbody⟩ := List.head?_eq_some_iff.mp ht.1
  obtain ⟨body', hbody'⟩ := List.getLast?_eq_some_iff.mp ht.2
  have hopening : (a ++ t ++ b).dropWhile (· != '\x7b') = t ++ b := by
    rw [List.append_assoc, List.dropWhile_append_of_pos, hbody]
    · exact List.dropWhile_cons_of_neg (by decide)
    · intro c hc
      refine bne_iff_ne.mpr ?_
      rintro rfl
      exact ha _ hc (by decide)
  have hclosing : (t ++ b).reverse.dropWhile (· != '\x7d') = t.reverse := by
    rw [List.reverse_append, List.dropWhile_append_of_pos, hbody', List.reverse_append]
    · exact List.dropWhile_cons_of_neg (by decide)
    · intro c hc
      refine bne_iff_ne.mpr ?_
      rintro rfl
      exact hb _ (List.mem_reverse.mp hc) (by decide)
  unfold bracedPart?
  dsimp only
  rw [hopening, hclosing, List.reverse_reverse]
  exact if_neg (by simp [hbody])

end Wraps

/-- **What is read of a reply** is the text in braces, whatever is around it. -/
theorem payload_of_wraps {t cs : List Char} (h : Wraps t cs) (ht : Braced t) : payload cs = t := by
  unfold payload
  dsimp only
  rw [((((h.trim ht).openingFence ht).closingFence ht).trim ht).bracedPart?_eq ht]
  rfl

/-! ## Reading -/

section

variable {α : Type} [Scalar α]

/-- What begins with an opening brace is an object, if it is anything. -/
theorem Json.exists_fields_of_readValue {fuel depth place : Nat} {body : List Char} {v : Json α} {rest : Cursor}
    (h : readValue fuel depth ⟨'\x7b' :: body, place⟩ = .ok (v, rest)) : ∃ fields, v = .obj fields := by
  cases fuel with
  | zero => cases h
  | succ fuel =>
    cases depth with
    | zero => cases h
    | succ depth =>
      unfold readValue at h
      dsimp only at h
      split at h
      · next heq => exact absurd (List.head_eq_of_cons_eq heq) (by decide)
      · next heq => exact absurd (List.head_eq_of_cons_eq heq) (by decide)
      · split at h
        · exact ⟨[], (congrArg Prod.fst (Except.ok.inj h)).symm⟩
        · cases hfields : (readFields fuel depth [] ((⟨'\x7b' :: body, place⟩ : Cursor).advance 1).skipBlanks :
              Reading (Fields α × Cursor)) with
          | error f =>
            rw [hfields] at h
            cases h
          | ok read =>
            rw [hfields] at h
            exact ⟨read.1, (congrArg Prod.fst (Except.ok.inj h)).symm⟩
      · next hnone => exact absurd rfl (hnone body)

theorem Json.exists_fields_of_read {t : List Char} (ht : t.head? = some '\x7b') {v : Json α} (h : Json.read t = .ok v) :
    ∃ fields, v = .obj fields := by
  obtain ⟨body, rfl⟩ := List.head?_eq_some_iff.mp ht
  obtain ⟨⟨value, rest⟩, hvalue, h⟩ := bind_eq_ok_iff.mp h
  rw [Cursor.skipBlanks_cons (by decide)] at hvalue
  dsimp only at h
  split at h
  · obtain rfl := pure_eq_ok_iff.mp h
    exact exists_fields_of_readValue hvalue
  · exact nomatch h

theorem Braced.readReply_cases {t : String} (ht : Braced t.toList) :
    (∃ fields, Json.read t.toList = .ok (.obj fields : Json α) ∧ readReply t = .ok fields) ∨
      (∃ f, (Json.read t.toList : Json.Reading (Json α)) = .error (.malformed f) ∧
        readReply t = (.error (.schema ["Response is not valid JSON: " ++ f.text t.toList]) : Except (Fault α) _)) ∨
      ∃ f, (Json.read t.toList : Json.Reading (Json α)) = .error (.limit f) ∧
        readReply t = (.error (.limit f) : Except (Fault α) _) := by
  have hpayload : payload t.toList = t.toList := payload_of_wraps (.refl _) ht
  unfold readReply
  dsimp only
  rw [hpayload]
  cases hread : (Json.read t.toList : Json.Reading (Json α)) with
  | error fault =>
    cases fault with
    | malformed f => exact .inr (.inl ⟨f, rfl, rfl⟩)
    | limit f => exact .inr (.inr ⟨f, rfl, rfl⟩)
  | ok v =>
    obtain ⟨fields, rfl⟩ := Json.exists_fields_of_read ht.1 hread
    exact .inl ⟨fields, rfl, rfl⟩

/-- **A reply is read as the text in braces in it.** Whatever is around that text, as long as there is no brace, the
outcome is that of the text alone: the object it is, the place where it stops being one, or the limit it goes beyond. -/
theorem readReply_wrapped {a t b : String} (ht : Braced t.toList) (ha : Braceless a.toList) (hb : Braceless b.toList) :
    payload (a ++ t ++ b).toList = t.toList ∧
      (readReply (a ++ t ++ b) : Except (Fault α) (Fields α)) = readReply t ∧
      ((∃ fields, Json.read t.toList = .ok (.obj fields : Json α) ∧ readReply (a ++ t ++ b) = .ok fields) ∨
        (∃ f, (Json.read t.toList : Json.Reading (Json α)) = .error (.malformed f) ∧
          (readReply (a ++ t ++ b) : Except (Fault α) _) =
            .error (.schema ["Response is not valid JSON: " ++ f.text t.toList])) ∨
        ∃ f, (Json.read t.toList : Json.Reading (Json α)) = .error (.limit f) ∧
          (readReply (a ++ t ++ b) : Except (Fault α) _) = .error (.limit f)) := by
  have hwraps : Wraps t.toList (a ++ t ++ b).toList := ⟨a.toList, b.toList, by simp, ha, hb⟩
  have hpayload : payload (a ++ t ++ b).toList = payload t.toList :=
    (payload_of_wraps hwraps ht).trans (payload_of_wraps (.refl _) ht).symm
  have hreply : (readReply (a ++ t ++ b) : Except (Fault α) (Fields α)) = readReply t := by
    unfold readReply
    dsimp only
    rw [hpayload]
  rw [hreply]
  exact ⟨payload_of_wraps hwraps ht, rfl, ht.readReply_cases⟩

end

theorem readReply_wrapped_fenced :
    let a := "Sure!\u00a0Here it is:\n\n```json\n"
    let t := "\x7b \"s\": \"```\\n\x7d ```\" \x7d"
    let b := "\n\n``` \u2003\nDone."
    Braced t.toList ∧ Braceless a.toList ∧ Braceless b.toList ∧
      ∃ fields, (readReply t : Except (Fault Rat) (Fields Rat)) = .ok fields ∧ readReply (a ++ t ++ b) = .ok fields := by
  dsimp only
  have ht : Braced "\x7b \"s\": \"```\\n\x7d ```\" \x7d".toList := by decide
  have ha : Braceless "Sure!\u00a0Here it is:\n\n```json\n".toList := by decide
  have hb : Braceless "\n\n``` \u2003\nDone.".toList := by decide
  obtain ⟨-, hsame, -⟩ := readReply_wrapped (α := Rat) ht ha hb
  obtain ⟨fields, hfields⟩ := exists_ok_of_isSome (x := readReply (α := Rat)
    "\x7b \"s\": \"```\\n\x7d ```\" \x7d") (by decide +kernel)
  exact ⟨ht, ha, hb, fields, hfields, hsame.trans hfields⟩

/-! ## Beyond a limit -/

section

variable {α : Type} [Scalar α]

/-- A whole number of too many digits is not read, whatever it is in. -/
theorem Json.readNumber_overlong {ds r : List Char} (hds : IsWhole ds) (hlong : digitLimit < ds.length) (hr : Closes r)
    (place : Nat) :
    (readNumber ⟨ds ++ r, place⟩ : Reading (Numeral α × Cursor)) = .error (.limit (.digits ds.length)) := by
  obtain ⟨place', hread⟩ := exists_readFraction (α := α) false hds hr.isDigit place
  rw [if_neg Bool.false_ne_true] at hread
  rw [hread, readFraction_whole (readDecimals_eq_none hr.ne_point _) (readExponent_eq_none hr.ne_exponent _), if_pos hlong]

/-- An object whose only field is a number of too many digits. -/
theorem Json.read_overlong {ds : List Char} (hone : ds.head? = some '1') (hds : IsWhole ds)
    (hlong : digitLimit < ds.length) :
    (Json.read ("\x7b\"n\":".toList ++ ds ++ ['\x7d']) : Json.Reading (Json α)) = .error (.limit (.digits ds.length)) := by
  obtain ⟨rest, rfl⟩ := List.head?_eq_some_iff.mp hone
  have hnumber (place : Nat) := readNumber_overlong (α := α) hds hlong (r := ['\x7d']) (by simp [Closes]) place
  have hatom (place : Nat) : (readAtom ⟨'1' :: (rest ++ ['\x7d']), place⟩ : Reading (Json α × Cursor)) =
      .error (.limit (.digits ('1' :: rest).length)) := by
    show Except.map _ (readNumber ⟨'1' :: rest ++ ['\x7d'], place⟩) = _
    rw [hnumber]
    rfl
  have hfields (fuel depth place : Nat) :
      (readFields (fuel + 2) depth [] ⟨'"' :: 'n' :: '"' :: ':' :: '1' :: (rest ++ ['\x7d']), place⟩ :
        Reading (Fields α × Cursor)) = .error (.limit (.digits ('1' :: rest).length)) := by
    show Except.bind (readValue (fuel + 1) depth ⟨'1' :: (rest ++ ['\x7d']), _⟩) _ = _
    rw [readValue_atom fuel depth (by decide), hatom]
    rfl
  have hvalue (fuel depth place : Nat) :
      (readValue (fuel + 3) (depth + 1) ⟨'\x7b' :: '"' :: 'n' :: '"' :: ':' :: '1' :: (rest ++ ['\x7d']), place⟩ :
        Reading (Json α × Cursor)) = .error (.limit (.digits ('1' :: rest).length)) := by
    show Except.map _ (readFields (fuel + 2) depth [] ⟨'"' :: 'n' :: '"' :: ':' :: '1' :: (rest ++ ['\x7d']), _⟩) = _
    rw [hfields]
    rfl
  have hfuel : 2 * ("\x7b\"n\":".toList ++ '1' :: rest ++ ['\x7d']).length + 2 = 2 * rest.length + 13 + 3 := by
    simp
    omega
  have hstart : ("\x7b\"n\":".toList ++ '1' :: rest ++ ['\x7d']) =
      '\x7b' :: '"' :: 'n' :: '"' :: ':' :: '1' :: (rest ++ ['\x7d']) := rfl
  have hdepth : depthLimit = 989 + 1 := rfl
  unfold Json.read
  rw [hfuel, hdepth, hstart]
  dsimp only
  rw [Cursor.skipBlanks_cons (by decide), hvalue]
  rfl

end

/-- An object whose only field is a number of some ones. -/
def onesObject (n : Nat) : String := "\x7b\"n\":" ++ String.ofList (List.replicate n '1') ++ "\x7d"

theorem toList_onesObject (n : Nat) :
    (onesObject n).toList = "\x7b\"n\":".toList ++ List.replicate n '1' ++ ['\x7d'] := by
  unfold onesObject
  simp only [String.toList_append, String.toList_ofList]
  rfl

theorem braced_onesObject (n : Nat) : Braced (onesObject n).toList := by
  rw [toList_onesObject]
  exact ⟨rfl, List.getLast?_concat⟩

theorem Json.read_onesObject {α : Type} [Scalar α] {n : Nat} (hn : digitLimit < n) :
    (Json.read (onesObject n).toList : Json.Reading (Json α)) = .error (.limit (.digits n)) := by
  have hne : n ≠ 0 := by omega
  have hones : IsWhole (List.replicate n '1') :=
    ⟨by simp [hne], fun c hc => by rw [List.eq_of_mem_replicate hc]; rfl, by simp [List.head?_replicate, hne]⟩
  rw [toList_onesObject, Json.read_overlong (by simp [List.head?_replicate, hne]) hones (by simpa using hn),
    List.length_replicate]

/-- **A text in braces may be neither an object nor refused as a text**: a whole number of too many digits is a fault of
another kind. -/
theorem readReply_overlong :
    let a := "Here it is:\n```json\n"
    let t := onesObject 4301
    let b := "\n```"
    Braced t.toList ∧ Braceless a.toList ∧ Braceless b.toList ∧
      (readReply (a ++ t ++ b) : Except (Fault Rat) (Fields Rat)) = .error (.limit (.digits 4301)) ∧
      ¬ ((∃ fields, (readReply (a ++ t ++ b) : Except (Fault Rat) (Fields Rat)) = .ok fields) ∨
        ∃ errors, (readReply (a ++ t ++ b) : Except (Fault Rat) (Fields Rat)) = .error (.schema errors)) := by
  have ha : Braceless "Here it is:\n```json\n".toList := by decide
  have hb : Braceless "\n```".toList := by decide
  have hread {n : Nat} (hn : Json.digitLimit < n) :
      (readReply ("Here it is:\n```json\n" ++ onesObject n ++ "\n```") : Except (Fault Rat) (Fields Rat)) =
        .error (.limit (.digits n)) := by
    have hwraps : Wraps (onesObject n).toList ("Here it is:\n```json\n" ++ onesObject n ++ "\n```").toList :=
      ⟨_, _, by rw [String.toList_append, String.toList_append], ha, hb⟩
    unfold readReply
    dsimp only
    rw [payload_of_wraps hwraps (braced_onesObject n), Json.read_onesObject hn]
  have hreply := hread (n := 4301) (by decide)
  refine ⟨braced_onesObject 4301, ha, hb, hreply, ?_⟩
  rw [hreply]
  rintro (⟨_, h⟩ | ⟨_, h⟩)
  · exact nomatch h
  · exact nomatch h

end Drawing
