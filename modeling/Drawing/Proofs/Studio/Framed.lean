import Drawing.Proofs.Markup.Framed
import Drawing.Proofs.Number.RoundOff
import Drawing.Proofs.Studio.Isolation

/-!
# `Drawing/Proofs/Studio/Framed.lean` — deliveries that are framed

A run that is done has painted the document that it is left with, and a delivery by the model is its page. What that
page shows was read from the last reply, laid out and framed, and framing leaves a padding around it.

> **a delivery by the model is framed** (`unified_framed`), by the numbers that are written on its page, unless what
> it shows is a speck.

The exception cannot be avoided. The sizes of layouts and the coordinates of paths have no lower bound, and a view box
that is rounded to hundredths may have no sides at all.
-/

namespace Drawing

namespace Studio

variable {α : Type} [Scalar α] [DecimalText α] [Trig α] {config : Config α} {model : Model α} {m after : Memory α}
  {before : Set (Layer α)} {r : DrawingRequest α} {d : Delivery α}

/-- A run whose page, once it is done, is that of its document. -/
def Painted (run : Run (Draft α) (Fault α) α) : Prop :=
  run.phase = .done → run.state.document.markup = .ok run.state.markup

theorem Painted.step {s : Studio α} (hpaint : ∀ n d, s.paint n d = d.markup)
    {run run' : Run (Draft α) (Fault α) α} {t : Task} (hs : (s.course r).StepsTo run t run') : Painted run' := by
  intro hdone
  cases hs with
  | done ha =>
    obtain rfl := Task.eq_autoFitting_of_next hdone
    rw [course_act, act] at ha
    obtain ⟨n, hmarkup⟩ := markup_of_finish ha
    rwa [hpaint] at hmarkup
  | again ha => cases hdone
  | out ha => cases hdone

theorem painted_run {s : Studio α} (hpaint : ∀ n d, s.paint n d = d.markup) {run : Run (Draft α) (Fault α) α}
    (hrun : s.run m r = .ok run) : Painted run := by
  obtain ⟨last, hpainted, -, rfl⟩ := (s.course r).of_drive_start Painted (fun h => nomatch h)
    (fun _ _ _ _ _ hs => Painted.step hpaint hs) hrun
  exact hpainted

/-- A delivery by the model is the page of what the last reply comes to. -/
theorem page_of_deliver [ToldByDigits α] [StaysFinite α] [HoldsSides α] (hm : Reached config model m before)
    (hd : (Studio.ofModel config model).deliver m r = .ok (d, after)) (hunified : d.result.metadata.method = .unified) :
    ∃ reply document repaired, model (after.asked - 1) r.fullPrompt = .text reply ∧
      ComesTo config.padding r.aspect reply document repaired ∧ document.markup = .ok d.result.markup := by
  obtain ⟨run, hrun, hdone, horder, hasked, hmarkup, -⟩ := exists_done_of_deliver hm hd hunified
  have hprepared := horder.prepared
  rw [hdone] at hprepared
  obtain ⟨hreplied, hcomes, -⟩ := hprepared
  refine ⟨run.state.reply, run.state.document, run.state.repaired, ?_, hcomes, ?_⟩
  · rw [hasked]
    exact hreplied.text
  · rw [hmarkup]
    exact painted_run (fun _ _ => rfl) hrun hdone

end Studio

/-- **A delivery by the model is framed.** Its page is that of what the last reply comes to, and the view box on it is
the one of this document, rounded to hundredths. As it is written there the box has sides, and the points of the path
data are inside it, as long as the content is flat or one of its sides has at least `Extent.leastLength`. -/
theorem unified_framed {α : Type} [Scalar α] [DecimalText α] [Trig α] [ToldByDigits α] [StaysFinite α] [HoldsSides α]
    [NearlyExact α] {config : Config α} (hpadding : config.padding = .real defaultPadding) {model : Model α}
    {m after : Memory α} {before : Set (Layer α)} {r : DrawingRequest α} {d : Delivery α}
    (hm : Studio.Reached config model m before) (hd : (Studio.ofModel config model).deliver m r = .ok (d, after))
    (hunified : d.result.metadata.method = .unified) :
    ∃ reply document repaired box, model (after.asked - 1) r.fullPrompt = .text reply ∧
      Studio.ComesTo config.padding r.aspect reply document repaired ∧ document.markup = .ok d.result.markup ∧
      document.canvas.viewBox = some box ∧ readViewBox? d.result.markup = some box.toRat.rounded.toList ∧
      ((extent ((pointsOf document.commands).map Point.toRat)).IsLegible → IsFramed d.result.markup) := by
  obtain ⟨reply, document, repaired, htext, hcomes, hmarkup⟩ := Studio.page_of_deliver hm hd hunified
  obtain ⟨read, resolved, framing, hread, hresolve, hfit⟩ := id hcomes
  obtain ⟨raw, outcome, hvalid, haccepted⟩ := hread.accepted
  rw [hpadding] at hfit
  obtain ⟨hbox, htold, hframed⟩ := Document.isFramed_of_fit hvalid haccepted hresolve hfit hmarkup
  exact ⟨reply, document, repaired, framing.viewBox, htext, hcomes, hmarkup, hbox, htold, hframed⟩

/-! ## Spots -/

/-- A reply with a stroke that is laid out to a square of some side. -/
def spotReply (side : String) : String :=
  "\x7b\"layers\":[\x7b\"id\":\"a\",\"label\":\"A\",\"layout\":\x7b\"size\":\x7b\"absolute\":\x7b\"width\":" ++ side ++
    ",\"height\":" ++ side ++ "\x7d\x7d\x7d,\"paths\":[\x7b\"id\":\"p\",\"commands\":[" ++
    "\x7b\"cmd\":\"M\",\"coords\":[0,0]\x7d,\x7b\"cmd\":\"L\",\"coords\":[8,8]\x7d]\x7d]\x7d]\x7d"

/-- The studio of a model that always gives this reply. -/
def spotStudio (side : String) : Studio Float := .ofModel .standard fun _ _ => .text (spotReply side)

/-- The run for a spot, as far as its reply has been read. -/
def spotRead? (side : String) : Option (Run (Draft Float) (Fault Float) Float) :=
  ((spotStudio side).course dotRequest).after 4 (.start (.blank (.fresh .standard) .square))

/-- The document of a spot as it is framed, if all its paths have commands. -/
def spotFramed? (run : Run (Draft Float) (Fault Float) Float) : Option (Document Float) :=
  if run.phase = .working .resolvingLayout ∧ ∀ l ∈ run.state.document.layers, ∀ p ∈ l.paths, p.commands ≠ [] then
    (Studio.framedDocument .standard run.state).toOption
  else none

/-- A spot that is framed is delivered by the model. -/
theorem spot_delivered {side : String} {framed : Document Float} (h : spotRead? side >>= spotFramed? = some framed) :
    ∃ d after, (spotStudio side).deliver (.fresh .standard) dotRequest = .ok (d, after) ∧
      d.result.metadata.method = .unified ∧ framed.markup = .ok d.result.markup ∧
      ∃ repaired, Studio.ComesTo (Config.standard : Config Float).padding .square (spotReply side) framed repaired := by
  obtain ⟨run, hread, hframed⟩ := Option.bind_eq_some_iff.mp h
  unfold spotFramed? at hframed
  split_ifs at hframed with hready
  obtain ⟨hphase, hcommands⟩ := hready
  obtain ⟨last, hrun, hdone, rfl, hmarkup, -⟩ := Studio.run_of_after (s := spotStudio side) (fun _ _ => rfl)
    recalls_standard hread hphase hcommands (eq_ok_of_toOption hframed)
  obtain ⟨horder, -⟩ := Studio.inOrder_run (fun _ _ => rfl) recalls_standard hrun
  have hprepared := horder.prepared
  rw [hdone] at hprepared
  obtain ⟨hreplied, hcomes, -⟩ := hprepared
  have hreply : last.state.reply = spotReply side := (Reply.text.inj hreplied.text).symm
  obtain ⟨debug, hdraft⟩ := (spotStudio side).draftResult_eq dotRequest last
  refine ⟨_, _, Studio.deliver_of_run rfl hrun, ?_⟩
  dsimp only
  rw [Studio.runResult_of_done _ _ hdone, hdraft, ← hreply]
  exact ⟨rfl, hmarkup, last.state.repaired, hcomes⟩

theorem unified_framed_spot : ∃ d after, (spotStudio "100").deliver (.fresh .standard) dotRequest = .ok (d, after) ∧
    d.result.metadata.method = .unified ∧ IsFramed d.result.markup := by
  have hspot : (spotRead? "100" >>= spotFramed?).map (fun framed =>
      decide (extent ((pointsOf framed.commands).map Point.toRat)).IsLegible) = some true := by decide +kernel
  obtain ⟨framed, hframed, hlegible⟩ := Option.map_eq_some_iff.mp hspot
  obtain ⟨d, after, hd, hunified, -, repaired, hcomes⟩ := spot_delivered hframed
  obtain ⟨reply, document, repaired', box, htext, hcomes', -, -, -, hframes⟩ :=
    unified_framed rfl (.opened create_standard) hd hunified
  obtain rfl : spotReply "100" = reply := Reply.text.inj htext
  obtain ⟨rfl, -⟩ := hcomes'.unique hcomes
  exact ⟨d, after, hd, hunified, hframes (of_decide_eq_true hlegible)⟩

/-- A spot of a thousandth of a pixel has a view box without sides. -/
theorem unified_framed_fails : ∃ d after,
    (spotStudio "0.001").deliver (.fresh .standard) dotRequest = .ok (d, after) ∧
      d.result.metadata.method = .unified ∧ ¬ IsFramed d.result.markup := by
  have hspot : ((spotRead? "0.001" >>= spotFramed?).bind fun framed => framed.canvas.viewBox.map fun box =>
      (decide box.IsFinite, box.toRat.rounded)) = some (true, ⟨256, 256, 0, 0⟩) := by decide +kernel
  obtain ⟨framed, hframed, hspot⟩ := Option.bind_eq_some_iff.mp hspot
  obtain ⟨box, hbox, hspot⟩ := Option.map_eq_some_iff.mp hspot
  obtain ⟨hfinite, hrounded⟩ := Prod.mk.inj hspot
  obtain ⟨d, after, hd, hunified, hmarkup, -⟩ := spot_delivered hframed
  have hread := Document.readViewBox?_toRat hmarkup hbox (of_decide_eq_true hfinite)
  rw [hrounded] at hread
  refine ⟨d, after, hd, hunified, ?_⟩
  rintro ⟨written, hwritten, hwidth, -⟩
  have hsides : written.toList = [256, 256, 0, 0] := Option.some.inj (hwritten.symm.trans hread)
  obtain ⟨-, -, hnone, -⟩ : written.x = 256 ∧ written.y = 256 ∧ written.width = 0 ∧ written.height = 0 := by
    simpa [Box.toList] using hsides
  rw [hnone] at hwidth
  exact lt_irrefl 0 hwidth

end Drawing
