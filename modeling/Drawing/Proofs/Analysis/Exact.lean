import Drawing.Analysis.Analyzer
import Drawing.Proofs.Fallible
import Drawing.Proofs.Number.Exact

/-!
# `Drawing/Proofs/Analysis/Exact.lean` — measuring that comes through

A layer has no account if a number on the way is too large. Exact numbers never are, so with them measuring comes
through, whatever has been measured before.
-/

namespace Drawing

theorem Layer.exists_measure (l : Layer Rat) (width height : Nat) :
    ∃ m, l.measure (.whole width) (.whole height) = .ok m := by
  have hcoverage (bounds : Box Rat) : ∃ share, coverage bounds (.whole width) (.whole height) = .ok share := by
    refine exists_bind_ok ⟨_, rfl⟩ fun area => ?_
    rw [area.toScalar_exact]
    split_ifs <;> exact ⟨_, rfl⟩
  exact exists_bind_ok ⟨_, rfl⟩ fun _ => exists_bind_ok (hcoverage _) fun _ => ⟨_, rfl⟩

/-- Looking a layer up among those that are remembered, or measuring it, comes through. -/
theorem Analyzer.exists_measure [DecimalText Rat] (a : Analyzer Rat) (l : Layer Rat) (width height : Nat) :
    ∃ m, (a.measure l (.whole width) (.whole height)).1 = .ok m := by
  obtain ⟨m, hm⟩ := l.exists_measure width height
  unfold measure
  rw [hm]
  dsimp only
  split <;> exact ⟨_, rfl⟩

/-- **The layers of a document have accounts**, whatever is remembered. -/
theorem Analyzer.exists_summarize [DecimalText Rat] (a : Analyzer Rat) (d : Document Rat) :
    ∃ accounts, (a.summarize d).1 = .ok accounts := by
  unfold summarize
  generalize d.layers = layers
  induction layers generalizing a with
  | nil => exact ⟨[], rfl⟩
  | cons l rest ih =>
    obtain ⟨m, hm⟩ := a.exists_measure l d.canvas.width d.canvas.height
    unfold summarizeLayers
    generalize a.measure l _ _ = measured at hm
    obtain ⟨_, a'⟩ := measured
    obtain rfl := hm
    obtain ⟨accounts, haccounts⟩ := ih a'
    dsimp only
    rw [haccounts]
    exact ⟨_, rfl⟩

end Drawing
