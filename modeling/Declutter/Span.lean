import Declutter.Text.Basic
/-!
Spans: half-open ranges of offsets into one source text.
-/

set_option autoImplicit false
set_option relaxedAutoImplicit false

namespace Declutter

/-- The offsets `start ≤ i < stop`. -/
structure Span where
  start : Nat
  stop : Nat
deriving DecidableEq, Repr, Inhabited

namespace Span

/-- The span without the blanks at its end. -/
def trimEnd (source : Text) (s : Span) : Span :=
  { s with stop := s.start + ((source.slice s.start s.stop).trimEnd).length }

/-- The units of the source inside the span. -/
def read (source : Text) (s : Span) : Text := source.slice s.start s.stop

/-- The spans in the order of their starts; spans with one start keep their order. -/
def sortByStart (spans : List Span) : List Span :=
  spans.mergeSort fun a b ↦ a.start ≤ b.start

end Span

end Declutter
