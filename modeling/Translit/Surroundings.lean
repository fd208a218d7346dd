/-!
# Surroundings

* `Surroundings`, `Surroundings.ofSpan`: the text on both sides of a span.
-/

namespace Translit

/-- The text beside a span, nearest character first. A span that begins or ends outside the text
has none on that side. -/
structure Surroundings where
  before? : Option (List Char)
  after? : Option (List Char)
  deriving DecidableEq, Repr

/-- The text beside the span from `start` to `stop`. -/
def Surroundings.ofSpan (cs : List Char) (start stop : Nat) : Surroundings where
  before? := if start ≤ cs.length then some (cs.take start).reverse else none
  after? := if stop ≤ cs.length then some (cs.drop stop) else none

end Translit
