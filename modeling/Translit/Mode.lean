/-!
# Modes

* `Mode`: the directions a text may be converted in;
* `Mode.name`, `Mode.ofName?`: their names, of which some have two.
-/

namespace Translit

/-- A direction of conversion. Only the first has been worked out. -/
inductive Mode
  | forward
  | reverse
  | banglish
  | lishbang
  deriving DecidableEq, Repr

namespace Mode

/-- All modes. -/
def all : List Mode := [forward, reverse, banglish, lishbang]

/-- The mode of a text that asks for none. -/
def default : Mode := forward

/-- The name of a mode. -/
def name : Mode → String
  | forward => "avro"
  | reverse => "orva"
  | banglish => "banglish"
  | lishbang => "lishbang"

/-- Texts can be converted in this mode. -/
def isImplemented : Mode → Bool
  | forward => true
  | _ => false

/-- The mode of a name, in capital or small letters of the English alphabet. -/
def ofName? (cs : List Char) : Option Mode :=
  let name := cs.map Char.toLower
  if name = "avro".toList ∨ name = "forward".toList then some forward
  else if name = "orva".toList ∨ name = "reverse".toList then some reverse
  else if name = "banglish".toList then some banglish
  else if name = "lishbang".toList then some lishbang
  else none

end Mode

end Translit
