import Translit.Text.Utf8

/-!
# What a run leaves behind

* `Outcome`: exit status and output;
* `Output`: output that is collected and written in large pieces, so that what is still held back
  when a run fails is never written;
* `Text.lines`: the lines of an input.
-/

namespace Translit.Tool

open Text.Utf8 (Bytes)

/-- The exit status and what was written to standard output and standard error. -/
structure Outcome where
  code : Nat := 0
  stdout : String := ""
  stderr : String := ""
  deriving DecidableEq, Repr

/-- The outcome of a run that fails with a message and has written nothing. -/
def Outcome.failure (code : Nat) (message : String) : Outcome :=
  { code, stderr := message ++ "\n" }

/-! ## Collected output -/

/-- Output: what has been written, and what is held back, with its size in bytes. -/
structure Output where
  written : List Char := []
  held : List Char := []
  heldSize : Nat := 0
  deriving DecidableEq, Repr

namespace Output

/-- The number of bytes that may be held back. -/
def capacity : Nat := 8192

/-- The number of bytes of a text. -/
def size (cs : List Char) : Nat := (Text.Utf8.encode cs).length

/-- Everything held back is written. -/
def flush (o : Output) : Output := { written := o.written ++ o.held }

/-- One more piece of text. It is held back if there is room for it; a piece that would fill all
room is written at once. -/
def put (o : Output) (cs : List Char) : Output :=
  let o := if capacity - o.heldSize < size cs then o.flush else o
  if capacity ≤ size cs then { o with written := o.written ++ cs }
  else { o with held := o.held ++ cs, heldSize := o.heldSize + size cs }

/-- One more line of text. -/
def putLine (o : Output) (cs : List Char) : Output := (o.put cs).put ['\n']

end Output

/-! ## Lines -/

/-- A line feed. -/
def lineFeed : UInt8 := 0x0A

/-- A line without a carriage return at its end. -/
def dropReturn (line : Bytes) : Bytes :=
  match line.getLast? with
  | some b => if b = 0x0D then line.dropLast else line
  | none => line

/-- The lines of an input, of which `current` is the beginning of the first, last byte first. A
line ends in a line feed, which a carriage return may precede; the last line may lack an end. -/
def linesFrom (current : Bytes) : Bytes → List Bytes
  | [] => if current.isEmpty then [] else [current.reverse]
  | b :: bs =>
    if b = lineFeed then dropReturn current.reverse :: linesFrom [] bs
    else linesFrom (b :: current) bs

/-- The lines of an input. -/
def lines (bytes : Bytes) : List Bytes := linesFrom [] bytes

end Translit.Tool
