import Translit.Tool.Run

/-!
# The command line tool

The files that the arguments name and the standard input are read, and the outcome of the run is
written.
-/

namespace Translit.Tool

/-- The files of the given names, as far as they can be read. -/
def readFiles (names : List String) : IO Text.Files := do
  let mut files := []
  for name in names do
    try
      let content ← IO.FS.readBinFile name
      files := (name, content.toList) :: files
    catch _ => pure ()
  return files

/-- The rest of a stream. -/
partial def readAll (stream : IO.FS.Stream) (read : ByteArray) : IO ByteArray := do
  let block ← stream.read 65536
  if block.isEmpty then return read else readAll stream (read ++ block)

end Translit.Tool

open Translit.Tool in
/-- Runs the tool. -/
def main (arguments : List String) : IO UInt32 := do
  let mut world : World := {}
  if let some i := Invocation.ofArguments? arguments then
    let stdin ← if i.readsInput then readAll (← IO.getStdin) .empty else pure .empty
    world := { files := ← readFiles i.fileNames, stdin := stdin.toList }
  let outcome := run world arguments
  IO.print outcome.stdout
  IO.eprint outcome.stderr
  return outcome.code.toUInt32
