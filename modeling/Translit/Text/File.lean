import Translit.Text.Utf8

/-!
# Files

* `Fault`, `Fault.message`: why a file or a stream cannot be read;
* `Files`: a directory, the bytes of each file in it;
* `Place`, `Place.enter`, `Files.walk`: the way that a path takes;
* `Files.read`, `Files.readText`: the bytes and the text of the file at a path;
* `textOf`: the text of bytes that have been read.
-/

namespace Translit.Text

open Utf8 (Bytes)

/-- Why a file or a stream cannot be read. -/
inductive Fault
  | notFound
  | notDirectory
  | isDirectory
  | nameTooLong
  | nulInName
  | notUtf8
  deriving DecidableEq, Repr

/-- The wording of a fault. -/
def Fault.message : Fault → String
  | .notFound => "No such file or directory (os error 2)"
  | .notDirectory => "Not a directory (os error 20)"
  | .isDirectory => "Is a directory (os error 21)"
  | .nameTooLong => "File name too long (os error 36)"
  | .nulInName => "file name contained an unexpected NUL byte"
  | .notUtf8 => "stream did not contain valid UTF-8"

/-- The files of the working directory: the bytes of each under its name. -/
abbrev Files := List (String × Bytes)

/-! ## Paths -/

/-- Where a path leads: to the working directory, to a directory outside of it, of which nothing is
known but that it is there, or to a file. -/
inductive Place
  | workingDirectory
  | outside
  | file (content : Bytes)
  deriving DecidableEq, Repr

/-- The largest number of bytes in a name. -/
def nameLimit : Nat := 255

/-- The number of bytes that a path stays below. -/
def pathLimit : Nat := 4096

/-- The place that a name leads to from another place. The empty name, which stands between two
slashes and behind the last one, and `.` lead nowhere else; no name leads on from a file. -/
def Place.enter (files : Files) (place : Place) (name : String) : Except Fault Place :=
  match place with
  | .file _ => .error .notDirectory
  | .workingDirectory | .outside =>
    if name = "" ∨ name = "." then .ok place
    else if name = ".." then .ok .outside
    else if nameLimit < name.utf8ByteSize then .error .nameTooLong
    else
      match place, files.lookup name with
      | .workingDirectory, some content => .ok (.file content)
      | _, _ => .error .notFound

/-- The place that a path leads to. A path that begins with a slash leaves the working directory,
and an empty one leads nowhere. -/
def Files.walk (files : Files) (path : String) : Except Fault Place :=
  if path = "" then .error .notFound
  else if pathLimit ≤ path.utf8ByteSize then .error .nameTooLong
  else
    let start : Place := if path.startsWith "/" then .outside else .workingDirectory
    (path.splitOn "/").foldlM (Place.enter files) start

/-! ## Reading -/

/-- The bytes of the file at a path. A path that holds the character NUL is none, whatever else is
wrong with it; a path under which a file is listed needs no walk. -/
def Files.read (files : Files) (path : String) : Except Fault Bytes :=
  if path.toList.contains '\x00' then .error .nulInName
  else
    match files.lookup path with
    | some content => .ok content
    | none =>
      match files.walk path with
      | .ok (.file content) => .ok content
      | .ok _ => .error .isDirectory
      | .error fault => .error fault

/-- The text of bytes that have been read. -/
def textOf (bytes : Bytes) : Except Fault (List Char) :=
  match Utf8.text? bytes with
  | some cs => .ok cs
  | none => .error .notUtf8

/-- The text of the file at a path. -/
def Files.readText (files : Files) (path : String) : Except Fault (List Char) :=
  files.read path >>= textOf

end Translit.Text
