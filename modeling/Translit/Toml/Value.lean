/-!
# TOML values and tables

A document builds up one table, statement by statement. What a statement may add to depends on how
the tables on its way came about.

* `Origin`, `Value`: the values, with tables by their origin;
* `assign`: the entry that a dotted key and its value add to a table;
* `openTable`, `appendTable`: the tables that headers in single and double brackets open;
* `descend`: a change to the table that a header's key leads to.
-/

namespace Translit.Toml

/-- A key. -/
abbrev Key := List Char

/-- How a table came about: in braces, by its own header, on the way to another header's table, or
on the way to a dotted key's value. -/
inductive Origin
  | inline
  | header
  | implied
  | dotted
  deriving DecidableEq, Repr

/-- A value. Numbers and times are kept by their spelling; `tables` are the tables of a header in
double brackets. -/
inductive Value
  | string (text : List Char)
  | boolean (b : Bool)
  | number (spelling : List Char)
  | time (spelling : List Char)
  | array (elements : List Value)
  | table (origin : Origin) (entries : List (Key × Value))
  | tables (elements : List Value)
  deriving Repr

/-- The entries of a table, in the order they were added. -/
abbrev Entries := List (Key × Value)

namespace Entries

/-- The entries with the value of a key replaced, or added at the end. -/
def put (entries : Entries) (key : Key) (value : Value) : Entries :=
  if (entries.lookup key).isSome then
    entries.map fun e => if e.1 = key then (key, value) else e
  else entries ++ [(key, value)]

end Entries

/-- A new entry; a key is given a value once. -/
def define (key : Key) (value : Value) (entries : Entries) : Option Entries :=
  match entries.lookup key with
  | none => some (entries.put key value)
  | some _ => none

/-- A change to the last of the tables of a header in double brackets. -/
def changeLast (change : Entries → Option Entries) (elements : List Value) :
    Option (List Value) :=
  match elements.getLast? with
  | some (.table origin entries) => do
    return elements.dropLast ++ [.table origin (← change entries)]
  | _ => none

/-! ## Dotted keys -/

/-- A change to the table that dotted keys lead to. They make the tables that are missing, and pass
through tables that no header and no braces have closed. -/
def descendDotted (change : Origin → Entries → Option Entries) :
    List Key → Origin → Entries → Option Entries
  | [], origin, entries => change origin entries
  | key :: path, _, entries =>
    match entries.lookup key with
    | none => do
      return entries.put key (.table .dotted (← descendDotted change path .dotted []))
    | some (.table origin sub) =>
      if origin = .implied ∨ origin = .dotted then do
        return entries.put key (.table origin (← descendDotted change path origin sub))
      else none
    | some (.tables elements) => do
      return entries.put key
        (.tables (← changeLast (descendDotted change path .header) elements))
    | some _ => none

/-- The entry that a dotted key and its value add to a table. The last table on the way must have
come about by dotted keys. -/
def assign (path : List Key) (key : Key) (value : Value) (entries : Entries) : Option Entries :=
  let change (origin : Origin) (sub : Entries) : Option Entries :=
    if path.isEmpty ∨ origin = .dotted then define key value sub else none
  descendDotted change path .header entries

/-! ## Headers -/

/-- A change to the table that a header's key leads to. Tables that are missing are implied; in the
tables of a header in double brackets it goes to the last. -/
def descend (change : Entries → Option Entries) : List Key → Entries → Option Entries
  | [], entries => change entries
  | key :: path, entries =>
    match entries.lookup key with
    | none => do return entries.put key (.table .implied (← descend change path []))
    | some (.table .inline _) => none
    | some (.table origin sub) => do
      return entries.put key (.table origin (← descend change path sub))
    | some (.tables elements) => do
      return entries.put key (.tables (← changeLast (descend change path) elements))
    | some _ => none

/-- A table opened by a header of its own, which may come after a header that implied it. -/
def openTable (key : Key) (entries : Entries) : Option Entries :=
  match entries.lookup key with
  | none => some (entries.put key (.table .header []))
  | some (.table .implied sub) => some (entries.put key (.table .header sub))
  | some _ => none

/-- One more table under a header in double brackets. -/
def appendTable (key : Key) (entries : Entries) : Option Entries :=
  match entries.lookup key with
  | none => some (entries.put key (.tables [.table .header []]))
  | some (.tables elements) =>
    some (entries.put key (.tables (elements ++ [.table .header []])))
  | some _ => none

end Translit.Toml
