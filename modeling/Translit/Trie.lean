/-!
# Tries

A trie holds a list of words for prefix search. Its nodes lie in one array and name each other by
index; the root is node 0. The children of a node are kept in the order of their labels and found
by halving.

* `Trie.Node`, `Node.position`, `Node.child?`, `Node.addChild`;
* `Trie`, `Trie.insert`, `Trie.build`: of words that occur more than once the last counts;
* `Trie.lookup`: whether a sequence is a word, and whether a longer word begins with it;
* `Trie.longestMatch`: the longest word that begins at a place of a text.
-/

namespace Translit

/-- A node: its children by label, and the word that ends at it. -/
structure Trie.Node where
  children : Array (Char × Nat) := #[]
  word? : Option Nat := none
  deriving Repr

namespace Trie.Node

/-- The place in `[lo, hi)` of the first label that is not below `c`, or `hi`. Each step halves the
interval, so there are never more steps than places. -/
def lowerBound (children : Array (Char × Nat)) (c : Char) : (steps lo hi : Nat) → Nat
  | 0, lo, _ => lo
  | steps + 1, lo, hi =>
    if lo < hi then
      let mid := lo + (hi - lo) / 2
      if children[mid]?.any (·.1 < c) then lowerBound children c steps (mid + 1) hi
      else lowerBound children c steps lo mid
    else lo

/-- The place of the label `c` among the children, whether it is there or not. -/
def position (n : Node) (c : Char) : Nat :=
  lowerBound n.children c n.children.size 0 n.children.size

/-- The child with the label `c`. -/
def child? (n : Node) (c : Char) : Option Nat :=
  match n.children[n.position c]? with
  | some (label, next) => if label = c then some next else none
  | none => none

/-- The node with one more child, at the place of its label. -/
def addChild (n : Node) (c : Char) (next : Nat) : Node :=
  { n with children := n.children.insertIdxIfInBounds (n.position c) (c, next) }

end Trie.Node

/-- A trie: its nodes, the root first. -/
structure Trie where
  nodes : Array Trie.Node
  deriving Repr

/-- A word found in a text: which one, and its length. -/
structure Trie.Match where
  word : Nat
  length : Nat
  deriving DecidableEq, Repr

/-- What a trie knows of a sequence: the word that it is, and whether longer words begin with
it. -/
structure Trie.Lookup where
  word? : Option Nat := none
  continues : Bool := false
  deriving DecidableEq, Repr

namespace Trie

/-- The index of the root. -/
def root : Nat := 0

/-- The trie without words. -/
def empty : Trie := ⟨#[{}]⟩

/-- The node at an index. -/
def node (t : Trie) (i : Nat) : Node := t.nodes[i]?.getD {}

/-- The number of nodes. -/
def nodeCount (t : Trie) : Nat := t.nodes.size

/-! ## Building -/

/-- The node that the edge `c` leads to, which is added to the end of the array if there is none. -/
def extend (t : Trie) (i : Nat) (c : Char) : Trie × Nat :=
  match (t.node i).child? c with
  | some next => (t, next)
  | none =>
    let next := t.nodes.size
    (⟨(t.nodes.push {}).modify i (·.addChild c next)⟩, next)

/-- The trie in which the sequence of characters from node `i` ends in the word `word`. -/
def insertFrom (t : Trie) (i : Nat) (word : Nat) : List Char → Trie
  | [] => ⟨t.nodes.modify i fun n => { n with word? := some word }⟩
  | c :: cs =>
    let (t, next) := t.extend i c
    t.insertFrom next word cs

/-- The trie with one more word, in place of an equal one. -/
def insert (t : Trie) (entry : List Char × Nat) : Trie := t.insertFrom root entry.2 entry.1

/-- The trie of the entries, inserted from first to last. -/
def ofEntries (entries : List (List Char × Nat)) : Trie := entries.foldl insert empty

/-- The words with their indices, longest first and otherwise in order. -/
def insertionOrder (words : List (List Char)) : List (List Char × Nat) :=
  words.zipIdx.mergeSort fun a b => decide (b.1.length ≤ a.1.length)

/-- The trie of a list of words. -/
def build (words : List (List Char)) : Trie := ofEntries (insertionOrder words)

/-! ## Searching -/

/-- The node that a sequence of characters leads to from node `i`. -/
def reach? (t : Trie) (i : Nat) : List Char → Option Nat
  | [] => some i
  | c :: cs =>
    match (t.node i).child? c with
    | some next => t.reach? next cs
    | none => none

/-- What is known of a sequence as a whole. The empty sequence is no word. -/
def lookup (t : Trie) (cs : List Char) : Lookup :=
  match t.reach? root cs with
  | some i =>
    if i = root then {}
    else { word? := (t.node i).word?, continues := !(t.node i).children.isEmpty }
  | none => {}

/-- The longest word among those that lie between node `i` and the end of the characters. A walk
that goes on past a word and finds none comes back to it. -/
def longestFrom (t : Trie) (i : Nat) : List Char → Option Match
  | [] => none
  | c :: cs =>
    match (t.node i).child? c with
    | some next =>
      match t.longestFrom next cs with
      | some m => some { m with length := m.length + 1 }
      | none => (t.node next).word?.map fun word => ⟨word, 1⟩
    | none => none

/-- The longest word that a text begins with. -/
def longest (t : Trie) (cs : List Char) : Option Match := t.longestFrom root cs

/-- The longest word that begins at the place `start` of a text. -/
def longestMatch (t : Trie) (cs : List Char) (start : Nat) : Option Match :=
  t.longest (cs.drop start)

end Trie

end Translit
