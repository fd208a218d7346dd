import Mathlib.Data.UInt
import Translit.Proofs.Trie.Nodes

/-!
# Tries with every index checked

The operations of a trie once more, with a check of each index before it is used and of each number
before it is kept in 32 bits. They have no outcome if a check fails. No check ever fails, as long as
the words are few and short enough for 32 bits; so the outcomes are those without checks.

* `in32?`: a number in 32 bits;
* `Trie.insert?`, `Trie.build?`, `Trie.step?`, `Trie.lookup?`, `Trie.longestMatch?`: the operations
  with checks; the searches go over a text in a loop;
* `Trie.extend?_eq`, `Trie.insertFrom?_eq`, `Trie.build?_eq`: what comes of building;
* `Trie.step?_eq`, `Trie.lookup?_eq`, `Trie.longestMatch?_eq`: what comes of searching.
-/

namespace Translit

/-- The number kept in 32 bits, if that does not change it. -/
def in32? (n : Nat) : Option Nat := if (UInt32.ofNat n).toNat = n then some n else none

theorem in32?_of_lt {n : Nat} (h : n < 2 ^ 32) : in32? n = some n :=
  if_pos (UInt32.toNat_ofNat_of_lt' h)

namespace Trie

/-! ## The operations -/

/-- Where the children have a label, or else where it belongs. -/
def Node.search (n : Node) (c : Char) : Except Nat Nat :=
  match n.children[n.position c]? with
  | some (label, _) => if label = c then .ok (n.position c) else .error (n.position c)
  | none => .error (n.position c)

/-- An array with one more element, at a place that must not lie behind its end. -/
def insertAt? {α : Type} (xs : Array α) (i : Nat) (x : α) : Option (Array α) :=
  if h : i ≤ xs.size then some (xs.insertIdx i x h) else none

/-- `Trie.extend`, with checks. -/
def extend? (t : Trie) (i : Nat) (c : Char) : Option (Trie × Nat) := do
  match (← t.nodes[i]?).search c with
  | .ok pos =>
    let (_, next) ← (← t.nodes[i]?).children[pos]?
    return (t, next)
  | .error pos =>
    let next ← in32? t.nodes.size
    let nodes := t.nodes.push {}
    let n ← nodes[i]?
    let children ← insertAt? n.children pos (c, next)
    return (⟨nodes.setIfInBounds i { n with children }⟩, next)

/-- `Trie.insertFrom`, with checks. -/
def insertFrom? (t : Trie) (i word : Nat) : List Char → Option Trie
  | [] => do
    let n ← t.nodes[i]?
    return ⟨t.nodes.setIfInBounds i { n with word? := some word }⟩
  | c :: cs => do
    let (t, next) ← t.extend? i c
    t.insertFrom? next word cs

/-- `Trie.insert`, with checks. -/
def insert? (t : Trie) (entry : List Char × Nat) : Option Trie := do
  t.insertFrom? root (← in32? entry.2) entry.1

/-- `Trie.build`, with checks. The places go in one by one, and each must be that of a word. -/
def build? (words : List (List Char)) : Option Trie :=
  ((insertionOrder words).map (·.2)).foldlM (fun t i => do t.insert? (← words[i]?, i)) empty

/-- The node that the edge `c` leads to, with checks. -/
def step? (t : Trie) (i : Nat) (c : Char) : Option (Option Nat) := do
  let n ← t.nodes[i]?
  match n.search c with
  | .ok pos => return some (← n.children[pos]?).2
  | .error _ => return none

/-- The word at a node, with checks. -/
def terminal? (t : Trie) (i : Nat) : Option (Option Nat) := do return (← t.nodes[i]?).word?

/-- `Trie.reach?` in a loop, with checks. -/
def walk? (t : Trie) (i : Nat) : List Char → Option (Option Nat)
  | [] => some (some i)
  | c :: cs => do
    match ← t.step? i c with
    | some next => t.walk? next cs
    | none => return none

/-- `Trie.lookup`, with checks. -/
def lookup? (t : Trie) (cs : List Char) : Option Lookup := do
  match ← t.walk? root cs with
  | some i =>
    if i = root then return {}
    else return { word? := ← t.terminal? i, continues := !(← t.nodes[i]?).children.isEmpty }
  | none => return {}

/-- `Trie.longestFrom` in a loop, with checks: `offset` characters have been passed, and `best?` is
the last word on the way. -/
def longestFrom? (t : Trie) (i offset : Nat) (best? : Option Match) :
    List Char → Option (Option Match)
  | [] => some best?
  | c :: cs => do
    match ← t.step? i c with
    | some next =>
      match ← t.terminal? next with
      | some word => t.longestFrom? next (offset + 1) (some ⟨word, offset + 1⟩) cs
      | none => t.longestFrom? next (offset + 1) best? cs
    | none => return best?

/-- `Trie.longestMatch`, with checks. Behind the end of a text nothing is looked for. -/
def longestMatch? (t : Trie) (cs : List Char) (start : Nat) : Option (Option Match) :=
  if start ≤ cs.length then t.longestFrom? root 0 none (cs.drop start) else some none

/-! ## Building -/

variable {t : Trie} {n : Node} {i k : Nat} {c : Char} {p cs : List Char}
  {words : List (List Char)}

theorem getElem?_nodes (hi : i < t.nodes.size) : t.nodes[i]? = some (t.node i) := by
  rw [node, Array.getElem?_eq_getElem hi]
  rfl

theorem setIfInBounds_eq_modify {α : Type} {xs : Array α} {x : α} (h : xs[i]? = some x)
    (f : α → α) : xs.setIfInBounds i (f x) = xs.modify i f := by
  apply Array.ext_getElem?
  intro j
  rw [Array.getElem?_setIfInBounds, Array.getElem?_modify]
  by_cases hij : i = j
  · subst hij
    have hi : i < xs.size := (Array.getElem?_eq_some_iff.1 h).1
    rw [if_pos rfl, if_pos rfl, if_pos hi, h]
    rfl
  · rw [if_neg hij, if_neg hij]

/-- The place of a label never lies behind the children. -/
theorem insertAt?_position (hs : n.Sorted) :
    insertAt? n.children (n.position c) (c, k) = some (n.addChild c k).children := by
  have hle := (Node.position_spec hs c).le_size
  rw [insertAt?, dif_pos hle, Node.addChild, Array.insertIdxIfInBounds, dif_pos hle]

/-- A child that is found is found at its place. -/
theorem search_of_child? (h : n.child? c = some k) :
    n.search c = .ok (n.position c) ∧ n.children[n.position c]? = some (c, k) := by
  unfold Node.child? at h
  unfold Node.search
  cases he : n.children[n.position c]? with
  | none => simp [he] at h
  | some e =>
    obtain ⟨label, next⟩ := e
    simp only [he, Option.ite_none_right_eq_some, Option.some.injEq] at h
    obtain ⟨rfl, rfl⟩ := h
    exact ⟨if_pos rfl, rfl⟩

theorem search_of_child?_eq_none (h : n.child? c = none) : n.search c = .error (n.position c) := by
  unfold Node.child? at h
  unfold Node.search
  cases he : n.children[n.position c]? with
  | none => rfl
  | some e =>
    obtain ⟨label, next⟩ := e
    simp only [he, ite_eq_right_iff, reduceCtorEq, imp_false] at h
    exact if_neg h

/-- **One edge more.** The index of a new node is kept in 32 bits. -/
theorem extend?_eq (ht : t.WellFormed) (hi : i < t.nodes.size) (hsize : t.nodes.size < 2 ^ 32) :
    t.extend? i c = some (t.extend i c) := by
  rw [extend?, getElem?_nodes hi]
  cases h : (t.node i).child? c with
  | some k =>
    obtain ⟨hsearch, hchild⟩ := search_of_child? h
    rw [extend_of_child h]
    simp only [Option.bind_eq_bind, Option.bind_some, hsearch, hchild]
    rfl
  | none =>
    have hpush : (t.nodes.push {})[i]? = some (t.node i) := by
      rw [Array.getElem?_push, if_neg (Nat.ne_of_lt hi), getElem?_nodes hi]
    have hnodes := setIfInBounds_eq_modify hpush (·.addChild c t.nodes.size)
    simp only [Option.bind_eq_bind, Option.bind_some, search_of_child?_eq_none h,
      in32?_of_lt hsize, hpush, insertAt?_position (ht.sorted i)]
    rw [extend, h]
    exact congrArg (fun nodes => some (Trie.mk nodes, t.nodes.size)) hnodes

theorem insertFrom?_eq (ht : t.WellFormed) (word : Nat) (hp : t.reach? root p = some i)
    (hsize : t.nodes.size + cs.length ≤ 2 ^ 32) :
    t.insertFrom? i word cs = some (t.insertFrom i word cs) := by
  induction cs generalizing t i p with
  | nil =>
    have hnode := getElem?_nodes (ht.reach?_lt hp)
    have hnodes := setIfInBounds_eq_modify hnode fun n => { n with word? := some word }
    rw [insertFrom?, hnode]
    exact congrArg (fun nodes => some (Trie.mk nodes)) hnodes
  | cons c cs ih =>
    have hi := ht.reach?_lt hp
    have hextend := size_extend_le t i c
    rw [List.length_cons] at hsize
    have hrest : (t.extend i c).1.nodes.size + cs.length ≤ 2 ^ 32 := by omega
    rw [insertFrom?, extend?_eq ht hi (by omega)]
    exact ih (ht.extend hi) (ht.reach?_extend_self hp) hrest

theorem insert?_eq (ht : t.WellFormed) {entry : List Char × Nat} (hword : entry.2 < 2 ^ 32)
    (hsize : t.nodes.size + entry.1.length ≤ 2 ^ 32) : t.insert? entry = some (t.insert entry) := by
  rw [insert?, in32?_of_lt hword]
  exact insertFrom?_eq ht entry.2 (p := []) rfl hsize

/-- **All insertions**, one after the other. -/
theorem foldlM_insert?_eq (entries : List (List Char × Nat))
    (hword : ∀ e ∈ entries, e.2 < 2 ^ 32 ∧ words[e.2]? = some e.1)
    (hsize : 1 + (entries.map (·.1.length)).sum ≤ 2 ^ 32) :
    (entries.map (·.2)).foldlM (fun t i => do t.insert? (← words[i]?, i)) empty =
      some (ofEntries entries) := by
  -- what has been inserted so far leaves room for the word that comes next
  induction entries using List.reverseRecOn with
  | nil => rfl
  | append_singleton entries e ih =>
    rw [List.map_append, List.sum_append, List.map_singleton, List.sum_singleton] at hsize
    obtain ⟨hbefore, hlast⟩ := List.forall_mem_append.1 hword
    obtain ⟨hplace, hword⟩ := hlast e (List.mem_singleton_self e)
    have hnodes := size_ofEntries_le entries
    rw [List.map_append, List.foldlM_append, ih hbefore (by omega), ofEntries_concat]
    simp only [Option.bind_eq_bind, Option.bind_some, List.map_singleton, List.foldlM_cons,
      List.foldlM_nil, hword, insert?_eq (wellFormed_ofEntries entries) hplace (by omega)]
    rfl

theorem sum_insertionOrder (words : List (List Char)) :
    ((insertionOrder words).map (·.1.length)).sum = (words.map List.length).sum := by
  have hsum := ((perm_insertionOrder words).map List.length).sum_nat
  rwa [List.map_map] at hsum

theorem build?_eq (hcount : words.length < 2 ^ 32)
    (htotal : (words.map List.length).sum < 2 ^ 32 - 1) : build? words = some (build words) := by
  apply foldlM_insert?_eq
  · intro e he
    have hplace := mem_insertionOrder.1 he
    have hlt := (List.getElem?_eq_some_iff.1 hplace).1
    exact ⟨by omega, hplace⟩
  · rw [sum_insertionOrder]
    omega

/-! ## Searching -/

theorem step?_eq (hi : i < t.nodes.size) (c : Char) : t.step? i c = some ((t.node i).child? c) := by
  rw [step?, getElem?_nodes hi]
  cases h : (t.node i).child? c with
  | some k =>
    obtain ⟨hsearch, hchild⟩ := search_of_child? h
    simp only [Option.bind_eq_bind, Option.bind_some, hsearch, hchild]
    rfl
  | none =>
    simp only [Option.bind_eq_bind, Option.bind_some, search_of_child?_eq_none h]
    rfl

theorem terminal?_eq (hi : i < t.nodes.size) : t.terminal? i = some (t.node i).word? := by
  rw [terminal?, getElem?_nodes hi]
  rfl

theorem walk?_eq (ht : t.WellFormed) (hi : i < t.nodes.size) (cs : List Char) :
    t.walk? i cs = some (t.reach? i cs) := by
  induction cs generalizing i with
  | nil => rfl
  | cons c cs ih =>
    rw [walk?, reach?, step?_eq hi]
    cases h : (t.node i).child? c with
    | some next => exact ih (ht.edge_lt h).2
    | none => rfl

/-- The search for a whole sequence uses no index outside. -/
theorem lookup?_eq (ht : t.WellFormed) (cs : List Char) : t.lookup? cs = some (t.lookup cs) := by
  rw [lookup?, lookup, walk?_eq ht ht.root_lt]
  cases h : t.reach? root cs with
  | none => rfl
  | some i =>
    have hi := ht.reach?_lt h
    by_cases hroot : i = root
    · simp [hroot]
    · simp [hroot, terminal?_eq hi, getElem?_nodes hi]

/-- **The loop.** It comes back with the longest word from node `i` on, or else with the last one
before. -/
theorem longestFrom?_eq (ht : t.WellFormed) (hi : i < t.nodes.size) (offset : Nat)
    (best? : Option Match) (cs : List Char) :
    t.longestFrom? i offset best? cs =
      some (((t.longestFrom i cs).map fun m => ⟨m.word, offset + m.length⟩).or best?) := by
  induction cs generalizing i offset best? with
  | nil => rfl
  | cons c cs ih =>
    rw [longestFrom?, longestFrom, step?_eq hi]
    cases h : (t.node i).child? c with
    | none => rfl
    | some next =>
      have hnext := (ht.edge_lt h).2
      simp only [Option.bind_eq_bind, Option.bind_some, terminal?_eq hnext]
      -- a word at the child counts only if nothing longer is found behind it
      cases hword : (t.node next).word? with
      | none =>
        simp only [ih hnext]
        cases t.longestFrom next cs with
        | none => rfl
        | some m =>
          simp [Nat.add_assoc, Nat.add_comm 1]
      | some word =>
        simp only [ih hnext]
        cases t.longestFrom next cs with
        | none => rfl
        | some m =>
          simp [Nat.add_assoc, Nat.add_comm 1]

/-- The search for the longest word uses no index outside. -/
theorem longestMatch?_eq (ht : t.WellFormed) (cs : List Char) (start : Nat) :
    t.longestMatch? cs start = some (t.longestMatch cs start) := by
  unfold longestMatch? longestMatch longest
  by_cases hstart : start ≤ cs.length
  · rw [if_pos hstart, longestFrom?_eq ht ht.root_lt]
    simp
  · rw [if_neg hstart, List.drop_eq_nil_of_le (Nat.le_of_not_le hstart)]
    rfl

end Trie

end Translit
