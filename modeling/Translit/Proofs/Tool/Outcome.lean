import Mathlib.Tactic.Common
import Translit.Proofs.Text.Utf8
import Translit.Tool.Outcome

/-!
# Lines and collected output

* `Lined`: an input in lines, each with an end of its own kind;
* `lines_of_lined`, `lined_lines`: the lines of an input are lines it is made of, and the only ones
  if none of them ends in a carriage return;
* `Output.Exact.text_putLines`: nothing that is put is lost, and its order is kept;
* `Output.written_putLines_of_lt`: nothing is written while all of it can be held back.
-/

namespace Translit.Tool

open Text.Utf8 (Bytes encode encode_append)

/-! ## Lines -/

/-- A carriage return. -/
def carriageReturn : UInt8 := 0x0D

/-- An input is made of lines. Behind each stands a line feed or a carriage return and a line feed,
whichever it is; a last line that is not empty may lack its end. -/
inductive Lined : List Bytes → Bytes → Prop
  | nil : Lined [] []
  | unended {line : Bytes} (ne : line ≠ []) : Lined [line] line
  | feed (line : Bytes) {more : List Bytes} {bytes : Bytes} (rest : Lined more bytes) :
      Lined (line :: more) (line ++ lineFeed :: bytes)
  | returnFeed (line : Bytes) {more : List Bytes} {bytes : Bytes} (rest : Lined more bytes) :
      Lined (line :: more) (line ++ carriageReturn :: lineFeed :: bytes)

variable {line current bytes : Bytes}

theorem dropReturn_concat (line : Bytes) : dropReturn (line ++ [carriageReturn]) = line := by
  have hlast : (line ++ [carriageReturn]).getLast? = some 0x0D := List.getLast?_concat
  rw [dropReturn, hlast]
  exact List.dropLast_concat

theorem dropReturn_of_ne (h : line.getLast? ≠ some carriageReturn) : dropReturn line = line := by
  rw [dropReturn.eq_def]
  split
  case h_1 b hlast =>
    have hb : b ≠ 0x0D := by
      intro hb
      rw [hb] at hlast
      exact h hlast
    rw [if_neg hb]
  case h_2 => rfl

/-- Either nothing is dropped, or a carriage return at the end. -/
theorem dropReturn_cases (line : Bytes) :
    dropReturn line = line ∨ line = dropReturn line ++ [carriageReturn] := by
  by_cases h : line.getLast? = some carriageReturn
  · obtain ⟨before, rfl⟩ := List.getLast?_eq_some_iff.1 h
    rw [dropReturn_concat]
    exact .inr rfl
  · exact .inl (dropReturn_of_ne h)

theorem linesFrom_feed (h : lineFeed ∉ line) :
    linesFrom current (line ++ lineFeed :: bytes) =
      dropReturn (current.reverse ++ line) :: lines bytes := by
  induction line generalizing current with
  | nil => rw [List.nil_append, linesFrom, if_pos rfl, List.append_nil, lines]
  | cons b line ih =>
    have hb : b ≠ lineFeed := fun hb => h (hb ▸ List.mem_cons_self)
    rw [List.cons_append, linesFrom, if_neg hb, ih (fun hmem => h (List.mem_cons_of_mem _ hmem)),
      List.reverse_cons, List.append_assoc, List.singleton_append]

theorem linesFrom_unended (h : lineFeed ∉ line) (hne : current.reverse ++ line ≠ []) :
    linesFrom current line = [current.reverse ++ line] := by
  induction line generalizing current with
  | nil =>
    have hcurrent : current ≠ [] := by
      intro hcurrent
      exact hne (by rw [hcurrent]; rfl)
    rw [linesFrom, if_neg (by simpa using hcurrent), List.append_nil]
  | cons b line ih =>
    have hb : b ≠ lineFeed := fun hb => h (hb ▸ List.mem_cons_self)
    have hreverse : current.reverse ++ b :: line = (b :: current).reverse ++ line := by
      rw [List.reverse_cons, List.append_assoc, List.singleton_append]
    rw [hreverse] at hne ⊢
    rw [linesFrom, if_neg hb, ih (fun hmem => h (List.mem_cons_of_mem _ hmem)) hne]

/-- **The lines are found** whatever ends they have, unless a line ends in what may belong to its
end. -/
theorem lines_of_lined {ls : List Bytes} (h : Lined ls bytes)
    (hplain : ∀ line ∈ ls, lineFeed ∉ line ∧ line.getLast? ≠ some carriageReturn) :
    lines bytes = ls := by
  induction h with
  | nil => rfl
  | unended ne =>
    obtain ⟨hfeed, -⟩ := hplain _ List.mem_cons_self
    exact linesFrom_unended hfeed ne
  | feed line rest ih =>
    obtain ⟨hfeed, hreturn⟩ := hplain _ List.mem_cons_self
    rw [lines, linesFrom_feed hfeed, ih (fun l hl => hplain l (List.mem_cons_of_mem _ hl))]
    rw [List.reverse_nil, List.nil_append, dropReturn_of_ne hreturn]
  | @returnFeed line more bytes rest ih =>
    obtain ⟨hfeed, -⟩ := hplain _ List.mem_cons_self
    have hfeed' : lineFeed ∉ line ++ [carriageReturn] := by
      rw [List.mem_append, List.mem_singleton]
      rintro (hmem | hmem)
      · exact hfeed hmem
      · cases hmem
    have hbytes : line ++ carriageReturn :: lineFeed :: bytes =
        (line ++ [carriageReturn]) ++ lineFeed :: bytes := by
      rw [List.append_assoc, List.singleton_append]
    rw [hbytes, lines, linesFrom_feed hfeed', ih (fun l hl => hplain l (List.mem_cons_of_mem _ hl))]
    rw [List.reverse_nil, List.nil_append, dropReturn_concat]

theorem lined_linesFrom (current bytes : Bytes) :
    Lined (linesFrom current bytes) (current.reverse ++ bytes) := by
  induction bytes generalizing current with
  | nil =>
    rw [linesFrom, List.append_nil]
    by_cases h : current = []
    · rw [h]
      exact .nil
    · rw [if_neg (by simpa using h)]
      exact .unended (by simpa using h)
  | cons b bytes ih =>
    rw [linesFrom]
    split
    · next hb =>
      subst hb
      obtain h | h := dropReturn_cases current.reverse
      · rw [h]
        exact .feed _ (ih [])
      · rw [h, List.append_assoc, List.singleton_append, ← h]
        exact .returnFeed _ (ih [])
    · have := ih (b :: current)
      rwa [List.reverse_cons, List.append_assoc, List.singleton_append] at this

theorem lined_lines (bytes : Bytes) : Lined (lines bytes) bytes := lined_linesFrom [] bytes

theorem not_mem_of_mem_linesFrom (hcurrent : lineFeed ∉ current)
    (h : line ∈ linesFrom current bytes) : lineFeed ∉ line := by
  induction bytes generalizing current with
  | nil =>
    rw [linesFrom] at h
    split at h
    · cases h
    · rw [List.mem_singleton] at h
      rwa [h, List.mem_reverse]
  | cons b bytes ih =>
    rw [linesFrom] at h
    split at h
    · rw [List.mem_cons] at h
      rcases h with rfl | h
      · intro hmem
        obtain hdrop | hdrop := dropReturn_cases current.reverse
        · rw [hdrop, List.mem_reverse] at hmem
          exact hcurrent hmem
        · have : lineFeed ∈ current.reverse := hdrop ▸ List.mem_append_left _ hmem
          exact hcurrent (List.mem_reverse.1 this)
      · exact ih List.not_mem_nil h
    · next hb =>
      refine ih ?_ h
      rw [List.mem_cons]
      rintro (hmem | hmem)
      · exact hb hmem.symm
      · exact hcurrent hmem

theorem lines_eq_nil_iff : lines bytes = [] ↔ bytes = [] := by
  constructor
  · intro h
    have hlined := lined_lines bytes
    rw [h] at hlined
    cases hlined
    rfl
  · rintro rfl
    rfl

/-- Lines of text, each with a line feed behind it. -/
def unlines (texts : List (List Char)) : List Char := texts.flatMap fun text => text ++ ['\n']

theorem unlines_cons (text : List Char) (texts : List (List Char)) :
    unlines (text :: texts) = text ++ ['\n'] ++ unlines texts := List.flatMap_cons

/-! ## Collected output -/

namespace Output

variable {o : Output} {cs : List Char}

theorem size_append (cs ds : List Char) : size (cs ++ ds) = size cs + size ds := by
  rw [size, encode_append, List.length_append]
  rfl

theorem eq_nil_of_size_eq_zero (h : size cs = 0) : cs = [] := by
  cases cs with
  | nil => rfl
  | cons c cs =>
    have hencode := Text.Utf8.text?_encode (c :: cs)
    rw [List.eq_nil_of_length_eq_zero h] at hencode
    cases hencode

/-- All that has been put, be it written or held back. -/
def text (o : Output) : List Char := o.written ++ o.held

/-- The size is that of the text that is held back. -/
def Exact (o : Output) : Prop := o.heldSize = size o.held

@[simp] theorem text_flush (o : Output) : o.flush.text = o.text := List.append_nil _

theorem exact_flush (o : Output) : o.flush.Exact := rfl

/-- What is held back is written if there is no room for one more piece of text. -/
def roomFor (o : Output) (cs : List Char) : Output :=
  if capacity - o.heldSize < size cs then o.flush else o

theorem put_eq (o : Output) (cs : List Char) : o.put cs =
    if capacity ≤ size cs then { o.roomFor cs with written := (o.roomFor cs).written ++ cs }
    else { o.roomFor cs with
      held := (o.roomFor cs).held ++ cs
      heldSize := (o.roomFor cs).heldSize + size cs } := rfl

@[simp] theorem text_roomFor (o : Output) (cs : List Char) : (o.roomFor cs).text = o.text := by
  rw [roomFor]
  split
  · exact o.text_flush
  · rfl

theorem Exact.roomFor (h : o.Exact) (cs : List Char) : (o.roomFor cs).Exact := by
  rw [Output.roomFor]
  split
  · exact o.exact_flush
  · exact h

/-- Nothing is held back where a piece of text would fill all room. -/
theorem Exact.held_roomFor (h : o.Exact) (hcs : capacity ≤ size cs) : (o.roomFor cs).held = [] := by
  rw [Output.roomFor]
  split
  · rfl
  · have hheld : size o.held = 0 := by
      rw [← h]
      have : 0 < capacity := by decide
      omega
    exact eq_nil_of_size_eq_zero hheld

theorem Exact.put (h : o.Exact) (cs : List Char) : (o.put cs).Exact := by
  have hroom := h.roomFor cs
  rw [put_eq]
  split
  · exact hroom
  · show (o.roomFor cs).heldSize + size cs = size ((o.roomFor cs).held ++ cs)
    rw [size_append, ← hroom]

/-- **Nothing is lost or out of order**, be there room for it or not. -/
theorem Exact.text_put (h : o.Exact) (cs : List Char) : (o.put cs).text = o.text ++ cs := by
  rw [put_eq]
  split
  · next hcs =>
    have hheld := h.held_roomFor hcs
    rw [← o.text_roomFor cs, text, text]
    simp only [hheld, List.append_nil]
  · show (o.roomFor cs).written ++ ((o.roomFor cs).held ++ cs) = _
    rw [← List.append_assoc]
    exact congrArg (· ++ cs) (o.text_roomFor cs)

theorem put_of_lt (h : o.heldSize + size cs < capacity) :
    o.put cs = { o with held := o.held ++ cs, heldSize := o.heldSize + size cs } := by
  have hroom : o.roomFor cs = o := if_neg (by omega)
  rw [put_eq, if_neg (by omega), hroom]

/-! ### Lines of text -/

/-- More lines of text. -/
def putLines (o : Output) (texts : List (List Char)) : Output := texts.foldl putLine o

theorem Exact.putLine (h : o.Exact) (cs : List Char) : (o.putLine cs).Exact :=
  (h.put cs).put ['\n']

theorem Exact.text_putLines (h : o.Exact) (texts : List (List Char)) :
    (o.putLines texts).text = o.text ++ unlines texts := by
  induction texts generalizing o with
  | nil => exact (List.append_nil _).symm
  | cons cs texts ih =>
    have hline : (o.putLine cs).text = o.text ++ (cs ++ ['\n']) := by
      rw [Output.putLine, (h.put cs).text_put, h.text_put, List.append_assoc]
    show ((o.putLine cs).putLines texts).text = _
    rw [ih (h.putLine cs), hline, unlines_cons, List.append_assoc]

/-- **Nothing is written** while there is room for all of it. -/
theorem written_putLines_of_lt (texts : List (List Char))
    (h : o.heldSize + size (unlines texts) < capacity) :
    (o.putLines texts).written = o.written := by
  induction texts generalizing o with
  | nil => rfl
  | cons cs texts ih =>
    rw [unlines_cons, size_append, size_append] at h
    have hcs : o.heldSize + size cs < capacity := by omega
    have hfeed : o.heldSize + size cs + size ['\n'] < capacity := by omega
    have hline : o.putLine cs = { o with
        held := o.held ++ cs ++ ['\n']
        heldSize := o.heldSize + size cs + size ['\n'] } := by
      rw [Output.putLine, put_of_lt hcs, put_of_lt hfeed]
    show ((o.putLine cs).putLines texts).written = _
    rw [hline, ih (by show o.heldSize + size cs + size ['\n'] + _ < _; omega)]

end Output

end Translit.Tool
