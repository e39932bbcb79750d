import HdlLint.Text.Blank
import HdlLint.Text.Case
import HdlLint.Text.Word

/-!
# Regular expressions

The syntax of regular expressions once they are read: single characters, anchors, groups,
alternatives, repetitions, assertions and references to groups. `Item.width` bounds how many
characters an expression takes.
-/

namespace HdlLint.Pattern

/-- The options of an expression. -/
structure Options where
  ignoreCase : Bool := false
  multiLine : Bool := false
  dotAll : Bool := false
  verbose : Bool := false
  /-- Classes of characters and letter case are those of ASCII. -/
  ascii : Bool := false
  /-- Repetitions are refused. -/
  template : Bool := false
deriving DecidableEq, Repr

/-- A class of characters. -/
inductive CharClass
  | digit
  | blank
  | word
deriving DecidableEq, Repr

/-- A part of a set of characters. -/
inductive SetItem
  /-- All code points between two of them. -/
  | range (low high : Nat)
  /-- A class of characters, or those that are not in it. -/
  | ofClass (cls : CharClass) (negated : Bool)
deriving DecidableEq, Repr

/-- A set of characters, or those that are not in it. -/
structure CharSet where
  negated : Bool
  items : List SetItem
  ignoreCase : Bool
  ascii : Bool
deriving DecidableEq, Repr

/-- A place in a text. -/
inductive Anchor
  /-- The start of the text. -/
  | start
  | lineStart
  /-- The end of the text, or in front of a line end that is the last character. -/
  | lastLineEnd
  | lineEnd
  /-- The end of the text. -/
  | stop
  /-- Where a word starts or ends, or where none does. -/
  | boundary (negated ascii : Bool)
deriving DecidableEq, Repr

/-- How a repetition goes on. -/
inductive Eagerness
  /-- As often as possible at first. -/
  | greedy
  /-- As seldom as possible at first. -/
  | lazy
  /-- As often as possible, for good. -/
  | possessive
deriving DecidableEq, Repr

/-- A part of an expression. -/
inductive Item
  | char (set : CharSet)
  | anchor (a : Anchor)
  /-- A group; with a number if its text is kept. -/
  | group (number : Option Nat) (body : List Item)
  | choice (branches : List (List Item))
  /-- A repetition, without an upper bound if there is none. -/
  | loop (eagerness : Eagerness) (least : Nat) (most : Option Nat) (body : List Item)
  /-- What has to follow, or must not. -/
  | ahead (negated : Bool) (body : List Item)
  /-- What has to stand before, or must not: an expression of a fixed width. -/
  | behind (negated : Bool) (body : List Item)
  /-- A group that is not gone into again. -/
  | atomic (body : List Item)
  /-- The text of a group, with the bounds of its width. -/
  | reference (number low high : Nat) (ignoreCase ascii : Bool)
  /-- One expression if a group has a text, another one if not. -/
  | conditional (number : Nat) (yes : List Item) (no : Option (List Item))

/-! ## Widths -/

/-- The largest width that is told apart. -/
def widthLimit : Nat := 0x10000000000000000

/-- The count that stands for no upper bound. -/
def repeatLimit : Nat := 4294967295

/-- The bounds of the width of what comes one after the other. -/
def addWidths (a b : Nat × Nat) : Nat × Nat :=
  (a.1 + b.1, a.2 + b.2)

/-- A width below the limit. -/
def capWidth (w : Nat × Nat) : Nat × Nat :=
  (min w.1 widthLimit, min w.2 widthLimit)

mutual

/-- The bounds of the width of an item. -/
def Item.width : Item → Nat × Nat
  | .char _ => (1, 1)
  | .anchor _ => (0, 0)
  | .group _ body => capWidth (widthAll body)
  | .choice branches => widthChoice branches
  | .loop _ least most body =>
    let (low, high) := capWidth (widthAll body)
    (low * least,
      match most with
      | some most => high * most
      | none => if high = 0 then 0 else widthLimit)
  | .ahead .. => (0, 0)
  | .behind .. => (0, 0)
  | .atomic body => capWidth (widthAll body)
  | .reference _ low high _ _ => (low, high)
  | .conditional _ yes no =>
    let (low, high) := capWidth (widthAll yes)
    match no with
    | none => (0, high)
    | some no =>
      let (low', high') := capWidth (widthAll no)
      (min low low', max high high')

/-- The bounds of the width of items one after the other. -/
def widthAll : List Item → Nat × Nat
  | [] => (0, 0)
  | item :: items => addWidths item.width (widthAll items)

/-- The bounds of the width of some alternatives. -/
def widthChoice : List (List Item) → Nat × Nat
  | [] => (widthLimit, 0)
  | branch :: branches =>
    let (low, high) := capWidth (widthAll branch)
    let (low', high') := widthChoice branches
    (min low low', max high high')

end

/-- The bounds of the width of an expression. -/
def width (items : List Item) : Nat × Nat :=
  capWidth (widthAll items)

/-! ## Sets -/

/-- A word character of ASCII. -/
def isAsciiWord (n : Nat) : Bool :=
  n < 0x80 && ((Char.ofNat n).isAlphanum || n = 0x5f)

/-- Whether a character is in a class. -/
def CharClass.contains (ascii : Bool) (c : Char) : CharClass → Bool
  | .digit => if ascii then c.isDigit else Text.isDecimal c
  | .blank =>
    if ascii then c == ' ' || (0x09 ≤ c.toNat && c.toNat ≤ 0x0d) else Text.isBlank c
  | .word => if ascii then isAsciiWord c.toNat else Text.isWord c

/-- The code points that stand for a character in a set. -/
def CharSet.codesOf (set : CharSet) (c : Char) : List Nat :=
  if !set.ignoreCase then [c.toNat]
  else if set.ascii then Text.variantsAscii c.toNat
  else Text.variants c.toNat

/-- Whether a character, with the code points that stand for it, is in a part of a set. -/
def SetItem.contains (ascii : Bool) (c : Char) (codes : List Nat) : SetItem → Bool
  | .range low high => codes.any fun n => low ≤ n && n ≤ high
  | .ofClass cls negated => cls.contains ascii c != negated

/-- Whether a character is in a set. -/
def CharSet.contains (set : CharSet) (c : Char) : Bool :=
  let codes := set.codesOf c
  (set.items.any fun item => item.contains set.ascii c codes) != set.negated

end HdlLint.Pattern
