import HdlLint.Pattern.Basic

/-!
# Matching regular expressions

An expression is matched from a position of a text on by going through the ways in which its items
can be met, the preferred ones first. A `Matcher` is given what has to follow, and tells how the
whole ends.
-/

namespace HdlLint.Pattern

/-- The texts of the groups, by their numbers: where they start and where they end. -/
abbrev Groups := List (Nat × Nat × Nat)

/-- What has to follow: it tells, from a position on, how the match ends. -/
abbrev Continuation := Nat → Groups → Option (Nat × Groups)

/-- A way to match from a position on, given what has to follow. -/
abbrev Matcher := Nat → Groups → Continuation → Option (Nat × Groups)

namespace Matcher

/-- Ends a match. -/
def done : Continuation :=
  fun position groups => some (position, groups)

/-- The first end of a match on its own. -/
def first (m : Matcher) (position : Nat) (groups : Groups) : Option (Nat × Groups) :=
  m position groups done

/-- Goes on with a match that is not gone into again. -/
def commit (m : Matcher) : Matcher := fun position groups k =>
  match m.first position groups with
  | some (position', groups') => k position' groups'
  | none => none

/-- Repeats a match, as often as possible at first. A further round that starts where the last
one started is not tried. -/
def greedy (m : Matcher) (least : Nat) (most : Option Nat) :
    (fuel count : Nat) → (last : Option Nat) → Matcher
  | 0, _, _ => fun _ _ _ => none
  | fuel + 1, count, last => fun position groups k =>
    if count < least then
      m position groups fun p g => greedy m least most fuel (count + 1) last p g k
    else
      let more :=
        if most.all (count < ·) && last != some position then
          m position groups fun p g => greedy m least most fuel (count + 1) (some position) p g k
        else none
      match more with
      | some r => some r
      | none => k position groups

/-- Repeats a match, as seldom as possible at first. -/
def lazy (m : Matcher) (least : Nat) (most : Option Nat) :
    (fuel count : Nat) → (last : Option Nat) → Matcher
  | 0, _, _ => fun _ _ _ => none
  | fuel + 1, count, last => fun position groups k =>
    if count < least then
      m position groups fun p g => lazy m least most fuel (count + 1) last p g k
    else
      match k position groups with
      | some r => some r
      | none =>
        if most.all (count < ·) && last != some position then
          m position groups fun p g => lazy m least most fuel (count + 1) (some position) p g k
        else none

/-- Repeats a match as often as possible, each round for good. -/
def possessive (m : Matcher) (least : Nat) (most : Option Nat) :
    (fuel count : Nat) → (last : Option Nat) → Matcher
  | 0, _, _ => fun _ _ _ => none
  | fuel + 1, count, last => fun position groups k =>
    if count < least then
      match m.first position groups with
      | some (p, g) => possessive m least most fuel (count + 1) last p g k
      | none => none
    else if most.all (count < ·) && last != some position then
      match m.first position groups with
      | some (p, g) => possessive m least most fuel (count + 1) (some position) p g k
      | none => k position groups
    else k position groups

end Matcher

/-- The text of a group. -/
def groupText? (groups : Groups) (number : Nat) : Option (Nat × Nat) :=
  (groups.find? (·.1 = number)).map (·.2)

/-- Whether a character of a word stands at a position. -/
def wordAt (text : Array Char) (ascii : Bool) (position : Nat) : Bool :=
  match text[position]? with
  | some c => CharClass.contains ascii c .word
  | none => false

/-- Whether a position is at an anchor. An empty text has no boundaries, and no lack of them. -/
def Anchor.holds (text : Array Char) (position : Nat) : Anchor → Bool
  | .start => position = 0
  | .lineStart => position = 0 || text[position - 1]? = some '\n'
  | .lastLineEnd =>
    position = text.size || (position + 1 = text.size && text[position]? = some '\n')
  | .lineEnd => position = text.size || text[position]? = some '\n'
  | .stop => position = text.size
  | .boundary negated ascii =>
    text.size ≠ 0 &&
      ((0 < position && wordAt text ascii (position - 1)) != wordAt text ascii position) != negated

/-- Whether two characters are the same, but for letter case. -/
def sameChar (ignoreCase ascii : Bool) (c d : Char) : Bool :=
  if !ignoreCase then c == d
  else if ascii then Text.lowerAscii c.toNat = Text.lowerAscii d.toNat
  else Text.toLower c.toNat = Text.toLower d.toNat

/-- The position behind a text that stands at a position again. -/
def matchText (text : Array Char) (ignoreCase ascii : Bool) :
    (count source position : Nat) → Option Nat
  | 0, _, position => some position
  | count + 1, source, position =>
    match text[source]?, text[position]? with
    | some c, some d =>
      if sameChar ignoreCase ascii c d then
        matchText text ignoreCase ascii count (source + 1) (position + 1)
      else none
    | _, _ => none

mutual

/-- The matcher of an item. -/
def Item.matcher (text : Array Char) : Item → Matcher
  | .char set => fun position groups k =>
    match text[position]? with
    | some c => if set.contains c then k (position + 1) groups else none
    | none => none
  | .anchor a => fun position groups k => if a.holds text position then k position groups else none
  | .group none body => sequence text body
  | .group (some number) body => fun position groups k =>
    sequence text body position groups fun p g => k p ((number, position, p) :: g)
  | .choice branches => choose text branches
  | .loop eagerness least most body =>
    let m := sequence text body
    let fuel := least + text.size + 3
    match eagerness with
    | .greedy => m.greedy least most fuel 0 none
    | .lazy => m.lazy least most fuel 0 none
    | .possessive => m.possessive least most fuel 0 none
  | .ahead negated body =>
    let m := sequence text body
    fun position groups k =>
      match m.first position groups with
      | some (_, groups') => if negated then none else k position groups'
      | none => if negated then k position groups else none
  | .behind negated body =>
    let m := sequence text body
    let back := (width body).1
    fun position groups k =>
      match if back ≤ position then m.first (position - back) groups else none with
      | some (_, groups') => if negated then none else k position groups'
      | none => if negated then k position groups else none
  | .atomic body => Matcher.commit (sequence text body)
  | .reference number _ _ ignoreCase ascii => fun position groups k =>
    match groupText? groups number with
    | none => none
    | some (start, stop) =>
      match matchText text ignoreCase ascii (stop - start) start position with
      | some position' => k position' groups
      | none => none
  | .conditional number yes no => fun position groups k =>
    if (groupText? groups number).isSome then sequence text yes position groups k
    else match no with
      | some no => sequence text no position groups k
      | none => k position groups

/-- The matcher of items one after the other. -/
def sequence (text : Array Char) : List Item → Matcher
  | [] => fun position groups k => k position groups
  | item :: items => fun position groups k =>
    item.matcher text position groups fun p g => sequence text items p g k

/-- The matcher of alternatives. -/
def choose (text : Array Char) : List (List Item) → Matcher
  | [] => fun _ _ _ => none
  | branch :: branches => fun position groups k =>
    match sequence text branch position groups k with
    | some r => some r
    | none => choose text branches position groups k

end

/-- Whether an expression matches from a position on, or from a later one. -/
def matchesFrom (text : Array Char) (items : List Item) : (count position : Nat) → Bool
  | 0, _ => false
  | count + 1, position =>
    ((sequence text items).first position []).isSome || matchesFrom text items count (position + 1)

/-- Whether an expression matches anywhere in a text. -/
def occurs (items : List Item) (text : Array Char) : Bool :=
  matchesFrom text items (text.size + 1) 0

end HdlLint.Pattern
