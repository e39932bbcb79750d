import HdlLint.Toml.Moment
import HdlLint.Toml.Number
import HdlLint.Toml.Table

/-!
# Keys and values of TOML documents

`Toml.key` and `Toml.element` read what stands on the two sides of an equals sign. Both give what
follows what they read; they are bounded by a depth, for which the length of the text is enough.
-/

namespace HdlLint.Toml

/-- Why a text is no document. -/
inductive Fault
  | malformed
  /-- A decimal whole number with too many digits. -/
  | numberTooLong
deriving DecidableEq, Repr

/-- A result that is missing is a malformed text. -/
def required {α : Type} : Option α → Except Fault α
  | some a => .ok a
  | none => .error .malformed

/-! ## Blanks and comments -/

/-- Leaves out the comment at the front of a text, if there is one. -/
def dropComment : List Char → Except Fault (List Char)
  | '#' :: rest =>
    if (rest.takeWhile (· ≠ '\n')).any isRefused then .error .malformed
    else .ok (rest.dropWhile (· ≠ '\n'))
  | cs => .ok cs

/-- Leaves out blanks, line ends and comments; first the rest of a comment if one has begun. -/
def dropFiller (inComment : Bool) : List Char → Except Fault (List Char)
  | [] => .ok []
  | c :: rest =>
    if inComment then
      if c = '\n' then dropFiller false rest
      else if isRefused c then .error .malformed
      else dropFiller true rest
    else if isSpace c then dropFiller false rest
    else if c = '#' then dropFiller true rest
    else .ok (c :: rest)

/-! ## Keys -/

/-- One part of a key. -/
def keyPart (cs : List Char) : Except Fault (String × List Char) :=
  let bare := cs.takeWhile isBare
  if bare.isEmpty then do
    let (text, rest) ← required (quotedText cs)
    return (String.ofList text, rest)
  else .ok (String.ofList bare, cs.dropWhile isBare)

/-- A key: parts with points between them. The blanks behind it are left out. -/
def key : (depth : Nat) → List Char → Except Fault (Key × List Char)
  | 0, _ => .error .malformed
  | depth + 1, cs => do
    let (part, rest) ← keyPart cs
    match rest.dropWhile isBlank with
    | '.' :: rest =>
      let (k, rest) ← key depth (rest.dropWhile isBlank)
      return (⟨part :: k.parents, k.name⟩, rest)
    | rest => return (⟨[], part⟩, rest)

/-- A key with the equals sign behind it. -/
def keyOfPair (cs : List Char) : Except Fault (Key × List Char) := do
  let (k, rest) ← key cs.length cs
  match rest with
  | '=' :: rest => return (k, rest.dropWhile isBlank)
  | _ => .error .malformed

/-! ## Values -/

/-- A value without parts. -/
def scalar (cs : List Char) : Except Fault (Value × List Char) :=
  match cs with
  | '"' :: _ | '\'' :: _ => do
    let (text, rest) ← required (anyText cs)
    return (.text (String.ofList text), rest)
  | 't' :: 'r' :: 'u' :: 'e' :: rest => .ok (.bool true, rest)
  | 'f' :: 'a' :: 'l' :: 's' :: 'e' :: rest => .ok (.bool false, rest)
  | _ =>
    match moment? cs with
    | some (true, rest) =>
      .ok (.moment (String.ofList (cs.take (cs.length - rest.length))), rest)
    | some (false, _) => .error .malformed
    | none =>
      match numeral? cs with
      | some (numeral, rest) =>
        match numeral.value? with
        | some v => .ok (v, rest)
        | none => .error .numberTooLong
      | none => required (special? cs)

mutual

/-- A value. -/
def element : (depth : Nat) → List Char → Except Fault (Value × List Char)
  | 0, _ => .error .malformed
  | depth + 1, cs =>
    match cs with
    | '[' :: rest => do
      let (items, rest) ← listItems depth rest
      return (.list items, rest)
    | '\x7b' :: rest =>
      match rest.dropWhile isBlank with
      | '\x7d' :: rest => .ok (.table [], rest)
      | rest => do
        let (entries, rest) ← inlineEntries depth [] rest
        return (.table (toEntries entries), rest)
    | cs => scalar cs

/-- The rest of a list. A comma may stand behind its last item. -/
def listItems : (depth : Nat) → List Char → Except Fault (List Value × List Char)
  | 0, _ => .error .malformed
  | depth + 1, cs => do
    match ← dropFiller false cs with
    | ']' :: rest => return ([], rest)
    | cs =>
      let (item, rest) ← element depth cs
      match ← dropFiller false rest with
      | ']' :: rest => return ([item], rest)
      | ',' :: rest =>
        let (items, rest) ← listItems depth rest
        return (item :: items, rest)
      | _ => .error .malformed

/-- The rest of a table on one line, with what was read of it before. -/
def inlineEntries : (depth : Nat) → Entries → List Char →
    Except Fault (Entries × List Char)
  | 0, _, _ => .error .malformed
  | depth + 1, entries, cs => do
    let (k, rest) ← keyOfPair cs
    let (v, rest) ← element depth rest
    let entries ← required (assign 0 k v entries)
    match rest.dropWhile isBlank with
    | '\x7d' :: rest => return (entries, rest)
    | ',' :: rest => inlineEntries depth entries (rest.dropWhile isBlank)
    | _ => .error .malformed

end

end HdlLint.Toml
