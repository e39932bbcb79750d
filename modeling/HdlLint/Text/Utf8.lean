/-!
# Reading UTF-8

`decode` reads a list of bytes as UTF-8 and fails with the place and cause of the first fault;
`decodeLossy` goes on after a fault with the replacement character. Both are built on `next`,
which reads one character or says which bytes are at fault: the longest start of a character
that could still have become valid.
-/

namespace HdlLint.Text

/-- Why some bytes are no UTF-8. -/
inductive Utf8Cause
  /-- No character starts with this byte. -/
  | invalidStart
  /-- The byte after the bytes at fault does not continue the character. -/
  | invalidContinuation
  /-- The text ends within a character. -/
  | unexpectedEnd
deriving DecidableEq, Repr

/-- The first fault of a text that is no UTF-8. -/
structure Utf8Fault where
  /-- The first byte at fault, counted from zero. -/
  start : Nat
  /-- How many bytes are at fault. -/
  length : Nat
  /-- The first of these bytes. -/
  byte : UInt8
  cause : Utf8Cause
deriving DecidableEq, Repr

/-- What stands at the front of a list of bytes. -/
inductive Utf8Step
  /-- A character, and the bytes after it. -/
  | char (c : Char) (rest : List UInt8)
  /-- This many bytes of no character, and the bytes after them. -/
  | fault (length : Nat) (cause : Utf8Cause) (rest : List UInt8)

namespace Utf8

/-- A byte inside a character. -/
def isContinuation (b : UInt8) : Bool :=
  0x80 ≤ b && b < 0xc0

/-- The bits that a byte inside a character carries. -/
def payload (b : UInt8) : Nat :=
  b.toNat % 64

/-- A second byte that can follow the first one: it rules out overlong forms, surrogates and
code points beyond the last one. -/
def isSecond (first second : UInt8) : Bool :=
  isContinuation second &&
    !(first == 0xe0 && second < 0xa0) && !(first == 0xed && 0xa0 ≤ second) &&
    !(first == 0xf0 && second < 0x90) && !(first == 0xf4 && 0x90 ≤ second)

/-- Reads one character after its first byte. -/
def next (first : UInt8) (rest : List UInt8) : Utf8Step :=
  if first < 0x80 then .char (Char.ofNat first.toNat) rest
  else if first < 0xc2 || 0xf5 ≤ first then .fault 1 .invalidStart rest
  else match rest with
    | [] => .fault 1 .unexpectedEnd []
    | b :: rest₁ =>
      if !isSecond first b then .fault 1 .invalidContinuation (b :: rest₁)
      else if first < 0xe0 then
        .char (Char.ofNat (first.toNat % 32 * 64 + payload b)) rest₁
      else match rest₁ with
        | [] => .fault 2 .unexpectedEnd []
        | c :: rest₂ =>
          if !isContinuation c then .fault 2 .invalidContinuation (c :: rest₂)
          else if first < 0xf0 then
            .char (Char.ofNat ((first.toNat % 16 * 64 + payload b) * 64 + payload c)) rest₂
          else match rest₂ with
            | [] => .fault 3 .unexpectedEnd []
            | d :: rest₃ =>
              if !isContinuation d then .fault 3 .invalidContinuation (d :: rest₃)
              else
                .char (Char.ofNat
                  (((first.toNat % 8 * 64 + payload b) * 64 + payload c) * 64 + payload d)) rest₃

/-- The bytes that a step leaves. -/
def Utf8Step.rest : Utf8Step → List UInt8
  | .char _ rest => rest
  | .fault _ _ rest => rest

/-- A step takes its first byte at least. -/
theorem length_rest_next (first : UInt8) (rest : List UInt8) :
    (Utf8Step.rest (next first rest)).length ≤ rest.length := by
  unfold next
  repeat' split
  all_goals simp [Utf8Step.rest]
  all_goals omega

end Utf8

open Utf8

/-- Reads bytes as UTF-8, or tells the first fault. -/
def decode (bytes : List UInt8) : Except Utf8Fault (List Char) :=
  go 0 bytes
where
  /-- Reads the bytes from a position on. -/
  go (position : Nat) : List UInt8 → Except Utf8Fault (List Char)
    | [] => .ok []
    | first :: rest =>
      match h : next first rest with
      | .char c rest' =>
        have : rest'.length ≤ rest.length := by
          simpa [h, Utf8Step.rest] using length_rest_next first rest
        (go (position + (rest.length + 1 - rest'.length)) rest').map (c :: ·)
      | .fault length cause _ => .error ⟨position, length, first, cause⟩
  termination_by bytes => bytes.length

/-- Reads bytes as UTF-8 with the replacement character for each fault. -/
def decodeLossy (bytes : List UInt8) : List Char :=
  match bytes with
  | [] => []
  | first :: rest =>
    match h : next first rest with
    | .char c rest' =>
      have : rest'.length ≤ rest.length := by
        simpa [h, Utf8Step.rest] using length_rest_next first rest
      c :: decodeLossy rest'
    | .fault _ _ rest' =>
      have : rest'.length ≤ rest.length := by
        simpa [h, Utf8Step.rest] using length_rest_next first rest
      '\ufffd' :: decodeLossy rest'
termination_by bytes.length

namespace Utf8Fault

/-- A byte as two hexadecimal digits. -/
def hexByte (b : UInt8) : String :=
  String.ofList [Nat.digitChar (b.toNat / 16), Nat.digitChar (b.toNat % 16)]

/-- The wording of a cause. -/
def causeText : Utf8Cause → String
  | .invalidStart => "invalid start byte"
  | .invalidContinuation => "invalid continuation byte"
  | .unexpectedEnd => "unexpected end of data"

/-- The text that reports a fault: one byte is shown, several are counted by their places. -/
def message (f : Utf8Fault) : String :=
  (if f.length = 1 then
    "'utf-8' codec can't decode byte 0x" ++ hexByte f.byte ++ " in position " ++ toString f.start
  else
    "'utf-8' codec can't decode bytes in position " ++ toString f.start ++ "-" ++
      toString (f.start + f.length - 1)) ++ ": " ++ causeText f.cause

end Utf8Fault

end HdlLint.Text
