import Mathlib.Data.Nat.Notation

/-!
# UTF-8

Whether bytes are the encoding of a text, and if not, where and why.
-/

namespace Metaflow.Library

/-- Why bytes are not UTF-8: a sequence that nothing can complete, or one that
the end cuts off. -/
inductive Utf8Error where
  | invalid (length validUpTo : Nat)
  | incomplete (validUpTo : Nat)
  deriving DecidableEq

namespace Utf8Error

def message : Utf8Error -> String
  | .invalid length validUpTo =>
    "invalid utf-8 sequence of " ++ toString length ++ " bytes from index " ++ toString validUpTo
  | .incomplete validUpTo => "incomplete utf-8 byte sequence from index " ++ toString validUpTo

end Utf8Error

/-- A byte inside a sequence. -/
def isContinuation (byte : UInt8) : Bool := byte &&& 0xc0 = 0x80

/-- The bytes that may follow the first of three. -/
def isSecondOfThree (first second : UInt8) : Bool :=
  if first = 0xe0 then 0xa0 ≤ second && second ≤ 0xbf
  else if first = 0xed then 0x80 ≤ second && second ≤ 0x9f
  else isContinuation second

/-- The bytes that may follow the first of four. -/
def isSecondOfFour (first second : UInt8) : Bool :=
  if first = 0xf0 then 0x90 ≤ second && second ≤ 0xbf
  else if first = 0xf4 then 0x80 ≤ second && second ≤ 0x8f
  else isContinuation second

/-- The length of the sequence that a byte starts, 0 if it starts none. -/
def sequenceWidth (first : UInt8) : Nat :=
  if first < 0x80 then 1
  else if first < 0xc2 then 0
  else if first < 0xe0 then 2
  else if first < 0xf0 then 3
  else if first < 0xf5 then 4
  else 0

/-- The first fault of bytes that follow `validUpTo` correct ones. -/
def utf8Error (validUpTo : Nat) : List UInt8 -> Option Utf8Error
  | [] => none
  | first :: rest =>
    match sequenceWidth first with
    | 1 => utf8Error (validUpTo + 1) rest
    | 2 =>
      match rest with
      | [] => some (.incomplete validUpTo)
      | second :: rest =>
        if isContinuation second then utf8Error (validUpTo + 2) rest
        else some (.invalid 1 validUpTo)
    | 3 =>
      match rest with
      | [] => some (.incomplete validUpTo)
      | [second] =>
        if isSecondOfThree first second then
          some (.incomplete validUpTo)
        else some (.invalid 1 validUpTo)
      | second :: third :: rest =>
        if isSecondOfThree first second then
          if isContinuation third then utf8Error (validUpTo + 3) rest
          else some (.invalid 2 validUpTo)
        else some (.invalid 1 validUpTo)
    | 4 =>
      match rest with
      | [] => some (.incomplete validUpTo)
      | [second] =>
        if isSecondOfFour first second then
          some (.incomplete validUpTo)
        else some (.invalid 1 validUpTo)
      | [second, third] =>
        if isSecondOfFour first second then
          if isContinuation third then some (.incomplete validUpTo)
          else some (.invalid 2 validUpTo)
        else some (.invalid 1 validUpTo)
      | second :: third :: fourth :: rest =>
        if isSecondOfFour first second then
          if isContinuation third then
            if isContinuation fourth then
              utf8Error (validUpTo + 4) rest
            else some (.invalid 3 validUpTo)
          else some (.invalid 2 validUpTo)
        else some (.invalid 1 validUpTo)
    | _ => some (.invalid 1 validUpTo)

end Metaflow.Library
