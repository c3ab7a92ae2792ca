import Crowsfoot.Text.Basic
import Crowsfoot.Text.Quoted

/-!
# File contents

A file holds text or bytes. Text is stored in UTF-8; `Content.decode` reads bytes back and says where
they are not UTF-8: a byte that begins no character, a character that goes on wrongly, or one that
the end cuts off. `Content.readText` also turns every kind of line end into a line feed.
-/

namespace Crowsfoot.Files

open Crowsfoot.Text

/-- What a file holds. -/
inductive Content where
  | text (s : String)
  | bytes (bs : List UInt8)
  deriving Repr, DecidableEq, Inhabited

/-- What is wrong with bytes that are no text. -/
inductive Malformation where
  | start
  | continuation
  | ending
  deriving Repr, DecidableEq

/-- The wording of a malformation. -/
def Malformation.message : Malformation → String
  | .start => "invalid start byte"
  | .continuation => "invalid continuation byte"
  | .ending => "unexpected end of data"

/-- Bytes that are no text: the position of the first, their number, its value, and what is wrong. -/
structure DecodeError where
  position : Nat
  length : Nat
  first : UInt8
  reason : Malformation
  deriving Repr, DecidableEq

/-- The wording of a decoding error. -/
def DecodeError.message (e : DecodeError) : String :=
  (if e.length = 1 then
    "'utf-8' codec can't decode byte 0x" ++ String.ofList (hexDigits 2 e.first.toNat)
      ++ " in position " ++ toString e.position
  else
    "'utf-8' codec can't decode bytes in position " ++ toString e.position ++ "-"
      ++ toString (e.position + e.length - 1))
    ++ ": " ++ e.reason.message

/-- Whether a byte goes on with a character. -/
def isContinuation (b : UInt8) : Bool :=
  decide (0x80 ≤ b.toNat ∧ b.toNat < 0xC0)

/-- Whether a byte may be the second of a character that begins with `first`: this rules out
overlong forms, surrogates and code points out of range. -/
def isSecond (first second : UInt8) : Bool :=
  isContinuation second
    && !(first == 0xE0 && second < 0xA0) && !(first == 0xED && second ≥ 0xA0)
    && !(first == 0xF0 && second < 0x90) && !(first == 0xF4 && second ≥ 0x90)

/-- The number of bytes of a character that begins with a byte. -/
def sequenceLength? (b : UInt8) : Option Nat :=
  let n := b.toNat
  if n < 0x80 then some 1
  else if n < 0xC2 then none
  else if n < 0xE0 then some 2
  else if n < 0xF0 then some 3
  else if n < 0xF5 then some 4
  else none

/-- How many bytes of a character are well formed, up to `wanted` of them. -/
def wellFormedLength (first : UInt8) (wanted : Nat) (rest : List UInt8) : Nat :=
  1 + match (rest.take (wanted - 1)) with
    | [] => 0
    | second :: more =>
      if isSecond first second then 1 + (more.takeWhile isContinuation).length else 0

/-- The character of a well-formed sequence. -/
def charOf (first : UInt8) (rest : List UInt8) : Char :=
  let lead :=
    match rest.length with
    | 0 => first.toNat
    | 1 => first.toNat % 0x20
    | 2 => first.toNat % 0x10
    | _ => first.toNat % 8
  Char.ofNat (rest.foldl (fun n b => n * 0x40 + b.toNat % 0x40) lead)

/-- The characters of bytes from a position on; the first `skip` bytes belong to a character that
has been read. -/
def decodeFrom (position : Nat) : Nat → List UInt8 → Except DecodeError (List Char)
  | _, [] => .ok []
  | k + 1, _ :: rest => decodeFrom (position + 1) k rest
  | 0, b :: rest =>
    match sequenceLength? b with
    | none => .error ⟨position, 1, b, .start⟩
    | some wanted =>
      let found := wellFormedLength b wanted rest
      if found = wanted then
        (decodeFrom (position + 1) (wanted - 1) rest).map
          (charOf b (rest.take (wanted - 1)) :: ·)
      else if found = 1 + rest.length then .error ⟨position, found, b, .ending⟩
      else .error ⟨position, found, b, .continuation⟩

namespace Content

/-- The bytes of a content. -/
def toBytes : Content → List UInt8
  | text s => s.toUTF8.toList
  | bytes bs => bs

/-- The text of a content. -/
def decode : Content → Except DecodeError String
  | text s => .ok s
  | bytes bs => (decodeFrom 0 0 bs).map String.ofList

/-- The text of a content with line feeds as its only line ends. -/
def readText (c : Content) : Except DecodeError String :=
  c.decode.map (onChars unifyNewlines)

/-- A content with text put after it. -/
def append : Content → String → Content
  | text s, more => text (s ++ more)
  | bytes bs, more => bytes (bs ++ more.toUTF8.toList)

end Content

end Crowsfoot.Files
