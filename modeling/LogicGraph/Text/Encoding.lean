import LogicGraph.Text.Utf8

/-!
# Encodings of JSON text

Bytes that should be JSON may be in any of five encodings. JSON text starts with two ASCII
characters, so the zeros among the first four bytes tell how wide a character is and in which order
its bytes come.

## Main definitions

* `LogicGraph.Encoding` — the encodings.
* `LogicGraph.Encoding.ofBytes` — the encoding that the first bytes show.
* `LogicGraph.Encoding.decode` — the characters of some bytes in an encoding.
* `LogicGraph.Encoding.detectAndDecode` — the characters of some bytes in the encoding that they
  show.

## Implementation notes

The mark that may stand in front of UTF-8 is taken off. A half of a pair of units that stands alone
is no character, and bytes with one are not decoded.
-/

namespace LogicGraph

/-- Which byte of a number comes first. -/
inductive ByteOrder where
  /-- The most significant one. -/
  | bigEndian
  /-- The least significant one. -/
  | littleEndian
  deriving DecidableEq, Repr

/-- The number that bytes spell. -/
def ByteOrder.number (o : ByteOrder) (bytes : List UInt8) : Nat :=
  let significantFirst := match o with
    | .bigEndian => bytes
    | .littleEndian => bytes.reverse
  significantFirst.foldl (fun n b => 256 * n + b.toNat) 0

/-- An encoding of text. -/
inductive Encoding where
  /-- One to four bytes for a character. -/
  | utf8
  /-- One or two units of two bytes for a character. -/
  | utf16 (o : ByteOrder)
  /-- Four bytes for a character. -/
  | utf32 (o : ByteOrder)
  deriving DecidableEq, Repr

namespace Encoding

/-- The encoding that the first bytes show. -/
def ofBytes : List UInt8 → Encoding
  | [a, b] =>
    if a = 0 then .utf16 .bigEndian
    else if b = 0 then .utf16 .littleEndian
    else .utf8
  | a :: b :: c :: d :: _ =>
    if a = 0 then if b = 0 then .utf32 .bigEndian else .utf16 .bigEndian
    else if b = 0 then if c = 0 ∧ d = 0 then .utf32 .littleEndian else .utf16 .littleEndian
    else .utf8
  | _ => .utf8

/-- The bytes without the mark in front. -/
def withoutMark : List UInt8 → List UInt8
  | 0xEF :: 0xBB :: 0xBF :: rest => rest
  | bytes => bytes

/-- The character of a number, if it has one. -/
def character? (n : Nat) : Option Char :=
  if n.isValidChar then some (Char.ofNat n) else none

/-- The units of two bytes; nothing if a byte is left over. -/
def units16 (o : ByteOrder) : List UInt8 → Option (List Nat)
  | [] => some []
  | [_] => none
  | a :: b :: rest => (units16 o rest).map (o.number [a, b] :: ·)

/-- The character that two units make together. -/
def paired? (u v : Nat) : Option Char :=
  if 0xD800 ≤ u ∧ u < 0xDC00 ∧ 0xDC00 ≤ v ∧ v < 0xE000 then
    character? (0x10000 + (u - 0xD800) * 0x400 + (v - 0xDC00))
  else none

/-- The characters of units of two bytes, nothing if half of a pair stands alone; `waiting` is a
unit that may be the first of a pair. -/
def joinUnits : Option Nat → List Nat → Option (List Char)
  | none, [] => some []
  | some u, [] => (character? u).map ([·])
  | none, v :: rest => joinUnits (some v) rest
  | some u, v :: rest =>
    match paired? u v with
    | some c => (joinUnits none rest).map (c :: ·)
    | none => do
      let c ← character? u
      let cs ← joinUnits (some v) rest
      return c :: cs

/-- The characters of units of four bytes; nothing if bytes are left over or a unit is no
character. -/
def units32 (o : ByteOrder) : List UInt8 → Option (List Char)
  | [] => some []
  | a :: b :: c :: d :: rest => do
    let c ← character? (o.number [a, b, c, d])
    let cs ← units32 o rest
    return c :: cs
  | _ => none

/-- The characters of some bytes in an encoding; nothing if the bytes are not of the encoding. -/
def decode (e : Encoding) (bytes : List UInt8) : Option (List Char) :=
  match e with
  | .utf8 => (Utf8.decode (withoutMark bytes)).toOption
  | .utf16 o => units16 o bytes >>= joinUnits none
  | .utf32 o => units32 o bytes

/-- The characters of some bytes in the encoding that they show. -/
def detectAndDecode (bytes : List UInt8) : Option (List Char) :=
  (ofBytes bytes).decode bytes

end Encoding

end LogicGraph
