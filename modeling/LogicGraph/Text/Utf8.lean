import LogicGraph.Text.Quoted

/-!
# Bytes to text

Files hold UTF-8. Decoding is strict: it stops at the first bytes that start no character, and says
which bytes these are and what is wrong with them. Text lines may end in any of the three usual ways
and are given the single line feed.

## Main definitions

* `LogicGraph.Utf8.Fault` — the first bytes that are not UTF-8.
* `LogicGraph.Utf8.decode` — the characters of a list of bytes.
* `LogicGraph.Utf8.unifyLineEnds` — a text with a line feed for every line end.
-/

namespace LogicGraph.Utf8

/-- What is wrong with some bytes. -/
inductive Reason where
  /-- No character starts with this byte. -/
  | startByte
  /-- The byte after these does not continue the character. -/
  | continuation
  /-- The bytes end within a character. -/
  | endOfData
  deriving DecidableEq, Repr

/-- The wording of a reason. -/
def Reason.message : Reason → String
  | .startByte => "invalid start byte"
  | .continuation => "invalid continuation byte"
  | .endOfData => "unexpected end of data"

/-- The first bytes that are not UTF-8. -/
structure Fault where
  /-- What is wrong. -/
  reason : Reason
  /-- The first of the bytes. -/
  byte : UInt8
  /-- The position of the first of the bytes. -/
  start : Nat
  /-- How many bytes there are. -/
  count : Nat
  deriving DecidableEq, Repr

/-- The wording of a fault. -/
def Fault.message (f : Fault) : String :=
  let bytes :=
    if f.count = 1 then
      "byte 0x" ++ String.ofList (Text.hexPadded 2 f.byte.toNat) ++ s!" in position {f.start}"
    else s!"bytes in position {f.start}-{f.start + f.count - 1}"
  "'utf-8' codec can't decode " ++ bytes ++ ": " ++ f.reason.message

/-- Whether a byte continues a character. -/
def isTail (b : UInt8) : Bool :=
  decide (0x80 ≤ b.toNat) && decide (b.toNat ≤ 0xBF)

/-- The bytes that may follow the first byte of a character of three or four bytes. -/
def isSecond (a b : UInt8) : Bool :=
  isTail b &&
    (if a.toNat = 0xE0 then decide (0xA0 ≤ b.toNat)
     else if a.toNat = 0xED then decide (b.toNat < 0xA0)
     else if a.toNat = 0xF0 then decide (0x90 ≤ b.toNat)
     else if a.toNat = 0xF4 then decide (b.toNat < 0x90)
     else true)

/-- How many bytes a character has that starts with the given byte; zero if none does. -/
def width (a : UInt8) : Nat :=
  if a.toNat < 0x80 then 1
  else if a.toNat < 0xC2 then 0
  else if a.toNat < 0xE0 then 2
  else if a.toNat < 0xF0 then 3
  else if a.toNat < 0xF5 then 4
  else 0

/-- The low six bits of a byte that continues a character. -/
def tailBits (b : UInt8) : Nat := b.toNat % 64

/-- The first character of some bytes and the bytes after it, or what is wrong with how many
bytes. -/
def first (a : UInt8) (rest : List UInt8) : Except (Reason × Nat) (Char × List UInt8) :=
  match width a with
  | 1 => .ok (Char.ofNat a.toNat, rest)
  | 2 =>
    match rest with
    | [] => .error (.endOfData, 1)
    | b :: rest =>
      if isTail b then .ok (Char.ofNat (a.toNat % 32 * 64 + tailBits b), rest)
      else .error (.continuation, 1)
  | 3 =>
    match rest with
    | [] => .error (.endOfData, 1)
    | b :: rest =>
      if !isSecond a b then .error (.continuation, 1)
      else
        match rest with
        | [] => .error (.endOfData, 2)
        | c :: rest =>
          if isTail c then
            .ok (Char.ofNat (a.toNat % 16 * 4096 + tailBits b * 64 + tailBits c), rest)
          else .error (.continuation, 2)
  | 4 =>
    match rest with
    | [] => .error (.endOfData, 1)
    | b :: rest =>
      if !isSecond a b then .error (.continuation, 1)
      else
        match rest with
        | [] => .error (.endOfData, 2)
        | c :: rest =>
          if !isTail c then .error (.continuation, 2)
          else
            match rest with
            | [] => .error (.endOfData, 3)
            | d :: rest =>
              if isTail d then
                .ok (Char.ofNat (a.toNat % 8 * 262144 + tailBits b * 4096 + tailBits c * 64
                  + tailBits d), rest)
              else .error (.continuation, 3)
  | _ => .error (.startByte, 1)

/-- The characters of the bytes from a position on; `done` holds the characters read so far, the
last one first, and `fuel` bounds their number. -/
def decodeFrom : Nat → Nat → List Char → List UInt8 → Except Fault (List Char)
  | 0, _, done, _ => .ok done.reverse
  | _ + 1, _, done, [] => .ok done.reverse
  | fuel + 1, position, done, a :: rest =>
    match first a rest with
    | .error (reason, count) => .error ⟨reason, a, position, count⟩
    | .ok (c, rest) => decodeFrom fuel (position + width a) (c :: done) rest

/-- The characters of a list of bytes. -/
def decode (bytes : List UInt8) : Except Fault (List Char) :=
  decodeFrom bytes.length 0 [] bytes

/-- The characters with a line feed for every line end; `done` holds those seen so far, the last one
first. -/
def unifyFrom : List Char → List Char → List Char
  | done, [] => done.reverse
  | done, '\r' :: '\n' :: rest => unifyFrom ('\n' :: done) rest
  | done, c :: rest => unifyFrom ((if c = '\r' then '\n' else c) :: done) rest

/-- A text with a line feed for every line end. -/
def unifyLineEnds (cs : List Char) : List Char :=
  unifyFrom [] cs

end LogicGraph.Utf8
