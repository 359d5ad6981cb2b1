import Propositional.Text.Quoted

/-!
# Reading UTF-8

Bytes are read one at a time by a machine that knows how many further bytes the current character
needs. It refuses at the first byte that no character can go on with.

* `decodeUtf8` — the characters, and what is left of a character that further bytes could complete; or
  the first fault.
* `Utf8Error.message` — the wording of a fault.
* `Chunk` — what one reading of a stream brings; `chunksOf` for a file.
* `firstLine` — the first line of a stream, of which no more is read than it takes.
-/

namespace Propositional

/-- What is wrong with a sequence of bytes. -/
inductive Utf8Fault where
  | start
  | continuation
  | truncated
  deriving DecidableEq, Repr

/-- A fault, with the place and the bytes of the character that it spoils. -/
structure Utf8Error where
  fault : Utf8Fault
  position : Nat
  bytes : List UInt8
  deriving DecidableEq, Repr

def Utf8Fault.wording : Utf8Fault → String
  | .start => "invalid start byte"
  | .continuation => "invalid continuation byte"
  | .truncated => "unexpected end of data"

def Utf8Error.message (e : Utf8Error) : String :=
  let place := match e.bytes with
    | [b] => "byte 0x" ++ String.ofList (hexDigits 2 b.toNat) ++ " in position " ++
        toString e.position
    | bytes => "bytes in position " ++ toString e.position ++ "-" ++
        toString (e.position + bytes.length - 1)
  "'utf-8' codec can't decode " ++ place ++ ": " ++ e.fault.wording

/-- The character being read: its bytes so far, the number of bytes it still needs, and the number
they stand for. -/
structure Utf8State where
  seen : List UInt8
  owed : Nat
  value : Nat

def Utf8State.between : Utf8State := ⟨[], 0, 0⟩

/-- The state after the first byte of a character; `none` for a byte that starts no character. -/
def Utf8State.lead (b : UInt8) : Option Utf8State :=
  let n := b.toNat
  if n < 0x80 then some ⟨[b], 0, n⟩
  else if 0xc2 ≤ n && n < 0xe0 then some ⟨[b], 1, n - 0xc0⟩
  else if 0xe0 ≤ n && n < 0xf0 then some ⟨[b], 2, n - 0xe0⟩
  else if 0xf0 ≤ n && n < 0xf5 then some ⟨[b], 3, n - 0xf0⟩
  else none

/-- A byte that may follow. The first byte after the lead is restricted where it would stand for a
character with a shorter form, for half of a surrogate pair, or for none. -/
def Utf8State.accepts (s : Utf8State) (b : UInt8) : Bool :=
  let n := b.toNat
  0x80 ≤ n && n < 0xc0 && match s.seen with
    | [0xe0] => 0xa0 ≤ n
    | [0xed] => n < 0xa0
    | [0xf0] => 0x90 ≤ n
    | [0xf4] => n < 0x90
    | _ => true

/-- The state after a further byte of the character. -/
def Utf8State.extend (s : Utf8State) (b : UInt8) : Utf8State :=
  ⟨s.seen ++ [b], s.owed - 1, s.value * 64 + (b.toNat - 0x80)⟩

/-- The state after one more byte; `none` for a byte that cannot stand there. -/
def Utf8State.next? (s : Utf8State) (b : UInt8) : Option Utf8State :=
  if s.owed = 0 then lead b else if s.accepts b then some (s.extend b) else none

/-- The two bytes that half of a surrogate pair would start with. -/
def isSurrogateStart : List UInt8 → Bool
  | [0xed, b] => 0xa0 ≤ b.toNat && b.toNat < 0xc0
  | _ => false

/-- Reads on from a state; `position` counts the bytes read. The start of half a surrogate pair is
refused only when it is known what follows. -/
def decodeUtf8From (s : Utf8State) (position : Nat) :
    List UInt8 → Except Utf8Error (List Char × List UInt8)
  | [] => .ok ([], if s.owed = 0 then [] else s.seen)
  | b :: rest =>
    match s.next? b with
    | some next => do
      let (chars, begun) ← decodeUtf8From next (position + 1) rest
      return (if next.owed = 0 then Char.ofNat next.value :: chars else chars, begun)
    | none =>
      if s.owed = 0 then .error ⟨.start, position, [b]⟩
      else if rest.isEmpty && isSurrogateStart (s.seen ++ [b]) then .ok ([], s.seen ++ [b])
      else .error ⟨.continuation, position - s.seen.length, s.seen⟩

/-- The characters that bytes stand for, and the bytes of a character that is begun behind them and
not finished. -/
def decodeUtf8 (bytes : List UInt8) : Except Utf8Error (List Char × List UInt8) :=
  decodeUtf8From .between 0 bytes

/-! ## Reading piece by piece -/

/-- What one reading of a stream brings. It has a byte at least: a reading that brings none is the
end of the stream. -/
structure Chunk where
  first : UInt8
  more : List UInt8
  deriving DecidableEq, Repr

def Chunk.bytes (c : Chunk) : List UInt8 := c.first :: c.more

/-- The bytes of some chunks. -/
def chunkBytes (chunks : List Chunk) : List UInt8 := chunks.flatMap Chunk.bytes

/-- How many bytes are asked for at a time. -/
def chunkSize : Nat := 8192

/-- The chunks of a file with the given bytes. -/
def chunksOf : List UInt8 → List Chunk
  | [] => []
  | b :: rest => ⟨b, rest.take (chunkSize - 1)⟩ :: chunksOf (rest.drop (chunkSize - 1))
termination_by bytes => bytes.length
decreasing_by exact Nat.lt_succ_of_le (List.length_drop ▸ Nat.sub_le _ _)

/-! ## The first line -/

/-- The characters that end a line. A carriage return and a line feed together end one line. -/
def isLineEnd (c : Char) : Bool := c == '\n' || c == '\r'

/-- The line that a text begins with, if its end has come into sight. A carriage return is held back
until it is known what follows. -/
def endedLine? : List Char → Option (List Char)
  | [] | ['\r'] => none
  | c :: rest => if isLineEnd c then some [] else (endedLine? rest).map (c :: ·)

/-- The fault of a character that was begun and is known to have no further bytes. Such bytes are
looked at apart from the ones before them, so their place is counted anew. -/
def unfinishedFault (bytes : List UInt8) : Utf8Error :=
  if isSurrogateStart bytes then ⟨.continuation, 0, bytes.take 1⟩ else ⟨.truncated, 0, bytes⟩

/-- Reads on to the end of the first line: `soFar` has been decoded, and a character has been begun.
A chunk is decoded as a whole, and the ones behind the chunk that ends the line are not read. -/
def firstLineFrom (soFar : List Char) (begun : List UInt8) :
    List Chunk → Except Utf8Error (List Char)
  | [] =>
    if begun.isEmpty then .ok (soFar.takeWhile (!isLineEnd ·)) else .error (unfinishedFault begun)
  | chunk :: rest => do
    let (chars, begun) ← decodeUtf8 (begun ++ chunk.bytes)
    match endedLine? (soFar ++ chars) with
    | some line => return line
    | none => firstLineFrom (soFar ++ chars) begun rest

/-- The first line of a stream without its end, which is a line feed, a carriage return, or both. -/
def firstLine (chunks : List Chunk) : Except Utf8Error String :=
  (firstLineFrom [] [] chunks).map String.ofList

end Propositional
