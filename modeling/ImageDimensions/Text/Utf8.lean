/-!
# Text/Utf8 — bytes shown as text

`Utf8.decodeLossy` reads any bytes as text.  Where they are no UTF-8 it puts one replacement character
for each *maximal* ill-formed part: the longest run of bytes that begins a well-formed character, or a
single byte where none begins.

A byte is read in a state that holds what is known of the character begun before it, if one has begun.
Of the ranges for the byte after the first, five are narrower than `80..BF`; they rule out overlong
forms, surrogates and values above `10FFFF`.
-/

namespace ImageDimensions.Utf8

/-- The character shown in place of bytes that are no text. -/
def replacement : Char := '\uFFFD'

/-- What is known of a character of which only the first bytes have been read. -/
structure Begun where
  /-- How many bytes are still to come. -/
  missing : Nat
  /-- The least value of the next byte. -/
  least : Nat
  /-- The greatest value of the next byte. -/
  greatest : Nat
  /-- The number formed by the bits read so far. -/
  value : Nat
deriving DecidableEq, Repr

/-- What a byte at the beginning of a character leads to: characters that can be shown, and a character
that has begun. -/
def first (b : UInt8) : List Char × Option Begun :=
  let n := b.toNat
  if n < 0x80 then ([Char.ofNat n], none)
  else if n < 0xC2 then ([replacement], none)
  else if n < 0xE0 then ([], some ⟨1, 0x80, 0xBF, n - 0xC0⟩)
  else if n < 0xF0 then
    ([], some ⟨2, if n = 0xE0 then 0xA0 else 0x80, if n = 0xED then 0x9F else 0xBF, n - 0xE0⟩)
  else if n < 0xF5 then
    ([], some ⟨3, if n = 0xF0 then 0x90 else 0x80, if n = 0xF4 then 0x8F else 0xBF, n - 0xF0⟩)
  else ([replacement], none)

/-- What a byte leads to in a given state.  A byte that does not continue the character begun before it
ends the ill-formed part and is read afresh. -/
def next : Option Begun → UInt8 → List Char × Option Begun
  | none, b => first b
  | some p, b =>
    let n := b.toNat
    if p.least ≤ n ∧ n ≤ p.greatest then
      let value := p.value * 64 + (n - 0x80)
      if p.missing = 1 then ([Char.ofNat value], none)
      else ([], some ⟨p.missing - 1, 0x80, 0xBF, value⟩)
    else
      let (shown, state) := first b
      (replacement :: shown, state)

/-- The characters shown for bytes that are read in a given state. -/
def decodeFrom : Option Begun → List UInt8 → List Char
  | none, [] => []
  | some _, [] => [replacement]
  | state, b :: bytes => (next state b).1 ++ decodeFrom (next state b).2 bytes

/-- The text shown for bytes. -/
def decodeLossy (bytes : List UInt8) : String := String.ofList (decodeFrom none bytes)

/-- A truncated character is one part, and the two bytes of an overlong form are two. -/
example : decodeFrom none [0x61, 0xE2, 0x82, 0x62, 0xC0, 0xAF]
    = ['a', replacement, 'b', replacement, replacement] := by decide

end ImageDimensions.Utf8
