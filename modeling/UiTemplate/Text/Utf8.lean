/-!
Texts as bytes. Reading is either strict, where a file must be well formed, or
forgiving, where a reply is shown as far as it can be: there every maximal piece
of a sequence that is cut short or ruled out becomes one replacement character.
-/

namespace UiTemplate.Text.Utf8

/-- A character that is not complete: how many bytes are still owed, the range
of the next one, and the bits read so far. -/
structure Pending where
  owed : Nat
  low : Nat
  high : Nat
  bits : Nat
deriving DecidableEq

/-- The characters read so far, in reverse, and the one that is not complete. -/
structure Reader where
  reversed : List Char
  pending : Option Pending

def replacement : Char := '\ufffd'

def Reader.first (r : List Char) (byte : Nat) : Reader :=
  if byte < 0x80 then ⟨Char.ofNat byte :: r, none⟩
  else if 0xC2 ≤ byte ∧ byte ≤ 0xDF then ⟨r, some ⟨1, 0x80, 0xBF, byte - 0xC0⟩⟩
  else if byte = 0xE0 then ⟨r, some ⟨2, 0xA0, 0xBF, 0⟩⟩
  else if byte = 0xED then ⟨r, some ⟨2, 0x80, 0x9F, 0xD⟩⟩
  else if 0xE1 ≤ byte ∧ byte ≤ 0xEF then ⟨r, some ⟨2, 0x80, 0xBF, byte - 0xE0⟩⟩
  else if byte = 0xF0 then ⟨r, some ⟨3, 0x90, 0xBF, 0⟩⟩
  else if 0xF1 ≤ byte ∧ byte ≤ 0xF3 then ⟨r, some ⟨3, 0x80, 0xBF, byte - 0xF0⟩⟩
  else if byte = 0xF4 then ⟨r, some ⟨3, 0x80, 0x8F, 4⟩⟩
  else ⟨replacement :: r, none⟩

/-- Reads one byte. A byte that does not continue the pending character ends it
and is read again on its own. -/
def Reader.step (r : Reader) (byte : UInt8) : Reader :=
  let byte := byte.toNat
  match r.pending with
  | none => Reader.first r.reversed byte
  | some p =>
    if p.low ≤ byte ∧ byte ≤ p.high then
      let bits := p.bits * 0x40 + (byte - 0x80)
      if p.owed = 1 then ⟨Char.ofNat bits :: r.reversed, none⟩
      else ⟨r.reversed, some ⟨p.owed - 1, 0x80, 0xBF, bits⟩⟩
    else Reader.first (replacement :: r.reversed) byte

/-- The text of a byte sequence, with replacement characters where it is not
well formed. -/
def decodeLossy (bytes : List UInt8) : String :=
  let last := bytes.foldl Reader.step ⟨[], none⟩
  let reversed :=
    match last.pending with
    | none => last.reversed
    | some _ => replacement :: last.reversed
  String.ofList reversed.reverse

/-- The text of a byte sequence that is well formed. -/
def decode? (bytes : ByteArray) : Option String :=
  String.fromUTF8? bytes

end UiTemplate.Text.Utf8
