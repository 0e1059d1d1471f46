/-!
# UTF-8

Octets are decoded as UTF-8. Where they are not well formed, every longest run of octets that starts
a character becomes one replacement character, and so does every octet that starts none.
-/

namespace CMakeScript.Text.Utf8

/-- What a first octet says about its character: the number of octets that follow, the bounds of the
next one, and the bits that it gives itself. -/
structure Lead where
  following : Nat
  low : Nat := 0x80
  high : Nat := 0xBF
  bits : Nat

/-- The first octets of the characters, except for overlong forms, surrogates and codes beyond
U+10FFFF. -/
def lead? (b : Nat) : Option Lead :=
  if b < 0x80 then some { following := 0, bits := b }
  else if b < 0xC2 then none
  else if b < 0xE0 then some { following := 1, bits := b - 0xC0 }
  else if b == 0xE0 then some { following := 2, low := 0xA0, bits := 0 }
  else if b == 0xED then some { following := 2, high := 0x9F, bits := 0xD }
  else if b < 0xF0 then some { following := 2, bits := b - 0xE0 }
  else if b == 0xF0 then some { following := 3, low := 0x90, bits := 0 }
  else if b < 0xF4 then some { following := 3, bits := b - 0xF0 }
  else if b == 0xF4 then some { following := 3, high := 0x8F, bits := 4 }
  else none

/-- Reads the following octets of a character. The result is its code, or none if it breaks off, and
the number of octets read. -/
def follow (code : Nat) (low high : Nat) : Nat → List UInt8 → Option Nat × Nat
  | 0, _ => (some code, 0)
  | _ + 1, [] => (none, 0)
  | n + 1, b :: rest =>
    if low ≤ b.toNat ∧ b.toNat ≤ high then
      let (found, read) := follow (64 * code + (b.toNat - 0x80)) 0x80 0xBF n rest
      (found, read + 1)
    else (none, 0)

/-- The characters that octets stand for; none where they are not well formed. `skip` octets belong
to a character that has been read. -/
def read (skip : Nat) : List UInt8 → List (Option Char)
  | [] => []
  | b :: rest =>
    match skip with
    | skip + 1 => read skip rest
    | 0 =>
      match lead? b.toNat with
      | none => none :: read 0 rest
      | some lead =>
        let (code, length) := follow lead.bits lead.low lead.high lead.following rest
        code.map Char.ofNat :: read length rest

/-- Decodes octets. -/
def decode (octets : List UInt8) : List Char :=
  (read 0 octets).map (·.getD '\uFFFD')

/-- The octets are well formed. -/
def isValid (octets : List UInt8) : Bool :=
  (read 0 octets).all Option.isSome

end CMakeScript.Text.Utf8
