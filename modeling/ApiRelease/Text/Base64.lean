/-! # Bytes in base sixty-four

Four characters stand for three bytes. Characters outside the alphabet are passed
over. A pad counts once two characters of a group are read; enough of them end the
text, and what follows does not count. A group that is neither full nor padded has no
reading.
-/
namespace ApiRelease.Text

def sextet? (c : Char) : Option Nat :=
  if 'A' ≤ c && c ≤ 'Z' then some (c.toNat - 0x41)
  else if 'a' ≤ c && c ≤ 'z' then some (c.toNat - 0x61 + 26)
  else if c.isDigit then some (c.toNat - 0x30 + 52)
  else if c == '+' then some 62
  else if c == '/' then some 63
  else none

/-- A group in the making: how many characters it has, the bits of the last one that
are not in a byte yet, and the pads since then. -/
structure Sextets where
  count : Nat
  left : Nat
  pads : Nat

/-- The byte that a further character completes, if any, and the group after it. -/
def Sextets.push (g : Sextets) (n : Nat) : Option UInt8 × Sextets :=
  match g.count with
  | 0 => (none, ⟨1, n, 0⟩)
  | 1 => (some (UInt8.ofNat (g.left * 4 + n / 16)), ⟨2, n % 16, 0⟩)
  | 2 => (some (UInt8.ofNat (g.left * 16 + n / 4)), ⟨3, n % 4, 0⟩)
  | _ => (some (UInt8.ofNat (g.left * 64 + n)), ⟨0, 0, 0⟩)

def base64From (g : Sextets) : List Char → Option (List UInt8)
  | [] => if g.count == 0 then some [] else none
  | c :: rest =>
    if c == '=' then
      if g.count < 2 then base64From g rest
      else if 4 ≤ g.count + g.pads + 1 then some []
      else base64From { g with pads := g.pads + 1 } rest
    else
      match sextet? c with
      | none => base64From g rest
      | some n =>
        let (byte, g) := g.push n
        (base64From g rest).map (byte.toList ++ ·)

def base64? (cs : List Char) : Option (List UInt8) := base64From ⟨0, 0, 0⟩ cs

end ApiRelease.Text
