import Offside.Text.Basic

/-!
# Bytes and code units

Template files are bytes. They are read as UTF-8, and every byte that is not part of a well-formed
sequence becomes one replacement character, so decoding never fails. Lengths in UTF-8 bytes decide
how deep a line is indented and where the raw lines of a block are cut; lengths in UTF-16 code
units are what an editor counts.
-/

namespace Offside

/-- A byte `10xxxxxx`. -/
def isContinuation (b : UInt8) : Bool := 0x80 ≤ b && b < 0xc0

/-- The six payload bits of a continuation byte. -/
def payload (b : UInt8) : Nat := b.toNat - 0x80

/-- The character that a well-formed sequence at the start of `bytes` encodes, with the number of
its bytes. Overlong forms, surrogates and numbers above U+10FFFF are not well formed. -/
def decodeFirst? : List UInt8 → Option (Char × Nat)
  | [] => none
  | b₀ :: rest =>
    if b₀ < 0x80 then some (Char.ofNat b₀.toNat, 1)
    else match rest with
      | b₁ :: rest =>
        if 0xc2 ≤ b₀ && b₀ < 0xe0 && isContinuation b₁ then
          some (Char.ofNat ((b₀.toNat - 0xc0) * 64 + payload b₁), 2)
        else match rest with
          | b₂ :: rest =>
            let n₃ := (b₀.toNat - 0xe0) * 4096 + payload b₁ * 64 + payload b₂
            if 0xe0 ≤ b₀ && b₀ < 0xf0 && isContinuation b₁ && isContinuation b₂
                && 0x800 ≤ n₃ && !(0xd800 ≤ n₃ && n₃ < 0xe000) then
              some (Char.ofNat n₃, 3)
            else match rest with
              | b₃ :: _ =>
                let n₄ := (b₀.toNat - 0xf0) * 262144 + payload b₁ * 4096 + payload b₂ * 64
                  + payload b₃
                if 0xf0 ≤ b₀ && isContinuation b₁ && isContinuation b₂ && isContinuation b₃
                    && 0x10000 ≤ n₄ && n₄ < 0x110000 then
                  some (Char.ofNat n₄, 4)
                else none
              | [] => none
          | [] => none
      | [] => none

namespace Text

/-- Decodes the bytes after the next `skip` ones, which belong to a character already decoded. -/
def ofBytesFrom : (skip : Nat) → List UInt8 → Text
  | _, [] => []
  | skip + 1, _ :: bs => ofBytesFrom skip bs
  | 0, b :: bs =>
    match decodeFirst? (b :: bs) with
    | some (c, n) => c :: ofBytesFrom (n - 1) bs
    | none => replacement :: ofBytesFrom 0 bs

/-- The text of a file. Each byte outside a well-formed sequence is one replacement character. -/
def ofBytes (bytes : List UInt8) : Text := ofBytesFrom 0 bytes

/-- The number of UTF-8 bytes of a text. -/
def byteLength : Text → Nat
  | [] => 0
  | c :: t => c.utf8Size + byteLength t

/-- The text without its first `n` bytes. A character that the cut divides leaves one replacement
character for each byte of it that stays. -/
def dropBytes : Nat → Text → Text
  | 0, t => t
  | _ + 1, [] => []
  | n + 1, c :: t =>
    if c.utf8Size ≤ n + 1 then dropBytes (n + 1 - c.utf8Size) t
    else List.replicate (c.utf8Size - (n + 1)) replacement ++ t

/-- What is left of a character of which one byte was cut off. -/
def stump (c : Char) : Text := List.replicate (c.utf8Size - 1) replacement

/-- The text without its first and its last byte: what stands between two delimiters. -/
def dropEnds : Text → Text
  | [] => []
  | [c] => List.replicate (c.utf8Size - 2) replacement
  | c :: d :: t => stump c ++ (d :: t).dropLast ++ stump ((d :: t).getLast (by simp))

/-- The number of UTF-16 code units of a character. -/
def units16 (c : Char) : Nat := if c.toNat < 0x10000 then 1 else 2

end Text
end Offside
