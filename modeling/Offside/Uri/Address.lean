import Offside.Text.Quoted
import Offside.Text.Utf8

/-!
# Network addresses

An address in brackets must be one of version 6: up to eight groups of hexadecimal digits between
colons, of which one run may be left out by two colons in a row, and of which the last two may be
written as an address of version 4. A zone may follow behind a percent sign. An address is read as
bytes, because escapes may have put any bytes into it.
-/

namespace Offside

/-- Bytes in double quotes, as messages show them, from after the next `skip` ones on, which belong
to a character already shown. Bytes that are no text are shown by their number. -/
def quoteBytesFrom : (skip : Nat) → List UInt8 → Text
  | _, [] => ['"']
  | skip + 1, _ :: bs => quoteBytesFrom skip bs
  | 0, b :: bs =>
    match decodeFirst? (b :: bs) with
    | some (c, n) => quoteChar c ++ quoteBytesFrom (n - 1) bs
    | none => ['\\', 'x'] ++ hexDigits 2 b.toNat ++ quoteBytesFrom 0 bs

/-- Bytes in double quotes, as messages show them. -/
def quoteBytes (bytes : List UInt8) : Text := '"' :: quoteBytesFrom 0 bytes

/-- What is wrong with an address. Some faults tell where they are, by the rest of the address from
there on. -/
inductive AddressFault where
  | noAddress
  | zoneOnly
  | emptyZone
  | unexpected (rest : List UInt8)
  | leadingZero
  | largeField
  | emptyField (rest : List UInt8)
  | manyFields
  | fewFields
  | longGroup (rest : List UInt8)
  | emptyGroup (rest : List UInt8)
  | misplacedFields (rest : List UInt8)
  | noRoomForFields (rest : List UInt8)
  | noColon (rest : List UInt8)
  | endsInColon (rest : List UInt8)
  | secondGap (rest : List UInt8)
  | manyGroups (rest : List UInt8)
  | fewGroups
  | emptyGap
deriving DecidableEq, Repr

namespace AddressFault

/-- What is wrong, and the rest of the address from there on if that is told. -/
def parts : AddressFault → String × List UInt8
  | noAddress => ("unable to parse IP", [])
  | zoneOnly => ("missing IPv6 address", [])
  | emptyZone => ("zone must be a non-empty string", [])
  | unexpected rest => ("unexpected character", rest)
  | leadingZero => ("IPv4 field has octet with leading zero", [])
  | largeField => ("IPv4 field has value >255", [])
  | emptyField rest => ("IPv4 field must have at least one digit", rest)
  | manyFields => ("IPv4 address too long", [])
  | fewFields => ("IPv4 address too short", [])
  | longGroup rest => ("each group must have 4 or less digits", rest)
  | emptyGroup rest => ("each colon-separated field must have at least one digit", rest)
  | misplacedFields rest =>
    ("embedded IPv4 address must replace the final 2 fields of the address", rest)
  | noRoomForFields rest =>
    ("too many hex fields to fit an embedded IPv4 at the end of the address", rest)
  | noColon rest => ("unexpected character, want colon", rest)
  | endsInColon rest => ("colon must be followed by more characters", rest)
  | secondGap rest => ("multiple :: in address", rest)
  | manyGroups rest => ("trailing garbage after address", rest)
  | fewGroups => ("address string too short", [])
  | emptyGap => ("the :: must expand to at least one field of zeros", [])

/-- The text that tells what is wrong with an address. -/
def message (address : List UInt8) (fault : AddressFault) : Text :=
  let (what, rest) := fault.parts
  "ParseAddr(".toList ++ quoteBytes address ++ "): ".toList ++ what.toList
    ++ if rest = [] then [] else " (at ".toList ++ quoteBytes rest ++ [')']

end AddressFault

/-- The versions of network addresses. -/
inductive AddressVersion where
  | four
  | six
deriving DecidableEq, Repr

namespace Address

/-- The byte of an ASCII character. -/
def byte (c : Char) : UInt8 := c.toNat.toUInt8

/-- A byte that is a decimal digit. -/
def isDigitByte (b : UInt8) : Bool := byte '0' ≤ b && b ≤ byte '9'

/-- A byte that is a hexadecimal digit. -/
def isHexByte (b : UInt8) : Bool :=
  isDigitByte b || (byte 'a' ≤ b && b ≤ byte 'f') || (byte 'A' ≤ b && b ≤ byte 'F')

/-- Checks the rest of an address of version 4: `count` fields were read, and the current one has
`digits` digits and the given value so far. -/
def checkFields (count digits value : Nat) : List UInt8 → Except AddressFault Unit
  | [] => if count < 3 then .error .fewFields else .ok ()
  | b :: rest =>
    if isDigitByte b then
      if digits = 1 ∧ value = 0 then .error .leadingZero
      else
        let value := 10 * value + (b.toNat - (byte '0').toNat)
        if 255 < value then .error .largeField else checkFields count (digits + 1) value rest
    else if b = byte '.' then
      if digits = 0 ∨ rest = [] then .error (.emptyField (b :: rest))
      else if count = 3 then .error .manyFields
      else checkFields (count + 1) 0 0 rest
    else .error (.unexpected (b :: rest))

/-- What is left after the groups of an address: how many groups are missing, and the rest. Here
`left` groups may still come, and `gap` tells whether some were left out before. -/
def readGroups : (left : Nat) → (gap : Bool) → List UInt8 →
    Except AddressFault (Nat × Bool × List UInt8)
  | 0, gap, s => .ok (0, gap, s)
  | left + 1, gap, s =>
    let digits := s.takeWhile isHexByte
    let rest := s.dropWhile isHexByte
    if 4 < digits.length then .error (.longGroup s)
    else if digits = [] then .error (.emptyGroup s)
    else if rest.head? = some (byte '.') then
      if !gap ∧ left + 1 ≠ 2 then .error (.misplacedFields s)
      else if left + 1 < 2 then .error (.noRoomForFields s)
      else (checkFields 0 0 0 s).map fun _ => (left - 1, gap, [])
    else match rest with
      | [] => .ok (left, gap, [])
      | c :: rest =>
        if c ≠ byte ':' then .error (.noColon (c :: rest))
        else match rest with
          | [] => .error (.endsInColon [c])
          | d :: more =>
            if d = byte ':' then
              if gap then .error (.secondGap (d :: more))
              else if more = [] then .ok (left, true, [])
              else readGroups left true more
            else readGroups left gap (d :: more)

/-- Checks an address of version 6 without its zone. -/
def checkGroups (s : List UInt8) : Except AddressFault Unit := do
  let (start, gap) := match s with
    | a :: b :: rest => if a = byte ':' && b = byte ':' then (rest, true) else (s, false)
    | s => (s, false)
  if gap && start = [] then return ()
  let (left, gap, rest) ← readGroups 8 gap start
  if rest ≠ [] then throw (.manyGroups rest)
  if 0 < left then
    if !gap then throw .fewGroups
  else if gap then throw .emptyGap

/-- The version of an address. The first character that only one version has decides which one it
is read as. -/
def read (s : List UInt8) : Except AddressFault AddressVersion :=
  let isMark (b : UInt8) : Bool := b = byte '.' || b = byte ':' || b = byte '%'
  match s.find? isMark with
  | none => .error .noAddress
  | some b =>
    if b = byte '.' then (checkFields 0 0 0 s).map fun _ => .four
    else if b = byte '%' then .error .zoneOnly
    else if s.getLast? = some (byte '%') && s.idxOf (byte '%') + 1 = s.length then
      .error .emptyZone
    else (checkGroups (s.takeWhile (· ≠ byte '%'))).map fun _ => .six

end Address
end Offside
