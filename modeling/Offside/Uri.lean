import Offside.Decimal.Digits
import Offside.Uri.Address

/-!
# Document addresses

An editor names its documents by URIs. Of a URI only the scheme and the path are needed, but all of
it has to be well formed: the reader checks the authority, down to the number after its colon, and
every `%` escape too. The first fault decides the error, and a fault before the fragment is reported
without the fragment.
-/

namespace Offside

/-- The scheme and the decoded path of a URI. -/
structure Uri where
  scheme : Text
  path : Text
deriving DecidableEq, Repr

/-- What is wrong with a URI. -/
inductive UriFault where
  | controlCharacter
  | missingScheme
  | colonInFirstSegment
  | missingBracket
  | invalidLiteral
  | invalidAddress (address : List UInt8) (fault : AddressFault)
  | invalidPort (found : Text)
  | invalidUserinfo
  /-- A `%` without two digits, or one that may not stand here; `rest` starts at the `%`. -/
  | invalidEscape (rest : Text)
  | invalidHostCharacter (c : Char)
deriving DecidableEq, Repr

/-- A fault, and the part of the URI that it was found in. -/
structure UriError where
  shown : Text
  fault : UriFault
deriving DecidableEq, Repr

namespace UriFault

/-- The text that tells what is wrong. -/
def message : UriFault → Text
  | controlCharacter => "net/url: invalid control character in URL".toList
  | missingScheme => "missing protocol scheme".toList
  | colonInFirstSegment => "first path segment in URL cannot contain colon".toList
  | missingBracket => "missing ']' in host".toList
  | invalidLiteral => "invalid IP-literal".toList
  | invalidAddress address fault => "invalid host: ".toList ++ fault.message address
  | invalidPort found => "invalid port ".toList ++ Text.quote found ++ " after host".toList
  | invalidUserinfo => "net/url: invalid userinfo".toList
  | invalidEscape rest =>
    "invalid URL escape ".toList ++ quoteBytes ((rest.flatMap String.utf8EncodeChar).take 3)
  | invalidHostCharacter c =>
    "invalid character ".toList ++ Text.quote [c] ++ " in host name".toList

end UriFault

/-- The text that tells why a URI cannot be read. -/
def UriError.message (e : UriError) : Text :=
  "parse ".toList ++ Text.quote e.shown ++ ": ".toList ++ e.fault.message

namespace Uri

/-! ## Escapes -/

/-- Where a stretch of a URI stands, which decides what may be escaped in it. -/
inductive Part where
  /-- The path, the user information or the fragment. -/
  | plain
  /-- A host name or address. -/
  | host
  /-- The zone of an address in brackets. -/
  | zone
deriving DecidableEq, Repr

/-- The ASCII characters that a host may be made of. -/
def isHostChar (c : Char) : Bool :=
  isAsciiLetter c || isAsciiDigit c || "-_.~!$&'()*+,;=:[]<>\"".toList.contains c

/-- Whether the escape of the byte `16 * a + b` may stand in a part. The escaped percent sign may
stand everywhere. In a host only bytes above ASCII are escaped, in a zone only characters of hosts
and the space. -/
def escapeAllowed (part : Part) (a b : Nat) : Bool :=
  (a == 2 && b == 5) || match part with
    | .plain => true
    | .host => 8 ≤ a
    | .zone => a < 8 && (isHostChar (Char.ofNat (16 * a + b)) || 16 * a + b == 0x20)

/-- The bytes of a part of a URI. -/
def decode (part : Part) : Text → Except UriFault (List UInt8)
  | [] => .ok []
  | c :: t =>
    if c = '%' then
      match t with
      | x :: y :: t =>
        match Decimal.digitValue? x, Decimal.digitValue? y with
        | some a, some b =>
          if escapeAllowed part a b then
            (decode part t).map ((16 * a + b).toUInt8 :: ·)
          else .error (.invalidEscape [c, x, y])
        | _, _ => .error (.invalidEscape (c :: x :: y :: t))
      | t => .error (.invalidEscape (c :: t))
    else if part ≠ .plain && c.toNat < 0x80 && !isHostChar c then
      .error (.invalidHostCharacter c)
    else (decode part t).map (String.utf8EncodeChar c ++ ·)

/-! ## The authority -/

/-- What stands before and what stands from the last occurrence of a character on. -/
def cutLast? (c : Char) (t : Text) : Option (Text × Text) :=
  if c ∈ t then
    some ((t.reverse.dropWhile (· ≠ c)).reverse.dropLast,
      c :: (t.reverse.takeWhile (· ≠ c)).reverse)
  else none

/-- Nothing, or a colon and digits. -/
def isPort (t : Text) : Bool :=
  match t with
  | [] => true
  | c :: t => c == ':' && t.all isAsciiDigit

/-- What stands before and what stands from the first occurrence of `part` on. -/
def cutBefore? (part : Text) : Text → Option (Text × Text)
  | [] => none
  | c :: t =>
    if Text.startsWith (c :: t) part then some ([], c :: t)
    else (cutBefore? part t).map fun (a, b) => (c :: a, b)

/-- The bytes of an address in brackets, with its zone. -/
def decodeAddress (t : Text) : Except UriFault (List UInt8) :=
  match cutBefore? "%25".toList t with
  | some (address, zone) => do
    let address ← decode .host address
    let zone ← decode .zone zone
    .ok (address ++ zone)
  | none => decode .host t

/-- Checks an address in brackets, with the number that may follow it. -/
def checkLiteral (t : Text) : Except UriFault Unit :=
  match cutLast? ']' t with
  | none => .error .missingBracket
  | some (address, rest) =>
    if !isPort (rest.drop 1) then .error (.invalidPort (rest.drop 1))
    else do
      let address ← decodeAddress (address.drop 1)
      match Address.read address with
      | .error fault => .error (.invalidAddress address fault)
      | .ok .four => .error .invalidLiteral
      | .ok .six => .ok ()

/-- Checks a host with the number that may follow it. A bracket may only open the host. -/
def checkHost (t : Text) : Except UriFault Unit :=
  if '[' ∈ t.drop 1 then .error .invalidLiteral
  else if t.head? = some '[' then checkLiteral t
  else
    match cutLast? ':' t with
    | some (_, number) =>
      if !isPort number then .error (.invalidPort number)
      else do
        let _ ← decode .host t
    | none => do
      let _ ← decode .host t

/-- A character that user information may be made of. -/
def isUserinfoChar (c : Char) : Bool :=
  isAsciiLetter c || isAsciiDigit c || "-._:~!$&'()*+,;=%@".toList.contains c

/-- Checks an authority: the host first, then the user information before the last `@`. -/
def checkAuthority (t : Text) : Except UriFault Unit :=
  match cutLast? '@' t with
  | none => checkHost t
  | some (user, host) => do
    checkHost (host.drop 1)
    if !user.all isUserinfoChar then throw .invalidUserinfo
    let _ ← decode .plain (user.takeWhile (· ≠ ':'))
    let _ ← decode .plain (user.dropWhile (· ≠ ':'))

/-! ## The whole -/

/-- A character that may stand in a scheme after its first letter. -/
def isSchemeChar (c : Char) : Bool :=
  isAsciiLetter c || isAsciiDigit c || c == '+' || c == '-' || c == '.'

/-- The scheme and what follows its colon. Without a scheme all of the text follows. -/
def splitScheme (t : Text) : Except UriFault (Text × Text) :=
  match t.takeWhile isSchemeChar, t.dropWhile isSchemeChar with
  | [], ':' :: _ => .error .missingScheme
  | c :: word, ':' :: rest => .ok (if isAsciiLetter c then (c :: word, rest) else ([], t))
  | _, _ => .ok ([], t)

/-- A control character of ASCII. -/
def isControl (c : Char) : Bool := c.toNat < 0x20 || c.toNat == 0x7f

/-- Checks the authority, if there is one, and gives the path after it. Without a scheme three
slashes start a path. -/
def splitAuthority (scheme rest : Text) : Except UriFault Text :=
  match Text.cut? "//".toList rest with
  | some after =>
    if scheme = [] && Text.startsWith rest "///".toList then .ok rest
    else do
      checkAuthority (after.takeWhile (· ≠ '/'))
      .ok (after.dropWhile (· ≠ '/'))
  | none => .ok rest

/-- The decoded path of what stands between the scheme and the fragment. After a scheme, text that
does not start with a slash is not a path, and is not looked at. -/
def readPath (scheme rest : Text) : Except UriFault Text :=
  let rest := rest.takeWhile (· ≠ '?')
  let rooted := Text.startsWith rest ['/']
  if !rooted && scheme ≠ [] then .ok []
  else if !rooted && (rest.takeWhile (· ≠ '/')).any (· = ':') then .error .colonInFirstSegment
  else do
    let path ← splitAuthority scheme rest
    .ok (Text.ofBytes (← decode .plain path))

/-- Reads a URI without a fragment. -/
def readMain (t : Text) : Except UriFault Uri :=
  if t.any isControl then .error .controlCharacter
  else if t = ['*'] then .ok { scheme := [], path := t }
  else do
    let (scheme, rest) ← splitScheme t
    let scheme := scheme.map Char.toLower
    .ok { scheme, path := ← readPath scheme rest }

/-- Reads a URI. -/
def read (t : Text) : Except UriError Uri :=
  let main := t.takeWhile (· ≠ '#')
  match readMain main with
  | .error fault => .error { shown := main, fault }
  | .ok uri =>
    match decode .plain ((t.dropWhile (· ≠ '#')).drop 1) with
    | .error fault => .error { shown := t, fault }
    | .ok _ => .ok uri

end Uri
end Offside
