import BraceTemplate.Text.Class

/- Percent encoding. A character that may not stand in a part of an address is written as
   the bytes of its UTF-8 form, each as a percent sign and two hexadecimal digits. -/
namespace BraceTemplate
namespace Url

/-- The bytes of a character in UTF-8. -/
def utf8 (c : Char) : List Nat := (String.utf8EncodeChar c).map UInt8.toNat

def upperHex (n : Nat) : Char := (Nat.digitChar n).toUpper

def encodeByte (b : Nat) : List Char := ['%', upperHex (b / 16), upperHex (b % 16)]

/-- Control characters and all characters beyond ASCII are never written plainly. -/
def isControl (c : Char) : Bool := c.toNat < 32 || 126 < c.toNat

/-- The sets of characters that are encoded in the parts of an address. -/
def inFragmentSet (c : Char) : Bool :=
  isControl c || c = ' ' || c = '"' || c = '<' || c = '>' || c.toNat = 0x60

def inPathSet (c : Char) : Bool :=
  inFragmentSet c || c = '#' || c = '?' || c = '\x7b' || c = '\x7d'

def inUserSet (c : Char) : Bool :=
  inPathSet c || c = '/' || c = ':' || c = ';' || c = '=' || c = '@' || c = '[' || c = '\\' ||
    c = ']' || c = '^' || c = '|'

def inQuerySet (c : Char) : Bool :=
  isControl c || c = ' ' || c = '"' || c = '#' || c = '<' || c = '>'

def inSpecialQuerySet (c : Char) : Bool := inQuerySet c || c = '\''

/-- Encodes the characters of a set. -/
def encode (inSet : Char → Bool) (text : List Char) : List Char :=
  text.flatMap fun c => if inSet c then (utf8 c).flatMap encodeByte else [c]

/-- Replaces percent triples of ASCII characters; none when another byte is named. -/
def decodeAscii? : List Char → Option (List Char)
  | [] => some []
  | '%' :: a :: b :: rest =>
    match Text.hexValue? a, Text.hexValue? b with
    | some x, some y =>
      if x * 16 + y < 128 then (decodeAscii? rest).map (Char.ofNat (x * 16 + y) :: ·) else none
    | _, _ => (decodeAscii? (a :: b :: rest)).map ('%' :: ·)
  | c :: rest => (decodeAscii? rest).map (c :: ·)

/-- The encoding of form fields: letters, digits and four marks stand for themselves, a
    blank becomes a plus sign. -/
def formEncode (text : List Char) : List Char :=
  text.flatMap fun c =>
    if c.isAlphanum || c = '*' || c = '-' || c = '.' || c = '_' then [c]
    else if c = ' ' then ['+']
    else (utf8 c).flatMap encodeByte

end Url
end BraceTemplate
