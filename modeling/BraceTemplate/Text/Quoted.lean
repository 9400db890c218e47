import BraceTemplate.Text.Class

/- Texts in quotes, with escapes for all that has no visible form of its own. -/
namespace BraceTemplate
namespace Text

def hexDigits (n : Nat) : List Char := Nat.toDigits 16 n

/-- A character inside quotes. -/
def quotedChar (c : Char) : List Char :=
  if c = '\x00' then ['\\', '0']
  else if c = '\t' then ['\\', 't']
  else if c = '\r' then ['\\', 'r']
  else if c = '\n' then ['\\', 'n']
  else if c = '\\' then ['\\', '\\']
  else if c = '"' then ['\\', '"']
  else if isGraphemeExtend c || !isPrintable c then
    ['\\', 'u', '\x7b'] ++ hexDigits c.toNat ++ ['\x7d']
  else [c]

def quoted (text : List Char) : List Char := '"' :: (text.flatMap quotedChar ++ ['"'])

end Text
end BraceTemplate
