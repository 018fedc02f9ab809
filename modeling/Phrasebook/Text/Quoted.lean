/-! # Quoted text

A text between double quotes with its control characters escaped, as it is shown
in descriptions of values.
-/

namespace Phrasebook.Text

/-- The escaped form of one ASCII character: the quote, the backslash, tab and the
line ends have short escapes, other control characters are written by their code
point in hexadecimal. -/
def quotedChar (c : Char) : List Char :=
  match c with
  | '"' => ['\\', '"']
  | '\\' => ['\\', '\\']
  | '\t' => ['\\', 't']
  | '\n' => ['\\', 'n']
  | '\r' => ['\\', 'r']
  | '\x00' => ['\\', '0']
  | c =>
    if c.toNat < 0x20 || c.toNat == 0x7F then
      ['\\', 'u', '\x7b'] ++ Nat.toDigits 16 c.toNat ++ ['\x7d']
    else [c]

/-- An ASCII text between double quotes. -/
def quoted (text : String) : String :=
  String.ofList ('"' :: text.toList.flatMap quotedChar ++ ['"'])

end Phrasebook.Text
