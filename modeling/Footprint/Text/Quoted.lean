import Footprint.Text.Unprintable

namespace Footprint.Text

def hexDigits (n : Nat) : List Char :=
  Nat.toDigits 16 n

/-- The visible form of one character. -/
def visible (c : Char) : List Char :=
  match c with
  | '\x00' => ['\\', '0']
  | '\t' => ['\\', 't']
  | '\r' => ['\\', 'r']
  | '\n' => ['\\', 'n']
  | '"' => ['\\', '"']
  | '\\' => ['\\', '\\']
  | c =>
    if isUnprintable c then ['\\', 'u', '\x7b'] ++ hexDigits c.toNat ++ ['\x7d'] else [c]

/-- Text in quotes inside a message, every character of it visible. -/
def quoted (s : String) : String :=
  String.ofList ('"' :: s.toList.flatMap visible ++ ['"'])

end Footprint.Text
