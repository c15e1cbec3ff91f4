import InterceptingProxy.Text

set_option autoImplicit false

/-! # Quoted text

A text between double quotes, for people to read: quotes, backslashes and control characters are
written with a backslash. -/

namespace InterceptingProxy

/-- The lower-case hexadecimal digits of a number, without leading zeros. -/
def hexDigits (n : Nat) : Text := Nat.toDigits 16 n

/-- A character inside quotes. -/
def quotedChar (c : Char) : Text :=
  match c with
  | '"' => ['\\', '"']
  | '\\' => ['\\', '\\']
  | '\n' => ['\\', 'n']
  | '\r' => ['\\', 'r']
  | '\t' => ['\\', 't']
  | '\x00' => ['\\', '0']
  | c =>
    if c.toNat < 0x20 ∨ 0x7F ≤ c.toNat ∧ c.toNat < 0xA0 then
      "\\u\x7b".toList ++ hexDigits c.toNat ++ "\x7d".toList
    else [c]

/-- The text between quotes. -/
def Text.quoted (t : Text) : Text := '"' :: t.flatMap quotedChar ++ ['"']

end InterceptingProxy
