import TypedLisp.Text.Combining
import TypedLisp.Text.Printable

/-!
# Quoted texts

A text is shown between double quotes. Six characters have a short escape; a
combining or unprintable character is written by its code point; every other
character stands for itself.
-/

set_option autoImplicit false

namespace TypedLisp.Text

/-- A code point in lower-case hexadecimal between braces, without leading
zeros. -/
def codePointEscape (character : Char) : List Char :=
  '\\' :: 'u' :: '\x7b' :: Nat.toDigits 16 character.toNat ++ ['\x7d']

/-- How one character is written inside double quotes. -/
def quoteChar (character : Char) : List Char :=
  if character = '\x00' then ['\\', '0']
  else if character = '\t' then ['\\', 't']
  else if character = '\r' then ['\\', 'r']
  else if character = '\n' then ['\\', 'n']
  else if character = '"' then ['\\', '"']
  else if character = '\\' then ['\\', '\\']
  else if isCombining character || !isPrintable character then codePointEscape character
  else [character]

/-- A text between double quotes, with its escapes. -/
def quoted (text : String) : String :=
  String.ofList ('"' :: text.toList.flatMap quoteChar ++ ['"'])

end TypedLisp.Text
