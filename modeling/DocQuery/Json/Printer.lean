import DocQuery.Decimal.Style
import DocQuery.Json.Basic

/-!
# JSON text

The compact text of a value: no blanks, members in their order. A text is quoted with the short escapes where JSON has one, other
controls by their code point, and everything else as it is.
-/

namespace DocQuery

namespace Json

/-- A digit of a four-place hexadecimal escape. -/
def hexDigit (n : Nat) : Char :=
  if n < 10 then Char.ofNat (0x30 + n) else Char.ofNat (0x61 + (n - 10))

/-- One character between the quotes. -/
def escapeChar (c : Char) : List Char :=
  if c = '"' then ['\\', '"']
  else if c = '\\' then ['\\', '\\']
  else if c.toNat = 0x8 then ['\\', 'b']
  else if c.toNat = 0xC then ['\\', 'f']
  else if c = '\n' then ['\\', 'n']
  else if c = '\r' then ['\\', 'r']
  else if c = '\t' then ['\\', 't']
  else if c.toNat < 0x20 then ['\\', 'u', '0', '0', hexDigit (c.toNat / 16), hexDigit (c.toNat % 16)]
  else [c]

/-- A text between double quotes. -/
def quote (cs : List Char) : List Char := '"' :: (cs.flatMap escapeChar ++ ['"'])

/-- The text of a number. -/
def numberChars : Number → List Char
  | .int i => Decimal.integerText i.val
  | .float x => Decimal.Style.document.write x

mutual

/-- The text of a value. -/
def chars : Json → List Char
  | .null => "null".toList
  | .bool true => "true".toList
  | .bool false => "false".toList
  | .num n => numberChars n
  | .str s => quote s.toList
  | .arr items => '[' :: (itemsChars items ++ [']'])
  | .obj members => '\x7b' :: (membersChars members ++ ['\x7d'])

/-- The items of an array, commas between them. -/
def itemsChars : List Json → List Char
  | [] => []
  | [j] => chars j
  | j :: rest => chars j ++ ',' :: itemsChars rest

/-- The members of an object, commas between them. -/
def membersChars : List (String × Json) → List Char
  | [] => []
  | [(k, j)] => quote k.toList ++ ':' :: chars j
  | (k, j) :: rest => quote k.toList ++ ':' :: (chars j ++ ',' :: membersChars rest)

end

/-- The text of a value. -/
def text (j : Json) : String := String.ofList j.chars

end Json

/-- The text of a number. -/
def Number.text (n : Number) : String := String.ofList (Json.numberChars n)

end DocQuery
