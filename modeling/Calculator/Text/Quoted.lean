import Calculator.Text.Invisible

/-!
# Quoted characters and texts

Messages quote the characters and names they speak of. Inside the quotes a few controls
have a short escape, a character that does not show is spelled by its number, and the
quote itself is escaped where it would end the quotation.
-/

namespace Calculator.Text

/-- A character does not show by itself, so that a quotation has to spell it. -/
def isInvisible (c : Char) : Bool :=
  extendingMark.contains c || otherOrSeparator.contains c || defaultIgnorable.contains c

/-- A character spelled by its code point, in lower-case hexadecimal without leading zeros. -/
def byNumber (c : Char) : List Char :=
  ['\\', 'u', '\x7b'] ++ Nat.toDigits 16 c.toNat ++ ['\x7d']

/-- A character as it stands inside a quotation that `quote` opens and closes. -/
def escaped (quote c : Char) : List Char :=
  if c = '\x00' then ['\\', '0']
  else if c = '\t' then ['\\', 't']
  else if c = '\r' then ['\\', 'r']
  else if c = '\n' then ['\\', 'n']
  else if c = '\\' then ['\\', '\\']
  else if c = quote then ['\\', c]
  else if isInvisible c then byNumber c
  else [c]

/-- A character in single quotes. -/
def quotedChar (c : Char) : String :=
  String.ofList ('\'' :: escaped '\'' c ++ ['\''])

/-- A text in double quotes. -/
def quotedString (text : String) : String :=
  String.ofList ('"' :: text.toList.flatMap (escaped '"') ++ ['"'])

end Calculator.Text
