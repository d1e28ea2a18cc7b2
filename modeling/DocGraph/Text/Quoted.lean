import DocGraph.Text.Unprintable

/-!
Text between double quotes, for messages. Quotes and backslashes are escaped, and a character that
does not show is given by its number.
-/
namespace DocGraph.Text

def codeEscape (c : Char) : List Char :=
  '\\' :: 'u' :: '\x7b' :: (Nat.toDigits 16 c.toNat ++ ['\x7d'])

def quotedChar (c : Char) : List Char :=
  if c = '"' then ['\\', '"']
  else if c = '\\' then ['\\', '\\']
  else if c = '\n' then ['\\', 'n']
  else if c = '\r' then ['\\', 'r']
  else if c = '\t' then ['\\', 't']
  else if c = '\x00' then ['\\', '0']
  else if isUnprintable c then codeEscape c
  else [c]

def quoted (text : String) : String := String.ofList ('"' :: (text.toList.flatMap quotedChar ++ ['"']))

end DocGraph.Text
