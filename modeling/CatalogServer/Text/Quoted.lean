import CatalogServer.Text.Numeral
import CatalogServer.Text.Unprintable

/-!
# Quoted texts

Texts are quoted in notices so that every character of them can be seen:
between double quotes, with escapes for quotes, backslashes and whatever is
not shown by itself.
-/

namespace CatalogServer.Text

def quoteChar (c : Char) : List Char :=
  if c == '\x00' then ['\\', '0']
  else if c == '\t' then ['\\', 't']
  else if c == '\r' then ['\\', 'r']
  else if c == '\n' then ['\\', 'n']
  else if c == '\\' then ['\\', '\\']
  else if c == '"' then ['\\', '"']
  else if isUnprintable c then '\\' :: 'u' :: '\x7b' :: hexDigits c.toNat ++ ['\x7d']
  else [c]

def quoted (text : String) : String :=
  String.ofList ('"' :: text.toList.flatMap quoteChar ++ ['"'])

end CatalogServer.Text
