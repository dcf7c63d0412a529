import TileTracer.Text.Printable

namespace TileTracer.Text

def hexDigits (n : Nat) : List Char := Nat.toDigits 16 n

def codeEscape (c : Char) : List Char :=
  ['\\', 'u', Char.ofNat 0x7B] ++ hexDigits c.toNat ++ [Char.ofNat 0x7D]

def escape (c : Char) : List Char :=
  if c = '"' then ['\\', '"']
  else if c = '\\' then ['\\', '\\']
  else if c = '\n' then ['\\', 'n']
  else if c = '\r' then ['\\', 'r']
  else if c = '\t' then ['\\', 't']
  else if c = '\x00' then ['\\', '0']
  else if isPrintable c then [c]
  else codeEscape c

def quoted (s : String) : String :=
  .ofList ('"' :: s.toList.flatMap escape ++ ['"'])

end TileTracer.Text
