import Splice.Text.Hex
import Splice.Text.Printable

namespace Splice.Text

def quoteFor (s : List Char) : Char :=
  if s.contains '\'' && !s.contains '"' then '"' else '\''

def escape (quote c : Char) : List Char :=
  if c = quote ∨ c = '\\' then ['\\', c]
  else if c = '\n' then ['\\', 'n']
  else if c = '\r' then ['\\', 'r']
  else if c = '\t' then ['\\', 't']
  else if isPrintable c then [c]
  else if c.toNat < 0x100 then '\\' :: 'x' :: hex 2 c.toNat
  else if c.toNat < 0x10000 then '\\' :: 'u' :: hex 4 c.toNat
  else '\\' :: 'U' :: hex 8 c.toNat

def quote (s : List Char) : List Char :=
  let q := quoteFor s
  q :: (s.flatMap (escape q) ++ [q])

def quoted (s : String) : String := String.ofList (quote s.toList)

end Splice.Text
