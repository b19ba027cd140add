import Splice.Double.Arithmetic
import Splice.Value

namespace Splice.Log

def wholePart : Value → Int
  | .int i => i
  | .bool b => if b then 1 else 0
  | .float d => d.truncate
  | _ => 0

def fill : List Char → List Value → List Char
  | '%' :: '%' :: cs, vs => '%' :: fill cs vs
  | '%' :: 's' :: cs, v :: vs => v.plain.toList ++ fill cs vs
  | '%' :: 'r' :: cs, v :: vs => v.shown.toList ++ fill cs vs
  | '%' :: 'd' :: cs, v :: vs => (toString (wholePart v)).toList ++ fill cs vs
  | c :: cs, vs => c :: fill cs vs
  | [], _ => []

def message (pattern : String) (values : List Value) : String :=
  if values = [] then pattern else String.ofList (fill pattern.toList values)

end Splice.Log
