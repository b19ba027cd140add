import Splice.Double
import Splice.Text.Digit

namespace Splice.Double

def ofScaled (negative : Bool) (n : Nat) (e : Int) : Double :=
  round negative (n * Nat.pow 2 e.toNat) (Nat.pow 2 (-e).toNat)

def neg : Double → Double
  | .nan => .nan
  | .infinite s => .infinite !s
  | .finite s m e => .finite (!s) m e

def add : Double → Double → Double
  | .nan, _ => .nan
  | _, .nan => .nan
  | .infinite s, .infinite t => if s = t then .infinite s else .nan
  | .infinite s, _ => .infinite s
  | _, .infinite t => .infinite t
  | .finite s m e, .finite t n f =>
    let least := min e f
    let sum := Text.signed s (m * Nat.pow 2 (e - least).toNat) +
      Text.signed t (n * Nat.pow 2 (f - least).toNat)
    ofScaled (sum < 0 || (sum = 0 && s && t)) sum.natAbs least

def mul : Double → Double → Double
  | .nan, _ => .nan
  | _, .nan => .nan
  | .infinite s, .infinite t => .infinite (s != t)
  | .infinite s, .finite t n _ => if n = 0 then .nan else .infinite (s != t)
  | .finite s m _, .infinite t => if m = 0 then .nan else .infinite (s != t)
  | .finite s m e, .finite t n f => ofScaled (s != t) (m * n) (e + f)

def truncate : Double → Int
  | .finite negative m q =>
    Text.signed negative (if 0 ≤ q then m * Nat.pow 2 q.toNat else m / Nat.pow 2 (-q).toNat)
  | _ => 0

end Splice.Double
