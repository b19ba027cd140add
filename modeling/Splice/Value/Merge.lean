import Splice.Value

namespace Splice

mutual
def Mapping.merge (base : Mapping) : List (Key × Value) → Mapping
  | [] => base
  | (k, v) :: es => Mapping.merge (Entries.insert base k (v.over (Entries.get? base k))) es

def Value.over : Value → Option Value → Value
  | .map es, some (.map m) => .map (Mapping.merge m es)
  | v, _ => v
end

/-- A layer that is absent or empty changes nothing. -/
def Mapping.mergeLayer (base : Mapping) : Value → Mapping
  | .map es => base.merge es
  | _ => base

@[simp] theorem Mapping.merge_nil (base : Mapping) : base.merge [] = base := by
  simp [Mapping.merge]

end Splice
