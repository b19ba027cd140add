import Splice.Include

namespace Splice.Include

structure Context where
  /-- The file that is being parsed. -/
  parent : Option Path
  units : List SourceUnit
  deriving DecidableEq, Repr

namespace Context

def ofParent (parent : Option Path) : Context := ⟨parent, []⟩

def add (c : Context) (us : List SourceUnit) : Context := { c with units := c.units ++ us }

def parse (c : Context) (t : FileTree) (fetch : Remote.Fetcher) (words : Words) :
    Context × Except Fault Unit :=
  let found := Include.parse t fetch c.parent words
  (c.add found.units, found.result)

end Context

end Splice.Include
