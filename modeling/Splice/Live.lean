import Splice.FileTree
import Splice.Outcome

namespace Splice

/-- What comes of a computation once the given records have been made: where records go to a file,
it may read them. -/
def Live (α : Type) := List Log.Record → Outcome α

namespace Live

variable {α β : Type}

protected def pure (a : α) : Live α := fun _ => pure a

protected def bind (x : Live α) (f : α → Live β) : Live β := fun made =>
  x made >>= fun a => f a (made ++ (x made).records)

instance : Monad Live where
  pure := Live.pure
  bind := Live.bind

instance : MonadLift Outcome Live := ⟨fun x _ => x⟩

def registered (x : Live Unit) : Live (List SourceUnit) := fun made => (x made).registered

end Live

/-- The files that are there once the given records have been made. -/
abbrev Files := List Log.Record → FileTree

def Files.look (files : Files) : Live FileTree := fun made => pure (files made)

end Splice
