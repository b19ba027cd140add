import Splice.Live
import Splice.Proofs.Outcome.Sequence

namespace Splice.Live

open Outcome

variable {α β γ : Type}

theorem bind_apply (x : Live α) (f : α → Live β) (made : List Log.Record) :
    (x >>= f) made = x made >>= fun a => f a (made ++ (x made).records) := rfl

instance : LawfulMonad Live := LawfulMonad.mk' Live
  (by
    intro α x
    funext made
    exact bind_pure (x made))
  (by
    intro α β a f
    funext made
    show f a (made ++ []) = f a made
    rw [List.append_nil])
  (by
    intro α β γ x f g
    funext made
    simp only [bind_apply, bind_assoc]
    refine bind_congr_ok fun a ha => ?_
    rw [records_bind ha, List.append_assoc])

/-- A step without a record leaves everything as it is for the next. -/
theorem bind_quiet {x : Live α} {made : List Log.Record} (h : (x made).records = [])
    (f : α → Live β) : (x >>= f) made = x made >>= fun a => f a made := by
  rw [bind_apply, h, List.append_nil]

theorem bind_return (x : Live α) (f : α → β) (made : List Log.Record) :
    (x >>= fun a => pure (f a)) made = ⟨(x made).trace, (x made).result.map f⟩ :=
  Outcome.bind_return (x made) f

/-- A look shows the files as they are, and leaves everything as it is. -/
theorem look_bind (files : Files) (f : FileTree → Live α) (made : List Log.Record) :
    (files.look >>= f) made = f (files made) made := by
  rw [bind_quiet rfl]
  exact pure_bind (files made) fun t => f t made

theorem lift_bind_ok {r : Except Fault α} {a : α} (h : r = .ok a) (f : α → Live β) :
    (liftM r >>= f) = f a := by
  subst h
  exact pure_bind a f

theorem registered_apply (x : Live Unit) (made : List Log.Record) :
    x.registered made = (x made).registered := rfl

end Splice.Live
