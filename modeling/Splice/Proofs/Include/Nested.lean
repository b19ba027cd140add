import Splice.Include
import Splice.Proofs.Path.Grammar

namespace Splice.Include

open Splice.Path

variable {parent : Path} {source : String}

theorem target_eq_append (h : (ofText source).isAbsolute = false) :
    target parent source = parent.parent.append (ofText source) := by
  rw [append, if_neg (by rw [h]; exact Bool.false_ne_true)]
  rfl

theorem target_eq_joined (parent : Path) (source : String) :
    target parent source = parent.parent.joined (ofText source).parts :=
  (joined_parts parent.parent (plain_ofText source)).symm

theorem target_slashes (parent : Path) (n : Nat) (source : String) :
    target parent (String.ofList (List.replicate n '/') ++ source) = target parent source := by
  rw [target, target, nest, nest, parts_ofText_slashes]

theorem plain_target (h : parent.Plain) (source : String) : (target parent source).Plain := by
  intro s hs
  rcases List.mem_append.mp hs with hs | hs
  · exact h s (List.dropLast_subset _ hs)
  · exact plain_ofText source s hs

/-- A target has the names of the including file's directory first, and then its own: one that starts
from a root is joined name by name, and any other taken from the directory as it is. So slashes in
front of it do not matter, and its path as it is written reads back. -/
theorem target_nested (parent source : String) :
    ∃ p q, Reads parent p ∧ Reads source q ∧
      target (.ofText parent) source = ⟨p.anchor, p.parts.dropLast ++ q.parts⟩ ∧
      target (.ofText parent) source =
        (if q.isAbsolute then p.parent.joined q.parts else p.parent.append q) ∧
      (∀ n, target (.ofText parent) (String.ofList (List.replicate n '/') ++ source) =
        target (.ofText parent) source) ∧
      .ofText (target (.ofText parent) source).text = target (.ofText parent) source := by
  refine ⟨ofText parent, ofText source, ofText_eq_iff.mp rfl, ofText_eq_iff.mp rfl, rfl, ?_,
    fun n => target_slashes _ n source, ofText_text (plain_target (plain_ofText parent) source)⟩
  split
  · exact target_eq_joined _ source
  · rename_i hrelative
    exact target_eq_append ((Bool.not_eq_true _).mp hrelative)

example : target (.ofText "//d/./../m") "///./a//../b/" = ⟨.doubleRoot, ["d", "..", "a", "..", "b"]⟩ := by
  decide

end Splice.Include
