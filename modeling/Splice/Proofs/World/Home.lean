import Splice.Proofs.Outcome.Results
import Splice.World

namespace Splice.World

open Results

variable {w : World} {e : Fault}

/-- The path starts in a home directory that is not known. -/
def Homeless (w : World) (p : Path) : Prop :=
  ∃ name rest user, p = ⟨.none, name :: rest⟩ ∧ name.toList = '~' :: user ∧
    ∀ home, w.home? (String.ofList user) = some home → homePath home = .error .noHome

theorem homePath_error {home : String} (h : homePath home = .error e) : e = .noHome := by
  unfold homePath at h
  dsimp only at h
  split at h
  · exact (Except.error.inj h).symm
  · cases h

theorem expandHome_tilde {name : String} {user : List Char} (rest : List String)
    (hname : name.toList = '~' :: user) : w.expandHome ⟨.none, name :: rest⟩ =
      match w.home? (String.ofList user) with
      | some home => do return (← homePath home).nest ⟨.none, rest⟩
      | none => .error .noHome := by
  cases hhome : w.home? (String.ofList user) <;> simp only [expandHome, hname, hhome]

theorem expandHome_tilde_error_iff {name : String} {user : List Char} {rest : List String}
    (hname : name.toList = '~' :: user) : w.expandHome ⟨.none, name :: rest⟩ = .error e ↔
      e = .noHome ∧
        ∀ home, w.home? (String.ofList user) = some home → homePath home = .error .noHome := by
  rw [expandHome_tilde rest hname]
  cases hhome : w.home? (String.ofList user) with
  | none =>
      constructor
      · intro h
        exact ⟨(Except.error.inj h).symm, nofun⟩
      · rintro ⟨rfl, -⟩
        rfl
  | some home =>
      dsimp only
      rw [bind_error_iff]
      constructor
      · rintro (h | ⟨_, -, ⟨⟩⟩)
        obtain rfl := homePath_error h
        refine ⟨rfl, ?_⟩
        rintro _ ⟨⟩
        exact h
      · rintro ⟨rfl, h⟩
        exact .inl (h home rfl)

theorem expandHome_plain {name : String} (rest : List String)
    (hname : ∀ user, name.toList ≠ '~' :: user) :
    w.expandHome ⟨.none, name :: rest⟩ = .ok ⟨.none, name :: rest⟩ := by
  simp only [expandHome]

theorem expandHome_error_iff {p : Path} :
    w.expandHome p = .error e ↔ e = .noHome ∧ Homeless w p := by
  obtain ⟨anchor, parts⟩ := p
  match anchor, parts with
  | .none, name :: rest =>
      by_cases hname : ∃ user, name.toList = '~' :: user
      · obtain ⟨user, hname⟩ := hname
        rw [expandHome_tilde_error_iff hname]
        refine and_congr_right fun _ => ⟨fun h => ⟨_, _, user, rfl, hname, h⟩, ?_⟩
        rintro ⟨_, _, user', hp, hname', h⟩
        cases hp
        cases hname.symm.trans hname'
        exact h
      · rw [expandHome_plain rest fun user h => hname ⟨user, h⟩]
        constructor
        · rintro ⟨⟩
        · rintro ⟨-, _, _, user, hp, hname', -⟩
          cases hp
          exact absurd ⟨user, hname'⟩ hname
  | .none, [] | .root, _ | .doubleRoot, _ =>
      constructor
      · rintro ⟨⟩
      · rintro ⟨-, _, _, _, hp, -⟩
        cases hp

end Splice.World
