import Splice.FileTree

namespace Splice.FileTree

/-- Where one name leads: the place, the links that may still be followed, and the names that come
before the rest if the name is that of a link. -/
structure Step where
  place : Location
  links : Nat
  names : List String

def stepIn (entries : List (String × Node)) (links : Nat) (here : Location) (name : String) :
    Except Refusal Step :=
  if name = "." then .ok ⟨here, links, []⟩
  else if name = ".." then .ok ⟨here.dropLast, links, []⟩
  else if longestName < name.utf8ByteSize then .error .nameTooLong
  else match entries.lookup name with
    | none => .error .absent
    | some (.link target) => match links with
      | 0 => .error .tooManyLinks
      | links + 1 => .ok ⟨if fromRoot target then [] else here, links, targetNames target⟩
    | some _ => .ok ⟨here ++ [name], links, []⟩

def step (root : Node) (links : Nat) (here : Location) (name : String) : Except Refusal Step :=
  match root.at? here with
  | some (.directory entries) => stepIn entries links here name
  | _ => .error .notDirectory

variable {root : Node}

theorem walk_nil (links : Nat) (here : Location) : walk root links here [] = .ok here := by
  rw [walk]

theorem walk_cons (links : Nat) (here : Location) (name : String) (rest : List String) :
    walk root links here (name :: rest) =
      step root links here name >>= fun s => walk root s.links s.place (s.names ++ rest) := by
  rw [walk, step]
  cases hn : root.at? here with
  | none => rfl
  | some n =>
      cases n with
      | file bytes => rfl
      | link target => rfl
      | directory es =>
          dsimp only
          unfold stepIn
          split
          · rfl
          · split
            · rfl
            · split
              · rfl
              · cases hl : es.lookup name with
                | none => rfl
                | some m =>
                    cases m with
                    | link target => cases links <;> rfl
                    | file bytes => rfl
                    | directory es' => rfl

/-- Walk as `walk` does, if no more than the given number of steps come of it. -/
def walkFor (root : Node) (links : Nat) (here : Location) :
    Nat → List String → Option (Except Refusal Location)
  | _, [] => some (.ok here)
  | 0, _ :: _ => none
  | n + 1, name :: rest => match step root links here name with
    | .error e => some (.error e)
    | .ok s => walkFor root s.links s.place n (s.names ++ rest)

theorem walk_of_walkFor {n links : Nat} {here : Location} {names : List String}
    {outcome : Except Refusal Location} (h : walkFor root links here n names = some outcome) :
    walk root links here names = outcome := by
  fun_induction walkFor root links here n names with
  | case1 => exact (walk_nil _ _).trans (Option.some.inj h)
  | case2 => cases h
  | case3 links here n name rest e he =>
      rw [walk_cons, he]
      exact Option.some.inj h
  | case4 links here n name rest s hs ih =>
      rw [walk_cons, hs]
      exact ih h

inductive StepsIn (es : List (String × Node)) (here : Location) : Nat → String → Step → Prop
  | stay (links : Nat) : StepsIn es here links "." ⟨here, links, []⟩
  | up (links : Nat) : StepsIn es here links ".." ⟨here.dropLast, links, []⟩
  | down (links : Nat) (name : String) (n : Node) (hdot : name ≠ ".") (hdots : name ≠ "..")
      (hshort : name.utf8ByteSize ≤ longestName) (hlook : es.lookup name = some n)
      (hlink : ∀ target, n ≠ .link target) : StepsIn es here links name ⟨here ++ [name], links, []⟩
  | follow (links : Nat) (name target : String) (hdot : name ≠ ".") (hdots : name ≠ "..")
      (hshort : name.utf8ByteSize ≤ longestName) (hlook : es.lookup name = some (.link target)) :
      StepsIn es here (links + 1) name
        ⟨if fromRoot target then [] else here, links, targetNames target⟩

theorem stepIn_ok_iff {es : List (String × Node)} {links : Nat} {here : Location} {name : String}
    {s : Step} : stepIn es links here name = .ok s ↔ StepsIn es here links name s := by
  constructor
  · intro h
    unfold stepIn at h
    split at h
    · rename_i hdot; cases h; subst hdot; exact .stay links
    · rename_i hdot
      split at h
      · rename_i hdots; cases h; subst hdots; exact .up links
      · rename_i hdots
        split at h
        · cases h
        · rename_i hlong
          have hshort := Nat.le_of_not_lt hlong
          split at h
          · cases h
          · rename_i target hlook
            cases links with
            | zero => cases h
            | succ links => cases h; exact .follow links name target hdot hdots hshort hlook
          · rename_i n hlink hlook
            cases h
            exact .down links name n hdot hdots hshort hlook hlink
  · intro h
    cases h with
    | stay => rfl
    | up => rfl
    | down links name n hdot hdots hshort hlook hlink =>
        rw [stepIn, if_neg hdot, if_neg hdots, if_neg (Nat.not_lt.mpr hshort), hlook]
        cases n with
        | link target => exact absurd rfl (hlink target)
        | file bytes => rfl
        | directory es' => rfl
    | follow links name target hdot hdots hshort hlook =>
        rw [stepIn, if_neg hdot, if_neg hdots, if_neg (Nat.not_lt.mpr hshort), hlook]

theorem step_ok_iff {links : Nat} {here : Location} {name : String} {s : Step} :
    step root links here name = .ok s ↔
      ∃ es, root.at? here = some (.directory es) ∧ StepsIn es here links name s := by
  unfold step
  split
  · rename_i es hes
    rw [stepIn_ok_iff]
    constructor
    · intro h
      exact ⟨es, hes, h⟩
    · rintro ⟨es', hes', h⟩
      rw [hes] at hes'
      cases hes'
      exact h
  · rename_i hne
    constructor
    · intro h
      cases h
    · rintro ⟨es, hes, _⟩
      exact absurd hes (hne es)

theorem step_error {links : Nat} {here : Location} {name : String} {why : Refusal}
    (h : step root links here name = .error why) :
    why = .absent ∨ why = .notDirectory ∨ why = .nameTooLong ∨ why = .tooManyLinks := by
  unfold step stepIn at h
  repeat' split at h
  all_goals cases h
  all_goals simp

theorem step_tooLong {es : List (String × Node)} {here : Location}
    (hes : root.at? here = some (.directory es)) {name : String}
    (hlong : longestName < name.utf8ByteSize) (links : Nat) :
    step root links here name = .error .nameTooLong := by
  have hdot : name ≠ "." := by
    rintro rfl
    exact absurd hlong (by decide)
  have hdots : name ≠ ".." := by
    rintro rfl
    exact absurd hlong (by decide)
  rw [step, hes]
  dsimp only
  rw [stepIn, if_neg hdot, if_neg hdots, if_pos hlong]

theorem step_measure {links : Nat} {here : Location} {name : String} {s : Step}
    (h : step root links here name = .ok s) :
    s.links < links ∨ s.links = links ∧ s.names = [] := by
  obtain ⟨es, _, hs⟩ := step_ok_iff.mp h
  cases hs with
  | stay | up | down => exact .inr ⟨rfl, rfl⟩
  | follow => exact .inl (Nat.lt_succ_self _)

/-- Walk as `walk` does, and tell besides the place how many links may still be followed. -/
def walkLeft (root : Node) (links : Nat) (here : Location) :
    List String → Except Refusal (Location × Nat)
  | [] => .ok (here, links)
  | name :: rest =>
    match _h : step root links here name with
    | .error e => .error e
    | .ok s => walkLeft root s.links s.place (s.names ++ rest)
termination_by names => (links, names.length)
decreasing_by
  rcases step_measure _h with hlt | ⟨heq, hnames⟩
  · exact .left _ _ hlt
  · rw [heq, hnames]
    exact .right _ (Nat.lt_succ_self _)

theorem walkLeft_nil (links : Nat) (here : Location) :
    walkLeft root links here [] = .ok (here, links) := by
  rw [walkLeft]

theorem walkLeft_cons_ok {links : Nat} {here : Location} {name : String} {s : Step}
    (h : step root links here name = .ok s) (rest : List String) :
    walkLeft root links here (name :: rest) =
      walkLeft root s.links s.place (s.names ++ rest) := by
  rw [walkLeft]
  split
  · rename_i e he; rw [h] at he; cases he
  · rename_i s' hs; rw [h] at hs; cases hs; rfl

theorem walkLeft_cons_error {links : Nat} {here : Location} {name : String} {e : Refusal}
    (h : step root links here name = .error e) (rest : List String) :
    walkLeft root links here (name :: rest) = .error e := by
  rw [walkLeft]
  split
  · rename_i e' he; rw [h] at he; cases he; rfl
  · rename_i s' hs; rw [h] at hs; cases hs

theorem walk_eq (links : Nat) (here : Location) (names : List String) :
    walk root links here names = (walkLeft root links here names).map Prod.fst := by
  fun_induction walkLeft root links here names with
  | case1 => rw [walk_nil]; rfl
  | case2 links here name rest e he => rw [walk_cons, he]; rfl
  | case3 links here name rest s hs ih => rw [walk_cons, hs]; exact ih

theorem walkLeft_append (links : Nat) (here : Location) (names more : List String) :
    walkLeft root links here (names ++ more) =
      walkLeft root links here names >>= fun r => walkLeft root r.2 r.1 more := by
  fun_induction walkLeft root links here names with
  | case1 => rfl
  | case2 links here name rest e he => rw [List.cons_append, walkLeft_cons_error he]; rfl
  | case3 links here name rest s hs ih =>
      rw [List.cons_append, walkLeft_cons_ok hs, ← List.append_assoc, ih]

theorem walkLeft_le {links : Nat} {here : Location} {names : List String} {r : Location × Nat}
    (h : walkLeft root links here names = .ok r) : r.2 ≤ links := by
  fun_induction walkLeft root links here names with
  | case1 => cases h; exact Nat.le_refl _
  | case2 => cases h
  | case3 links here name rest s hs ih =>
      have hs := step_measure hs
      have hr := ih h
      omega

theorem walkLeft_error {links : Nat} {here : Location} {names : List String} {why : Refusal}
    (h : walkLeft root links here names = .error why) :
    why = .absent ∨ why = .notDirectory ∨ why = .nameTooLong ∨ why = .tooManyLinks := by
  fun_induction walkLeft root links here names with
  | case1 => cases h
  | case2 links here name rest e he => cases h; exact step_error he
  | case3 links here name rest s hs ih => exact ih h

theorem walkLeft_name {links : Nat} {here : Location} {name : String} {r : Location × Nat}
    (hdot : name ≠ ".") (hdots : name ≠ "..") (h : walkLeft root links here [name] = .ok r) :
    r = (here ++ [name], links) ∨ r.2 < links := by
  cases hstep : step root links here name with
  | error e => rw [walkLeft_cons_error hstep] at h; cases h
  | ok s =>
      rw [walkLeft_cons_ok hstep, List.append_nil] at h
      obtain ⟨es, _, hs⟩ := step_ok_iff.mp hstep
      cases hs with
      | stay => exact absurd rfl hdot
      | up => exact absurd rfl hdots
      | down => rw [walkLeft_nil] at h; exact .inl (Except.ok.inj h).symm
      | follow => exact .inr (Nat.lt_succ_of_le (walkLeft_le h))

theorem step_fewer {links fewer : Nat} (hle : fewer ≤ links) {here : Location} {name : String}
    {s : Step} (h : step root links here name = .ok s) :
    step root fewer here name = .error .tooManyLinks ∨
      ∃ left ≤ s.links, step root fewer here name = .ok { s with links := left } := by
  obtain ⟨es, hes, hs⟩ := step_ok_iff.mp h
  cases hs with
  | stay => exact .inr ⟨fewer, hle, step_ok_iff.mpr ⟨es, hes, .stay fewer⟩⟩
  | up => exact .inr ⟨fewer, hle, step_ok_iff.mpr ⟨es, hes, .up fewer⟩⟩
  | down links name n hdot hdots hshort hlook hlink =>
      refine .inr ⟨fewer, hle, step_ok_iff.mpr ⟨es, hes, ?_⟩⟩
      exact .down fewer name n hdot hdots hshort hlook hlink
  | follow links name target hdot hdots hshort hlook =>
      cases fewer with
      | zero =>
          left
          rw [step, hes]
          dsimp only
          rw [stepIn, if_neg hdot, if_neg hdots, if_neg (Nat.not_lt.mpr hshort), hlook]
      | succ fewer =>
          refine .inr ⟨fewer, Nat.le_of_succ_le_succ hle, step_ok_iff.mpr ⟨es, hes, ?_⟩⟩
          exact .follow fewer name target hdot hdots hshort hlook

/-- With fewer links to follow a walk leads to the same place, or nowhere. -/
theorem walkLeft_fewer {links fewer : Nat} (hle : fewer ≤ links) {here : Location}
    {names : List String} {r : Location × Nat} (h : walkLeft root links here names = .ok r) :
    walkLeft root fewer here names = .error .tooManyLinks ∨
      ∃ left ≤ r.2, walkLeft root fewer here names = .ok (r.1, left) := by
  fun_induction walkLeft root links here names generalizing fewer with
  | case1 => cases h; exact .inr ⟨fewer, hle, walkLeft_nil _ _⟩
  | case2 => cases h
  | case3 links here name rest s hs ih =>
      rcases step_fewer hle hs with he | ⟨left, hleft, hstep⟩
      · exact .inl (walkLeft_cons_error he rest)
      · rw [walkLeft_cons_ok hstep rest]
        exact ih hleft h

end Splice.FileTree
