import Splice.Proofs.Config.Override

namespace Splice.Override

variable {m n m' n' : Mapping} {segment key : String} {whole path before rest after : List String}
  {v w x : Value} {old : Option Value} {e : Fault}

section

variable {α : Type} {m : Entries α}

/-! ### Keys before and after -/

/-- The last of the keys that differ from the segment in case only. -/
def lastAlike? (segment : String) (keys : List Key) : Option String :=
  keys.reverse.findSome? (alike? segment)

theorem resolve_eq_lastAlike? (m : Entries α) (segment : String) :
    resolve m segment = (lastAlike? segment (m.map (·.1))).getD segment := resolve_eq m segment

theorem lastAlike?_append (segment : String) (keys keys' : List Key) :
    lastAlike? segment (keys ++ keys') =
      (lastAlike? segment keys').or (lastAlike? segment keys) := by
  rw [lastAlike?, List.reverse_append, List.findSome?_append]
  rfl

theorem lastAlike?_singleton (segment : String) (key : Key) :
    lastAlike? segment [key] = alike? segment key := by
  rw [lastAlike?, List.reverse_singleton, List.findSome?_singleton]

theorem resolve_congr {β : Type} {m' : Entries β} (h : m.map (·.1) = m'.map (·.1)) (segment : String) :
    resolve m segment = resolve m' segment := by
  rw [resolve_eq, resolve_eq, h]

theorem not_answers_of_absent (h : m.get? (.text (resolve m segment)) = none) {k : String}
    (hk : .text k ∈ m.map (·.1)) : ¬ Answers segment k := by
  have habsent : .text (resolve m segment) ∉ m.map (·.1) := by
    rw [← Entries.isSome_get?_text_iff, h]
    simp
  rintro (rfl | hlower)
  · rcases resolve_eq_or_mem m k with hself | ⟨-, hpresent⟩
    · exact habsent (hself.symm ▸ hk)
    · exact habsent (Entries.isSome_get?_text_iff.mp hpresent)
  · have hkeys : m.map (·.1) = [] ++ m.map (·.1) := rfl
    exact habsent (resolve_mem_later hkeys hk hlower)

theorem resolve_eq_of_absent (h : m.get? (.text (resolve m segment)) = none) :
    resolve m segment = segment := by
  rcases resolve_eq_or_mem m segment with hself | ⟨-, hpresent⟩
  · exact hself
  · rw [h] at hpresent
    cases hpresent

theorem keys_insert_present (h : (m.get? (.text key)).isSome = true) (v : α) :
    (m.insert (.text key) v).map (·.1) = m.map (·.1) := by
  rw [Entries.keys_insert, if_pos (Entries.isSome_get?_iff.mp h)]

theorem keys_insert_absent (h : m.get? (.text key) = none) (v : α) :
    (m.insert (.text key) v).map (·.1) = m.map (·.1) ++ [.text key] := by
  rw [Entries.keys_insert, if_neg (Entries.get?_eq_none_iff.mp h)]

theorem resolve_insert (m : Entries α) (segment : String) (v : α) :
    resolve (m.insert (.text (resolve m segment)) v) segment = resolve m segment := by
  cases h : m.get? (.text (resolve m segment)) with
  | some u => exact resolve_congr (keys_insert_present (by rw [h]; rfl) v) segment
  | none =>
      have hself := resolve_eq_of_absent h
      rw [resolve_eq_lastAlike?, keys_insert_absent h, lastAlike?_append, lastAlike?_singleton, hself]
      cases halike : alike? segment (.text segment) with
      | some k =>
          obtain ⟨hk, -⟩ := alike?_eq_some_iff.mp halike
          rw [Option.some_or, Option.getD_some, Key.text.inj hk]
      | none => rw [Option.none_or, ← resolve_eq_lastAlike?, hself]

end

/-! ### One segment -/

/-- The mapping in which a path goes on behind an old value: an empty one where there is nothing. -/
def opened : Option Value → Option Mapping
  | none | some .null => some []
  | some (.map n) => some n
  | some _ => none

theorem opened_eq_none_iff :
    opened old = none ↔ ∃ u, old = some u ∧ u ≠ .null ∧ u.isMap = false := by
  cases old with
  | none => simp [opened]
  | some u => cases u <;> simp [opened, Value.isMap]

theorem opened_eq_some_iff : opened old = some n ↔
    old = some (.map n) ∨ n = [] ∧ (old = none ∨ old = some .null) := by
  cases old with
  | none => simp [opened, eq_comm]
  | some u => cases u <;> simp [opened, eq_comm]

/-- What comes in the place of an old value: the value itself at the end of the path, and otherwise a
mapping in which the rest of the path has been given the value. -/
def renew (whole : List String) (v : Value) (key : String) (old : Option Value) :
    List String → Except Fault Value
  | [] => .ok v
  | rest => match opened old with
    | none => .error (.notNested whole key)
    | some n => (assign whole v n rest).map .map

theorem renew_closed (h : opened old = none) (hrest : rest ≠ []) :
    renew whole v key old rest = .error (.notNested whole key) := by
  cases rest with
  | nil => exact absurd rfl hrest
  | cons next rest => rw [renew, h]; simp

theorem renew_opened (h : opened old = some n) (hrest : rest ≠ []) :
    renew whole v key old rest = (assign whole v n rest).map .map := by
  cases rest with
  | nil => exact absurd rfl hrest
  | cons next rest => rw [renew, h]; simp

theorem assign_cons (whole : List String) (v : Value) (m : Mapping) (segment : String)
    (rest : List String) : assign whole v m (segment :: rest) =
      (renew whole v (resolve m segment) (m.get? (.text (resolve m segment))) rest).map
        (m.insert (.text (resolve m segment))) := by
  cases rest with
  | nil => rfl
  | cons next rest =>
      rw [assign]
      generalize m.get? (.text (resolve m segment)) = old
      cases hopened : opened old with
      | none =>
          rw [renew_closed hopened (by simp)]
          obtain ⟨u, rfl, hnull, hmap⟩ := opened_eq_none_iff.mp hopened
          cases u with
          | null => exact absurd rfl hnull
          | map n => cases hmap
          | _ => rfl
      | some n =>
          rw [renew_opened hopened (by simp)]
          rcases opened_eq_some_iff.mp hopened with rfl | ⟨rfl, rfl | rfl⟩
          all_goals
            simp only [Option.getD_some, Option.getD_none]
            cases assign whole v _ (next :: rest) <;> rfl

theorem assign_opened (h : opened (m.get? (.text (resolve m segment))) = some n)
    (hrest : rest ≠ []) : assign whole v m (segment :: rest) =
      (assign whole v n rest).map fun n' => m.insert (.text (resolve m segment)) (.map n') := by
  rw [assign_cons, renew_opened h hrest]
  cases assign whole v n rest <;> rfl

theorem assign_closed (h : opened (m.get? (.text (resolve m segment))) = none)
    (hrest : rest ≠ []) : assign whole v m (segment :: rest) = .error (.notNested whole (resolve m segment)) := by
  rw [assign_cons, renew_closed h hrest]
  rfl

/-! ### Where a path cannot go on -/

/-- The value that a path of segments leads to. -/
def follow? : Value → List String → Option Value
  | v, [] => some v
  | .map m, segment :: rest =>
    (Entries.get? m (.text (resolve m segment))).bind (follow? · rest)
  | _, _ :: _ => none

@[simp] theorem follow?_nil (v : Value) : follow? v [] = some v := by
  cases v <;> rfl

@[simp] theorem follow?_map_cons (m : Mapping) (segment : String) (rest : List String) :
    follow? (.map m) (segment :: rest) =
      (m.get? (.text (resolve m segment))).bind (follow? · rest) := rfl

theorem isMap_of_follow? (h : follow? v path = some (.map n)) : v.isMap = true := by
  cases v with
  | map m => rfl
  | _ => cases path <;> cases h

/-- At a proper prefix of the path, under `key`, there is a value that is neither null nor a
mapping. -/
def Obstructs (m : Mapping) (path : List String) (key : String) : Prop :=
  ∃ before segment after n u, path = before ++ segment :: after ∧ after ≠ [] ∧
    follow? (.map m) before = some (.map n) ∧ resolve n segment = key ∧
    follow? (.map m) (before ++ [segment]) = some u ∧ u ≠ .null ∧ u.isMap = false

theorem not_obstructs_nil (m : Mapping) (key : String) : ¬ Obstructs m [] key := by
  rintro ⟨before, segment, after, n, u, hpath, -⟩
  simp at hpath

theorem not_obstructs_empty (path : List String) (key : String) : ¬ Obstructs [] path key := by
  rintro ⟨before, segment, after, n, u, -, -, -, -, hu, -⟩
  cases before <;> cases hu

theorem obstructs_cons_iff : Obstructs m (segment :: rest) key ↔ rest ≠ [] ∧
    match opened (m.get? (.text (resolve m segment))) with
    | none => key = resolve m segment
    | some n => Obstructs n rest key := by
  constructor
  · rintro ⟨before, s, after, n, u, hpath, hafter, hn, rfl, hu, hnull, hmap⟩
    cases before with
    | nil =>
        obtain ⟨rfl, rfl⟩ := List.cons.inj hpath
        cases hn
        rw [List.nil_append, follow?_map_cons] at hu
        obtain ⟨w, hw, hu⟩ := Option.bind_eq_some_iff.mp hu
        rw [follow?_nil] at hu
        cases hu
        rw [opened_eq_none_iff.mpr ⟨u, hw, hnull, hmap⟩]
        exact ⟨hafter, rfl⟩
    | cons s' before =>
        obtain ⟨rfl, rfl⟩ := List.cons.inj hpath
        rw [follow?_map_cons] at hn
        obtain ⟨w, hw, hn⟩ := Option.bind_eq_some_iff.mp hn
        obtain ⟨n', rfl⟩ := Value.isMap_iff.mp (isMap_of_follow? hn)
        rw [List.cons_append, follow?_map_cons, hw, Option.bind_some] at hu
        rw [hw]
        exact ⟨by simp, before, s, after, n, u, rfl, hafter, hn, rfl, hu, hnull, hmap⟩
  · rintro ⟨hrest, h⟩
    cases hopened : opened (m.get? (.text (resolve m segment))) with
    | none =>
        rw [hopened] at h
        obtain ⟨u, hu, hnull, hmap⟩ := opened_eq_none_iff.mp hopened
        refine ⟨[], segment, rest, m, u, rfl, hrest, follow?_nil _, h.symm, ?_, hnull, hmap⟩
        rw [List.nil_append, follow?_map_cons, hu, Option.bind_some, follow?_nil]
    | some n =>
        rw [hopened] at h
        rcases opened_eq_some_iff.mp hopened with hold | ⟨rfl, -⟩
        · obtain ⟨before, s, after, n', u, rfl, hafter, hn, hkey, hu, hnull, hmap⟩ := h
          refine ⟨segment :: before, s, after, n', u, rfl, hafter, ?_, hkey, ?_, hnull, hmap⟩
          · rw [follow?_map_cons, hold, Option.bind_some, hn]
          · rw [List.cons_append, follow?_map_cons, hold, Option.bind_some, hu]
        · exact absurd h (not_obstructs_empty rest key)

theorem assign_error_iff : assign whole v m path = .error e ↔
    ∃ key, Obstructs m path key ∧ e = .notNested whole key := by
  induction path generalizing m with
  | nil => simp [assign, not_obstructs_nil]
  | cons segment rest ih =>
      simp only [assign_cons, obstructs_cons_iff, Results.map_error_iff]
      cases rest with
      | nil => simp [renew]
      | cons next rest =>
          cases hopened : opened (m.get? (.text (resolve m segment))) with
          | none =>
              rw [renew_closed hopened (by simp)]
              simp [eq_comm]
          | some n =>
              rw [renew_opened hopened (by simp), Results.map_error_iff, ih]
              simp

/-! ### In place -/

theorem writeFrom_closed (h : opened (m.get? (.text (resolve m segment))) = none)
    (hrest : rest ≠ []) : writeFrom whole v m (segment :: rest) =
      (m, .error (.notNested whole (resolve m segment))) := by
  obtain ⟨u, hu, hnull, hmap⟩ := opened_eq_none_iff.mp h
  cases rest with
  | nil => exact absurd rfl hrest
  | cons next rest =>
      rw [writeFrom, hu]
      cases u with
      | null => exact absurd rfl hnull
      | map n => cases hmap
      | _ => rfl

theorem writeFrom_opened (h : opened (m.get? (.text (resolve m segment))) = some n)
    (hrest : rest ≠ []) : writeFrom whole v m (segment :: rest) =
      (m.insert (.text (resolve m segment)) (.map (writeFrom whole v n rest).1),
        (writeFrom whole v n rest).2) := by
  cases rest with
  | nil => exact absurd rfl hrest
  | cons next rest =>
      rw [writeFrom]
      -- A mapping that has to be made is put in its place empty, and again with what it holds.
      rcases opened_eq_some_iff.mp h with hold | ⟨rfl, hold | hold⟩
      · simp only [hold, Option.getD_some]
      · simp only [hold, Option.getD_none, Entries.insert_insert]
      · simp only [hold, Option.getD_some, Entries.insert_insert]

theorem writeFrom_eq (whole : List String) (v : Value) (m : Mapping) (path : List String) :
    writeFrom whole v m path = match assign whole v m path with
      | .ok m' => (m', .ok ())
      | .error e => (m, .error e) := by
  induction path generalizing m with
  | nil => rfl
  | cons segment rest ih =>
      cases rest with
      | nil => rfl
      | cons next rest =>
          rw [assign_cons]
          cases hopened : opened (m.get? (.text (resolve m segment))) with
          | none =>
              rw [writeFrom_closed hopened (by simp), renew_closed hopened (by simp)]
              rfl
          | some n =>
              rw [writeFrom_opened hopened (by simp), renew_opened hopened (by simp), ih]
              cases hassign : assign whole v n (next :: rest) with
              | ok n' => rfl
              | error e =>
                  -- Nothing is in the way below a mapping that has just been made.
                  obtain ⟨key, hkey, -⟩ := assign_error_iff.mp hassign
                  rcases opened_eq_some_iff.mp hopened with hold | ⟨rfl, -⟩
                  · exact congrArg (·, Except.error e) (Entries.insert_of_get? hold)
                  · exact absurd hkey (not_obstructs_empty _ key)

theorem write_eq_iff : write m path v = (m', .ok ()) ↔ set m path v = .ok m' := by
  rw [write, writeFrom_eq, set]
  cases assign path v m path <;> simp

/-- Writing fails if and only if a value is in the way, and then nothing has changed at any depth.
Otherwise it leaves what `set` gives. -/
theorem write_intact (m : Mapping) (path : List String) (v : Value) :
    (∀ e, (write m path v).2 = .error e ↔
      ∃ key, Obstructs m path key ∧ e = .notNested path key) ∧
    (∀ e, (write m path v).2 = .error e → e.kind = .config ∧ (write m path v).1 = m) ∧
    ∀ m', write m path v = (m', .ok ()) ↔ set m path v = .ok m' := by
  refine ⟨fun e => ?_, fun e h => ?_, fun m' => write_eq_iff⟩
  · rw [← assign_error_iff, write, writeFrom_eq]
    cases assign path v m path <;> simp
  · rw [write, writeFrom_eq] at h ⊢
    cases hassign : assign path v m path with
    | ok m' =>
        rw [hassign] at h
        cases h
    | error d =>
        obtain ⟨key, -, rfl⟩ := assign_error_iff.mp hassign
        rw [hassign] at h
        cases h
        exact ⟨rfl, rfl⟩

def rivalling : Mapping :=
  [(.text "b", .map []), (.text "B", .map [(.text "c", .text "x")]), (.int 1, .null)]

/-- Of two keys that differ in case only the last leads to a text, in which nothing can be set. -/
theorem write_intact_rivalling :
    Obstructs rivalling ["b", "c", "d"] "c" ∧
    write rivalling ["b", "c", "d"] .null = (rivalling, .error (.notNested ["b", "c", "d"] "c")) := by
  have hfails : (write rivalling ["b", "c", "d"] .null).2 =
      .error (.notNested ["b", "c", "d"] "c") := rfl
  have hintact := write_intact rivalling ["b", "c", "d"] .null
  obtain ⟨key, hkey, he⟩ := (hintact.1 _).mp hfails
  cases he
  exact ⟨hkey, Prod.ext (hintact.2.1 _ hfails).2 hfails⟩

/-! ### What has been set -/

theorem assign_cons_ok_iff : assign whole v m (segment :: rest) = .ok m' ↔ ∃ x,
    renew whole v (resolve m segment) (m.get? (.text (resolve m segment))) rest = .ok x ∧
      m' = m.insert (.text (resolve m segment)) x := by
  rw [assign_cons, Results.map_ok_iff]
  simp [eq_comm]

theorem renew_ok_iff (hrest : rest ≠ []) : renew whole v key old rest = .ok x ↔
    ∃ n n', opened old = some n ∧ assign whole v n rest = .ok n' ∧ x = .map n' := by
  cases h : opened old with
  | none => simp [renew_closed h hrest]
  | some n =>
      rw [renew_opened h hrest, Results.map_ok_iff]
      simp [eq_comm]

/-- The mapping that a path leads through; one that is missing counts as empty. -/
def inner (m : Mapping) (segment : String) : Mapping :=
  (opened (m.get? (.text (resolve m segment)))).getD []

theorem inner_eq (h : opened (m.get? (.text (resolve m segment))) = some n) :
    inner m segment = n := by
  rw [inner, h]
  rfl

/-- The keys under which a path is followed. -/
def resolved : Mapping → List String → List String
  | _, [] => []
  | m, segment :: rest => resolve m segment :: resolved (inner m segment) rest

/-- The keys of `n` are still there, in their order, and at most the segment itself has come after
them: if there was none that answers to it. -/
def Gains (segment : String) (n n' : Mapping) : Prop :=
  n'.map (·.1) = n.map (·.1) ∨ (∀ k, .text k ∈ n.map (·.1) → ¬ Answers segment k) ∧
    n'.map (·.1) = n.map (·.1) ++ [.text segment]

theorem gains_insert (m : Mapping) (segment : String) (v : Value) :
    Gains segment m (m.insert (.text (resolve m segment)) v) := by
  cases h : m.get? (.text (resolve m segment)) with
  | some u => exact .inl (keys_insert_present (by rw [h]; rfl) v)
  | none =>
      refine .inr ⟨fun k hk => not_answers_of_absent h hk, ?_⟩
      rw [keys_insert_absent h, resolve_eq_of_absent h]

theorem at?_opened (h : opened old = some n) {place : List Key} (hplace : place ≠ []) :
    (Value.map n).at? place = old.bind (·.at? place) := by
  cases place with
  | nil => exact absurd rfl hplace
  | cons k place => rcases opened_eq_some_iff.mp h with rfl | ⟨rfl, rfl | rfl⟩ <;> rfl

theorem follow?_eq_at? (m : Mapping) (path : List String) :
    follow? (.map m) path = (Value.map m).at? ((resolved m path).map .text) := by
  induction path generalizing m with
  | nil => rfl
  | cons segment rest ih =>
      rw [follow?_map_cons, resolved, List.map_cons, Value.at?_map_cons]
      cases rest with
      | nil => simp [resolved]
      | cons next rest =>
          cases hopened : opened (m.get? (.text (resolve m segment))) with
          | none =>
              obtain ⟨u, hu, -, hmap⟩ := opened_eq_none_iff.mp hopened
              rw [hu, Option.bind_some, Option.bind_some, resolved, List.map_cons,
                Value.at?_cons_of_not_map hmap]
              cases u with
              | map n => cases hmap
              | _ => rfl
          | some n =>
              rw [inner_eq hopened, ← at?_opened hopened (by simp [resolved]), ← ih]
              rcases opened_eq_some_iff.mp hopened with hold | ⟨rfl, hold | hold⟩ <;> rw [hold] <;> rfl

/-- A place that is neither above nor below the one that is set keeps its value. -/
theorem at?_assign_of_apart (h : assign whole v m path = .ok m') {place : List Key}
    (habove : ¬ place <+: (resolved m path).map .text)
    (hbelow : ¬ (resolved m path).map .text <+: place) :
    (Value.map m').at? place = (Value.map m).at? place := by
  induction path generalizing m m' place with
  | nil => exact absurd List.nil_prefix hbelow
  | cons segment rest ih =>
      obtain ⟨x, hx, rfl⟩ := assign_cons_ok_iff.mp h
      cases place with
      | nil => exact absurd List.nil_prefix habove
      | cons k place =>
          rw [Value.at?_map_cons, Value.at?_map_cons, Entries.get?_insert]
          by_cases hk : (Key.text (resolve m segment)).meaning = k.meaning
          · obtain rfl := Key.meaning_eq_text_iff.mp hk.symm
            rw [if_pos rfl, Option.bind_some]
            rw [resolved, List.map_cons, List.cons_prefix_cons, not_and] at habove hbelow
            cases rest with
            | nil => exact absurd List.nil_prefix (hbelow rfl)
            | cons next rest =>
                obtain ⟨n, n', hn, hn', rfl⟩ := (renew_ok_iff (by simp)).mp hx
                rw [inner_eq hn] at habove hbelow
                have hne : place ≠ [] := by
                  rintro rfl
                  exact habove rfl List.nil_prefix
                rw [ih hn' (habove rfl) (hbelow rfl), at?_opened hn hne]
          · rw [if_neg hk]

end Splice.Override
