import Splice.Proofs.Value.WellFormed
import Splice.Value.Merge

namespace Splice

namespace Value

def isMap : Value → Bool
  | .map _ => true
  | _ => false

/-- The value at a path of keys, from mapping to mapping. -/
def at? : Value → List Key → Option Value
  | v, [] => some v
  | .map m, k :: path => (Entries.get? m k).bind (·.at? path)
  | _, _ :: _ => none

/-- Before the end of the path there is a value that is no mapping. -/
def Blocks (v : Value) (path : List Key) : Prop :=
  ∃ before u, before <+: path ∧ before ≠ path ∧ v.at? before = some u ∧ u.isMap = false

/-- There is a value at the path, or one in its way. -/
def Touches (v : Value) (path : List Key) : Prop := (v.at? path).isSome = true ∨ v.Blocks path

/-- The place at `path` in `w` is as `v` wants it: a value other than a mapping is the same, a mapping
is some mapping, and behind a value in the way there is nothing. -/
structure Decides (v w : Value) (path : List Key) : Prop where
  same : ∀ u, v.at? path = some u → u.isMap = false → w.at? path = some u
  mapping : ∀ m, v.at? path = some (.map m) → ∃ m', w.at? path = some (.map m')
  nothing : v.Blocks path → w.at? path = none

variable {v w u : Value} {m : Mapping} {k : Key} {path : List Key}

theorem isMap_iff : v.isMap = true ↔ ∃ m, v = .map m := by
  cases v <;> simp [isMap]

@[simp] theorem at?_nil (v : Value) : v.at? [] = some v := by
  cases v <;> rfl

@[simp] theorem at?_map_cons (m : Mapping) (k : Key) (path : List Key) :
    (Value.map m).at? (k :: path) = (Entries.get? m k).bind (·.at? path) := rfl

theorem at?_cons_of_not_map (h : v.isMap = false) (k : Key) (path : List Key) :
    v.at? (k :: path) = none := by
  cases v with
  | map m => cases h
  | _ => rfl

theorem at?_cons_eq_some :
    v.at? (k :: path) = some w ↔ ∃ m u, v = .map m ∧ Entries.get? m k = some u ∧ u.at? path = some w := by
  cases v with
  | map m => simp [Option.bind_eq_some_iff]
  | _ => simp [at?]

theorem not_blocks_nil (v : Value) : ¬ v.Blocks [] := by
  rintro ⟨before, u, hprefix, hne, -⟩
  exact hne (List.prefix_nil.mp hprefix)

theorem blocks_cons_of_not_map (h : v.isMap = false) (k : Key) (path : List Key) :
    v.Blocks (k :: path) :=
  ⟨[], v, List.nil_prefix, by simp, at?_nil v, h⟩

theorem blocks_map_cons_iff :
    (Value.map m).Blocks (k :: path) ↔ ∃ v, Entries.get? m k = some v ∧ v.Blocks path := by
  constructor
  · rintro ⟨before, u, hprefix, hne, hat, hu⟩
    cases before with
    | nil =>
        rw [at?_nil] at hat
        cases hat
        cases hu
    | cons l before =>
        obtain ⟨rfl, htail⟩ := List.cons_prefix_cons.mp hprefix
        rw [at?_map_cons] at hat
        obtain ⟨v, hv, hat⟩ := Option.bind_eq_some_iff.mp hat
        exact ⟨v, hv, before, u, htail, fun h => hne (by rw [h]), hat, hu⟩
  · rintro ⟨v, hv, before, u, hprefix, hne, hat, hu⟩
    refine ⟨k :: before, u, List.cons_prefix_cons.mpr ⟨rfl, hprefix⟩, by simpa using hne, ?_, hu⟩
    rw [at?_map_cons, hv]
    exact hat

theorem touches_nil (v : Value) : v.Touches [] := .inl (by simp)

theorem touches_map_cons_iff :
    (Value.map m).Touches (k :: path) ↔ ∃ v, Entries.get? m k = some v ∧ v.Touches path := by
  rw [Touches, blocks_map_cons_iff, at?_map_cons]
  cases Entries.get? m k with
  | none => simp
  | some v => simp [Touches]

theorem Blocks.at?_eq (h : v.Blocks path) : v.at? path = none := by
  induction path generalizing v with
  | nil => exact absurd h (not_blocks_nil v)
  | cons k path ih =>
      cases hv : v.isMap with
      | false => exact at?_cons_of_not_map hv k path
      | true =>
          obtain ⟨m, rfl⟩ := isMap_iff.mp hv
          obtain ⟨u, hu, h⟩ := blocks_map_cons_iff.mp h
          rw [at?_map_cons, hu]
          exact ih h

theorem decides_self (v : Value) (path : List Key) : Decides v v path where
  same _ h _ := h
  mapping m h := ⟨m, h⟩
  nothing := Blocks.at?_eq

theorem decides_map_cons (hu : Entries.get? m k = some u) {m' : Mapping} {w : Value}
    (hw : Entries.get? m' k = some w) (h : Decides u w path) :
    Decides (.map m) (.map m') (k :: path) where
  same a ha hmap := by
    rw [at?_map_cons, hu] at ha
    rw [at?_map_cons, hw]
    exact h.same a ha hmap
  mapping a ha := by
    rw [at?_map_cons, hu] at ha
    rw [at?_map_cons, hw]
    exact h.mapping a ha
  nothing hblocks := by
    obtain ⟨u', hu', hblocks⟩ := blocks_map_cons_iff.mp hblocks
    rw [hu] at hu'
    cases hu'
    rw [at?_map_cons, hw]
    exact h.nothing hblocks

/-! ### One value over another -/

theorem over_none (v : Value) : v.over none = v := by
  cases v <;> simp [Value.over]

theorem over_of_not_map (h : v.isMap = false) (old : Option Value) : v.over old = v := by
  cases v with
  | map m => cases h
  | _ => simp [Value.over]

theorem map_over_map (m base : Mapping) :
    (Value.map m).over (some (.map base)) = .map (base.merge m) := by
  simp [Value.over]

theorem map_over_of_not_map (h : u.isMap = false) (m : Mapping) :
    (Value.map m).over (some u) = .map m := by
  cases u with
  | map m => cases h
  | _ => simp [Value.over]

end Value

namespace Mapping

open Entries

theorem merge_cons (base : Mapping) (k : Key) (v : Value) (es : Mapping) :
    base.merge ((k, v) :: es) = merge (base.insert k (v.over (base.get? k))) es := by
  simp [merge]

theorem get?_merge {es : Mapping} (h : es.Distinct) (base : Mapping) (k : Key) :
    (base.merge es).get? k = match get? es k with
      | none => base.get? k
      | some v => some (v.over (base.get? k)) := by
  induction es generalizing base with
  | nil => rw [merge_nil, get?_nil]
  | cons e es ih =>
      obtain ⟨hnew, hes⟩ := distinct_cons_iff.mp h
      rw [merge_cons, ih hes, get?_cons]
      by_cases hk : e.1.meaning = k.meaning
      · have hnone : get? es k = none := get?_eq_none_iff.mpr (hk ▸ hnew)
        rw [hnone, if_pos hk]
        simp [get?_insert, hk, get?_congr hk]
      · rw [if_neg hk]
        simp [get?_insert, hk]

theorem isSome_get?_merge {es : Mapping} (h : es.Distinct) (base : Mapping) (k : Key) :
    ((base.merge es).get? k).isSome = true ↔
      (base.get? k).isSome = true ∨ (get? es k).isSome = true := by
  rw [get?_merge h]
  cases get? es k with
  | none => simp
  | some v => simp

theorem distinct_merge {base : Mapping} (h : base.Distinct) (es : Mapping) :
    (base.merge es).Distinct := by
  induction es generalizing base with
  | nil => simpa using h
  | cons e es ih =>
      rw [merge_cons]
      exact ih (h.insert e.1 _)

theorem isSome_get?_foldl_merge {layers : List Mapping} (h : ∀ m ∈ layers, m.Distinct)
    (base : Mapping) (k : Key) :
    ((layers.foldl merge base).get? k).isSome = true ↔
      (base.get? k).isSome = true ∨ ∃ m ∈ layers, (m.get? k).isSome = true := by
  induction layers generalizing base with
  | nil => simp
  | cons m layers ih =>
      obtain ⟨hm, h⟩ := List.forall_mem_cons.mp h
      simp [ih h, isSome_get?_merge hm, or_assoc]

end Mapping

namespace Value

variable {v : Value} {m : Mapping} {path : List Key}

theorem at?_singleton_bind (v : Value) (k : Key) (path : List Key) :
    (v.at? [k]).bind (·.at? path) = v.at? (k :: path) := by
  cases hv : v.isMap with
  | false => rw [at?_cons_of_not_map hv, at?_cons_of_not_map hv, Option.bind_none]
  | true =>
      obtain ⟨m, rfl⟩ := isMap_iff.mp hv
      simp

theorem map_over (h : m.Distinct) (old : Option Value) :
    ∃ m' : Mapping, (Value.map m).over old = .map m' ∧ ∀ k, m'.get? k = match m.get? k with
      | none => old.bind (·.at? [k])
      | some v => some (v.over (old.bind (·.at? [k]))) := by
  by_cases hold : ∃ base, old = some (.map base)
  · obtain ⟨base, rfl⟩ := hold
    refine ⟨Mapping.merge base m, map_over_map m base, fun k => ?_⟩
    rw [Mapping.get?_merge h]
    simp
  · have hmap (u : Value) (hu : old = some u) : u.isMap = false := by
      rw [← Bool.not_eq_true, isMap_iff]
      rintro ⟨base, rfl⟩
      exact hold ⟨base, hu⟩
    have hnothing (k : Key) : old.bind (·.at? [k]) = none := by
      rw [Option.bind_eq_none_iff]
      exact fun u hu => at?_cons_of_not_map (hmap u hu) k []
    refine ⟨m, ?_, fun k => ?_⟩
    · cases old with
      | none => exact over_none _
      | some u => exact map_over_of_not_map (hmap u rfl) m
    · rw [hnothing]
      cases m.get? k <;> simp [over_none]

theorem decides_over_nil (v : Value) (old : Option Value) : Decides v (v.over old) [] where
  same u hu hmap := by
    rw [at?_nil] at hu
    cases hu
    rw [over_of_not_map hmap, at?_nil]
  mapping m hm := by
    rw [at?_nil] at hm
    cases hm
    cases old with
    | none => exact ⟨m, by rw [over_none, at?_nil]⟩
    | some u =>
        cases hu : u.isMap with
        | false => exact ⟨m, by rw [map_over_of_not_map hu, at?_nil]⟩
        | true =>
            obtain ⟨base, rfl⟩ := isMap_iff.mp hu
            exact ⟨Mapping.merge base m, by rw [map_over_map, at?_nil]⟩
  nothing h := absurd h (not_blocks_nil v)

/-- What is laid over an old value decides the places that it touches, and leaves all others as they
are. -/
theorem at?_over (hv : v.WellFormed) (old : Option Value) :
    (v.Touches path → Decides v (v.over old) path) ∧
    (¬ v.Touches path → (v.over old).at? path = old.bind (·.at? path)) := by
  induction path generalizing v old with
  | nil => exact ⟨fun _ => decides_over_nil v old, fun h => absurd (touches_nil v) h⟩
  | cons k path ih =>
      cases hmap : v.isMap with
      | false =>
          rw [over_of_not_map hmap]
          have hblocks := blocks_cons_of_not_map hmap k path
          exact ⟨fun _ => decides_self v _, fun h => absurd (.inr hblocks) h⟩
      | true =>
          obtain ⟨m, rfl⟩ := isMap_iff.mp hmap
          obtain ⟨m', hm', hget⟩ := map_over hv.distinct old
          have hsplit : old.bind (·.at? (k :: path)) =
              (old.bind (·.at? [k])).bind (·.at? path) := by
            simp only [Option.bind_assoc, at?_singleton_bind]
          rw [hm', touches_map_cons_iff, at?_map_cons, hsplit]
          specialize hget k
          cases hk : Entries.get? m k with
          | none =>
              rw [hk] at hget
              rw [hget]
              exact ⟨by rintro ⟨_, ⟨⟩, _⟩, fun _ => rfl⟩
          | some u =>
              rw [hk] at hget
              obtain ⟨htouched, huntouched⟩ := ih (hv.of_get? hk) (old.bind (·.at? [k]))
              refine ⟨?_, fun h => ?_⟩
              · rintro ⟨_, hu, h⟩
                cases hu
                exact decides_map_cons hk hget (htouched h)
              · rw [hget]
                exact huntouched fun hu => h ⟨u, rfl, hu⟩

theorem at?_merge_of_untouched (hm : WellFormed (.map m)) (h : ¬ (Value.map m).Touches path)
    (base : Mapping) : (Value.map (base.merge m)).at? path = (Value.map base).at? path := by
  rw [← map_over_map, (at?_over hm (some (.map base))).2 h, Option.bind_some]

theorem decides_merge (hm : WellFormed (.map m)) (h : (Value.map m).Touches path)
    (base : Mapping) : Decides (.map m) (.map (base.merge m)) path := by
  rw [← map_over_map]
  exact (at?_over hm (some (.map base))).1 h

theorem Decides.of_at?_eq {u v w : Value} (h : Decides u v path)
    (heq : w.at? path = v.at? path) : Decides u w path where
  same a ha hmap := heq.trans (h.same a ha hmap)
  mapping a ha := by
    rw [heq]
    exact h.mapping a ha
  nothing hblocks := heq.trans (h.nothing hblocks)

theorem at?_foldl_merge {layers : List Mapping} (hwf : ∀ m ∈ layers, WellFormed (.map m))
    (h : ∀ m ∈ layers, ¬ (Value.map m).Touches path) (base : Mapping) :
    (Value.map (layers.foldl Mapping.merge base)).at? path = (Value.map base).at? path := by
  induction layers generalizing base with
  | nil => rfl
  | cons m layers ih =>
      obtain ⟨hm, hwf⟩ := List.forall_mem_cons.mp hwf
      obtain ⟨hne, h⟩ := List.forall_mem_cons.mp h
      rw [List.foldl_cons, ih hwf h, at?_merge_of_untouched hm hne]

/-- Of several layers the last that touches a place decides it. -/
theorem decides_foldl_merge {before after : List Mapping} (hwf : ∀ n ∈ m :: after, WellFormed (.map n))
    (h : (Value.map m).Touches path) (hafter : ∀ n ∈ after, ¬ (Value.map n).Touches path)
    (base : Mapping) :
    Decides (.map m) (.map ((before ++ m :: after).foldl Mapping.merge base)) path := by
  obtain ⟨hm, hwf⟩ := List.forall_mem_cons.mp hwf
  rw [List.foldl_append, List.foldl_cons]
  exact (decides_merge hm h _).of_at?_eq (at?_foldl_merge hwf hafter _)

end Value

end Splice
