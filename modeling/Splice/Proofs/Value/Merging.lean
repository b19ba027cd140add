import Splice.Proofs.Value.Layers

namespace Splice

namespace Mapping

open Entries

variable {a b c m n : Mapping} {k : Key}

def isNewTo (m : Mapping) (k : Key) : Bool := (m.get? k).isNone

theorem isNewTo_insert (m : Mapping) (k : Key) (v : Value) (l : Key) :
    isNewTo (m.insert k v) l = (!decide (k.meaning = l.meaning) && isNewTo m l) := by
  by_cases h : k.meaning = l.meaning <;> simp [isNewTo, get?_insert, h]

theorem isNewTo_merge (h : b.Distinct) (a : Mapping) (k : Key) :
    isNewTo (a.merge b) k = (isNewTo a k && isNewTo b k) := by
  rw [isNewTo, get?_merge h]
  cases hk : b.get? k <;> simp [isNewTo, hk]

theorem isNewTo_of_mem (h : k ∈ m.map (·.1)) : isNewTo m k = false := by
  have hmeaning : k.meaning ∈ m.meanings := by
    rw [meanings_eq_map]
    exact List.mem_map_of_mem h
  simpa [isNewTo, Option.isSome_iff_ne_none] using isSome_get?_iff.mpr hmeaning

/-- The keys of the first mapping come first, in their order, and then the new ones of the second, in
theirs. -/
theorem keys_merge (h : b.Distinct) (a : Mapping) :
    (a.merge b).map (·.1) = a.map (·.1) ++ (b.map (·.1)).filter (isNewTo a) := by
  induction b generalizing a with
  | nil => simp
  | cons e es ih =>
      obtain ⟨hnew, hes⟩ := distinct_cons_iff.mp h
      have hne : ∀ l ∈ es.map (·.1), e.1.meaning ≠ l.meaning := by
        intro l hl heq
        apply hnew
        rw [heq, meanings_eq_map]
        exact List.mem_map_of_mem hl
      have hrest (v : Value) :
          (es.map (·.1)).filter (isNewTo (a.insert e.1 v)) = (es.map (·.1)).filter (isNewTo a) := by
        apply List.filter_congr
        intro l hl
        simp [isNewTo_insert, hne l hl]
      rw [merge_cons, ih hes, hrest, keys_insert, List.map_cons]
      by_cases hk : e.1.meaning ∈ a.meanings
      · have hold : ¬ isNewTo a e.1 = true := by simpa [isNewTo, get?_eq_none_iff] using hk
        rw [if_pos hk, List.filter_cons_of_neg hold]
      · have hfresh : isNewTo a e.1 = true := by simpa [isNewTo, get?_eq_none_iff] using hk
        rw [if_neg hk, List.filter_cons_of_pos hfresh, List.append_assoc, List.singleton_append]

theorem eq_of_keys_eq (hm : m.Distinct) (hkeys : m.map (·.1) = n.map (·.1))
    (hget : ∀ k, m.get? k = n.get? k) : m = n := by
  induction m generalizing n with
  | nil => exact (List.map_eq_nil_iff.mp hkeys.symm).symm
  | cons e m ih =>
      cases n with
      | nil => cases hkeys
      | cons d n =>
          obtain ⟨hkey, hkeys⟩ := List.cons.inj hkeys
          obtain ⟨hnew, hm⟩ := distinct_cons_iff.mp hm
          have hvalue : e.2 = d.2 := by simpa [get?_cons, hkey] using hget e.1
          have hrest : m = n := by
            apply ih hm hkeys
            intro k
            by_cases hk : e.1.meaning = k.meaning
            · have hnew' : k.meaning ∉ meanings n := by
                rwa [meanings_eq_map, ← hkeys, ← meanings_eq_map, ← hk]
              rw [get?_eq_none_iff.mpr (hk ▸ hnew), get?_eq_none_iff.mpr hnew']
            · simpa [get?_cons, ← hkey, hk] using hget k
          rw [hrest, Prod.ext hkey hvalue]

theorem nil_merge (h : m.Distinct) : merge [] m = m := by
  apply eq_of_keys_eq (distinct_merge Distinct.nil m)
  · have hnew : isNewTo [] = fun _ => true := by
      funext k
      simp [isNewTo]
    simp [keys_merge h, hnew]
  · intro k
    rw [get?_merge h]
    cases m.get? k <;> simp [Value.over_none]

theorem merge_self_of (h : m.Distinct) (hvalues : ∀ e ∈ m, e.2.over (some e.2) = e.2) :
    m.merge m = m := by
  apply eq_of_keys_eq (distinct_merge h m)
  · rw [keys_merge h, List.filter_eq_nil_iff.mpr, List.append_nil]
    intro k hk
    simp [isNewTo_of_mem hk]
  · intro k
    rw [get?_merge h]
    cases hk : m.get? k with
    | none => rfl
    | some v =>
        obtain ⟨e, he, -, rfl⟩ := mem_of_get? hk
        exact congrArg some (hvalues e he)

theorem merge_assoc_of (ha : a.Distinct) (hb : b.Distinct) (hc : c.Distinct)
    (hvalues : ∀ k u v w, a.get? k = some u → b.get? k = some v → c.get? k = some w →
      w.over (some (v.over (some u))) = (w.over (some v)).over (some u)) :
    (a.merge b).merge c = a.merge (b.merge c) := by
  apply eq_of_keys_eq (distinct_merge (distinct_merge ha b) c)
  · have hnew : isNewTo (a.merge b) = fun k => isNewTo a k && isNewTo b k := by
      funext k
      exact isNewTo_merge hb a k
    rw [keys_merge hc, keys_merge hb, keys_merge (distinct_merge hb c), keys_merge hc, hnew,
      List.filter_append, List.filter_filter, List.append_assoc]
  · intro k
    rw [get?_merge hc, get?_merge hb, get?_merge (distinct_merge hb c), get?_merge hc]
    cases hw : c.get? k with
    | none => rfl
    | some w =>
        cases hv : b.get? k with
        | none => simp [Value.over_none]
        | some v =>
            cases hu : a.get? k with
            | none => simp [Value.over_none]
            | some u => exact congrArg some (hvalues k u v w hu hv hw)

end Mapping

namespace Value

variable {u v w : Value} {m n : Mapping} {k : Key} {path : List Key}

theorem over_self (h : v.WellFormed) : v.over (some v) = v := by
  induction h with
  | map distinct values ih => rw [map_over_map, Mapping.merge_self_of distinct ih]
  | _ => exact over_of_not_map rfl _

/-- Somewhere a value of `v` that is no mapping stands between mappings of `u` and of `w`. -/
def Parts (u v w : Value) : Prop :=
  ∃ path m x n, u.at? path = some (.map m) ∧ v.at? path = some x ∧ x.isMap = false ∧
    w.at? path = some (.map n)

theorem Parts.cons {a b c : Mapping} (hu : a.get? k = some u) (hv : b.get? k = some v)
    (hw : c.get? k = some w) (h : Parts u v w) : Parts (.map a) (.map b) (.map c) := by
  obtain ⟨path, m, x, n, hm, hx, hmap, hn⟩ := h
  refine ⟨k :: path, m, x, n, ?_, ?_, hmap, ?_⟩
  · rwa [at?_map_cons, hu]
  · rwa [at?_map_cons, hv]
  · rwa [at?_map_cons, hw]

theorem not_parts_self (u v : Value) : ¬ Parts u v v := by
  rintro ⟨path, m, x, n, -, hx, hmap, hn⟩
  rw [hx] at hn
  cases hn
  cases hmap

/-- Three values can be laid over one another from either end, unless the one in the middle keeps
mappings of the others apart. -/
theorem over_over (hu : u.WellFormed) (hv : v.WellFormed) (hw : w.WellFormed)
    (h : ¬ Parts u v w) : w.over (some (v.over (some u))) = (w.over (some v)).over (some u) := by
  induction hw generalizing u v with
  | @map c distinct values ih =>
      cases hvmap : v.isMap with
      | false =>
          rw [over_of_not_map hvmap, map_over_of_not_map hvmap]
          cases humap : u.isMap with
          | false => rw [map_over_of_not_map humap]
          | true =>
              obtain ⟨a, rfl⟩ := isMap_iff.mp humap
              exact absurd ⟨[], a, v, c, by simp, by simp, hvmap, by simp⟩ h
      | true =>
          obtain ⟨b, rfl⟩ := isMap_iff.mp hvmap
          cases humap : u.isMap with
          | false => rw [map_over_of_not_map humap, map_over_map, map_over_of_not_map humap]
          | true =>
              obtain ⟨a, rfl⟩ := isMap_iff.mp humap
              simp only [map_over_map]
              congr 1
              apply Mapping.merge_assoc_of hu.distinct hv.distinct distinct
              intro k x y z hx hy hz
              obtain ⟨e, he, -, rfl⟩ := Entries.mem_of_get? hz
              exact ih e he (hu.of_get? hx) (hv.of_get? hy) fun hparts => h (hparts.cons hx hy hz)
  | _ => simp [Value.over]

theorem WellFormed.at? (h : v.WellFormed) (hw : v.at? path = some w) : w.WellFormed := by
  induction path generalizing v with
  | nil =>
      rw [at?_nil] at hw
      cases hw
      exact h
  | cons k path ih =>
      obtain ⟨m, x, rfl, hx, hw⟩ := at?_cons_eq_some.mp hw
      exact ih (h.of_get? hx) hw

theorem at?_over_map (hv : v.WellFormed) (hm : u.at? path = some (.map m))
    (hn : v.at? path = some (.map n)) :
    (v.over (some u)).at? path = some (.map (m.merge n)) := by
  induction path generalizing u v with
  | nil =>
      rw [at?_nil] at hm hn
      cases hm
      cases hn
      rw [map_over_map, at?_nil]
  | cons k path ih =>
      obtain ⟨a, x, rfl, hx, hm⟩ := at?_cons_eq_some.mp hm
      obtain ⟨b, y, rfl, hy, hn⟩ := at?_cons_eq_some.mp hn
      rw [map_over_map, at?_map_cons, Mapping.get?_merge hv.distinct, hx, hy]
      exact ih (hv.of_get? hy) hm hn

/-- No place has a mapping in the one and another value in the other. -/
def Compatible (v w : Value) : Prop :=
  ∀ path x y, v.at? path = some x → w.at? path = some y → x.isMap = y.isMap

theorem compatible_map
    (h : ∀ e ∈ m, ∀ d ∈ n, e.1.meaning = d.1.meaning → Compatible e.2 d.2) :
    Compatible (.map m) (.map n) := by
  rintro (_ | ⟨k, path⟩) x y hx hy
  · rw [at?_nil] at hx hy
    cases hx
    cases hy
    rfl
  · obtain ⟨_, v, ⟨⟩, hv, hx⟩ := at?_cons_eq_some.mp hx
    obtain ⟨_, w, ⟨⟩, hw, hy⟩ := at?_cons_eq_some.mp hy
    obtain ⟨e, he, hke, rfl⟩ := Entries.mem_of_get? hv
    obtain ⟨d, hd, hkd, rfl⟩ := Entries.mem_of_get? hw
    exact h e he d hd (hke.trans hkd.symm) path x y hx hy

theorem compatible_of_not_map (hv : v.isMap = false) (hw : w.isMap = false) : Compatible v w := by
  rintro (_ | ⟨k, path⟩) x y hx hy
  · rw [at?_nil] at hx hy
    cases hx
    cases hy
    rw [hv, hw]
  · rw [at?_cons_of_not_map hv] at hx
    cases hx

theorem Compatible.not_parts (h : Compatible u v) (w : Value) : ¬ Parts u v w := by
  rintro ⟨path, m, x, n, hm, hx, hmap, -⟩
  have hsame := h path _ x hm hx
  rw [hmap] at hsame
  cases hsame

end Value

namespace Mapping

open Entries Value

variable {a b c : Mapping}

theorem merge_self (h : WellFormed (.map a)) : a.merge a = a := by
  have hself := over_self h
  rw [map_over_map] at hself
  exact Value.map.inj hself

theorem merge_merge (ha : WellFormed (.map a)) (hb : WellFormed (.map b))
    (hc : WellFormed (.map c)) (h : ¬ Parts (.map a) (.map b) (.map c)) :
    (a.merge b).merge c = a.merge (b.merge c) := by
  have hover := over_over ha hb hc h
  simp only [map_over_map] at hover
  exact Value.map.inj hover

theorem merge_merge_self (ha : WellFormed (.map a)) (hb : WellFormed (.map b)) :
    (a.merge b).merge b = a.merge b := by
  rw [merge_merge ha hb hb (not_parts_self _ _), merge_self hb]

/-- Merging has the empty mapping as unit, is idempotent, forgets no layer that it repeats, and can be
done from either end as long as the layers agree on what is a mapping. At every depth the keys of the
first mapping come first, in their order, and then the new ones of the second. -/
theorem merge_laws (ha : WellFormed (.map a)) (hb : WellFormed (.map b)) (hc : WellFormed (.map c)) :
    a.merge [] = a ∧ merge [] a = a ∧ a.merge a = a ∧ (a.merge b).merge b = a.merge b ∧
    ([a, b, c].Pairwise (fun m n => Compatible (.map m) (.map n)) →
      (a.merge b).merge c = a.merge (b.merge c)) ∧
    ∀ path m n, (Value.map a).at? path = some (.map m) → (Value.map b).at? path = some (.map n) →
      (Value.map (a.merge b)).at? path = some (.map (merge m n)) ∧
        (merge m n).map (·.1) = m.map (·.1) ++ (n.map (·.1)).filter (isNewTo m) := by
  refine ⟨merge_nil a, nil_merge ha.distinct, merge_self ha, merge_merge_self ha hb, ?_, ?_⟩
  · intro hcompatible
    have hab : Compatible (.map a) (.map b) :=
      (List.pairwise_cons.mp hcompatible).1 b List.mem_cons_self
    exact merge_merge ha hb hc (hab.not_parts _)
  · intro path m n hm hn
    have hat := at?_over_map hb hm hn
    rw [map_over_map] at hat
    exact ⟨hat, keys_merge (hb.at? hn).distinct m⟩

def lower : Mapping := [(.text "x", .map [(.text "p", .int 1)]), (.text "y", .int 0)]

def middle : Mapping := [(.text "z", .list []), (.text "x", .map [(.text "q", .map [])])]

def upper : Mapping :=
  [(.text "x", .map [(.text "q", .map [(.text "r", .null)]), (.text "p", .text "t")]),
   (.text "w", .bool true)]

/-- Mappings grow at every depth, and each key stays where it first stood. -/
theorem merge_laws_nested :
    (WellFormed (.map lower) ∧ WellFormed (.map middle) ∧ WellFormed (.map upper)) ∧
    [lower, middle, upper].Pairwise (fun m n => Compatible (.map m) (.map n)) ∧
    (lower.merge middle).merge upper = lower.merge (middle.merge upper) ∧
    lower.merge (middle.merge upper) =
      [(.text "x", .map [(.text "p", .text "t"), (.text "q", .map [(.text "r", .null)])]),
       (.text "y", .int 0), (.text "z", .list []), (.text "w", .bool true)] := by
  have hempty : WellFormed (.list []) := .list (by simp)
  have hlower : WellFormed (.map lower) := by
    simp [lower, wellFormed_map_iff, Distinct, Key.meaning, WellFormed.int]
  have hmiddle : WellFormed (.map middle) := by
    simp [middle, wellFormed_map_iff, Distinct, Key.meaning, hempty]
  have hupper : WellFormed (.map upper) := by
    simp [upper, wellFormed_map_iff, Distinct, Key.meaning, WellFormed.null, WellFormed.text,
      WellFormed.bool]
  have hcompatible : [lower, middle, upper].Pairwise (fun m n => Compatible (.map m) (.map n)) := by
    have hleaf : Compatible (.int 1) (.text "t") := compatible_of_not_map rfl rfl
    have hnothing (m : Mapping) : Compatible (.map []) (.map m) := compatible_map (by simp)
    have hlow : Compatible (.map [(.text "p", .int 1)]) (.map [(.text "q", .map [])]) :=
      compatible_map (by simp [Key.meaning])
    have hfar : Compatible (.map [(.text "p", .int 1)])
        (.map [(.text "q", .map [(.text "r", .null)]), (.text "p", .text "t")]) :=
      compatible_map (by simp [Key.meaning, hleaf])
    have hhigh : Compatible (.map [(.text "q", .map [])])
        (.map [(.text "q", .map [(.text "r", .null)]), (.text "p", .text "t")]) :=
      compatible_map (by simp [Key.meaning, hnothing])
    simp only [List.pairwise_cons, List.forall_mem_cons]
    refine ⟨⟨compatible_map ?_, compatible_map ?_, by simp⟩, ⟨compatible_map ?_, by simp⟩, by simp⟩
    all_goals simp [lower, middle, upper, Key.meaning, hlow, hfar, hhigh]
  exact ⟨⟨hlower, hmiddle, hupper⟩, hcompatible,
    (merge_laws hlower hmiddle hupper).2.2.2.2.1 hcompatible, rfl⟩

/-- A value that is no mapping cuts off what stands below it, but not if it is covered first. -/
example : (merge (merge lower [(.text "x", .null)]) [(.text "x", .map [])]) ≠
    merge lower (merge [(.text "x", .null)] [(.text "x", .map [])]) := by
  decide

end Mapping

end Splice
