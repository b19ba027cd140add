import Splice.Proofs.Config.Assignment
import Splice.Proofs.Value.Kept
import Splice.Yaml.Value

namespace Splice.Override

variable {m m' n n' s : Mapping} {segment : String} {whole path before after rest : List String}
  {v : Value} {e : Fault}

/-! ### Along the path -/

/-- `m'` holds the value `v` at the path, and along it the keys of `m` and no others. Nothing is said
of what else the mappings on the path hold. -/
inductive Written (v : Value) : List String → Mapping → Mapping → Prop
  | last {m s : Mapping} (segment : String) (keys : s.map (·.1) = m.map (·.1)) :
      Written v [segment] m (s.insert (.text (resolve m segment)) v)
  | step {m s n n' : Mapping} {segment : String} {rest : List String}
      (keys : s.map (·.1) = m.map (·.1))
      (goes : opened (m.get? (.text (resolve m segment))) = some n) (below : Written v rest n n') :
      Written v (segment :: rest) m (s.insert (.text (resolve m segment)) (.map n'))

theorem resolve_insert_of_keys (h : s.map (·.1) = m.map (·.1)) (segment : String) (v : Value) :
    resolve (s.insert (.text (resolve m segment)) v) segment = resolve m segment := by
  rw [← resolve_congr h, resolve_insert]

theorem gains_insert_of_keys (h : s.map (·.1) = m.map (·.1)) (segment : String) (v : Value) :
    Gains segment m (s.insert (.text (resolve m segment)) v) := by
  have hgains := gains_insert s segment v
  rw [resolve_congr h] at hgains
  rwa [Gains, h] at hgains

namespace Written

theorem follow? (h : Written v path m m') : follow? (.map m') path = some v := by
  induction h with
  | last segment keys =>
      rw [follow?_map_cons, resolve_insert_of_keys keys, Entries.get?_insert_self,
        Option.bind_some, follow?_nil]
  | step keys goes below ih =>
      rw [follow?_map_cons, resolve_insert_of_keys keys, Entries.get?_insert_self,
        Option.bind_some, ih]

theorem resolved (h : Written v path m m') : resolved m' path = resolved m path := by
  induction h with
  | last segment keys => rw [Override.resolved, Override.resolved, resolve_insert_of_keys keys]; rfl
  | step keys goes below ih =>
      rw [Override.resolved, Override.resolved, resolve_insert_of_keys keys, inner,
        resolve_insert_of_keys keys, Entries.get?_insert_self, inner_eq goes]
      exact congrArg _ ih

theorem gains (h : Written v path m m') (hpath : path = before ++ segment :: after) :
    ∃ n', Override.follow? (.map m') before = some (.map n') ∧
      Gains segment (before.foldl inner m) n' := by
  induction h generalizing before with
  | last first keys =>
      cases before with
      | nil =>
          obtain ⟨rfl, -⟩ := List.cons.inj hpath
          exact ⟨_, follow?_nil _, gains_insert_of_keys keys _ v⟩
      | cons _ before => simp at hpath
  | step keys goes below ih =>
      cases before with
      | nil =>
          obtain ⟨rfl, -⟩ := List.cons.inj hpath
          exact ⟨_, follow?_nil _, gains_insert_of_keys keys _ _⟩
      | cons first before =>
          obtain ⟨rfl, hrest⟩ := List.cons.inj hpath
          rw [follow?_map_cons, resolve_insert_of_keys keys, Entries.get?_insert_self,
            Option.bind_some, List.foldl_cons, inner_eq goes]
          exact ih hrest

end Written

/-! ### Objects -/

variable {o u : Object} {p p' q q' : Objects} {label : Option Label}
  {changed c : Option (Label × Objects)}

theorem resolve_values (p : Objects) (segment : String) :
    resolve p.values segment = resolve p segment :=
  resolve_congr (Entries.keys_values p) segment

theorem opened_values (p : Objects) (k : Key) :
    opened (p.values.get? k) = (entered (p.get? k)).map fun e => e.2.values := by
  rw [Entries.get?_values]
  rcases p.get? k with - | (_ | _ | _)
  · rfl
  · rename_i key
    cases key <;> rfl
  · rfl
  · rfl

theorem labels_entered {old : Option Object} (h : entered old = some (label, q)) :
    label.toList ++ q.labels = (old.map Object.labels).getD [] := by
  unfold entered at h
  split at h
  · cases h
    rfl
  · cases h
    rfl
  · cases h
    rfl
  · cases h

theorem place_closed (h : entered (p.get? (.text (resolve p segment))) = none) (hrest : rest ≠ []) :
    place whole o p (segment :: rest) = .error (.notNested whole (resolve p segment)) := by
  cases rest with
  | nil => exact absurd rfl hrest
  | cons next rest =>
      rw [place]
      simp only [h]

/-- The entries once the mapping that an entry leads to is changed, and the mapping of a label nearest
to the change. -/
def changedBelow (p : Objects) (key : String) (label : Option Label)
    (r : Objects × Option (Label × Objects)) : Objects × Option (Label × Objects) :=
  let changed := r.2.or (label.map (·, r.1))
  ((p.after changed).insert (.text key) (.map label r.1), changed)

theorem place_entered (h : entered (p.get? (.text (resolve p segment))) = some (label, q))
    (hrest : rest ≠ []) : place whole o p (segment :: rest) =
      (place whole o q rest).map (changedBelow p (resolve p segment) label) := by
  cases rest with
  | nil => exact absurd rfl hrest
  | cons next rest =>
      rw [place]
      simp only [h]
      cases place whole o q (next :: rest) <;> rfl

theorem place_cons_ok_iff (hrest : rest ≠ []) :
    place whole o p (segment :: rest) = .ok (p', changed) ↔ ∃ label q r,
      entered (p.get? (.text (resolve p segment))) = some (label, q) ∧
      place whole o q rest = .ok r ∧
      (p', changed) = changedBelow p (resolve p segment) label r := by
  cases hentered : entered (p.get? (.text (resolve p segment))) with
  | none => simp [place_closed hentered hrest]
  | some x =>
      obtain ⟨label, q⟩ := x
      rw [place_entered hentered hrest, Results.map_ok_iff]
      constructor
      · rintro ⟨r, hr, hp⟩
        exact ⟨label, q, r, rfl, hr, hp.symm⟩
      · rintro ⟨_, _, r, hsame, hr, hp⟩
        cases hsame
        exact ⟨r, hr, hp.symm⟩

theorem place_error_iff :
    place whole o p path = .error e ↔ assign whole v p.values path = .error e := by
  induction path generalizing p with
  | nil => simp [place, assign]
  | cons segment rest ih =>
      by_cases hrest : rest = []
      · subst hrest
        simp [place, assign]
      · have hopened := opened_values p (.text (resolve p segment))
        cases hentered : entered (p.get? (.text (resolve p segment))) with
        | none =>
            rw [hentered, ← resolve_values] at hopened
            rw [place_closed hentered hrest, assign_closed hopened hrest, resolve_values,
              Except.error.injEq, Except.error.injEq]
        | some x =>
            rw [hentered, ← resolve_values] at hopened
            rw [place_entered hentered hrest, assign_opened hopened hrest, Results.map_error_iff,
              Results.map_error_iff, ih]

theorem put_error_iff : put p path o = .error e ↔
    ∃ key, Obstructs p.values path key ∧ e = .notNested path key := by
  rw [put, Results.map_error_iff, place_error_iff (v := o.value), assign_error_iff]

theorem put_ok_iff : put p path o = .ok p' ↔ ∃ changed, place path o p path = .ok (p', changed) := by
  rw [put, Results.map_ok_iff]
  simp

theorem written_of_place (hpath : path ≠ []) (h : place whole o p path = .ok (p', changed)) :
    Written o.value path p.values p'.values := by
  induction path generalizing p p' changed with
  | nil => exact absurd rfl hpath
  | cons segment rest ih =>
      by_cases hrest : rest = []
      · subst hrest
        cases h
        rw [Entries.values_insert, ← resolve_values]
        exact .last segment rfl
      · obtain ⟨label, q, r, hentered, hbelow, hr⟩ := (place_cons_ok_iff hrest).mp h
        cases hr
        rw [Entries.values_insert, ← resolve_values]
        refine .step ?_ ?_ (ih hrest hbelow)
        · rw [Entries.keys_values, Entries.keys_values, Entries.keys_after]
        · rw [resolve_values, opened_values, hentered]
          rfl

/-- What was put at a place before does not show when something else is put there. -/
theorem place_place (h : place whole o p path = .ok (p', changed)) (u : Object) :
    ∃ r c, place whole u p' path = .ok (r, c) ∧ place whole u p path = .ok (r, c) ∧
      changed.map (·.1) = c.map (·.1) := by
  induction path generalizing p p' changed with
  | nil =>
      cases h
      exact ⟨p, none, rfl, rfl, rfl⟩
  | cons segment rest ih =>
      by_cases hrest : rest = []
      · subst hrest
        cases h
        refine ⟨_, none, ?_, rfl, rfl⟩
        rw [place, resolve_insert, Entries.insert_insert]
      · obtain ⟨label, q, r, hentered, hbelow, hr⟩ := (place_cons_ok_iff hrest).mp h
        obtain ⟨q', c⟩ := r
        obtain ⟨q'', d, hafter, hbefore, hlabels⟩ := ih hbelow
        have hchanged : (c.or (label.map (·, q'))).map (·.1) =
            (d.or (label.map (·, q''))).map (·.1) := by
          cases c <;> cases d <;> cases label <;> simp_all
        cases hr
        have hkey : resolve (Entries.insert (p.after (c.or (label.map (·, q'))))
            (.text (resolve p segment)) (.map label q')) segment = resolve p segment := by
          rw [← resolve_congr (Entries.keys_after p (c.or (label.map (·, q')))), resolve_insert]
        refine ⟨_, _, ?_, (place_cons_ok_iff hrest).mpr ⟨label, q, (q'', d), hentered, hbefore, rfl⟩,
          hchanged⟩
        refine (place_cons_ok_iff hrest).mpr ⟨label, q', (q'', d), ?_, hafter, ?_⟩
        · rw [hkey, Entries.get?_insert_self]
          rfl
        · rw [hkey]
          refine Prod.ext ?_ rfl
          show _ = Entries.insert (Entries.after (Entries.insert _ _ _) _) _ _
          rw [Entries.after_insert_insert, Entries.after_after p hchanged]

/-! ### Where the path goes through nothing that stands twice -/

/-- The labels of the mappings that a path goes through. -/
def along : Objects → List String → List Label
  | p, segment :: next :: rest => match entered (p.get? (.text (resolve p segment))) with
    | some (label, q) => label.toList ++ along q (next :: rest)
    | none => []
  | _, _ => []

/-- No mapping that the path goes through stands at two places. -/
def Alone (p : Objects) (path : List String) : Prop := ∀ l ∈ along p path, p.labels.count l ≤ 1

theorem along_entered (h : entered (p.get? (.text (resolve p segment))) = some (label, q))
    (hrest : rest ≠ []) : along p (segment :: rest) = label.toList ++ along q rest := by
  cases rest with
  | nil => exact absurd rfl hrest
  | cons next rest =>
      rw [along]
      simp only [h]

theorem along_closed (h : entered (p.get? (.text (resolve p segment))) = none) :
    along p (segment :: rest) = [] := by
  cases rest with
  | nil => rfl
  | cons next rest =>
      rw [along]
      simp only [h]

theorem labels_entry_sublist (p : Objects) (k : Key) :
    (((p.get? k).map Object.labels).getD []).Sublist p.labels := by
  cases hold : p.get? k with
  | none => exact List.nil_sublist _
  | some old => exact Entries.labels_sublist_of_get? hold

theorem along_cons_subset (hrest : ∀ q, along q rest ⊆ Entries.labels q) :
    along p (segment :: rest) ⊆ ((p.get? (.text (resolve p segment))).map Object.labels).getD [] := by
  by_cases hlast : rest = []
  · subst hlast
    exact List.nil_subset _
  · cases hentered : entered (p.get? (.text (resolve p segment))) with
    | none =>
        rw [along_closed hentered]
        exact List.nil_subset _
    | some x =>
        intro l hl
        rw [along_entered hentered hlast, List.mem_append] at hl
        rw [← labels_entered hentered]
        exact List.mem_append.mpr (hl.imp_right fun hl => hrest _ hl)

theorem along_subset_labels : along p path ⊆ p.labels := by
  induction path generalizing p with
  | nil => exact List.nil_subset _
  | cons segment rest ih =>
      exact fun l hl => (labels_entry_sublist _ _).subset (along_cons_subset (fun q => ih) hl)

theorem along_subset_entry :
    along p (segment :: rest) ⊆ ((p.get? (.text (resolve p segment))).map Object.labels).getD [] :=
  along_cons_subset fun _ => along_subset_labels

theorem along_congr (hkey : resolve q segment = resolve p segment)
    (hget : q.get? (.text (resolve p segment)) = p.get? (.text (resolve p segment)))
    (rest : List String) : along q (segment :: rest) = along p (segment :: rest) := by
  cases rest with
  | nil => rfl
  | cons next rest => rw [along, along, hkey, hget]

theorem along_insert_subset
    (hentered : entered (p.get? (.text (resolve p segment))) = some (label, q))
    (h : along q' rest ⊆ along q rest) :
    along (p.insert (.text (resolve p segment)) (.map label q')) (segment :: rest) ⊆
      along p (segment :: rest) := by
  by_cases hrest : rest = []
  · subst hrest
    exact List.nil_subset _
  · have hentered' : entered ((p.insert (.text (resolve p segment)) (.map label q')).get?
        (.text (resolve (p.insert (.text (resolve p segment)) (.map label q')) segment))) =
          some (label, q') := by
      rw [resolve_insert, Entries.get?_insert_self]
      rfl
    rw [along_entered hentered hrest, along_entered hentered' hrest]
    exact fun l hl => List.mem_append.mpr ((List.mem_append.mp hl).imp_right fun hl => h hl)

theorem alone_ofEntries (m : Mapping) (path : List String) : Alone (Object.ofEntries m) path := by
  intro l hl
  have hlabel := along_subset_labels hl
  rw [Object.labels_ofEntries] at hlabel
  cases hlabel

theorem Alone.below (h : Alone p (segment :: rest)) (hrest : rest ≠ [])
    (hentered : entered (p.get? (.text (resolve p segment))) = some (label, q)) : Alone q rest := by
  intro l hl
  have hentry := labels_entry_sublist p (.text (resolve p segment))
  rw [← labels_entered hentered] at hentry
  refine Nat.le_trans (((List.sublist_append_right _ _).trans hentry).count_le l) (h l ?_)
  rw [along_entered hentered hrest]
  exact List.mem_append_right _ hl

theorem insert_after {k : Key} (h : ∀ c ∈ changed, p.labels.count c.1 ≤ 1 ∧
    c.1 ∈ ((p.get? k).map Object.labels).getD []) (x : Object) :
    Entries.insert (p.after changed) k x = p.insert k x := by
  cases changed with
  | none => rfl
  | some c =>
      obtain ⟨hone, hlabel⟩ := h c rfl
      cases hold : p.get? k with
      | none =>
          rw [hold] at hlabel
          cases hlabel
      | some old =>
          rw [hold] at hlabel
          exact Entries.insert_renewed hone hold hlabel c.2 x

/-- A mapping that is told to have changed is one that the path goes through. -/
theorem changed_along (h : place whole o p path = .ok (p', changed)) :
    ∀ c ∈ changed, c.1 ∈ along p path := by
  induction path generalizing p p' changed with
  | nil =>
      cases h
      rintro _ ⟨⟩
  | cons segment rest ih =>
      by_cases hrest : rest = []
      · subst hrest
        cases h
        rintro _ ⟨⟩
      · obtain ⟨label, q, ⟨q', c⟩, hentered, hbelow, hr⟩ := (place_cons_ok_iff hrest).mp h
        cases hr
        rw [along_entered hentered hrest]
        intro d hd
        cases c with
        | some c =>
            cases hd
            exact List.mem_append_right _ (ih hbelow _ rfl)
        | none =>
            obtain ⟨l, rfl, rfl⟩ := Option.map_eq_some_iff.mp hd
            exact List.mem_append_left _ (by simp)

/-- The mapping that a path goes through has been changed, and nothing besides. -/
theorem place_alone (hp : Alone p (segment :: rest)) (hrest : rest ≠ [])
    (h : place whole o p (segment :: rest) = .ok (p', changed)) : ∃ label q q' c,
      entered (p.get? (.text (resolve p segment))) = some (label, q) ∧ Alone q rest ∧
      place whole o q rest = .ok (q', c) ∧
      p' = p.insert (.text (resolve p segment)) (.map label q') := by
  obtain ⟨label, q, ⟨q', c⟩, hentered, hbelow, hr⟩ := (place_cons_ok_iff hrest).mp h
  refine ⟨label, q, q', c, hentered, hp.below hrest hentered, hbelow, ?_⟩
  cases hr
  have halong := changed_along h
  exact insert_after (fun d hd => ⟨hp _ (halong d hd), along_subset_entry (halong d hd)⟩) _

theorem insert_of_place (hp : Alone p (segment :: rest))
    (h : place whole o p (segment :: rest) = .ok (p', changed)) :
    ∃ x, p' = p.insert (.text (resolve p segment)) x := by
  by_cases hrest : rest = []
  · subst hrest
    cases h
    exact ⟨o, rfl⟩
  · obtain ⟨label, q, q', c, -, -, -, rfl⟩ := place_alone hp hrest h
    exact ⟨_, rfl⟩

theorem assign_of_place (hp : Alone p path) (h : place whole o p path = .ok (p', changed)) :
    assign whole o.value p.values path = .ok p'.values := by
  induction path generalizing p p' changed with
  | nil =>
      cases h
      rfl
  | cons segment rest ih =>
      by_cases hrest : rest = []
      · subst hrest
        cases h
        rw [assign, resolve_values, Entries.values_insert]
      · obtain ⟨label, q, q', c, hentered, hq, hbelow, rfl⟩ := place_alone hp hrest h
        have hopened : opened (p.values.get? (.text (resolve p.values segment))) =
            some q.values := by
          rw [opened_values, resolve_values, hentered]
          rfl
        rw [assign_opened hopened hrest, ih hq hbelow, Entries.values_insert, resolve_values]
        rfl

/-- No mapping comes to stand at another place. -/
theorem labels_place_sublist (hp : Alone p path) (ho : o.labels = [])
    (h : place whole o p path = .ok (p', changed)) : p'.labels.Sublist p.labels := by
  induction path generalizing p p' changed with
  | nil =>
      cases h
      exact List.Sublist.refl _
  | cons segment rest ih =>
      by_cases hrest : rest = []
      · subst hrest
        cases h
        refine Entries.labels_insert_sublist ?_
        rw [ho]
        exact List.nil_sublist _
      · obtain ⟨label, q, q', c, hentered, hq, hbelow, rfl⟩ := place_alone hp hrest h
        refine Entries.labels_insert_sublist ?_
        rw [← labels_entered hentered]
        exact (List.Sublist.refl _).append (ih hq hbelow)

theorem values_put (hp : Alone p path) (o : Object) :
    (put p path o).map Entries.values = set p.values path o.value := by
  cases h : put p path o with
  | error e =>
      obtain ⟨key, hkey, rfl⟩ := put_error_iff.mp h
      exact (assign_error_iff.mpr ⟨key, hkey, rfl⟩).symm
  | ok p' =>
      obtain ⟨changed, hplace⟩ := put_ok_iff.mp h
      exact (assign_of_place hp hplace).symm

/-! ### What is kept everywhere -/

variable {store : Label → Objects} {x : Value}

theorem kept_insert (hkeys : s.map (·.1) = m.map (·.1))
    (hentries : ∀ k u u', m.get? k = some u → s.get? k = some u' → Value.Kept x u u')
    (hnew : ∀ u, m.get? (.text (resolve m segment)) = some u → Value.Kept x u v) :
    Value.Kept x (.map m) (.map (s.insert (.text (resolve m segment)) v)) := by
  refine .map ?_ fun k u u' hu hu' => ?_
  · exact (gains_insert_of_keys hkeys segment v).imp_right fun h => ⟨segment, h.2⟩
  · by_cases hk : Key.meaning (.text (resolve m segment)) = k.meaning
    · rw [← Entries.get?_congr hk] at hu hu'
      rw [Entries.get?_insert_self, Option.some_inj] at hu'
      exact hu' ▸ hnew u hu
    · rw [Entries.get?_insert_of_ne hk] at hu'
      exact hentries k u u' hu hu'

theorem holds_entered {k : Key} (hp : p.Holds store) (h : entered (p.get? k) = some (label, q)) :
    q.Holds store ∧ ∀ l ∈ label, q = store l := by
  cases hold : p.get? k with
  | none =>
      rw [hold] at h
      cases h
      exact ⟨trivial, by simp⟩
  | some u =>
      rw [hold] at h
      rcases u with (_ | _) | _ | ⟨label, n⟩ <;> cases h
      · exact ⟨trivial, by simp⟩
      · have hu := hp.of_get? hold
        exact ⟨hu.2, hu.1⟩

theorem kept_after (hp : p.Holds store)
    (h : ∀ c ∈ changed, Value.Kept x (.map (store c.1).values) (.map c.2.values)) (k : Key)
    (u u' : Value) (hu : p.values.get? k = some u) (hu' : (p.after changed).values.get? k = some u') :
    Value.Kept x u u' := by
  cases changed with
  | none =>
      cases hu.symm.trans hu'
      exact .same u
  | some c => exact Entries.kept_renewed (h c rfl) p hp k u u' hu hu'

/-- The mapping that comes out is kept, and so is the mapping that is told to have changed: the one
that stands elsewhere too. -/
theorem kept_place (hp : p.Holds store) (h : place whole o p path = .ok (p', changed)) :
    Value.Kept o.value (.map p.values) (.map p'.values) ∧
      ∀ c ∈ changed, Value.Kept o.value (.map (store c.1).values) (.map c.2.values) := by
  induction path generalizing p p' changed with
  | nil =>
      cases h
      exact ⟨.same _, by rintro _ ⟨⟩⟩
  | cons segment rest ih =>
      by_cases hrest : rest = []
      · subst hrest
        cases h
        refine ⟨?_, by rintro _ ⟨⟩⟩
        rw [Entries.values_insert, ← resolve_values]
        refine kept_insert rfl (fun k u u' hu hu' => ?_) fun u _ => .put u
        cases hu.symm.trans hu'
        exact .same u
      · obtain ⟨label, q, ⟨q', c⟩, hentered, hbelow, hr⟩ := (place_cons_ok_iff hrest).mp h
        obtain ⟨hq, hlabel⟩ := holds_entered hp hentered
        obtain ⟨hkept, hchanged⟩ := ih hq hbelow
        have hnearest : ∀ d ∈ c.or (label.map (·, q')),
            Value.Kept o.value (.map (store d.1).values) (.map d.2.values) := by
          intro d hd
          cases c with
          | some c =>
              cases hd
              exact hchanged _ rfl
          | none =>
              obtain ⟨l, hl, rfl⟩ := Option.map_eq_some_iff.mp hd
              exact hlabel l hl ▸ hkept
        cases hr
        refine ⟨?_, hnearest⟩
        rw [Entries.values_insert, ← resolve_values]
        refine kept_insert ?_ (kept_after hp hnearest) fun u hu => ?_
        · rw [Entries.keys_values, Entries.keys_values, Entries.keys_after]
        · have hopened := opened_values p (.text (resolve p segment))
          rw [hentered, ← resolve_values, hu] at hopened
          rcases opened_eq_some_iff.mp hopened with hmap | ⟨-, hmissing | hnull⟩
          · cases hmap
            exact hkept
          · cases hmissing
          · cases hnull
            exact .made _

/-! ### Laws -/

/-- `p'` is `p` with `o` put at the path. -/
structure Puts (p : Objects) (path : List String) (o : Object) (p' : Objects) : Prop where
  found : follow? (.map p'.values) path = some o.value
  keys : resolved p'.values path = resolved p.values path
  placed : (Value.map p'.values).at? ((resolved p.values path).map .text) = some o.value
  /-- What is put there afterwards comes in its place as if it had not been there. -/
  again : ∀ u, ∃ r, put p' path u = .ok r ∧ put p path u = .ok r
  gains : ∀ before segment after, path = before ++ segment :: after →
    ∃ n, follow? (.map p'.values) before = some (.map n) ∧
      Gains segment (before.foldl inner p.values) n
  /-- Nothing is removed at any level, also where a mapping on the path stands at other places too. -/
  kept : p.Consistent → Value.Kept o.value (.map p.values) (.map p'.values)
  /-- Every other place is as it was, if the path goes through nothing that stands at two places. -/
  apart : Alone p path → ∀ place, ¬ place <+: (resolved p.values path).map .text →
    ¬ (resolved p.values path).map .text <+: place →
      (Value.map p'.values).at? place = (Value.map p.values).at? place

/-- The laws of putting something at a path: it is found there afterwards, what is put there next
takes its place, and the mappings on the path only gain keys. Other places stay as they are, unless
they are in a mapping that is also on the path. -/
theorem put_laws (hpath : path ≠ []) (h : put p path o = .ok p') : Puts p path o p' := by
  obtain ⟨changed, hplace⟩ := put_ok_iff.mp h
  have hwritten := written_of_place hpath hplace
  constructor
  case found => exact hwritten.follow?
  case keys => exact hwritten.resolved
  case placed => rw [← hwritten.resolved, ← follow?_eq_at?, hwritten.follow?]
  case again =>
    intro u
    obtain ⟨r, c, hafter, hbefore, -⟩ := place_place hplace u
    exact ⟨r, put_ok_iff.mpr ⟨c, hafter⟩, put_ok_iff.mpr ⟨c, hbefore⟩⟩
  case gains => exact fun before segment after hsplit => hwritten.gains hsplit
  case kept =>
    rintro ⟨store, hp⟩
    exact (kept_place hp hplace).1
  case apart =>
    exact fun hp place habove hbelow =>
      at?_assign_of_apart (assign_of_place hp hplace) habove hbelow

/-- The objects of `rivalling`. -/
def rivals : Objects := Object.ofEntries rivalling

theorem alone_rivals (path : List String) : Alone rivals path := alone_ofEntries rivalling path

def sharedText : String := "foo: &x \x7bk: 1\x7d\nbar: *x\n"

/-- What a file of the text holds: one mapping at two places. -/
def shared : Objects :=
  [(.text "foo", .map (some ⟨"a.yaml", [0]⟩) [(.text "k", .scalar (.int 1))]),
   (.text "bar", .map (some ⟨"a.yaml", [0]⟩) [(.text "k", .scalar (.int 1))])]

/-- What the label of the mapping in the file stands for. -/
theorem consistent_shared : shared.Consistent :=
  ⟨fun _ => [(.text "k", .scalar (.int 1))], by simp [shared, Entries.Holds, Object.Holds]⟩

def settled : Mapping :=
  [(.text "b", .map []),
   (.text "B", .map [(.text "c", .text "x"), (.text "d", .map [(.text "e", .int 5)])]),
   (.int 1, .null)]

/-- The mapping under `B` gains a key, with a mapping of its own; the one under `b` does not. A mapping
that stands at two places keeps its keys at both. -/
theorem put_laws_rivalling :
    (∃ p, put rivals ["b", "d", "e"] (.scalar (.int 5)) = .ok p ∧ p.values = settled ∧
      follow? (.map p.values) ["b", "d", "e"] = some (.int 5) ∧ Alone rivals ["b", "d", "e"] ∧
      (Value.map p.values).at? [.text "b"] = (Value.map rivals.values).at? [.text "b"]) ∧
    ∃ p, put shared ["foo", "k"] (.scalar (.int 2)) = .ok p ∧ shared.Consistent ∧
      Value.Kept (.int 2) (.map shared.values) (.map p.values) := by
  have hput : put rivals ["b", "d", "e"] (.scalar (.int 5)) = .ok _ := rfl
  have hlaws := put_laws (by simp) hput
  have hkeys : (resolved rivals.values ["b", "d", "e"]).map Key.text =
      [.text "B", .text "d", .text "e"] := rfl
  have hshared : put shared ["foo", "k"] (.scalar (.int 2)) = .ok _ := rfl
  refine ⟨⟨_, hput, rfl, hlaws.found, alone_rivals _, ?_⟩, _, hshared, consistent_shared,
    (put_laws (by simp) hshared).kept consistent_shared⟩
  exact hlaws.apart (alone_rivals _) _ (by rw [hkeys]; decide) (by rw [hkeys]; decide)

/-- What is put into a mapping at one of its places is found at the other one too. -/
theorem put_shared :
    Yaml.document "a.yaml" sharedText.toList = .ok (.map (some ⟨"a.yaml", []⟩) shared) ∧
    ∃ p, put shared ["foo", "k"] (.scalar (.int 2)) = .ok p ∧
      ¬ ∀ place, ¬ place <+: (resolved shared.values ["foo", "k"]).map .text →
        ¬ (resolved shared.values ["foo", "k"]).map .text <+: place →
          (Value.map p.values).at? place = (Value.map shared.values).at? place := by
  have hput : put shared ["foo", "k"] (.scalar (.int 2)) = .ok _ := rfl
  refine ⟨Results.toOption_eq_some_iff.mp (by decide +kernel), _, hput, fun hapart => ?_⟩
  have hkeys : (resolved shared.values ["foo", "k"]).map Key.text = [.text "foo", .text "k"] := rfl
  have hbar := hapart [.text "bar", .text "k"] (by rw [hkeys]; decide) (by rw [hkeys]; decide)
  cases hbar

end Splice.Override
