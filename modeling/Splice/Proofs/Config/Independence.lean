import Splice.Proofs.Config.Placement
import Splice.Proofs.Text.Lowered
import Splice.Proofs.Value.Rearranged

namespace Splice.Override

open Entries Mapping Results

variable {m m' n n' : Mapping} {s t : String} {whole whole' p q rest : List String}
  {v w : Value}

/-! ### The same outcome up to the order of keys -/

/-- Both fail, or both give the same mapping up to the order of its keys. -/
inductive Agree : Except Fault Mapping → Except Fault Mapping → Prop
  | failed (d e : Fault) : Agree (.error d) (.error e)
  | rearranged {m m' : Mapping} (h : Rearranged m m') : Agree (.ok m) (.ok m')

namespace Agree

variable {r r' r'' : Except Fault Mapping}

theorem trans (h : Agree r r') (h' : Agree r' r'') : Agree r r'' := by
  cases h with
  | failed d e =>
      cases h' with
      | failed _ e => exact .failed d e
  | rearranged h =>
      cases h' with
      | rearranged h' => exact .rearranged (h.trans h')

theorem map {f g : Mapping → Mapping} (h : Agree r r')
    (hfg : ∀ n n', Rearranged n n' → Rearranged (f n) (g n')) : Agree (r.map f) (r'.map g) := by
  cases h with
  | failed d e => exact .failed d e
  | rearranged h => exact .rearranged (hfg _ _ h)

theorem bind {f g : Mapping → Except Fault Mapping} (h : Agree r r')
    (hfg : ∀ n n', Rearranged n n' → Agree (f n) (g n')) : Agree (r >>= f) (r' >>= g) := by
  cases h with
  | failed d e => exact .failed d e
  | rearranged h => exact hfg _ _ h

end Agree

/-! ### Rearranged mappings -/

theorem lastAlike?_cons (segment : String) (key : Key) (keys : List Key) :
    lastAlike? segment (key :: keys) = (lastAlike? segment keys).or (alike? segment key) := by
  rw [← List.singleton_append, lastAlike?_append, lastAlike?_singleton]

theorem alike?_eq_none {k segment : String} (h : Text.lowered k ≠ segment) :
    alike? segment (.text k) = none := if_neg h

theorem lastAlike?_rearranged (h : Rearranged m m') (segment : String) :
    lastAlike? segment (m.map (·.1)) = lastAlike? segment (m'.map (·.1)) := by
  induction h with
  | refl => rfl
  | trans _ _ ih ih' => exact ih.trans ih'
  | @swap k l apart v w m =>
      simp only [List.map_cons, lastAlike?_cons, Option.or_assoc]
      -- No segment has both keys for an answer.
      have hone : alike? segment (.text k) = none ∨ alike? segment (.text l) = none := by
        by_cases hk : Text.lowered k = segment
        · exact .inr (alike?_eq_none fun hl => apart (hk.trans hl.symm))
        · exact .inl (alike?_eq_none hk)
      rcases hone with hnone | hnone <;> simp [hnone]
  | cons e _ ih => simp only [List.map_cons, lastAlike?_cons, ih]
  | nested => rfl

theorem resolve_rearranged (h : Rearranged m m') (segment : String) :
    resolve m segment = resolve m' segment := by
  rw [resolve_eq_lastAlike?, resolve_eq_lastAlike?, lastAlike?_rearranged h]

theorem opened_similar {a b : Option Value} (h : Rearranged.Similar a b) :
    (opened a = none ∧ opened b = none) ∨
      ∃ n n', opened a = some n ∧ opened b = some n' ∧ Rearranged n n' := by
  rcases h with rfl | ⟨n, n', rfl, rfl, h⟩
  · cases hopened : opened a with
    | none => exact .inl ⟨rfl, rfl⟩
    | some n => exact .inr ⟨n, n, rfl, rfl, .refl n⟩
  · exact .inr ⟨n, n', rfl, rfl, h⟩

theorem assign_rearranged (h : Rearranged m m') (whole path : List String) (v : Value) :
    Agree (assign whole v m path) (assign whole v m' path) := by
  induction path generalizing m m' with
  | nil => exact .rearranged h
  | cons s rest ih =>
      have hkey := resolve_rearranged h s
      cases rest with
      | nil =>
          rw [assign, assign, hkey]
          exact .rearranged (h.insert _ v)
      | cons next rest =>
          rcases opened_similar (h.get? (.text (resolve m s))) with
            ⟨hn, hn'⟩ | ⟨n, n', hn, hn', hbelow⟩
          · rw [hkey] at hn'
            rw [assign_closed hn (by simp), assign_closed hn' (by simp)]
            exact .failed _ _
          · rw [hkey] at hn'
            rw [assign_opened hn (by simp), assign_opened hn' (by simp), hkey]
            refine (ih hbelow).map fun o o' ho => ?_
            exact (h.insert _ (.map o)).trans (ho.insert_map m' _)

/-! ### Two paths -/

/-- Neither path goes on from the other. -/
def Independent (p q : List String) : Prop := ¬ p <+: q ∧ ¬ q <+: p

theorem Independent.symm (h : Independent p q) : Independent q p := And.symm h

theorem independent_cons_self : Independent (s :: p) (s :: q) ↔ Independent p q := by
  simp [Independent, List.cons_prefix_cons]

theorem Independent.ne_nil (h : Independent p q) : p ≠ [] := by
  rintro rfl
  exact h.1 List.nil_prefix

section

variable {α : Type}

theorem lowered_resolve (h : Text.lowered s = s) (m : Entries α) :
    Text.lowered (resolve m s) = s := by
  rcases resolve_eq_or_mem m s with hself | ⟨hlower, -⟩
  · rw [hself, h]
  · exact hlower

theorem lowered_resolve_ne (hs : Text.lowered s = s) (ht : Text.lowered t = t) (hne : s ≠ t)
    (m : Entries α) : Text.lowered (resolve m s) ≠ Text.lowered (resolve m t) := by
  rw [lowered_resolve hs, lowered_resolve ht]
  exact hne

theorem resolve_insert_of_ne (hs : Text.lowered s = s) (hne : s ≠ t) (m : Entries α) (v : α) :
    resolve (m.insert (.text (resolve m s)) v) t = resolve m t := by
  cases h : m.get? (.text (resolve m s)) with
  | some u => exact resolve_congr (keys_insert_present (by rw [h]; rfl) v) t
  | none =>
      have hnone : alike? t (.text s) = none := alike?_eq_none (hs.symm ▸ hne)
      rw [resolve_eq_lastAlike?, keys_insert_absent h, resolve_eq_of_absent h, lastAlike?_append,
        lastAlike?_singleton, hnone, Option.none_or, ← resolve_eq_lastAlike?]

theorem get?_insert_resolve (hs : Text.lowered s = s) (ht : Text.lowered t = t) (hne : s ≠ t)
    (m : Entries α) (v : α) :
    (m.insert (.text (resolve m s)) v).get? (.text (resolve m t)) = m.get? (.text (resolve m t)) :=
  get?_insert_of_ne (meaning_ne_of_lowered (lowered_resolve_ne hs ht hne m))

end

theorem assign_assign_of_ne (hs : Text.lowered s = s) (ht : Text.lowered t = t) (hne : s ≠ t)
    (m : Mapping) :
    (assign whole v m (s :: p) >>= fun m' => assign whole' w m' (t :: q)) =
      (renew whole v (resolve m s) (m.get? (.text (resolve m s))) p >>= fun x =>
        (renew whole' w (resolve m t) (m.get? (.text (resolve m t))) q).map fun y =>
          (m.insert (.text (resolve m s)) x).insert (.text (resolve m t)) y) := by
  rw [assign_cons]
  cases renew whole v (resolve m s) (m.get? (.text (resolve m s))) p with
  | error e => rfl
  | ok x =>
      show assign whole' w (m.insert (.text (resolve m s)) x) (t :: q) = _
      rw [assign_cons, resolve_insert_of_ne hs hne, get?_insert_resolve hs ht hne]
      rfl

theorem assign_assign_of_opened (h : opened (m.get? (.text (resolve m s))) = some n)
    (hp : p ≠ []) (hq : q ≠ []) :
    (assign whole v m (s :: p) >>= fun m' => assign whole' w m' (s :: q)) =
      (assign whole v n p >>= fun n' => assign whole' w n' q).map fun n' =>
        m.insert (.text (resolve m s)) (.map n') := by
  rw [assign_opened h hp]
  cases assign whole v n p with
  | error e => rfl
  | ok n' =>
      show assign whole' w (m.insert (.text (resolve m s)) (.map n')) (s :: q) =
        (assign whole' w n' q).map _
      have hopened : opened ((m.insert (.text (resolve m s)) (.map n')).get?
          (.text (resolve (m.insert (.text (resolve m s)) (.map n')) s))) = some n' := by
        rw [resolve_insert, get?_insert_self]
        rfl
      rw [assign_opened hopened hq, resolve_insert]
      simp only [insert_insert]

theorem assign_comm (hpq : Independent p q) (hp : ∀ s ∈ p, Text.lowered s = s)
    (hq : ∀ s ∈ q, Text.lowered s = s) (m : Mapping) :
    Agree (assign whole v m p >>= fun m' => assign whole' w m' q)
      (assign whole' w m q >>= fun m' => assign whole v m' p) := by
  induction p generalizing q m with
  | nil => exact absurd rfl hpq.ne_nil
  | cons s p ih =>
      cases q with
      | nil => exact absurd rfl hpq.symm.ne_nil
      | cons t q =>
          obtain ⟨hs, hps⟩ := List.forall_mem_cons.mp hp
          obtain ⟨ht, hqs⟩ := List.forall_mem_cons.mp hq
          -- Paths that start alike part further down, in the mapping that both open.
          by_cases hst : s = t
          · subst hst
            have hbelow := independent_cons_self.mp hpq
            cases hopened : opened (m.get? (.text (resolve m s))) with
            | none =>
                rw [assign_closed hopened hbelow.ne_nil, assign_closed hopened hbelow.symm.ne_nil]
                exact .failed _ _
            | some n =>
                rw [assign_assign_of_opened hopened hbelow.ne_nil hbelow.symm.ne_nil,
                  assign_assign_of_opened hopened hbelow.symm.ne_nil hbelow.ne_nil]
                exact (ih hbelow hps hqs n).map fun o o' ho => ho.insert_map m _
          · rw [assign_assign_of_ne hs ht hst, assign_assign_of_ne ht hs (Ne.symm hst)]
            cases renew whole v (resolve m s) (m.get? (.text (resolve m s))) p with
            | error d =>
                cases renew whole' w (resolve m t) (m.get? (.text (resolve m t))) q with
                | error e => exact .failed d e
                | ok y => exact .failed d d
            | ok x =>
                cases renew whole' w (resolve m t) (m.get? (.text (resolve m t))) q with
                | error e => exact .failed e e
                | ok y =>
                    exact .rearranged
                      (rearranged_insert_insert (lowered_resolve_ne hs ht hst m) m x y)

/-! ### Any order -/

/-- Set values at paths in turn, up to the first that fails. -/
def setEach (m : Mapping) (overrides : List (List String × Value)) : Except Fault Mapping :=
  overrides.foldlM (fun m o => set m o.1 o.2) m

/-- No place is at, above or below another. -/
def Free (overrides : List (List String × Value)) : Prop :=
  overrides.Pairwise fun o o' => Independent o.1 o'.1

variable {os os' : List (List String × Value)}

theorem setEach_rearranged (h : Rearranged m m') (os : List (List String × Value)) :
    Agree (setEach m os) (setEach m' os) := by
  induction os generalizing m m' with
  | nil => exact .rearranged h
  | cons o os ih =>
      rw [setEach, setEach, List.foldlM_cons, List.foldlM_cons]
      exact (assign_rearranged h o.1 o.1 o.2).bind fun n n' hn => ih hn

theorem setEach_perm (hperm : os.Perm os') (hlower : ∀ o ∈ os, ∀ s ∈ o.1, Text.lowered s = s)
    (hfree : Free os) (h : Rearranged m m') :
    Agree (setEach m os) (setEach m' os') := by
  induction hperm generalizing m m' with
  | nil => exact .rearranged h
  | cons o _ ih =>
      rw [setEach, setEach, List.foldlM_cons, List.foldlM_cons]
      exact (assign_rearranged h o.1 o.1 o.2).bind fun n n' hn =>
        ih (fun o ho => hlower o (List.mem_cons_of_mem _ ho)) (List.pairwise_cons.mp hfree).2 hn
  | swap o o' os =>
      have hpq : Independent o'.1 o.1 := (List.pairwise_cons.mp hfree).1 o List.mem_cons_self
      have hcomm : Agree (set m o'.1 o'.2 >>= fun m => set m o.1 o.2)
          (set m o.1 o.2 >>= fun m => set m o'.1 o'.2) :=
        assign_comm hpq (hlower o' List.mem_cons_self)
          (hlower o (List.mem_cons_of_mem _ List.mem_cons_self)) m
      refine Agree.trans ?_ (setEach_rearranged h (o :: o' :: os))
      simp only [setEach, List.foldlM_cons, ← bind_assoc]
      exact hcomm.bind fun n n' hn => setEach_rearranged hn os
  | trans h₁ _ ih₁ ih₂ =>
      have hlower' := fun o ho => hlower o (h₁.mem_iff.mpr ho)
      have hfree' : Free _ := h₁.pairwise hfree fun h => h.symm
      exact (ih₁ hlower hfree (.refl m)).trans (ih₂ hlower' hfree' h)

/-! ### Mappings that stand at several places -/

variable {cfg next : Objects} {o : Object} {changed : Option (Label × Objects)}

/-- What has been put somewhere brings no other path to further mappings that have a label. -/
theorem along_place_subset (hp : ∀ s ∈ p, Text.lowered s = s) (hq : ∀ s ∈ q, Text.lowered s = s)
    (halone : Alone cfg p) (ho : o.labels = []) (h : place whole o cfg p = .ok (next, changed)) :
    along next q ⊆ along cfg q := by
  induction p generalizing q cfg next changed with
  | nil =>
      cases h
      exact List.Subset.refl _
  | cons s p ih =>
      cases q with
      | nil => exact List.nil_subset _
      | cons t q =>
          obtain ⟨hs, hps⟩ := List.forall_mem_cons.mp hp
          obtain ⟨ht, hqs⟩ := List.forall_mem_cons.mp hq
          by_cases hst : s = t
          · subst hst
            by_cases hrest : p = []
            · subst hrest
              cases h
              intro l hl
              have hlabel := along_subset_entry hl
              rw [resolve_insert, get?_insert_self, Option.map_some, Option.getD_some, ho] at hlabel
              cases hlabel
            · obtain ⟨label, n, n', c, hentered, hn, hplace, rfl⟩ := place_alone halone hrest h
              exact along_insert_subset hentered (ih hps hqs hn hplace)
          · obtain ⟨x, rfl⟩ := insert_of_place halone h
            rw [along_congr (resolve_insert_of_ne hs hst cfg x)
              (get?_insert_resolve hs ht hst cfg x) q]
            exact List.Subset.refl _

theorem Alone.put (h : Alone cfg q) (hp : ∀ s ∈ p, Text.lowered s = s)
    (hq : ∀ s ∈ q, Text.lowered s = s) (halone : Alone cfg p) (ho : o.labels = [])
    (hput : put cfg p o = .ok next) : Alone next q := by
  obtain ⟨changed, hplace⟩ := put_ok_iff.mp hput
  intro l hl
  exact Nat.le_trans ((labels_place_sublist halone ho hplace).count_le l)
    (h l (along_place_subset hp hq halone ho hplace hl))

/-- Put values at paths in turn, up to the first that fails. -/
def putEach (p : Objects) (overrides : List (List String × Value)) : Except Fault Objects :=
  overrides.foldlM (fun p o => put p o.1 (.ofValue o.2)) p

/-- None of the paths goes through a mapping that stands at two places. -/
def Apart (p : Objects) (overrides : List (List String × Value)) : Prop :=
  ∀ o ∈ overrides, Alone p o.1

/-- Putting a value is setting it where the path goes through nothing that stands twice. -/
theorem put_ofValue {o : List String × Value} (h : Alone cfg o.1) :
    (put cfg o.1 (.ofValue o.2)).map Entries.values = set cfg.values o.1 o.2 := by
  rw [values_put h, Object.value_ofValue]

theorem Apart.put {o : List String × Value} (h : Apart cfg (o :: os))
    (hlower : ∀ o' ∈ o :: os, ∀ s ∈ o'.1, Text.lowered s = s)
    (hput : Override.put cfg o.1 (.ofValue o.2) = .ok next) : Apart next os := by
  obtain ⟨ho, hos⟩ := List.forall_mem_cons.mp h
  obtain ⟨hlo, hlos⟩ := List.forall_mem_cons.mp hlower
  exact fun o' ho' => (hos o' ho').put hlo (hlos o' ho') ho (Object.labels_ofValue o.2) hput

theorem values_putEach (h : Apart cfg os) (hlower : ∀ o ∈ os, ∀ s ∈ o.1, Text.lowered s = s) :
    (putEach cfg os).map Entries.values = setEach cfg.values os := by
  induction os generalizing cfg with
  | nil => rfl
  | cons o os ih =>
      rw [putEach, setEach, List.foldlM_cons, List.foldlM_cons, ← put_ofValue (h o List.mem_cons_self)]
      cases hput : put cfg o.1 (.ofValue o.2) with
      | error e => rfl
      | ok next => exact ih (h.put hlower hput) fun o' ho' => hlower o' (List.mem_cons_of_mem _ ho')

/-! ### Settings in any order -/

/-- The path and the value that a setting stands for. -/
def reading (setting : String × String) : Except Fault (List String × Value) := do
  let name := (settingName? setting.1).getD ""
  if name.isEmpty then throw .emptyName
  return (← path name, ← Coerce.value setting.2)

theorem result_apply (cfg : Objects) (setting : String × String) :
    (apply cfg setting).result = reading setting >>= fun o => put cfg o.1 (.ofValue o.2) := by
  rw [apply, reading]
  generalize (settingName? setting.1).getD "" = name
  cases name.isEmpty with
  | true => rfl
  | false =>
      rw [if_neg Bool.false_ne_true, if_neg Bool.false_ne_true]
      cases path name with
      | error e => rfl
      | ok q =>
          cases Coerce.value setting.2 with
          | error e => rfl
          | ok v =>
              show (Outcome.log _ _ _ >>= fun _ => liftM (put cfg q (.ofValue v))).result = _
              rw [Outcome.log_bind]
              rfl

theorem lowered_path {name : String} (h : path name = .ok p) : ∀ s ∈ p, Text.lowered s = s := by
  rw [path] at h
  split at h
  · cases h
  · cases h
    intro s hs
    obtain ⟨seg, -, rfl⟩ := List.mem_map.mp hs
    rw [Text.lowered, String.toList_ofList, Text.lower_lower]

theorem lowered_reading {setting : String × String} {o : List String × Value}
    (h : reading setting = .ok o) : ∀ s ∈ o.1, Text.lowered s = s := by
  rw [reading] at h
  generalize (settingName? setting.1).getD "" = name at h
  cases hempty : name.isEmpty with
  | true =>
      rw [hempty] at h
      cases h
  | false =>
      rw [hempty, if_neg Bool.false_ne_true] at h
      obtain ⟨p, hp, h⟩ := bind_ok_iff.mp h
      obtain ⟨v, -, h⟩ := bind_ok_iff.mp h
      cases h
      exact lowered_path hp

/-- Set what has been read in turn, up to the first that could not be read or set. -/
def setRead (m : Mapping) (readings : List (Except Fault (List String × Value))) :
    Except Fault Mapping :=
  readings.foldlM (fun m r => r >>= fun o => set m o.1 o.2) m

/-- The overrides that could be read. -/
def overrides (readings : List (Except Fault (List String × Value))) :
    List (List String × Value) :=
  readings.filterMap Except.toOption

variable {rs rs' : List (Except Fault (List String × Value))}

theorem setRead_error {e : Fault} (h : .error e ∈ rs) (m : Mapping) :
    ∃ d, setRead m rs = .error d := by
  induction rs generalizing m with
  | nil => cases h
  | cons r rs ih =>
      rw [setRead, List.foldlM_cons]
      cases hset : (r >>= fun o => set m o.1 o.2) with
      | error d => exact ⟨d, rfl⟩
      | ok m' =>
          rcases List.mem_cons.mp h with rfl | h
          · cases hset
          · exact ih h m'

theorem setRead_ok (h : ∀ e, .error e ∉ rs) (m : Mapping) :
    setRead m rs = setEach m (overrides rs) := by
  induction rs generalizing m with
  | nil => rfl
  | cons r rs ih =>
      cases r with
      | error e => exact absurd List.mem_cons_self (h e)
      | ok o =>
          have hrest : ∀ e, .error e ∉ rs := fun e he => h e (List.mem_cons_of_mem _ he)
          have hoverrides : overrides (.ok o :: rs) = o :: overrides rs := rfl
          rw [hoverrides, setRead, setEach, List.foldlM_cons, List.foldlM_cons]
          exact bind_congr fun n => ih hrest n

theorem setRead_perm (hperm : rs.Perm rs')
    (hlower : ∀ o ∈ overrides rs, ∀ s ∈ o.1, Text.lowered s = s) (hfree : Free (overrides rs))
    (m : Mapping) : Agree (setRead m rs) (setRead m rs') := by
  by_cases hfails : ∃ e, .error e ∈ rs
  · obtain ⟨e, he⟩ := hfails
    obtain ⟨d, hd⟩ := setRead_error he m
    obtain ⟨d', hd'⟩ := setRead_error (hperm.mem_iff.mp he) m
    rw [hd, hd']
    exact .failed d d'
  · rw [not_exists] at hfails
    have hfails' : ∀ e, .error e ∉ rs' := fun e he => hfails e (hperm.mem_iff.mpr he)
    rw [setRead_ok hfails, setRead_ok hfails']
    exact setEach_perm (hperm.filterMap _) hlower hfree (.refl m)

/-- The mapping that settings leave, if none of them fails. -/
def left (run : Objects × Outcome Unit) : Except Fault Mapping :=
  run.2.result.map fun _ => run.1.values

theorem lowered_overrides (vs : List (String × String)) :
    ∀ o ∈ overrides (vs.map reading), ∀ s ∈ o.1, Text.lowered s = s := by
  intro o ho
  obtain ⟨r, hr, ho⟩ := List.mem_filterMap.mp ho
  obtain ⟨v, -, rfl⟩ := List.mem_map.mp hr
  exact lowered_reading (toOption_eq_some_iff.mp ho)

theorem left_applyEach {vs : List (String × String)} (h : Apart cfg (overrides (vs.map reading))) :
    left (applyEach cfg vs) = setRead cfg.values (vs.map reading) := by
  induction vs generalizing cfg with
  | nil => rfl
  | cons v vs ih =>
      have hlower := lowered_overrides (v :: vs)
      rw [List.map_cons, setRead, List.foldlM_cons, applyEach]
      rw [List.map_cons] at h hlower
      cases hread : reading v with
      | error e =>
          have happly : (apply cfg v).result = .error e := by rw [result_apply, hread]; rfl
          rw [happly]
          rfl
      | ok o =>
          have happly : (apply cfg v).result = put cfg o.1 (.ofValue o.2) := by
            rw [result_apply, hread]
            rfl
          rw [hread] at h hlower
          show _ = set cfg.values o.1 o.2 >>= fun m => setRead m (vs.map reading)
          rw [← put_ofValue (h o List.mem_cons_self), happly]
          cases hput : put cfg o.1 (.ofValue o.2) with
          | error e => rfl
          | ok next => exact ih (h.put hlower hput)

/-- Values at places of which none is at, above or below another can be put in any order, if their
paths go through nothing that stands at two places: it fails in both orders, or leaves the same up to
the order of keys. So the names of variables may sort as they like. -/
theorem overrides_perm (cfg : Objects) :
    (∀ os os', os.Perm os' → (∀ o ∈ os, ∀ s ∈ o.1, Text.lowered s = s) → Free os → Apart cfg os →
      Agree ((putEach cfg os).map Entries.values) ((putEach cfg os').map Entries.values)) ∧
    ∀ bindings vs, ((settings bindings).map reading).Perm (vs.map reading) →
      Free (overrides ((settings bindings).map reading)) →
      Apart cfg (overrides ((settings bindings).map reading)) →
      Agree (left (applyAll cfg bindings)) (left (applyEach cfg vs)) := by
  refine ⟨fun os os' hperm hlower hfree hapart => ?_, fun bindings vs hperm hfree hapart => ?_⟩
  · have hapart' : Apart cfg os' := fun o ho => hapart o (hperm.mem_iff.mpr ho)
    have hlower' := fun o ho => hlower o (hperm.mem_iff.mpr ho)
    rw [values_putEach hapart hlower, values_putEach hapart' hlower']
    exact setEach_perm hperm hlower hfree (.refl _)
  · have hapart' : Apart cfg (overrides (vs.map reading)) :=
      fun o ho => hapart o ((hperm.filterMap _).mem_iff.mpr ho)
    rw [applyAll, left_applyEach hapart, left_applyEach hapart']
    exact setRead_perm hperm (lowered_overrides _) hfree cfg.values

/-- The second name sorts behind the first because it is in lower case. -/
def crossing : List (String × String) := [("ARCHDSL_B__D", "5"), ("ARCHDSL_b__e__f", "x")]

/-- Either way both keys come to stand under `B`, in the order in which they are set. -/
theorem overrides_perm_rivalling :
    (putEach rivals [(["b", "d"], .int 5), (["b", "e", "f"], .text "x")]).map Entries.values =
      .ok [(.text "b", .map []), (.text "B", .map [(.text "c", .text "x"), (.text "d", .int 5),
        (.text "e", .map [(.text "f", .text "x")])]), (.int 1, .null)] ∧
    Agree ((putEach rivals [(["b", "d"], .int 5), (["b", "e", "f"], .text "x")]).map Entries.values)
      ((putEach rivals [(["b", "e", "f"], .text "x"), (["b", "d"], .int 5)]).map Entries.values) ∧
    Agree (left (applyAll rivals crossing)) (left (applyEach rivals crossing.reverse)) := by
  have hfree : Free [(["b", "d"], .int 5), (["b", "e", "f"], .text "x")] := by
    simp [Free, Independent]
  have hsettings : settings crossing = crossing :=
    List.mergeSort_of_pairwise (by decide +kernel)
  have hread : crossing.map reading =
      [.ok (["b", "d"], .int 5), .ok (["b", "e", "f"], .text "x")] := rfl
  have hapart (os : List (List String × Value)) : Apart rivals os := fun o _ => alone_rivals o.1
  refine ⟨rfl, (overrides_perm rivals).1 _ _ (.swap _ _ _) (by decide +kernel) hfree (hapart _),
    (overrides_perm rivals).2 _ _ ?_ ?_ (hapart _)⟩
  · rw [hsettings]
    exact (List.reverse_perm crossing).symm.map _
  · rw [hsettings, hread]
    exact hfree

/-- In a mapping that stands at two places, the last of two values put at them is found at both. -/
theorem overrides_shared :
    Yaml.document "a.yaml" sharedText.toList = .ok (.map (some ⟨"a.yaml", []⟩) shared) ∧
    Free [(["foo", "k"], .int 1), (["bar", "k"], .int 2)] ∧ ∃ p q,
      putEach shared [(["foo", "k"], .int 1), (["bar", "k"], .int 2)] = .ok p ∧
      putEach shared [(["bar", "k"], .int 2), (["foo", "k"], .int 1)] = .ok q ∧
      (Value.map p.values).at? [.text "foo", .text "k"] = some (.int 2) ∧
      (Value.map q.values).at? [.text "foo", .text "k"] = some (.int 1) := by
  have hread : (Yaml.document "a.yaml" sharedText.toList).toOption =
      some (.map (some ⟨"a.yaml", []⟩) shared) := by decide +kernel
  exact ⟨toOption_eq_some_iff.mp hread, by simp [Free, Independent], _, _, rfl, rfl, rfl, rfl⟩

end Splice.Override
