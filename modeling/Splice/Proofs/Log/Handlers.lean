import Mathlib.Data.List.Nodup
import Splice.Proofs.FileTree.Places
import Splice.Log.Setup

namespace Splice.Log.Setup

variable {s : Setup} {h k : Handler} {files : FileTree} {name : String} {path : Option Path}
  {target : Target} {level : Level} {n : Nat}

def own (s : Setup) : List Handler := s.handlers.filter (·.own)

def others (s : Setup) : List Handler := s.handlers.filter (!·.own)

/-- The handler is the only one of the setup's own, the one it knows of, and where records are to go. -/
structure Holds (s : Setup) (h : Handler) : Prop where
  own : s.own = [h]
  current : s.current = some h.serial
  target : s.target = some h.target

def relevel (s : Setup) (level : Level) : Setup := { s with level := level }

/-! ### Steps -/

/-- What can happen to a setup: calls, whatever the files are by then, and other parties that install and
remove handlers of their own or set the level below which no record passes. -/
inductive Step
  | configure (files : FileTree) (name : String) (path : Option Path)
  | reset
  | arrive (target : Target) (level : Level)
  | leave (serial : Nat)
  | relevel (level : Level)

inductive Step.IsCall : Step → Prop
  | configure (files : FileTree) (name : String) (path : Option Path) :
      IsCall (.configure files name path)
  | reset : IsCall .reset

def step (s : Setup) : Step → Setup
  | .configure files name path => (s.configure files name path).1
  | .reset => s.reset
  | .arrive target level =>
    { s with handlers := s.handlers ++ [⟨s.next, false, target, level⟩], next := s.next + 1 }
  | .leave serial => { s with handlers := s.handlers.filter fun h => h.own || h.serial ≠ serial }
  | .relevel level => s.relevel level

def run (s : Setup) (steps : List Step) : Setup := steps.foldl step s

/-- How a call that sends records of a level elsewhere can end. Only where a handler is known is the target
that is noted believed; a call that fails leaves it behind without one. -/
inductive Configures (s : Setup) (files : FileTree) (level : Level) (path : Option Path) :
    Setup × Except Fault FileTree → Prop
  | unresolved (e : Fault) (htarget : Target.ofPath files path = .error e) :
      Configures s files level path (s, .error e)
  | adjusted (target : Target) (htarget : Target.ofPath files path = .ok target)
      (hcurrent : s.current.isSome = true) (hsame : s.target = some target) :
      Configures s files level path ((s.relevel level).adjust level, .ok files)
  | unprepared (target : Target) (htarget : Target.ofPath files path = .ok target)
      (hother : ¬(s.current.isSome = true ∧ s.target = some target)) (e : Fault)
      (hprepare : target.prepare files = .error e) :
      Configures s files level path ((s.relevel level).drop, .error e)
  | installed (target : Target) (htarget : Target.ofPath files path = .ok target)
      (hother : ¬(s.current.isSome = true ∧ s.target = some target)) (files' : FileTree)
      (hprepare : target.prepare files = .ok files') :
      Configures s files level path ((s.relevel level).drop.install target level, .ok files')

theorem configures (s : Setup) (files : FileTree) (name : String) (path : Option Path) :
    Configures s files (.ofName name) path (s.configure files name path) := by
  unfold configure
  generalize Level.ofName name = level
  cases htarget : Target.ofPath files path with
  | error e => exact .unresolved e htarget
  | ok target =>
      dsimp only [direct]
      split
      · rename_i hsame
        exact .adjusted target htarget hsame.1 hsame.2
      · rename_i hother
        cases hprepare : target.prepare files with
        | error e => exact .unprepared target htarget hother e hprepare
        | ok files' => exact .installed target htarget hother files' hprepare

/-! ### The invariant -/

/-- Handlers are told apart by their numbers, and the setup's own is the one it knows of. -/
structure Coherent (s : Setup) : Prop where
  distinct : (s.handlers.map Handler.serial).Nodup
  numbered : ∀ h ∈ s.handlers, h.serial < s.next
  own_eq : ∀ h ∈ s.handlers, h.own = s.isCurrent h
  present : ∀ n, s.current = some n → ∃ h ∈ s.handlers, h.serial = n ∧ s.target = some h.target

theorem coherent_start : Coherent start where
  distinct := List.nodup_nil
  numbered := by rintro h ⟨⟩
  own_eq := by rintro h ⟨⟩
  present := by rintro n ⟨⟩

theorem isCurrent_iff : s.isCurrent h = true ↔ s.current = some h.serial := decide_eq_true_iff

theorem isCurrent_of_none (hnone : s.current = none) (h : Handler) : s.isCurrent h = false := by
  rw [isCurrent, hnone]
  rfl

theorem Coherent.relevel (hs : Coherent s) (level : Level) : Coherent (s.relevel level) :=
  ⟨hs.distinct, hs.numbered, hs.own_eq, hs.present⟩

theorem Coherent.drop (hs : Coherent s) : Coherent s.drop where
  distinct := hs.distinct.sublist (List.filter_sublist.map Handler.serial)
  numbered h hh := hs.numbered h (List.mem_of_mem_filter hh)
  own_eq h hh := by
    obtain ⟨hh, hother⟩ := List.mem_filter.mp hh
    rw [hs.own_eq h hh, isCurrent_of_none (s := s.drop) rfl]
    simpa using hother
  present n hn := nomatch hn

theorem Coherent.reset (hs : Coherent s) : Coherent s.reset :=
  ⟨hs.drop.distinct, hs.drop.numbered, hs.drop.own_eq, fun _ hn => nomatch hn⟩

theorem mem_adjust_iff : k ∈ (s.adjust level).handlers ↔
    ∃ h ∈ s.handlers, k = if s.isCurrent h then { h with level := level } else h := by
  simp only [adjust, List.mem_map, eq_comm]

theorem map_serial_adjust (s : Setup) (level : Level) :
    (s.adjust level).handlers.map Handler.serial = s.handlers.map Handler.serial := by
  rw [adjust, List.map_map]
  refine List.map_congr_left fun h _ => ?_
  dsimp only [Function.comp]
  split <;> rfl

theorem Coherent.adjust (hs : Coherent s) (level : Level) : Coherent (s.adjust level) where
  distinct := by
    rw [map_serial_adjust]
    exact hs.distinct
  numbered k hk := by
    obtain ⟨h, hh, rfl⟩ := mem_adjust_iff.mp hk
    split <;> exact hs.numbered h hh
  own_eq k hk := by
    obtain ⟨h, hh, rfl⟩ := mem_adjust_iff.mp hk
    split <;> exact hs.own_eq h hh
  present n hn := by
    obtain ⟨h, hh, hserial, htarget⟩ := hs.present n hn
    refine ⟨_, mem_adjust_iff.mpr ⟨h, hh, rfl⟩, ?_⟩
    split <;> exact ⟨hserial, htarget⟩

theorem nodup_snoc (hs : Coherent s) (hserial : h.serial = s.next) :
    ((s.handlers ++ [h]).map Handler.serial).Nodup := by
  rw [List.map_append, List.map_singleton, ← List.concat_eq_append, List.nodup_concat]
  refine ⟨?_, hs.distinct⟩
  intro hmem
  obtain ⟨k, hk, heq⟩ := List.mem_map.mp hmem
  have := hs.numbered k hk
  omega

theorem numbered_snoc (hs : Coherent s) (hserial : h.serial = s.next) :
    ∀ k ∈ s.handlers ++ [h], k.serial < s.next + 1 := by
  intro k hk
  rcases List.mem_append.mp hk with hk | hk
  · exact Nat.lt_succ_of_lt (hs.numbered k hk)
  · rw [List.mem_singleton.mp hk, hserial]
    exact Nat.lt_succ_self _

theorem Coherent.install (hs : Coherent s) (hnone : s.current = none) (target : Target)
    (level : Level) : Coherent (s.install target level) where
  distinct := nodup_snoc hs rfl
  numbered := numbered_snoc hs rfl
  own_eq k hk := by
    rcases List.mem_append.mp hk with hk | hk
    · have hlt := hs.numbered k hk
      have hother : (s.install target level).isCurrent k = false := by
        rw [← Bool.not_eq_true, isCurrent_iff]
        intro hcurrent
        exact absurd (Option.some.inj hcurrent) (Nat.ne_of_gt hlt)
      rw [hs.own_eq k hk, isCurrent_of_none hnone, hother]
    · rw [List.mem_singleton.mp hk]
      exact (isCurrent_iff.mpr rfl).symm
  present n hn :=
    ⟨_, List.mem_append_right _ List.mem_cons_self, Option.some.inj hn, rfl⟩

theorem Coherent.configure (hs : Coherent s) (files : FileTree) (name : String)
    (path : Option Path) : Coherent (s.configure files name path).1 := by
  have h := configures s files name path
  generalize s.configure files name path = r, Level.ofName name = level at h
  cases h with
  | unresolved e htarget => exact hs
  | adjusted target htarget hcurrent hsame => exact (hs.relevel _).adjust _
  | unprepared target htarget hother e hprepare => exact (hs.relevel _).drop
  | installed target htarget hother files' hprepare => exact (hs.relevel _).drop.install rfl _ _

theorem Coherent.exists_own (hs : Coherent s) (hn : s.current = some n) :
    ∃ h ∈ s.handlers, h.serial = n ∧ s.target = some h.target ∧ h.own = true := by
  obtain ⟨h, hh, hserial, htarget⟩ := hs.present n hn
  refine ⟨h, hh, hserial, htarget, ?_⟩
  rw [hs.own_eq h hh, isCurrent_iff, hserial]
  exact hn

theorem Coherent.isCurrent_new (hs : Coherent s) (hserial : h.serial = s.next) :
    s.isCurrent h = false := by
  rw [← Bool.not_eq_true, isCurrent_iff]
  intro hcurrent
  obtain ⟨k, hk, hsame, -⟩ := hs.present h.serial hcurrent
  have := hs.numbered k hk
  omega

theorem Coherent.step (hs : Coherent s) (a : Step) : Coherent (s.step a) := by
  cases a with
  | configure files name path => exact hs.configure files name path
  | reset => exact hs.reset
  | arrive target level =>
      refine ⟨nodup_snoc hs rfl, numbered_snoc hs rfl, ?_, ?_⟩
      · intro k hk
        rcases List.mem_append.mp hk with hk | hk
        · exact hs.own_eq k hk
        · rw [List.mem_singleton.mp hk]
          exact (hs.isCurrent_new rfl).symm
      · intro n hn
        obtain ⟨h, hh, hpresent⟩ := hs.present n hn
        exact ⟨h, List.mem_append_left _ hh, hpresent⟩
  | leave serial =>
      refine ⟨hs.distinct.sublist (List.filter_sublist.map Handler.serial),
        fun h hh => hs.numbered h (List.mem_of_mem_filter hh),
        fun h hh => hs.own_eq h (List.mem_of_mem_filter hh), ?_⟩
      intro n hn
      obtain ⟨h, hh, hserial, htarget, hown⟩ := hs.exists_own hn
      exact ⟨h, List.mem_filter.mpr ⟨hh, by rw [hown, Bool.true_or]⟩, hserial, htarget⟩
  | relevel level => exact hs.relevel level

theorem Coherent.run (hs : Coherent s) (steps : List Step) : Coherent (s.run steps) := by
  induction steps generalizing s with
  | nil => exact hs
  | cons a steps ih => exact ih (hs.step a)

/-! ### The setup's own handler -/

theorem Coherent.own_eq_nil (hs : Coherent s) (hnone : s.current = none) : s.own = [] := by
  rw [own, List.filter_eq_nil_iff]
  intro h hh
  rw [hs.own_eq h hh, isCurrent_of_none hnone]
  exact Bool.false_ne_true

theorem Coherent.holds (hs : Coherent s) (hn : s.current = some n) :
    ∃ h, s.Holds h ∧ h.serial = n := by
  obtain ⟨h, hh, hserial, htarget, hown⟩ := hs.exists_own hn
  have hnodup : s.handlers.Nodup := hs.distinct.of_map
  have hperm : s.own.Perm [h] := by
    rw [own, List.perm_ext_iff_of_nodup (hnodup.filter _) (List.nodup_singleton h)]
    intro k
    rw [List.mem_filter, List.mem_singleton]
    constructor
    · rintro ⟨hk, hkown⟩
      rw [hs.own_eq k hk, isCurrent_iff, hn, Option.some.injEq] at hkown
      exact List.inj_on_of_nodup_map hs.distinct hk hh (hkown.symm.trans hserial.symm)
    · rintro rfl
      exact ⟨hh, hown⟩
  exact ⟨h, ⟨List.perm_singleton.mp hperm, hserial ▸ hn, htarget⟩, hserial⟩

theorem Coherent.current_eq_none_iff (hs : Coherent s) : s.current = none ↔ s.own = [] := by
  refine ⟨hs.own_eq_nil, fun hown => ?_⟩
  rw [Option.eq_none_iff_forall_ne_some]
  intro n hn
  obtain ⟨h, hholds, -⟩ := hs.holds hn
  exact absurd (hholds.own.symm.trans hown) (List.cons_ne_nil h [])

theorem Coherent.length_own_le (hs : Coherent s) : s.own.length ≤ 1 := by
  cases hcurrent : s.current with
  | none =>
      rw [hs.own_eq_nil hcurrent]
      exact Nat.zero_le 1
  | some n =>
      obtain ⟨h, hholds, -⟩ := hs.holds hcurrent
      rw [hholds.own]
      exact Nat.le_refl 1

/-! ### Handlers of others -/

theorem others_drop (hs : Coherent s) : s.drop.others = s.others := by
  rw [others, others, drop, List.filter_filter]
  refine List.filter_congr fun h hh => ?_
  rw [hs.own_eq h hh, Bool.and_self]

theorem others_adjust (hs : Coherent s) (level : Level) : (s.adjust level).others = s.others := by
  rw [others, others, adjust, List.filter_map]
  have hown : ((!·.own) : Handler → Bool) ∘
      (fun h => if s.isCurrent h then { h with level := level } else h) = (!·.own) := by
    funext h
    dsimp only [Function.comp]
    split <;> rfl
  rw [hown]
  refine (List.map_congr_left fun h hh => ?_).trans (List.map_id' _)
  obtain ⟨hh, hother⟩ := List.mem_filter.mp hh
  rw [hs.own_eq h hh] at hother
  exact if_neg (by simpa using hother)

theorem others_install (s : Setup) (target : Target) (level : Level) :
    (s.install target level).others = s.others := by
  rw [others, install, List.filter_append]
  exact List.append_nil _

theorem others_call {a : Step} (hs : Coherent s) (ha : a.IsCall) :
    (s.step a).others = s.others := by
  cases ha with
  | configure files name path =>
      have h := configures s files name path
      rw [step]
      generalize s.configure files name path = r, Level.ofName name = level at h
      cases h with
      | unresolved e htarget => rfl
      | adjusted target htarget hcurrent hsame => exact others_adjust (hs.relevel _) _
      | unprepared target htarget hother e hprepare => exact others_drop (hs.relevel _)
      | installed target htarget hother files' hprepare =>
          exact (others_install _ _ _).trans (others_drop (hs.relevel _))
  | reset => exact others_drop hs

theorem others_calls {calls : List Step} (hs : Coherent s) (hcalls : ∀ a ∈ calls, a.IsCall) :
    (s.run calls).others = s.others := by
  induction calls generalizing s with
  | nil => rfl
  | cons a calls ih =>
      obtain ⟨ha, hcalls⟩ := List.forall_mem_cons.mp hcalls
      exact (ih (hs.step a) hcalls).trans (others_call hs ha)

/-! ### Calls that succeed -/

theorem Holds.mem (hk : s.Holds k) : k ∈ s.handlers := by
  have hmem : k ∈ s.own := hk.own ▸ List.mem_cons_self
  exact List.mem_of_mem_filter hmem

theorem Holds.level_of_adjust (hk : (s.adjust level).Holds k) : k.level = level := by
  obtain ⟨h, -, heq⟩ := mem_adjust_iff.mp hk.mem
  split at heq
  · rw [heq]
  · rename_i hother
    rw [heq] at hk
    exact absurd (isCurrent_iff.mpr hk.current) hother

theorem Holds.eq_of_install (hk : (s.install target level).Holds k) :
    k = ⟨s.next, true, target, level⟩ := by
  have hmem : ⟨s.next, true, target, level⟩ ∈ (s.install target level).own :=
    List.mem_filter.mpr ⟨List.mem_append_right _ List.mem_cons_self, rfl⟩
  rw [hk.own] at hmem
  exact (List.mem_singleton.mp hmem).symm

theorem Coherent.configured (hs : Coherent s) {files' : FileTree}
    (hok : (s.configure files name path).2 = .ok files') :
    ∃ h, (s.configure files name path).1.Holds h ∧ Target.ofPath files path = .ok h.target ∧
      h.level = .ofName name ∧ (s.configure files name path).1.level = .ofName name := by
  have hcoherent := hs.configure files name path
  have h := configures s files name path
  generalize s.configure files name path = r, Level.ofName name = level at h hcoherent hok ⊢
  cases h with
  | unresolved e htarget => cases hok
  | adjusted target htarget hcurrent hsame =>
      obtain ⟨n, hn⟩ := Option.isSome_iff_exists.mp hcurrent
      obtain ⟨h, hholds, -⟩ := hcoherent.holds hn
      have htarget' : target = h.target := Option.some.inj (hsame.symm.trans hholds.target)
      exact ⟨h, hholds, htarget' ▸ htarget, hholds.level_of_adjust, rfl⟩
  | unprepared target htarget hother e hprepare => cases hok
  | installed target htarget hother files'' hprepare =>
      obtain ⟨h, hholds, -⟩ := hcoherent.holds rfl
      have hnew := hholds.eq_of_install
      exact ⟨h, hholds, hnew ▸ htarget, hnew ▸ rfl, rfl⟩

/-- Whatever has been called, however the calls have ended, and whatever other parties have done in between:
there is at most one handler of the setup's own, and it is the one that the setup knows of. -/
theorem one_own_handler (steps : List Step) :
    (start.run steps).own.length ≤ 1 ∧
      ((start.run steps).current = none ↔ (start.run steps).own = []) ∧
      (∀ n, (start.run steps).current = some n → ∃ h, (start.run steps).Holds h ∧ h.serial = n) ∧
      ((start.run steps).handlers.map Handler.serial).Nodup ∧
      (∀ calls, (∀ a ∈ calls, Step.IsCall a) →
        ((start.run steps).run calls).others = (start.run steps).others) ∧
      ∀ files name path files', ((start.run steps).configure files name path).2 = .ok files' →
        ∃ h, ((start.run steps).configure files name path).1.Holds h ∧
          Target.ofPath files path = .ok h.target ∧ h.level = .ofName name ∧
          ((start.run steps).configure files name path).1.level = .ofName name := by
  have hs : Coherent (start.run steps) := coherent_start.run steps
  exact ⟨hs.length_own_le, hs.current_eq_none_iff, fun _ hn => hs.holds hn, hs.distinct,
    fun _ hcalls => others_calls hs hcalls, fun _ _ _ _ hok => hs.configured hok⟩

def oneDirectory : FileTree := ⟨.directory [("d", .directory [])], [], [], []⟩

/-- Another party comes, a call succeeds, and the next one finds a directory in the place of its file. -/
def refusedSteps : List Step :=
  [.arrive .errors 0, .configure oneDirectory "debug" none,
    .configure oneDirectory "info" (some ⟨.root, ["d"]⟩)]

theorem find_oneDirectory : oneDirectory.find ⟨.root, ["d"]⟩ = .ok ["d"] :=
  FileTree.find_of_walkFor 1 (by decide) (by decide) rfl

theorem ofPath_oneDirectory :
    Target.ofPath oneDirectory (some ⟨.root, ["d"]⟩) = .ok (.file ⟨.root, ["d"]⟩) := by
  have hcanonical : oneDirectory.canonical ⟨.root, ["d"]⟩ = .ok ["d"] := rfl
  rw [Target.ofPath, FileTree.resolve_eq hcanonical find_oneDirectory]
  rfl

theorem prepare_oneDirectory : (Target.file ⟨.root, ["d"]⟩).prepare oneDirectory =
    .error (.refused .isDirectory "/d") := by
  show oneDirectory.openToAppend ⟨.root, ["d"]⟩ = _
  rw [FileTree.openToAppend, find_oneDirectory]
  rfl

theorem run_refusedSteps :
    start.run refusedSteps = ⟨.info, [⟨0, false, .errors, 0⟩], none, some .errors, 2⟩ := by
  show (configure _ oneDirectory "info" _).1 = _
  rw [configure, ofPath_oneDirectory]
  dsimp only
  rw [direct, prepare_oneDirectory, if_neg (by decide)]
  decide +kernel

/-- The target of the handler that is gone is still noted, and a call for it installs a handler anew. -/
theorem one_own_handler_refused :
    start.run refusedSteps = ⟨.info, [⟨0, false, .errors, 0⟩], none, some .errors, 2⟩ ∧
      ((start.run refusedSteps).configure oneDirectory "error" none).2 = .ok oneDirectory ∧
      (∀ a ∈ [Step.configure oneDirectory "error" none], a.IsCall) ∧
      ((start.run refusedSteps).configure oneDirectory "error" none).1.others =
        (start.run refusedSteps).others ∧
      ∃ h, ((start.run refusedSteps).configure oneDirectory "error" none).1.Holds h ∧
        h.target = .errors ∧ h.level = .error := by
  have hok : ((start.run refusedSteps).configure oneDirectory "error" none).2 = .ok oneDirectory := by
    rw [run_refusedSteps]
    rfl
  have hcalls : ∀ a ∈ [Step.configure oneDirectory "error" none], a.IsCall := by
    intro a ha
    rw [List.mem_singleton.mp ha]
    exact .configure oneDirectory "error" none
  obtain ⟨-, -, -, -, hothers, hconfigured⟩ := one_own_handler refusedSteps
  obtain ⟨h, hholds, htarget, hlevel, -⟩ := hconfigured oneDirectory "error" none oneDirectory hok
  exact ⟨run_refusedSteps, hok, hcalls, hothers _ hcalls, h, hholds, (Except.ok.inj htarget).symm,
    hlevel.trans (by decide +kernel)⟩

end Splice.Log.Setup
