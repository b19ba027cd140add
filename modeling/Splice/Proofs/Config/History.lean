import Mathlib.Data.List.Induction
import Splice.Config.Session
import Splice.Proofs.Config.Layered
import Splice.Proofs.Schema.Closed

namespace Splice.Config.Session

open Outcome Results

variable {w : World} {s : Session} {root : Option Path} {validate : Bool} {e : Entry}

/-- What can happen in a session: calls, and any change of what surrounds it. -/
inductive Step
  | get (root : Option Path) (validate : Bool)
  | isCached (root : Option Path)
  | clear
  | change (w : World)

def step (s : Session) : Step → Session
  | .get root validate => (s.get root validate).1
  | .isCached _ => s
  | .clear => s.clear
  | .change w => { s with world := w }

def run (s : Session) (steps : List Step) : Session := steps.foldl step s

/-- The call finds nothing under its key, and loads the entry. -/
structure Loads (s : Session) (root : Option Path) (validate : Bool) (e : Entry) : Prop where
  key : fingerprint s.world root = .ok e.key
  absent : s.find? e.key = none
  serial : e.serial = s.next
  config : (load s.world e.key.root validate).result = .ok e.config

theorem run_snoc (s : Session) (steps : List Step) (a : Step) :
    run s (steps ++ [a]) = step (run s steps) a := by
  rw [run, List.foldl_append]
  rfl

theorem get_of_kept (hkey : fingerprint s.world root = .ok e.key)
    (hkept : s.find? e.key = some e) : s.get root validate = (s, pure e) := by
  rw [get, hkey]
  simp only [hkept]

theorem get_of_loads (h : Loads s root validate e) : s.get root validate =
    ({ s with entries := s.entries ++ [e], next := s.next + 1 },
      ⟨(load s.world e.key.root validate).trace, .ok e⟩) := by
  obtain ⟨key, serial, config⟩ := e
  obtain ⟨hkey, habsent, hserial, hconfig⟩ := h
  rw [get, hkey]
  simp only at habsent hserial hconfig ⊢
  simp only [habsent, hconfig, hserial]

/-- A call returns what is there, or loads it, or fails and changes nothing. -/
theorem get_cases (s : Session) (root : Option Path) (validate : Bool) :
    (∃ e, fingerprint s.world root = .ok e.key ∧ s.find? e.key = some e) ∨
      (∃ e, Loads s root validate e) ∨
      ∃ trace fault, s.get root validate = (s, ⟨trace, .error fault⟩) := by
  cases hkey : fingerprint s.world root with
  | error fault =>
      refine .inr (.inr ⟨[], fault, ?_⟩)
      rw [get, hkey]
      rfl
  | ok key =>
      cases hfind : s.find? key with
      | some e =>
          have he : e.key = key := by simpa using List.find?_some hfind
          exact .inl ⟨e, by rw [he], by rw [he, hfind]⟩
      | none =>
          cases hload : (load s.world key.root validate).result with
          | ok m => exact .inr (.inl ⟨⟨key, s.next, m⟩, hkey, hfind, rfl, hload⟩)
          | error fault =>
              refine .inr (.inr ⟨(load s.world key.root validate).trace, fault, ?_⟩)
              rw [get, hkey]
              simp only [hfind, hload]

theorem result_get_ok_iff : (s.get root validate).2.result = .ok e ↔
    (fingerprint s.world root = .ok e.key ∧ s.find? e.key = some e) ∨ Loads s root validate e := by
  constructor
  · intro h
    rcases get_cases s root validate with ⟨d, hkey, hkept⟩ | ⟨d, hloads⟩ | ⟨trace, fault, hfails⟩
    · rw [get_of_kept hkey hkept] at h
      cases h
      exact .inl ⟨hkey, hkept⟩
    · rw [get_of_loads hloads] at h
      cases h
      exact .inr hloads
    · rw [hfails] at h
      cases h
  · rintro (⟨hkey, hkept⟩ | hloads)
    · rw [get_of_kept hkey hkept]
      rfl
    · rw [get_of_loads hloads]

theorem entries_get (h : e ∈ (s.get root validate).1.entries) :
    e ∈ s.entries ∨ Loads s root validate e := by
  rcases get_cases s root validate with ⟨d, hkey, hkept⟩ | ⟨d, hloads⟩ | ⟨trace, fault, hfails⟩
  · rw [get_of_kept hkey hkept] at h
    exact .inl h
  · rw [get_of_loads hloads] at h
    refine (List.mem_append.mp h).imp_right fun he => ?_
    rw [List.mem_singleton.mp he]
    exact hloads
  · rw [hfails] at h
    exact .inl h

theorem entries_step {a : Step} (h : e ∈ (step s a).entries) :
    (e ∈ s.entries ∧ a ≠ .clear) ∨ ∃ root validate, a = .get root validate ∧ Loads s root validate e := by
  cases a with
  | get root validate =>
      rcases entries_get h with h | h
      · exact .inl ⟨h, by rintro ⟨⟩⟩
      · exact .inr ⟨root, validate, rfl, h⟩
  | isCached root => exact .inl ⟨h, by rintro ⟨⟩⟩
  | clear => cases h
  | change w => exact .inl ⟨h, by rintro ⟨⟩⟩

/-- Every entry has been loaded by a call, and nothing has been forgotten since. -/
theorem loaded_of_mem_entries {steps : List Step} (h : e ∈ (run (ofWorld w) steps).entries) :
    ∃ before root validate after, steps = before ++ .get root validate :: after ∧
      (∀ a ∈ after, a ≠ .clear) ∧ Loads (run (ofWorld w) before) root validate e := by
  -- From the end of the history: its last step adds the entry, or leaves it where it was.
  induction steps using List.reverseRecOn with
  | nil => cases h
  | append_singleton steps a ih =>
      rw [run_snoc] at h
      rcases entries_step h with ⟨h, ha⟩ | ⟨root, validate, rfl, hloads⟩
      · obtain ⟨before, root, validate, after, rfl, hafter, hloads⟩ := ih h
        refine ⟨before, root, validate, after ++ [a], by simp, ?_, hloads⟩
        intro b hb
        rcases List.mem_append.mp hb with hb | hb
        · exact hafter b hb
        · rw [List.mem_singleton.mp hb]
          exact ha
      · exact ⟨steps, root, validate, [], rfl, by simp, hloads⟩

theorem find?_of_loads (h : Loads s root validate e) :
    (s.get root validate).1.find? e.key = some e := by
  have habsent : s.entries.find? (·.key = e.key) = none := h.absent
  rw [get_of_loads h, find?, List.find?_append, habsent]
  simp

theorem find?_step {a : Step} {key : Fingerprint} (h : s.find? key = some e) (ha : a ≠ .clear) :
    (step s a).find? key = some e := by
  cases a with
  | get root validate =>
      rw [step]
      rcases get_cases s root validate with ⟨d, hkey, hkept⟩ | ⟨d, hloads⟩ | ⟨trace, fault, hfails⟩
      · rw [get_of_kept hkey hkept]
        exact h
      · have hfound : s.entries.find? (·.key = key) = some e := h
        rw [get_of_loads hloads, find?, List.find?_append, hfound]
        rfl
      · rw [hfails]
        exact h
  | isCached root => exact h
  | clear => exact absurd rfl ha
  | change w => exact h

theorem find?_run {steps : List Step} {key : Fingerprint} (h : s.find? key = some e)
    (hsteps : ∀ a ∈ steps, a ≠ .clear) : (run s steps).find? key = some e := by
  induction steps generalizing s with
  | nil => exact h
  | cons a steps ih =>
      obtain ⟨ha, hsteps⟩ := List.forall_mem_cons.mp hsteps
      exact ih (find?_step h ha) hsteps

/-- What a call has loaded is what every later call for the same key returns, validated or not, until
all is forgotten. -/
theorem get_kept {r : Option Path} {validate' : Bool} {after : List Step}
    (h : Loads s r validate e) (hafter : ∀ a ∈ after, a ≠ .clear)
    (hkey : fingerprint (run s (.get r validate :: after)).world root = .ok e.key) :
    ((run s (.get r validate :: after)).get root validate').2.result = .ok e :=
  result_get_ok_iff.mpr (.inl ⟨hkey, find?_run (s := (s.get r validate).1) (find?_of_loads h) hafter⟩)

theorem Loads.check (h : Loads s root true e) : check e.config = .ok () := by
  obtain ⟨-, -, -, -, hcheck⟩ := result_load_ok_iff.mp h.config
  exact hcheck rfl

/-- Whatever came before, a validated call returns a valid configuration, unless a call for the same
key that did not validate has loaded it, and nothing has been forgotten since. -/
theorem get_valid {steps : List Step}
    (h : ((run (ofWorld w) steps).get root true).2.result = .ok e) :
    fingerprint (run (ofWorld w) steps).world root = .ok e.key ∧
      (Config.check e.config = .ok () ∨
        ∃ before r after, steps = before ++ .get r false :: after ∧ (∀ a ∈ after, a ≠ .clear) ∧
          Loads (run (ofWorld w) before) r false e) := by
  rcases result_get_ok_iff.mp h with ⟨hkey, hkept⟩ | hloads
  · refine ⟨hkey, ?_⟩
    obtain ⟨before, r, validate, after, rfl, hafter, hloads⟩ :=
      loaded_of_mem_entries (List.mem_of_find?_eq_some hkept)
    cases validate with
    | true => exact .inl hloads.check
    | false => exact .inr ⟨before, r, after, rfl, hafter, hloads⟩
  · exact ⟨hloads.key, .inl hloads.check⟩

theorem fingerprint_oneFile (text : String) :
    fingerprint (oneFile text []) (some ⟨.root, []⟩) = .ok ⟨⟨.root, []⟩, []⟩ := by
  have hfind : (oneFile text []).files.find ⟨.root, []⟩ = .ok [] := by
    exact FileTree.find_of_walkFor 0 (by decide) (by decide +kernel) rfl
  have hcanonical : (oneFile text []).files.canonical ⟨.root, []⟩ = .ok [] := rfl
  have hroot : canonicalRoot (oneFile text []) (some ⟨.root, []⟩) = .ok ⟨.root, []⟩ :=
    FileTree.resolve_eq hcanonical hfind
  have hnone : Override.settings (oneFile text []).bindings = [] := List.mergeSort_nil
  rw [fingerprint, hroot, hnone]
  rfl

theorem loads_oneFile {text : String} {n : Mapping} (hworld : s.world = oneFile text [])
    (hempty : s.entries = []) (hdecode : Text.Utf8.decode (Text.Utf8.encode text) = .ok text.toList)
    (hn : Yaml.read (Text.unifyLineEnds text.toList) = .ok (.map n))
    (hcheck : validate = true →
      Config.check ((bundledLayers ++ [n]).foldl Mapping.merge []) = .ok ()) :
    Loads s (some ⟨.root, []⟩) validate
      ⟨⟨⟨.root, []⟩, []⟩, s.next, (bundledLayers ++ [n]).foldl Mapping.merge []⟩ where
  key := by rw [hworld, fingerprint_oneFile]
  absent := by rw [find?, hempty, List.find?_nil]
  serial := rfl
  config := by
    obtain ⟨-, -, hlayered⟩ := layered_oneFile [] hdecode hn
    rw [hworld]
    exact (result_load_of_no_settings (by simp [oneFile])).mpr ⟨hlayered, hcheck⟩

theorem read_emptyExtra :
    Yaml.read (Text.unifyLineEnds "extra:\n".toList) = .ok (.map [(.text "extra", .null)]) :=
  toOption_eq_some_iff.mp (by decide +kernel)

/-- An invalid configuration is loaded, put right and forgotten; the call that validates loads again. -/
theorem get_valid_repaired :
    ∃ e, ((run (ofWorld (oneFile "logging:\n" []))
        [.get (some ⟨.root, []⟩) false, .change (oneFile "extra:\n" []), .clear]).get
          (some ⟨.root, []⟩) true).2.result = .ok e ∧
      Config.check e.config = .ok () := by
  have hloads : Loads (run (ofWorld (oneFile "logging:\n" []))
      [.get (some ⟨.root, []⟩) false, .change (oneFile "extra:\n" []), .clear])
      (some ⟨.root, []⟩) true _ :=
    loads_oneFile rfl rfl rfl read_emptyExtra fun _ => Schema.check_ok_iff.mpr (by decide +kernel)
  have hget := result_get_ok_iff.mpr (.inr hloads)
  obtain ⟨-, hvalid | ⟨before, r, after, hsteps, hafter, -⟩⟩ := get_valid hget
  · exact ⟨_, hget, hvalid⟩
  · rcases before with _ | ⟨_, _ | ⟨_, _ | ⟨_, before⟩⟩⟩
    · cases hsteps
      exact absurd rfl (hafter .clear (by simp))
    all_goals simp at hsteps

/-- A call that does not validate leaves its invalid configuration to the next that does. -/
theorem get_invalid_kept :
    ∃ e, ((run (ofWorld (oneFile "logging:\n" [])) [.get (some ⟨.root, []⟩) false]).get
        (some ⟨.root, []⟩) true).2.result = .ok e ∧
      Config.check e.config =
        .error (.violation schemaName "logging" "None is not of type 'object'") := by
  have hloads : Loads (ofWorld (oneFile "logging:\n" [])) (some ⟨.root, []⟩) false _ :=
    loads_oneFile rfl rfl rfl read_emptyLogging nofun
  have hkey : fingerprint (run (ofWorld (oneFile "logging:\n" []))
      [.get (some ⟨.root, []⟩) false]).world (some ⟨.root, []⟩) = .ok ⟨⟨.root, []⟩, []⟩ := by
    rw [run, List.foldl_cons, List.foldl_nil, step, get_of_loads hloads]
    exact fingerprint_oneFile "logging:\n"
  have hworst : Schema.worst (Bundle.schema.violations []
      (.map ((bundledLayers ++ [[(Key.text "logging", Value.null)]]).foldl Mapping.merge []))) =
        some ⟨["logging"], "None is not of type 'object'", true⟩ := by decide +kernel
  refine ⟨_, get_kept hloads (by simp) hkey, ?_⟩
  rw [Config.check, Schema.check, hworst]
  rfl

end Splice.Config.Session
