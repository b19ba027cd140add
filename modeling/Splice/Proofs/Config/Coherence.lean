import Mathlib.Data.List.Find
import Splice.Proofs.Config.History
import Splice.Proofs.Config.Keys

namespace Splice.Config.Session

variable {w w' : World} {s : Session} {root root' : Option Path} {validate : Bool} {e : Entry}
  {steps : List Step} {digest : String → String}

/-- Variables have different names, and the working directory lies at a place. -/
structure Proper (w : World) : Prop where
  names : (w.bindings.map Prod.fst).Nodup
  current : ∀ s ∈ w.files.current, Node.isName s = true

/-- The same root, however it is written, and the same settings, in whatever order. -/
structure Agrees (w : World) (root : Option Path) (w' : World) (root' : Option Path) : Prop where
  root : ∃ p, canonicalRoot w root = .ok p ∧ canonicalRoot w' root' = .ok p
  settings : ∀ v : String × String, (Override.settingName? v.1).isSome = true →
    (v ∈ w.bindings ↔ v ∈ w'.bindings)

theorem fingerprint_ok_iff {key : Fingerprint} : fingerprint w root = .ok key ↔
    canonicalRoot w root = .ok key.root ∧ Override.settings w.bindings = key.settings := by
  obtain ⟨p, settings⟩ := key
  unfold fingerprint
  cases canonicalRoot w root with
  | error fault => simp [bind, Except.bind]
  | ok q => simp [bind, Except.bind, pure, Except.pure]

theorem agrees_iff (hw : Proper w) (hw' : Proper w') : Agrees w root w' root' ↔
    ∃ key, fingerprint w root = .ok key ∧ fingerprint w' root' = .ok key := by
  constructor
  · rintro ⟨⟨p, hp, hp'⟩, hsettings⟩
    refine ⟨⟨p, Override.settings w.bindings⟩, fingerprint_ok_iff.mpr ⟨hp, rfl⟩,
      fingerprint_ok_iff.mpr ⟨hp', ?_⟩⟩
    exact ((Override.settings_eq_iff hw.names hw'.names).mpr hsettings).symm
  · rintro ⟨key, hkey, hkey'⟩
    obtain ⟨hp, hsettings⟩ := fingerprint_ok_iff.mp hkey
    obtain ⟨hp', hsettings'⟩ := fingerprint_ok_iff.mp hkey'
    exact ⟨⟨key.root, hp, hp'⟩, (Override.settings_eq_iff hw.names hw'.names).mp
      (hsettings.trans hsettings'.symm)⟩

/-- All worlds of a history that begins in `w`. -/
def worlds (w : World) (steps : List Step) : List World :=
  w :: steps.filterMap fun | .change w' => some w' | _ => none

theorem world_run_mem (steps : List Step) : (run s steps).world ∈ worlds s.world steps := by
  induction steps generalizing s with
  | nil => exact List.mem_cons_self
  | cons a steps ih =>
      have h := ih (s := step s a)
      cases a with
      | change w => exact List.mem_cons_of_mem _ h
      | clear => exact h
      | isCached root => exact h
      | get root validate =>
          have hworld : (step s (.get root validate)).world = s.world := by
            rw [step]
            rcases get_cases s root validate with ⟨d, hkey, hkept⟩ | ⟨d, hloads⟩ | ⟨_, _, hfails⟩
            · rw [get_of_kept hkey hkept]
            · rw [get_of_loads hloads]
            · rw [hfails]
          rw [hworld] at h
          exact h

theorem mem_worlds_append {before after : List Step} (h : w' ∈ worlds w before) :
    w' ∈ worlds w (before ++ after) := by
  rw [worlds, List.filterMap_append, ← List.cons_append]
  exact List.mem_append_left _ h

/-- A call within a history. -/
structure Call where
  before : List Step
  root : Option Path
  validate : Bool
  after : List Step

namespace Call

def history (c : Call) : List Step := c.before ++ .get c.root c.validate :: c.after

/-- The session as the call finds it. -/
def session (w : World) (c : Call) : Session := run (ofWorld w) c.before

end Call

/-- A call of the history for the same root and settings as are asked for at its end, after which
nothing has been forgotten. -/
structure Recent (w : World) (steps : List Step) (root : Option Path) (c : Call) : Prop where
  history : c.history = steps
  kept : ∀ a ∈ c.after, a ≠ .clear
  agrees : Agrees (c.session w).world c.root (run (ofWorld w) steps).world root

/-- The call has returned the entry. -/
def Call.Returns (w : World) (c : Call) (e : Entry) : Prop :=
  ((c.session w).get c.root c.validate).2.result = .ok e

def Call.Loads (w : World) (c : Call) (e : Entry) : Prop :=
  Session.Loads (c.session w) c.root c.validate e

theorem proper_run (h : ∀ w' ∈ worlds w steps, Proper w') {before after : List Step}
    (hsteps : steps = before ++ after) : Proper (run (ofWorld w) before).world := by
  rw [hsteps] at h
  exact h _ (mem_worlds_append (world_run_mem before))

theorem proper_now (h : ∀ w' ∈ worlds w steps, Proper w') : Proper (run (ofWorld w) steps).world :=
  proper_run h (List.append_nil steps).symm

theorem Recent.fingerprint_eq {c : Call} (hproper : ∀ w' ∈ worlds w steps, Proper w')
    (h : Recent w steps root c) {key : Fingerprint}
    (hkey : fingerprint (c.session w).world c.root = .ok key) :
    fingerprint (run (ofWorld w) steps).world root = .ok key := by
  have hbefore : Proper (c.session w).world := proper_run hproper h.history.symm
  obtain ⟨key', hkey', hroot⟩ := (agrees_iff hbefore (proper_now hproper)).mp h.agrees
  obtain rfl := Except.ok.inj (hkey.symm.trans hkey')
  exact hroot

theorem find?_of_returns {c : Call} (hsteps : c.history = steps) (hafter : ∀ a ∈ c.after, a ≠ .clear)
    (h : c.Returns w e) : (run (ofWorld w) steps).find? e.key = some e := by
  have hfound : ((c.session w).get c.root c.validate).1.find? e.key = some e := by
    rcases result_get_ok_iff.mp h with ⟨hkey, hkept⟩ | hloads
    · rw [get_of_kept hkey hkept]
      exact hkept
    · exact find?_of_loads hloads
  rw [← hsteps, Call.history, run, List.foldl_append, List.foldl_cons]
  exact find?_run hfound hafter

theorem Call.Loads.returns {c : Call} (h : c.Loads w e) : c.Returns w e :=
  result_get_ok_iff.mpr (.inr h)

theorem Call.Returns.key {c : Call} (h : c.Returns w e) :
    fingerprint (c.session w).world c.root = .ok e.key := by
  rcases result_get_ok_iff.mp h with ⟨hkey, -⟩ | hloads
  · exact hkey
  · exact hloads.key

/-- Every entry that there is has been loaded by a recent call for the same root and settings. -/
theorem recent_of_find? (hproper : ∀ w' ∈ worlds w steps, Proper w')
    (hkey : fingerprint (run (ofWorld w) steps).world root = .ok e.key)
    (h : (run (ofWorld w) steps).find? e.key = some e) :
    ∃ c, Recent w steps root c ∧ c.Loads w e := by
  obtain ⟨before, r, validate, after, hsteps, hafter, hloads⟩ :=
    loaded_of_mem_entries (List.mem_of_find?_eq_some h)
  have hbefore := proper_run hproper hsteps
  exact ⟨⟨before, r, validate, after⟩,
    ⟨hsteps.symm, hafter, (agrees_iff hbefore (proper_now hproper)).mpr ⟨e.key, hloads.key, hkey⟩⟩, hloads⟩

theorem get_of_recent (hproper : ∀ w' ∈ worlds w steps, Proper w') {c : Call}
    (h : Recent w steps root c) (hreturns : c.Returns w e) :
    (run (ofWorld w) steps).get root validate = (run (ofWorld w) steps, pure e) :=
  get_of_kept (h.fingerprint_eq hproper hreturns.key)
    (find?_of_returns h.history h.kept hreturns)

theorem loads_of_first (hproper : ∀ w' ∈ worlds w steps, Proper w') {c : Call}
    (h : Recent w steps root c) (hreturns : c.Returns w e)
    (hfirst : ∀ c' e', Recent w steps root c' → c'.Returns w e' →
      c.before.length ≤ c'.before.length) : c.Loads w e := by
  rcases result_get_ok_iff.mp hreturns with ⟨hkey, hkept⟩ | hloads
  · have hbefore : ∀ w' ∈ worlds w c.before, Proper w' := by
      intro w' hw'
      rw [← h.history] at hproper
      exact hproper w' (mem_worlds_append hw')
    -- Otherwise a call before it has, and this one is recent as well.
    obtain ⟨c', hrecent, hloads⟩ := recent_of_find? hbefore hkey hkept
    have hrecent' : Recent w steps root
        ⟨c'.before, c'.root, c'.validate, c'.after ++ .get c.root c.validate :: c.after⟩ := by
      refine ⟨?_, fun a ha => ?_, ?_⟩
      · have hhistory := h.history
        rw [Call.history, ← hrecent.history] at hhistory
        simpa [Call.history] using hhistory
      · rcases List.mem_append.mp ha with ha | ha
        · exact hrecent.kept a ha
        · rcases List.mem_cons.mp ha with rfl | ha
          · rintro ⟨⟩
          · exact h.kept a ha
      · have hold : Proper (c'.session w).world :=
          proper_run hbefore hrecent.history.symm
        exact (agrees_iff hold (proper_now hproper)).mpr
          ⟨e.key, hloads.key, h.fingerprint_eq hproper hkey⟩
    have hlength := hfirst _ e hrecent' hloads.returns
    have hshorter : c'.before.length < c.before.length := by
      rw [← hrecent.history, Call.history]
      simp
    exact absurd hlength (by simpa using hshorter)
  · exact hloads

/-! ### Fingerprints as texts -/

theorem plain_homePath {home : String} {q : Path} (h : World.homePath home = .ok q) : q.Plain := by
  unfold World.homePath at h
  simp only at h
  split at h
  · cases h
  · cases h
    split
    · exact fun _ hs => absurd hs List.not_mem_nil
    · exact Path.plain_ofText _

theorem plain_expandHome {p q : Path} (hp : p.Plain) (h : w.expandHome p = .ok q) : q.Plain := by
  unfold World.expandHome at h
  split at h
  · rename_i name rest hanchor hparts
    split at h
    · split at h
      · rename_i home _
        obtain ⟨place, hhome, h⟩ := Results.bind_ok_iff.mp h
        cases h
        intro s hs
        rcases List.mem_append.mp hs with hs | hs
        · exact plain_homePath hhome s hs
        · exact hp s (by rw [hparts]; exact List.mem_cons_of_mem _ hs)
      · cases h
    · cases h
      exact hp
  · cases h
    exact hp

theorem plain_canonicalRoot (hproper : Proper w) (hroot : ∀ p, root = some p → p.Plain) {q : Path}
    (h : canonicalRoot w root = .ok q) : q.Plain := by
  cases root with
  | none =>
      refine (FileTree.plain_resolve hproper.current (fun s hs => ?_) h).2
      exact FileTree.isPart_of_isName (hproper.current s hs)
  | some p =>
      obtain ⟨p', hp', h⟩ := Results.bind_ok_iff.mp h
      exact (FileTree.plain_resolve hproper.current (plain_expandHome (hroot p rfl) hp') h).2

/-- The settings of the worlds have different digests, all of one length, unless they are shown
alike. -/
structure Distinguishes (digest : String → String) (ws : List World) : Prop where
  length : ∀ s s', (digest s).length = (digest s').length
  apart : ∀ w ∈ ws, ∀ w' ∈ ws,
    digest (Override.settingsText (Override.settings w.bindings)) =
        digest (Override.settingsText (Override.settings w'.bindings)) →
      Override.settingsText (Override.settings w.bindings) =
        Override.settingsText (Override.settings w'.bindings)

/-- The root that a step names, if it names one. -/
def Step.root? : Step → Option Path
  | .get root _ | .isCached root => root
  | .clear | .change _ => none

theorem find?_text (hproper : ∀ w' ∈ worlds w steps, Proper w')
    (hroots : ∀ a ∈ steps, ∀ p, a.root? = some p → p.Plain) (hroot : ∀ p, root = some p → p.Plain)
    (hdigest : Distinguishes digest (worlds w steps)) {key : Fingerprint}
    (hkey : fingerprint (run (ofWorld w) steps).world root = .ok key) :
    (run (ofWorld w) steps).entries.find? (·.key.text digest = key.text digest) =
      (run (ofWorld w) steps).find? key := by
  refine List.find?_congr fun e he => decide_eq_decide.mpr ⟨fun htext => ?_, congrArg _⟩
  obtain ⟨before, r, validate, after, hsteps, -, hloads⟩ := loaded_of_mem_entries he
  obtain ⟨hp, hsettings⟩ := fingerprint_ok_iff.mp hloads.key
  obtain ⟨hq, hsettings'⟩ := fingerprint_ok_iff.mp hkey
  have hr : ∀ p, r = some p → p.Plain := hroots (.get r validate) (by rw [hsteps]; simp)
  refine Fingerprint.text_inj hdigest.length (fun hsame => ?_)
    (plain_canonicalRoot (proper_run hproper hsteps) hr hp)
    (plain_canonicalRoot (proper_now hproper) hroot hq) htext
  rw [← hsettings, ← hsettings'] at hsame ⊢
  refine hdigest.apart _ ?_ _ (world_run_mem steps) hsame
  have hbefore : (run (ofWorld w) before).world ∈ worlds w (before ++ .get r validate :: after) :=
    mem_worlds_append (world_run_mem before)
  rw [← hsteps] at hbefore
  exact hbefore

theorem isSome_find?_iff (hproper : ∀ w' ∈ worlds w steps, Proper w') {key : Fingerprint}
    (hkey : fingerprint (run (ofWorld w) steps).world root = .ok key) :
    ((run (ofWorld w) steps).find? key).isSome = true ↔
      ∃ c e, Recent w steps root c ∧ c.Returns w e := by
  constructor
  · intro h
    obtain ⟨e, he⟩ := Option.isSome_iff_exists.mp h
    obtain rfl : e.key = key := by simpa using List.find?_some he
    obtain ⟨c, hrecent, hloads⟩ := recent_of_find? hproper hkey he
    exact ⟨c, e, hrecent, hloads.returns⟩
  · rintro ⟨c, e, hrecent, hreturns⟩
    obtain rfl := Except.ok.inj (hkey.symm.trans (hrecent.fingerprint_eq hproper hreturns.key))
    rw [find?_of_returns hrecent.history hrecent.kept hreturns]
    rfl

theorem get_of_absent {key : Fingerprint} (hkey : fingerprint s.world root = .ok key)
    (habsent : s.find? key = none) :
    (s.get root validate).2.trace = (load s.world key.root validate).trace ∧
      (s.get root validate).2.result.map Entry.config = (load s.world key.root validate).result := by
  rw [get, hkey]
  simp only [habsent]
  cases (load s.world key.root validate).result with
  | ok m => exact ⟨rfl, rfl⟩
  | error fault => exact ⟨rfl, rfl⟩

theorem get_of_fails {fault : Fault} (h : (s.get root validate).2.result = .error fault) :
    (s.get root validate).1 = s := by
  rcases get_cases s root validate with ⟨d, hkey, hkept⟩ | ⟨d, hloads⟩ | ⟨_, _, hfails⟩
  · rw [get_of_kept hkey hkept]
  · rw [get_of_loads hloads] at h
    cases h
  · rw [hfails]

/-- What is answered at the end of a history, told by the calls in it. -/
structure Coherent (digest : String → String) (w : World) (steps : List Step) (root : Option Path) :
    Prop where
  /-- What a recent call has returned, every call returns, and loads nothing. -/
  kept : ∀ c e, Recent w steps root c → c.Returns w e → ∀ validate,
    (run (ofWorld w) steps).get root validate = (run (ofWorld w) steps, pure e)
  /-- The first of the recent calls that have returned has loaded what it returned. -/
  first : ∀ c e, Recent w steps root c → c.Returns w e →
    (∀ c' e', Recent w steps root c' → c'.Returns w e' → c.before.length ≤ c'.before.length) →
      c.Loads w e
  /-- If no recent call has returned, a call loads. -/
  fresh : (¬ ∃ c e, Recent w steps root c ∧ c.Returns w e) → ∀ validate p,
    canonicalRoot (run (ofWorld w) steps).world root = .ok p →
      ((run (ofWorld w) steps).get root validate).2.trace =
          (load (run (ofWorld w) steps).world p validate).trace ∧
        ((run (ofWorld w) steps).get root validate).2.result.map Entry.config =
          (load (run (ofWorld w) steps).world p validate).result
  /-- Nothing is returned that another root or other settings have been loaded for. -/
  own : ∀ validate e, ((run (ofWorld w) steps).get root validate).2.result = .ok e →
    ∃ c : Call, c.history <+: steps ++ [.get root validate] ∧ c.Loads w e ∧
      Agrees (c.session w).world c.root (run (ofWorld w) steps).world root
  cached : ∀ b, (run (ofWorld w) steps).isCached root = .ok b →
    (b = true ↔ ∃ c e, Recent w steps root c ∧ c.Returns w e)
  unanswered : ∀ fault, (run (ofWorld w) steps).isCached root = .error fault ↔
    canonicalRoot (run (ofWorld w) steps).world root = .error fault
  /-- A call that fails might as well not have been made. -/
  failed : ∀ validate fault,
    ((run (ofWorld w) steps).get root validate).2.result = .error fault → ∀ after,
      run (ofWorld w) (steps ++ .get root validate :: after) = run (ofWorld w) (steps ++ after)
  /-- Entries may be kept under texts in place of fingerprints. -/
  text : ∀ key, fingerprint (run (ofWorld w) steps).world root = .ok key →
    (run (ofWorld w) steps).entries.find? (·.key.text digest = key.text digest) =
      (run (ofWorld w) steps).find? key

/-- At any point of a session, calls for a root answer what the first recent call for it has loaded,
and nothing else. -/
theorem coherent (hproper : ∀ w' ∈ worlds w steps, Proper w')
    (hroots : ∀ a ∈ steps, ∀ p, a.root? = some p → p.Plain) (hroot : ∀ p, root = some p → p.Plain)
    (hdigest : Distinguishes digest (worlds w steps)) : Coherent digest w steps root where
  kept c e hrecent hreturns validate := get_of_recent hproper hrecent hreturns
  first c e := loads_of_first hproper
  fresh hnone validate p hp := by
    obtain ⟨key, hkey, rfl⟩ :
        ∃ key, fingerprint (run (ofWorld w) steps).world root = .ok key ∧ key.root = p :=
      ⟨⟨p, _⟩, fingerprint_ok_iff.mpr ⟨hp, rfl⟩, rfl⟩
    refine get_of_absent hkey (Option.not_isSome_iff_eq_none.mp fun h => hnone ?_)
    exact (isSome_find?_iff hproper hkey).mp h
  own validate e h := by
    rcases result_get_ok_iff.mp h with ⟨hkey, hkept⟩ | hloads
    · obtain ⟨c, hrecent, hloads⟩ := recent_of_find? hproper hkey hkept
      exact ⟨c, hrecent.history ▸ List.prefix_append _ _, hloads, hrecent.agrees⟩
    · exact ⟨⟨steps, root, validate, []⟩, List.prefix_rfl, hloads,
        (agrees_iff (proper_now hproper) (proper_now hproper)).mpr ⟨e.key, hloads.key, hloads.key⟩⟩
  cached b h := by
    obtain ⟨key, hkey, hb⟩ := Results.bind_ok_iff.mp h
    rw [← Except.ok.inj hb]
    exact isSome_find?_iff hproper hkey
  unanswered fault := by
    unfold isCached fingerprint
    cases canonicalRoot (run (ofWorld w) steps).world root with
    | ok p => constructor <;> rintro ⟨⟩
    | error fault' =>
        exact ⟨fun h => congrArg _ (Except.error.inj h), fun h => congrArg _ (Except.error.inj h)⟩
  failed validate fault h after := by
    have hsame := get_of_fails h
    rw [run, List.foldl_append, List.foldl_cons]
    show run (step (run (ofWorld w) steps) (.get root validate)) after = _
    rw [step, hsame, run, run, run, List.foldl_append]
  text key := find?_text hproper hroots hroot hdigest

theorem proper_oneFile (text : String) {bindings : List (String × String)}
    (h : (bindings.map Prod.fst).Nodup) : Proper (oneFile text bindings) :=
  ⟨h, fun _ hs => absurd hs List.not_mem_nil⟩

/-- The beginning of the digest of no settings, and of that of the one setting below. -/
def shortDigest (s : String) : String := if s = "[]" then "4f53cda18c2b" else "08ace4259024"

/-- A file has become invalid and a setting has come and gone; what was loaded is still returned. -/
theorem coherent_after_changes :
    ∃ e, Loads (ofWorld (oneFile "extra:\n" [])) (some ⟨.root, []⟩) true e ∧
      ((run (ofWorld (oneFile "extra:\n" [])) [.get (some ⟨.root, []⟩) true,
        .change (oneFile "logging:\n" [("ARCHDSL_EXTRA", "1")]),
        .change (oneFile "logging:\n" [])]).get (some ⟨.root, []⟩) true).2 = pure e := by
  have hloads : Loads (ofWorld (oneFile "extra:\n" [])) (some ⟨.root, []⟩) true _ :=
    loads_oneFile rfl rfl rfl read_emptyExtra fun _ => Schema.check_ok_iff.mpr (by decide +kernel)
  have hnone : Override.settings [] = [] := List.mergeSort_nil
  have hone : Override.settings [("ARCHDSL_EXTRA", "1")] = [("ARCHDSL_EXTRA", "1")] :=
    List.mergeSort_singleton _
  have hempty : Override.settingsText [] = "[]" := by decide +kernel
  have hfull : Override.settingsText [("ARCHDSL_EXTRA", "1")] = "[('ARCHDSL_EXTRA', '1')]" := by
    decide +kernel
  have hproper : ∀ w' ∈ worlds (oneFile "extra:\n" []) [.get (some ⟨.root, []⟩) true,
      .change (oneFile "logging:\n" [("ARCHDSL_EXTRA", "1")]),
      .change (oneFile "logging:\n" [])], Proper w' := by
    simp [worlds, proper_oneFile]
  have hdigest : Distinguishes shortDigest (worlds (oneFile "extra:\n" [])
      [.get (some ⟨.root, []⟩) true, .change (oneFile "logging:\n" [("ARCHDSL_EXTRA", "1")]),
        .change (oneFile "logging:\n" [])]) := by
    refine ⟨fun s s' => ?_, ?_⟩
    · unfold shortDigest
      split <;> split <;> decide
    · simp [worlds, oneFile, hnone, hone, hempty, hfull, shortDigest]
  have hroot (p : Path) (hp : some (Path.mk .root []) = some p) : p.Plain := by
    rw [← Option.some.inj hp]
    exact fun _ hs => absurd hs List.not_mem_nil
  have hcanonical (text : String) :
      canonicalRoot (oneFile text []) (some ⟨.root, []⟩) = .ok ⟨.root, []⟩ :=
    (fingerprint_ok_iff.mp (fingerprint_oneFile text)).1
  have hcoherent := coherent hproper (by simpa [Step.root?] using hroot) hroot hdigest
  refine ⟨_, hloads, congrArg Prod.snd (hcoherent.kept ⟨[], some ⟨.root, []⟩, true, _⟩ _
    ⟨rfl, by simp, ⟨⟨_, hcanonical "extra:\n", hcanonical "logging:\n"⟩, fun _ _ => Iff.rfl⟩⟩
    (result_get_ok_iff.mpr (.inr hloads)) true)⟩

end Splice.Config.Session
