import Splice.Config.Settings
import Splice.Log.Setup
import Splice.Proofs.Config.Failures
import Splice.Proofs.Config.History
import Splice.Proofs.Include.Descent
import Splice.Proofs.Json.RoundTrip
import Splice.Proofs.Reader.Lines

namespace Splice

open Outcome Results

/-- If the failure is one to report, a document holds its context as it is. -/
def Fault.Reportable (e : Fault) : Prop := e.kind.isOwn = true → Json.Portable (.map e.context)

/-- The failure has been found here, and not been handed in with a context of its own. -/
def Fault.isNative : Fault → Bool
  | .raised _ _ _ => false
  | _ => true

theorem portable_texts {name name' : String} (h : name ≠ name') (value value' : String) :
    Json.Portable (.map [(.text name, .text value), (.text name', .text value')]) :=
  Json.portable_fields [(name, .text value), (name', .text value')] (by simpa using h)
    (by simp [Json.Portable.text])

theorem portable_text (name value : String) :
    Json.Portable (.map [(.text name, .text value)]) :=
  Json.portable_fields [(name, .text value)] (List.nodup_singleton _)
    (by simp [Json.Portable.text])

theorem portable_none : Json.Portable (.map []) :=
  Json.portable_fields [] List.nodup_nil (List.forall_mem_nil _)

theorem portable_resolutionContext (source : String) (cause : Option Kind) :
    Json.Portable (.map (Fault.resolutionContext [] source cause)) := by
  have hne : "source" ≠ "cause" := by decide
  unfold Fault.resolutionContext
  dsimp only
  cases cause with
  | none =>
      dsimp only
      split
      · exact portable_none
      · exact portable_text _ _
  | some kind =>
      dsimp only
      split
      · exact portable_text _ _
      · exact portable_texts hne _ _

theorem Fault.reportable {e : Fault} (h : e.isNative = true) : e.Reportable := by
  have hne : "schema" ≠ "path" := by decide
  intro _
  cases e with
  | raised => cases h
  | notFound source place => exact portable_resolutionContext source none
  | failed source why => exact portable_resolutionContext source (some why.kind)
  | invalidYaml path what => exact portable_text _ _
  | notMapping path => exact portable_text _ _
  | violation schema location message => exact portable_texts hne _ _
  | _ => exact portable_none

theorem isOwn_of_mem_scalarKinds {k : Kind} (h : k ∈ Yaml.scalarKinds) : k.isOwn = false := by
  revert k
  decide

/-- Every failure of the computation is reportable. -/
def Reports {α : Type} (r : Except Fault α) : Prop := ∀ e, r = .error e → e.Reportable

namespace Reports

variable {α β : Type} {r : Except Fault α} {f : α → Except Fault β}

theorem ok (a : α) : Reports (.ok a) := by
  rintro _ ⟨⟩

theorem error {e : Fault} (h : e.isNative = true) : Reports (.error e : Except Fault α) := by
  intro d hd
  cases hd
  exact Fault.reportable h

theorem of_error {e : Fault} (hr : Reports r) (h : r = .error e) :
    Reports (.error e : Except Fault β) := by
  intro d hd
  cases hd
  exact hr e h

theorem bind (hr : Reports r) (hf : ∀ a, Reports (f a)) : Reports (r >>= f) := by
  intro e he
  rcases bind_error_iff.mp he with he | ⟨a, -, he⟩
  · exact hr e he
  · exact hf a e he

theorem map (hr : Reports r) {g : α → β} : Reports (g <$> r) := by
  intro e he
  exact hr e (map_error_iff.mp he)

theorem mapFault {x : Outcome α} (hx : Reports x.result) {g : Fault → Fault}
    (hg : ∀ e, e.Reportable → (g e).Reportable) : Reports (x.mapFault g).result := by
  intro e he
  obtain ⟨d, hd, rfl⟩ := mapError_error_iff.mp he
  exact hg d (hx d hd)

theorem lift (hr : Reports r) : Reports (liftM r : Outcome α).result := hr

theorem outcome {x : Outcome α} {f : α → Outcome β} (hx : Reports x.result)
    (hf : ∀ a, Reports (f a).result) : Reports (x >>= f).result := by
  rw [result_bind]
  exact bind hx hf

end Reports

/-! ### Files -/

namespace FileTree

variable {t : FileTree} {p : Path}

theorem reports_find : Reports (t.find p) := by
  intro e h
  rcases find_error h with rfl | ⟨why, rfl, -⟩ <;> exact Fault.reportable rfl

theorem reports_canonical : Reports (t.canonical p) := by
  intro e h
  obtain rfl := canonical_error h
  exact Fault.reportable rfl

theorem reports_resolve : Reports (t.resolve p) := by
  refine .bind reports_canonical fun l => ?_
  dsimp only
  split
  · exact .error rfl
  · exact .ok _

theorem reports_leadsTo (test : Node → Bool) : Reports (t.leadsTo test p) := by
  intro e h
  obtain ⟨rfl, -⟩ := leadsTo_error h
  exact Fault.reportable rfl

theorem reports_contains : Reports (t.contains p) := reports_leadsTo _

theorem reports_isDirectory : Reports (t.isDirectory p) := reports_leadsTo _

theorem reports_bytes : Reports (t.bytes p) := by
  refine .bind reports_find fun l => ?_
  split
  · exact .ok _
  · exact .error rfl

theorem reports_contents : Reports (t.contents p) := by
  refine .bind reports_find fun l => ?_
  dsimp only
  split
  · exact .error rfl
  · exact reports_bytes

theorem reports_makeBelow (anchor : Anchor) (names : List String) :
    Reports (t.makeBelow anchor names) := by
  induction names generalizing t with
  | nil => exact .ok t
  | cons name above ih =>
      rw [makeBelow]
      split
      · split
        · exact .ok _
        · exact .error rfl
      · refine .bind ih fun u => ?_
        split
        · refine .bind reports_find fun _ => ?_
          dsimp only
          split
          · exact .ok _
          · exact .error rfl
        · rename_i hfind
          exact reports_find.of_error hfind
        · exact .ok _
      · rename_i hfind
        exact reports_find.of_error hfind

theorem reports_openToAppend : Reports (t.openToAppend p) := by
  unfold openToAppend
  split
  · split
    · exact .error rfl
    · exact .ok _
  · split
    · exact .ok _
    · exact .error rfl
  · rename_i hfind
    exact reports_find.of_error hfind

end FileTree

theorem reports_configure (s : Log.Setup) (t : FileTree) (name : String) (p : Option Path) :
    Reports (s.configure t name p).2 := by
  unfold Log.Setup.configure
  split
  · rename_i e htarget
    intro d hd
    cases hd
    cases p with
    | none => cases htarget
    | some p => exact (FileTree.reports_resolve.bind fun _ => .ok _) e htarget
  · rename_i target _
    unfold Log.Setup.direct
    split
    · exact .ok _
    · split
      · exact .ok _
      · rename_i e hprepare
        intro d hd
        cases hd
        cases target with
        | errors => cases hprepare
        | file q =>
            exact (Reports.bind (FileTree.reports_makeBelow _ _)
              fun _ => FileTree.reports_openToAppend) e hprepare

/-! ### Settings -/

theorem reports_expandHome (w : World) (p : Path) : Reports (w.expandHome p) := by
  unfold World.expandHome
  split
  · split
    · split
      · refine .bind ?_ fun _ => .ok _
        unfold World.homePath
        dsimp only
        split
        · exact .error rfl
        · exact .ok _
      · exact .error rfl
    · exact .ok _
  · exact .ok _

namespace Config

variable {w : World}

theorem reports_section? (m : Mapping) (name : String) : Reports (section? m name) := by
  unfold section?
  dsimp only
  split
  · exact .ok _
  · split
    · exact .ok _
    · exact .error rfl

theorem reports_toDouble (v : Value) : Reports (toDouble v) := by
  unfold toDouble
  split
  · split
    · exact .ok _
    · exact .error rfl
  · exact .ok _
  · exact .ok _
  · split
    · exact .ok _
    · exact .error rfl
  · exact .error rfl

theorem reports_fetching (m : Mapping) : Reports (fetching m) := by
  refine (reports_section? m "includes").bind fun s => (reports_section? s "fetch").bind fun f => ?_
  dsimp only
  split
  · exact .ok _
  · refine .bind (.map (reports_toDouble _)) fun _ => .ok _

theorem reports_logLevel (m : Mapping) : Reports (logLevel m) :=
  (reports_section? m "logging").bind fun _ => .ok _

theorem reports_logFile (root : Option Path) (m : Mapping) : Reports (logFile w root m) := by
  refine (reports_section? m "logging").bind fun s => ?_
  dsimp only
  split
  · exact .ok _
  · exact .bind (reports_expandHome w _) fun _ => .ok _

theorem reports_object (t : FileTree) (p : Path) : Reports (object t p) := by
  refine (FileTree.reports_leadsTo _).bind fun present => ?_
  split
  · refine FileTree.reports_contents.bind fun bs => .bind ?_ fun cs => ?_
    · intro e h
      obtain ⟨u, -, rfl⟩ := mapError_error_iff.mp h
      exact Fault.reportable rfl
    · intro e h hown
      split at h
      · cases h
      · cases h
        exact Fault.reportable rfl hown
      · rename_i hfault
        cases h
        rw [isOwn_of_mem_scalarKinds (Yaml.kind_document hfault)] at hown
        cases hown
  · exact .error rfl

theorem reports_layer (t : FileTree) (p : Path) : Reports (layer t p) := by
  intro e h
  unfold layer at h
  split at h
  · cases h
  · cases h
  · cases h
    exact Fault.reportable rfl
  · rename_i hobject
    cases h
    exact reports_object t p _ hobject

theorem reports_layered (root : Path) : Reports (layered w root).result := by
  intro e h
  rcases layered_error_iff.mp h with h | ⟨_, p, _, -, -, hp⟩
  · obtain ⟨-, rfl⟩ := files_error h
    exact Fault.reportable rfl
  · exact reports_layer _ p e hp

theorem reports_setting (m : Objects) (v : String × String) :
    Reports (Override.apply m v).result := by
  unfold Override.apply
  dsimp only
  split
  · exact .error rfl
  · refine .outcome (.lift ?_) fun path => .outcome (.lift ?_) fun x =>
      .outcome (.ok _) fun _ => .lift ?_
    · intro e h
      obtain rfl := Override.path_error h
      exact Fault.reportable rfl
    · intro e h hown
      rw [Override.kind_coerce h] at hown
      cases hown
    · intro e h
      obtain ⟨key, -, rfl⟩ := Override.put_error_iff.mp h
      exact Fault.reportable rfl

theorem reports_load (root : Path) (validate : Bool) : Reports (load w root validate).result := by
  intro e h
  rcases result_load_error_iff.mp h with h | ⟨base, -, h | ⟨-, -, h⟩⟩
  · exact reports_layered root e h
  · obtain ⟨_, v, _, -, -, h⟩ := Override.applyEach_error_iff.mp h
    exact reports_setting _ v e h
  · rw [check, Schema.check] at h
    split at h
    · cases h
    · cases h
      exact Fault.reportable rfl

theorem reports_canonicalRoot (root : Option Path) : Reports (Session.canonicalRoot w root) := by
  cases root with
  | none => exact FileTree.reports_resolve
  | some p => exact (reports_expandHome w p).bind fun _ => FileTree.reports_resolve

theorem reports_fingerprint (root : Option Path) : Reports (Session.fingerprint w root) :=
  (reports_canonicalRoot root).bind fun _ => .ok _

theorem reports_get (s : Session) (root : Option Path) (validate : Bool) :
    Reports (s.get root validate).2.result := by
  unfold Session.get
  split
  · rename_i e hkey
    intro d hd
    cases hd
    exact reports_fingerprint root e hkey
  · split
    · exact .ok _
    · dsimp only
      split
      · rename_i e hload
        intro d hd
        cases hd
        exact reports_load _ _ _ hload
      · exact .ok _

theorem reports_fetchingOf (s : Session) (root : Option Path) :
    Reports (s.fetching root).2.result :=
  .outcome (reports_get s root true) fun entry => reports_fetching entry.config

end Config

/-! ### Inclusion -/

theorem Remote.reportable_explain {url : String} {e : Fault} (h : e.Reportable) :
    (Remote.explain url e).Reportable := by
  unfold Remote.explain
  split
  · exact Fault.reportable rfl
  · exact h

theorem Remote.reports_text (a : Remote.Answer) : Reports a.text := by
  cases a with
  | failure what => exact .error rfl
  | body bytes =>
      intro e h
      obtain ⟨u, -, rfl⟩ := mapError_error_iff.mp h
      exact Fault.reportable rfl

theorem Remote.reports_ask (table : Remote.Table) (o : Remote.Options) (url : String) :
    Reports (Remote.ask table o url).result := by
  cases haddress : Remote.address url with
  | error e =>
      rw [Remote.ask_error haddress]
      obtain ⟨asked, rfl⟩ := Remote.address_error haddress
      exact .error rfl
  | ok asked =>
      rw [Remote.ask_eq haddress]
      exact Remote.reports_text _

theorem Remote.reports_fetch (table : Remote.Table) (o : Remote.Options) (url : String) :
    Reports (Remote.fetch table o url).result :=
  .outcome (.ok ()) fun _ =>
    (Remote.reports_ask table o url).mapFault fun _ => Remote.reportable_explain

namespace Include

theorem reports_readLines (t : FileTree) (p : Path) : Reports (readLines t p) := by
  intro e h
  rcases readLines_error h with ⟨-, rfl⟩ | ⟨why, -, -, rfl⟩ <;> exact Fault.reportable rfl

end Include

end Splice
