import Splice.Proofs.Command.Contexts
import Splice.Proofs.Outcome.Live
import Splice.Proofs.Reader.Lines

namespace Splice

open Outcome

/-- All units count as files. -/
def OfFiles (us : List SourceUnit) : Prop := ∀ u ∈ us, ∃ p, u.file = some p

/-- All lines come from files. -/
def FromFiles (ls : List Line) : Prop := ∀ l ∈ ls, ∃ p, l.origin = some p

namespace Live

variable {α β : Type} {Q : α → Prop} {R : β → Prop} {x : Live α}

/-- Whatever records have been made, a computation fails only with what can be reported, registers
only units that count as files, and comes to something that `Q` holds of. -/
structure Yields (x : Live α) (Q : α → Prop) : Prop where
  reports : ∀ made, Reports (x made).result
  owned : ∀ made, OfFiles (x made).units
  result : ∀ made a, (x made).result = .ok a → Q a

namespace Yields

theorem outcome {o : Outcome α} (hreports : Reports o.result) (howned : OfFiles o.units)
    (hresult : ∀ a, o.result = .ok a → Q a) : Yields (liftM o : Live α) Q :=
  ⟨fun _ => hreports, fun _ => howned, fun _ => hresult⟩

theorem except {r : Except Fault α} (h : Reports r) :
    Yields (liftM r : Live α) fun a => r = .ok a :=
  outcome (o := .lift r) h (List.forall_mem_nil _) fun _ ha => ha

theorem pure {a : α} (h : Q a) : Yields (Pure.pure a : Live α) Q :=
  outcome (o := Pure.pure a) (.ok a) (List.forall_mem_nil _) fun _ ha => Except.ok.inj ha ▸ h

theorem fail {e : Fault} (h : e.isNative = true) : Yields (liftM (Outcome.fail e : Outcome α)) Q :=
  outcome (.error h) (List.forall_mem_nil _) (by rintro _ ⟨⟩)

theorem log (level : Log.Level) (origin : Log.Origin) (message : String) :
    Yields (liftM (Outcome.log level origin message) : Live Unit) fun _ => True :=
  outcome (.ok ()) (List.forall_mem_nil _) fun _ _ => trivial

theorem unit {u : SourceUnit} (h : ∃ p, u.file = some p) :
    Yields (liftM (Outcome.emit (.unit u)) : Live Unit) fun _ => True :=
  outcome (.ok ()) (List.forall_mem_singleton.mpr h) fun _ _ => trivial

theorem look (files : Files) : Yields files.look fun _ => True :=
  ⟨fun made => .ok (files made), fun _ => List.forall_mem_nil _, fun _ _ _ => trivial⟩

theorem bind {f : α → Live β} (hx : Yields x Q) (hf : ∀ a, Q a → Yields (f a) R) :
    Yields (x >>= f) R := by
  constructor
  case reports =>
    intro made e he
    rcases result_bind_error_iff.mp he with he | ⟨a, ha, he⟩
    · exact hx.reports made e he
    · exact (hf a (hx.result made a ha)).reports _ e he
  case owned =>
    intro made u hu
    rcases mem_units_bind.mp hu with hu | ⟨a, ha, hu⟩
    · exact hx.owned made u hu
    · exact (hf a (hx.result made a ha)).owned _ u hu
  case result =>
    intro made b hb
    obtain ⟨a, ha, hb⟩ := result_bind_ok_iff.mp hb
    exact (hf a (hx.result made a ha)).result _ b hb

theorem registered {x : Live Unit} (hx : Yields x fun _ => True) : Yields x.registered OfFiles := by
  have happly (made : List Log.Record) : x.registered made =
      ⟨(x made).trace, (x made).result.map fun _ => (x made).units⟩ := Outcome.bind_return _ _
  constructor
  case reports =>
    intro made e he
    rw [happly] at he
    exact hx.reports made e (Results.map_error_iff.mp he)
  case owned =>
    intro made
    rw [happly]
    exact hx.owned made
  case result =>
    intro made us hus
    rw [happly] at hus
    obtain ⟨-, -, rfl⟩ := Results.map_ok_iff.mp hus
    exact hx.owned made

end Yields

end Live

open Live

namespace Include

variable {files : Files} {fetch : Remote.Fetcher}

theorem yields_forEach {step : String → Live Unit} (h : ∀ name, Yields (step name) fun _ => True)
    (names : List String) : Yields (forEach names step) fun _ => True := by
  induction names with
  | nil => exact .pure trivial
  | cons name rest ih => exact (h name).bind fun _ _ => ih

theorem yields_searchWithin {found : Path → List String → Live Unit}
    (hfound : ∀ p lines, Yields (found p lines) fun _ => True) (n : Nat) (p : Path) :
    Yields (searchWithin files.look found n p) fun _ => True := by
  induction n generalizing p with
  | zero => exact .fail rfl
  | succ n ih =>
      refine (Yields.look files).bind fun t _ => ?_
      refine (Yields.except FileTree.reports_isDirectory).bind fun isDir _ => ?_
      split
      · split
        · exact yields_forEach (fun name => ih (p.child name)) _
        · exact .log _ _ _
      · exact (Yields.except (reports_readLines t p)).bind fun lines _ => hfound p lines

theorem yields_register (p : Path) (lines : List String) :
    Yields (liftM (register p lines) : Live Unit) fun _ => True :=
  (Yields.log _ _ _).bind fun _ _ => .unit ⟨p, rfl⟩

theorem yields_resolveIn (hfetch : Remote.Plain fetch)
    (hreports : ∀ url, Reports (fetch url).result) (parent : Path) (source : String) :
    Yields (resolveIn files.look fetch (some parent) source) fun _ => True := by
  unfold resolveIn
  split
  · refine Yields.bind (Q := fun _ => True) (.outcome ?_ ?_ fun _ _ => trivial) fun body _ => ?_
    · exact (hreports source).mapFault fun _ => Remote.reportable_explain
    · rw [units_mapFault, hfetch.units_eq]
      exact List.forall_mem_nil _
    · exact (Yields.log _ _ _).bind fun _ _ => .unit ⟨parent, rfl⟩
  · refine (Yields.look files).bind fun t _ => ?_
    refine (Yields.except FileTree.reports_contains).bind fun present _ => ?_
    split
    · exact yields_searchWithin yields_register _ _
    · exact (Yields.except FileTree.reports_canonical).bind fun _ _ => .fail rfl

theorem yields_parseIn (hfetch : Remote.Plain fetch)
    (hreports : ∀ url, Reports (fetch url).result) (parent : Path) (words : Words) :
    Yields (parseIn files.look fetch (some parent) words) fun _ => True := by
  unfold parseIn
  split
  · exact .fail rfl
  · exact yields_resolveIn hfetch hreports parent _
  · exact .fail rfl

end Include

namespace Reader

variable {files : Files} {find : Option Path → Words → Live (List SourceUnit)}
  {expand : SourceUnit → Live (List Line)}

theorem FromFiles.append {ls ls' : List Line} (h : FromFiles ls) (h' : FromFiles ls') :
    FromFiles (ls ++ ls') := List.forall_mem_append.mpr ⟨h, h'⟩

theorem yields_expandUnits {us : List SourceUnit}
    (h : ∀ u ∈ us, Yields (expand u) FromFiles) : Yields (expandUnits expand us) FromFiles := by
  induction us with
  | nil => exact .pure (List.forall_mem_nil _)
  | cons u us ih =>
      obtain ⟨hu, hus⟩ := List.forall_mem_cons.mp h
      exact hu.bind fun _ hls => (ih hus).bind fun _ hls' => .pure (FromFiles.append hls hls')

theorem yields_spliceLines (hfind : ∀ p words, Yields (find (some p) words) OfFiles)
    (hexpand : ∀ u, (∃ p, u.file = some p) → Yields (expand u) FromFiles) (p : Path)
    (number : Nat) (lines : List String) :
    Yields (spliceLines find expand (some p) number lines) FromFiles := by
  have hline (number : Nat) (text : String) :
      Yields (spliceLine find expand (some p) number text) FromFiles := by
    have hdirective : Reports (Directive.ofLine? text) := by
      intro e he
      obtain ⟨line, why, rfl⟩ := ofLine?_error he
      exact Fault.reportable rfl
    refine (Yields.except hdirective).bind fun words? _ => ?_
    cases words? with
    | none => exact .pure (List.forall_mem_singleton.mpr ⟨p, rfl⟩)
    | some words =>
        exact (hfind p words).bind fun us hus => yields_expandUnits fun u hu => hexpand u (hus u hu)
  induction lines generalizing number with
  | nil => exact .pure (List.forall_mem_nil _)
  | cons text rest ih =>
      exact (hline number text).bind fun _ hls =>
        (ih (number + 1)).bind fun _ hls' => .pure (FromFiles.append hls hls')

theorem yields_spliceWithin (hfind : ∀ p words, Yields (find (some p) words) OfFiles) (n : Nat)
    {u : SourceUnit} (hu : ∃ p, u.file = some p) : Yields (spliceWithin find n u) FromFiles := by
  induction n generalizing u with
  | zero => exact .fail rfl
  | succ n ih =>
      obtain ⟨p, hp⟩ := hu
      rw [spliceWithin, hp]
      exact yields_spliceLines hfind (fun v hv => ih hv) p 1 u.lines

theorem yields_spliceFile (hfind : ∀ p words, Yields (find (some p) words) OfFiles) (p : Path) :
    Yields (spliceFile files.look find p) FromFiles := by
  refine (Yields.look files).bind fun t _ => ?_
  refine (Yields.except (Include.reports_readLines t p)).bind fun lines _ => ?_
  exact yields_spliceWithin hfind deepest ⟨p, rfl⟩

end Reader

end Splice
