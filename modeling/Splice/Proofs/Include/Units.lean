import Splice.Include
import Splice.Proofs.Remote.Plain

namespace Splice.Include

open Outcome

variable {t : FileTree} {fetch : Remote.Fetcher}

theorem mem_units_forEach {names : List String} {step : String → Outcome Unit} {u : SourceUnit}
    (hu : u ∈ (forEach names step).units) : ∃ name ∈ names, u ∈ (step name).units := by
  induction names with
  | nil => cases hu
  | cons name rest ih =>
      rcases mem_units_bind.mp hu with hu | ⟨_, _, hu⟩
      · exact ⟨name, List.mem_cons_self, hu⟩
      · obtain ⟨name', hname, hu⟩ := ih hu
        exact ⟨name', List.mem_cons_of_mem _ hname, hu⟩

theorem readLines_ok {p : Path} {lines : List String} (h : readLines t p = .ok lines) :
    ∃ text, t.read p = .ok text ∧ lines = Text.linesOfFile text := by
  unfold readLines at h
  split at h
  · exact ⟨_, ‹_›, (Except.ok.inj h).symm⟩
  · cases h
  · cases h

theorem readLines_error {p : Path} {e : Fault} (h : readLines t p = .error e) :
    t.read p = .error .embeddedNul ∧ e = .embeddedNul ∨
      ∃ why, t.read p = .error why ∧ why ≠ .embeddedNul ∧ e = .failed p.text why := by
  unfold readLines at h
  split at h
  · cases h
  · exact .inl ⟨‹_›, (Except.error.inj h).symm⟩
  · rename_i why hne hread
    exact .inr ⟨why, hread, fun hnul => hne hnul, (Except.error.inj h).symm⟩

section

variable {found : Path → List String → Outcome Unit} {p : Path}

theorem searchWithin_fault {e : Fault} (h : t.isDirectory p = .error e) (n : Nat) :
    searchWithin (pure t) found (n + 1) p = .fail e := by
  rw [searchWithin, pure_bind, lift_bind_error h]

theorem searchWithin_listed {names : List String} (h : t.isDirectory p = .ok true)
    (hnames : t.list p = .ok names) (n : Nat) :
    searchWithin (pure t) found (n + 1) p =
      forEach (inOrder names) fun name => searchWithin (pure t) found n (p.child name) := by
  rw [searchWithin, pure_bind, lift_bind_ok h, if_pos rfl, hnames]

theorem searchWithin_skipped {e : Fault} (h : t.isDirectory p = .ok true)
    (he : t.list p = .error e) (n : Nat) :
    searchWithin (pure t) found (n + 1) p = .log .warning .includes
      ("Skipping include directory " ++ p.text ++ ": " ++ e.message) := by
  rw [searchWithin, pure_bind, lift_bind_ok h, if_pos rfl, he]
  rfl

theorem searchWithin_file (h : t.isDirectory p = .ok false) (n : Nat) :
    searchWithin (pure t) found (n + 1) p = liftM (readLines t p) >>= found p := by
  rw [searchWithin, pure_bind, lift_bind_ok h]
  rfl

theorem collectWithin_fault {e : Fault} (h : t.isDirectory p = .error e) (n : Nat) :
    collectWithin t (n + 1) p = .fail e :=
  searchWithin_fault h n

theorem collectWithin_listed {names : List String} (h : t.isDirectory p = .ok true)
    (hnames : t.list p = .ok names) (n : Nat) :
    collectWithin t (n + 1) p =
      forEach (inOrder names) fun name => collectWithin t n (p.child name) :=
  searchWithin_listed h hnames n

theorem collectWithin_skipped {e : Fault} (h : t.isDirectory p = .ok true)
    (he : t.list p = .error e) (n : Nat) :
    collectWithin t (n + 1) p = .log .warning .includes
      ("Skipping include directory " ++ p.text ++ ": " ++ e.message) :=
  searchWithin_skipped h he n

theorem collectWithin_file (h : t.isDirectory p = .ok false) (n : Nat) :
    collectWithin t (n + 1) p =
      liftM (readLines t p) >>= fun lines => .emit (.unit ⟨some p, lines⟩) :=
  searchWithin_file h n

end

/-! ### Announcements -/

/-- What stands for an event where units are announced. -/
def announce : Event → List Event
  | .unit u =>
    [.record ⟨.debug, Log.Origin.includes.logger, "Registering " ++ toString u.lines.length ++
      " lines from " ++ (u.file.map Path.text).getD "None"⟩, .unit u]
  | e => [e]

theorem units_announce (events : List Event) (r : Except Fault Unit) :
    Outcome.units ⟨events.flatMap announce, r⟩ = Outcome.units ⟨events, r⟩ := by
  induction events with
  | nil => rfl
  | cons e es ih => cases e <;> simp_all [units, announce]

def announced {α : Type} (x : Outcome α) : Outcome α := ⟨x.trace.flatMap announce, x.result⟩

theorem announced_bind {α β : Type} (x : Outcome α) (f : α → Outcome β) :
    announced (x >>= f) = announced x >>= fun a => announced (f a) := by
  cases hx : x.result with
  | error e => rw [bind_error hx, bind_error (x := announced x) hx]; rfl
  | ok a =>
      rw [bind_ok hx, bind_ok (x := announced x) hx]
      simp only [announced, List.flatMap_append]

theorem announced_forEach (names : List String) (step : String → Outcome Unit) :
    announced (forEach names step) = forEach names fun name => announced (step name) := by
  induction names with
  | nil => rfl
  | cons name rest ih => rw [forEach, forEach, announced_bind, ih]

/-- A search that announces what it finds registers the same units. -/
theorem searchWithin_register (n : Nat) (p : Path) :
    searchWithin (pure t) (fun p lines => register p lines) n p = announced (collectWithin t n p) := by
  induction n generalizing p with
  | zero => rfl
  | succ n ih =>
      cases hd : t.isDirectory p with
      | error e => rw [searchWithin_fault hd, collectWithin_fault hd]; rfl
      | ok isDir =>
          cases isDir with
          | false =>
              rw [searchWithin_file hd, collectWithin_file hd, announced_bind]
              rfl
          | true =>
              cases hl : t.list p with
              | error e => rw [searchWithin_skipped hd hl, collectWithin_skipped hd hl]; rfl
              | ok names =>
                  rw [searchWithin_listed hd hl, collectWithin_listed hd hl, announced_forEach]
                  exact congrArg (forEach (inOrder names)) (funext fun name => ih (p.child name))

/-! ### Where units come from -/

/-- A unit found by a walk has the path of a file at or below the path, below it if that is a
directory, and the lines of this file. -/
theorem mem_units_collectWithin {n : Nat} {p : Path} {u : SourceUnit}
    (hu : u ∈ (collectWithin t n p).units) :
    ∃ names lines, u = ⟨some { p with parts := p.parts ++ names }, lines⟩ ∧
      readLines t { p with parts := p.parts ++ names } = .ok lines ∧
      (t.isDirectory p = .ok true → names ≠ []) := by
  induction n generalizing p with
  | zero => cases hu
  | succ n ih =>
      cases hd : t.isDirectory p with
      | error e => rw [collectWithin_fault hd] at hu; cases hu
      | ok isDir =>
          cases isDir with
          | false =>
              rw [collectWithin_file hd] at hu
              cases hlines : readLines t p with
              | error e => rw [lift_bind_error hlines] at hu; cases hu
              | ok lines =>
                  rw [lift_bind_ok hlines] at hu
                  obtain rfl := List.mem_singleton.mp hu
                  refine ⟨[], lines, ?_, ?_, nofun⟩
                  · rw [List.append_nil]
                  · rw [List.append_nil, hlines]
          | true =>
              cases hl : t.list p with
              | error e => rw [collectWithin_skipped hd hl] at hu; cases hu
              | ok entries =>
                  rw [collectWithin_listed hd hl] at hu
                  obtain ⟨name, _, hu⟩ := mem_units_forEach hu
                  obtain ⟨names, lines, hunit, hlines, _⟩ := ih hu
                  simp only [Path.child, List.append_assoc, List.singleton_append] at hunit hlines
                  exact ⟨name :: names, lines, hunit, hlines, fun _ => List.cons_ne_nil _ _⟩

theorem resolve_remote {source : String} (h : isRemote source = true) (parent : Option Path) :
    resolve t fetch parent source =
      (fetch source).mapFault (Remote.explain source) >>= fun body =>
        ⟨[.record ⟨.debug, Log.Origin.includes.logger,
            "Registering " ++ toString (Text.linesOfBody body).length ++ " remote lines from " ++
              source ++ " as " ++ (parent.map Path.text).getD "None"⟩,
          .unit ⟨parent, Text.linesOfBody body⟩], .ok ()⟩ := by
  unfold resolve resolveIn
  rw [if_pos h]
  rfl

theorem result_resolve_remote {source body : String} (h : isRemote source = true)
    (hbody : (fetch source).result = .ok body) (parent : Option Path) :
    (resolve t fetch parent source).result = .ok () := by
  rw [resolve_remote h, result_bind, mapFault, hbody]
  rfl

theorem units_resolve_remote {source body : String} (h : isRemote source = true)
    (hbody : (fetch source).result = .ok body) (parent : Option Path) :
    (resolve t fetch parent source).units =
      (fetch source).units ++ [⟨parent, Text.linesOfBody body⟩] := by
  have hr : ((fetch source).mapFault (Remote.explain source)).result = .ok body := by
    rw [mapFault, hbody]
    rfl
  rw [resolve_remote h, bind_ok hr]
  simp [units, mapFault]

theorem resolve_ignored {source : String} (h : isRemote source = false) :
    resolve t fetch none source = .log .debug .includes
      ("Ignoring local include " ++ Text.quoted source ++ ": no file is being parsed") := by
  rw [resolve, resolveIn, if_neg (by simp [h])]
  rfl

theorem resolve_found {source : String} (h : isRemote source = false) {file : Path}
    (hc : t.contains (target file source) = .ok true) :
    resolve t fetch (some file) source =
      ⟨(collect t (target file source)).trace.flatMap announce,
        (collect t (target file source)).result⟩ := by
  rw [resolve, resolveIn, if_neg (by simp [h])]
  dsimp only
  rw [pure_bind, lift_bind_ok hc, if_pos rfl]
  exact searchWithin_register _ _

theorem resolve_absent {source : String} (h : isRemote source = false) {file : Path}
    (hc : t.contains (target file source) = .ok false) :
    resolve t fetch (some file) source =
      liftM (t.canonical (target file source)) >>= fun place =>
        .fail (.notFound source (FileTree.pathTo place).text) := by
  rw [resolve, resolveIn, if_neg (by simp [h])]
  dsimp only
  rw [pure_bind, lift_bind_ok hc]
  rfl

theorem resolve_fault {source : String} (h : isRemote source = false) {file : Path} {e : Fault}
    (hc : t.contains (target file source) = .error e) :
    resolve t fetch (some file) source = .fail e := by
  rw [resolve, resolveIn, if_neg (by simp [h])]
  dsimp only
  rw [pure_bind, lift_bind_error hc]

theorem resolve_unfound (fetch : Remote.Fetcher) {source : String} (h : isRemote source = false)
    {file : Path} (hc : t.contains (target file source) ≠ .ok true) :
    ∃ e, resolve t fetch (some file) source = .fail e := by
  cases hpresent : t.contains (target file source) with
  | error e => exact ⟨e, resolve_fault h hpresent⟩
  | ok present =>
      cases present with
      | true => exact absurd hpresent hc
      | false =>
          rw [resolve_absent h hpresent]
          cases hplace : t.canonical (target file source) with
          | error e => exact ⟨e, lift_bind_error rfl _⟩
          | ok place => exact ⟨_, lift_bind_ok rfl _⟩

theorem collected_of_mem_units {source : String} (h : isRemote source = false) {file : Path}
    {u : SourceUnit} (hu : u ∈ (resolve t fetch (some file) source).units) :
    u ∈ (collect t (target file source)).units := by
  by_cases hc : t.contains (target file source) = .ok true
  · rwa [resolve_found h hc, units_announce] at hu
  · obtain ⟨e, he⟩ := resolve_unfound fetch h hc
    rw [he] at hu
    cases hu

/-- What the resolution of a target can fail over: what the fetcher fails with, and for a file that
is included from another what the walk fails with, or that the target is not there. -/
inductive Unresolved (t : FileTree) (fetch : Remote.Fetcher) :
    Option Path → String → Fault → Prop
  | unfetched {parent source e} (remote : isRemote source = true)
      (given : (fetch source).result = .error e) :
      Unresolved t fetch parent source (Remote.explain source e)
  | refused {file source e} (here : isRemote source = false)
      (contains : t.contains (target file source) = .error e) :
      Unresolved t fetch (some file) source e
  | unwalked {file source e} (here : isRemote source = false)
      (contains : t.contains (target file source) = .ok true)
      (walk : (collect t (target file source)).result = .error e) :
      Unresolved t fetch (some file) source e
  | misplaced {file source e} (here : isRemote source = false)
      (contains : t.contains (target file source) = .ok false)
      (canonical : t.canonical (target file source) = .error e) :
      Unresolved t fetch (some file) source e
  | absent {file source place} (here : isRemote source = false)
      (contains : t.contains (target file source) = .ok false)
      (canonical : t.canonical (target file source) = .ok place) :
      Unresolved t fetch (some file) source (.notFound source (FileTree.pathTo place).text)

theorem Unresolved.of_error {parent : Option Path} {source : String} {e : Fault}
    (h : (resolve t fetch parent source).result = .error e) :
    Unresolved t fetch parent source e := by
  cases hr : isRemote source with
  | true =>
      rw [resolve_remote hr] at h
      rcases result_bind_error_iff.mp h with h | ⟨_, _, h⟩
      · obtain ⟨d, hd, rfl⟩ := Results.mapError_error_iff.mp h
        exact .unfetched hr hd
      · cases h
  | false =>
      cases parent with
      | none => rw [resolve_ignored hr] at h; cases h
      | some file =>
          cases hc : t.contains (target file source) with
          | error d =>
              rw [resolve_fault hr hc] at h
              cases h
              exact .refused hr hc
          | ok present =>
              cases present with
              | true =>
                  rw [resolve_found hr hc] at h
                  exact .unwalked hr hc h
              | false =>
                  rw [resolve_absent hr hc] at h
                  rcases result_bind_error_iff.mp h with h | ⟨place, hplace, h⟩
                  · exact .misplaced hr hc h
                  · cases h
                    exact .absent hr hc hplace

theorem resolve_error_iff {parent : Option Path} {source : String} {e : Fault} :
    (resolve t fetch parent source).result = .error e ↔ Unresolved t fetch parent source e := by
  refine ⟨Unresolved.of_error, fun h => ?_⟩
  cases h with
  | unfetched remote given =>
      rw [resolve_remote remote]
      exact result_bind_error_iff.mpr (.inl (by rw [mapFault, given]; rfl))
  | refused here contains => exact congrArg result (resolve_fault here contains)
  | unwalked here contains walk => exact (congrArg result (resolve_found here contains)).trans walk
  | misplaced here contains canonical =>
      rw [resolve_absent here contains]
      exact result_bind_error_iff.mpr (.inl canonical)
  | absent here contains canonical =>
      rw [resolve_absent here contains]
      exact result_bind_error_iff.mpr (.inr ⟨_, canonical, rfl⟩)

/-- Where a unit that a target leads to comes from: its address, or a file of the tree. -/
inductive Found (t : FileTree) (fetch : Remote.Fetcher) (parent : Option Path) (source : String) :
    SourceUnit → Prop
  | fetched (remote : isRemote source = true) (body : String)
      (given : (fetch source).result = .ok body) :
      Found t fetch parent source ⟨parent, Text.linesOfBody body⟩
  | read (here : isRemote source = false) (path : Path) (lines : List String)
      (given : readLines t path = .ok lines) : Found t fetch parent source ⟨some path, lines⟩

theorem found_of_mem_units (hfetch : Remote.Plain fetch) {parent : Option Path} {source : String}
    {u : SourceUnit} (hu : u ∈ (resolve t fetch parent source).units) :
    Found t fetch parent source u := by
  cases hr : isRemote source with
  | true =>
      rw [resolve_remote hr] at hu
      rcases mem_units_bind.mp hu with hu | ⟨body, hbody, hu⟩
      · exact absurd hu (by rw [units_mapFault, hfetch.units_eq]; exact List.not_mem_nil)
      · obtain rfl := List.mem_singleton.mp hu
        exact .fetched hr body (Results.mapError_ok_iff.mp hbody)
  | false =>
      cases parent with
      | none => rw [resolve_ignored hr] at hu; cases hu
      | some file =>
          obtain ⟨names, lines, rfl, hlines, _⟩ :=
            mem_units_collectWithin (collected_of_mem_units hr hu)
          exact .read hr _ lines hlines

theorem parse_pair (parent : Option Path) {words : Words} {keyword source : String}
    (h : words.toList = [keyword, source]) :
    parse t fetch parent words = resolve t fetch parent source := by
  rw [parse, parseIn, h]
  rfl

theorem units_parse_remote (hfetch : Remote.Plain fetch) {words : Words}
    {keyword source body : String} (hwords : words.toList = [keyword, source])
    (h : isRemote source = true) (hbody : (fetch source).result = .ok body)
    (parent : Option Path) :
    (parse t fetch parent words).units = [⟨parent, Text.linesOfBody body⟩] := by
  rw [parse_pair parent hwords, units_resolve_remote h hbody, hfetch.units_eq, List.nil_append]

theorem found_of_mem_units_parse (hfetch : Remote.Plain fetch) {parent : Option Path}
    {words : Words} {u : SourceUnit} (hu : u ∈ (parse t fetch parent words).units) :
    ∃ keyword source, words.toList = [keyword, source] ∧ Found t fetch parent source u := by
  unfold parse parseIn at hu
  split at hu
  · cases hu
  · exact ⟨_, _, ‹_›, found_of_mem_units hfetch hu⟩
  · cases hu

end Splice.Include
