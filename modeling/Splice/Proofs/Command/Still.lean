import Splice.Proofs.Command.Listing

namespace Splice

open Outcome

variable {t : FileTree} {fetch : Remote.Fetcher}

namespace Include

theorem searchWithin_still (found : Path → List String → Outcome Unit) (n : Nat) (p : Path) :
    searchWithin (pure t : Live FileTree) (fun p lines => liftM (found p lines)) n p =
      liftM (searchWithin (pure t) found n p) := by
  induction n generalizing p with
  | zero => rfl
  | succ n ih =>
      have hall (names : List String) :
          forEach names (fun name => searchWithin (pure t : Live FileTree)
            (fun p lines => liftM (found p lines)) n (p.child name)) =
          liftM (forEach names fun name => searchWithin (pure t) found n (p.child name)) := by
        induction names with
        | nil => rfl
        | cons name rest hrest => rw [forEach, ih, hrest]; rfl
      rw [searchWithin, searchWithin, pure_bind, pure_bind]
      cases hd : t.isDirectory p with
      | error e => rfl
      | ok isDir =>
          rw [Live.lift_bind_ok rfl, lift_bind_ok rfl]
          cases isDir with
          | false => rfl
          | true =>
              rw [if_pos rfl, if_pos rfl]
              cases t.list p with
              | error e => rfl
              | ok names => exact hall _

theorem parseIn_still (origin : Option Path) (words : Words) :
    parseIn (pure t : Live FileTree) fetch origin words = liftM (parse t fetch origin words) := by
  have hlocal (parent : Path) (source : String) : resolveIn (pure t : Live FileTree) fetch
      (some parent) source = liftM (resolve t fetch (some parent) source) := by
    unfold resolve resolveIn
    split
    · rfl
    · dsimp only
      rw [pure_bind, pure_bind]
      cases t.contains (target parent source) with
      | error e => rfl
      | ok present =>
          rw [Live.lift_bind_ok rfl, lift_bind_ok rfl]
          cases present with
          | false => rfl
          | true => exact searchWithin_still _ _ _
  unfold parse parseIn
  split
  · rfl
  · cases origin with
    | none =>
        unfold resolveIn
        split <;> rfl
    | some parent => exact hlocal parent _
  · rfl

end Include

namespace Reader

variable (find : Option Path → Words → Outcome (List SourceUnit))

theorem expandUnits_still {expand : SourceUnit → Live (List Line)}
    {expand' : SourceUnit → Outcome (List Line)} (h : ∀ u, expand u = liftM (expand' u))
    (us : List SourceUnit) : expandUnits expand us = liftM (expandUnits expand' us) := by
  induction us with
  | nil => rfl
  | cons u us ih => rw [expandUnits, h, ih]; rfl

theorem spliceWithin_still (n : Nat) (u : SourceUnit) :
    spliceWithin (fun origin words => (liftM (find origin words) : Live _)) n u =
      liftM (spliceWithin find n u) := by
  induction n generalizing u with
  | zero => rfl
  | succ n ih =>
      rw [spliceWithin, spliceWithin]
      generalize u.file = origin, u.lines = lines, 1 = number
      induction lines generalizing number with
      | nil => rfl
      | cons text rest hrest =>
          have hline : spliceLine (fun origin words => (liftM (find origin words) : Live _))
              (spliceWithin (fun origin words => liftM (find origin words)) n) origin number text =
              liftM (spliceLine find (spliceWithin find n) origin number text) := by
            unfold spliceLine
            cases Directive.ofLine? text with
            | error e => rfl
            | ok words? =>
                rw [Live.lift_bind_ok rfl, lift_bind_ok rfl]
                cases words? with
                | none => rfl
                | some words =>
                    exact congrArg (liftM (find origin words) >>= ·)
                      (funext (expandUnits_still ih))
          rw [spliceLines, hline, hrest]
          rfl

/-- Where the files stay as they are, an expansion is that of the files. -/
theorem spliceFile_still (p : Path) :
    spliceFile (pure t : Live FileTree)
      (fun origin words =>
        (Include.parseIn (pure t : Live FileTree) fetch origin words).registered) p =
      liftM (expandFile t fetch p) := by
  simp only [Include.parseIn_still]
  rw [spliceFile, pure_bind, expandFile, spliceFile, pure_bind]
  cases Include.readLines t p with
  | error e => rfl
  | ok lines =>
      rw [Live.lift_bind_ok rfl, lift_bind_ok rfl]
      exact spliceWithin_still (Resolver.find (Include.parse t fetch)) _ _

end Reader

namespace Command

variable {w : World} {s : Prepared}

/-- Where all records go to the error output, no file changes under a command. -/
theorem Ready.still (h : Ready w s) (herrors : ∀ d ∈ s.setup.handlers, d.target = .errors) :
    s.files = fun _ => s.session.world.files := by
  obtain ⟨k, hk⟩ := h.delivered
  rw [h.world, hk]
  exact funext (files_of_errors herrors k)

/-- What is proved of files that stay as they are holds of an expansion whose records go to the
error output. -/
theorem expansion_still (h : Ready w s) (herrors : ∀ d ∈ s.setup.handlers, d.target = .errors)
    (file : String) : expansion file s = liftM (do
      let source ← s.session.world.files.resolve (.ofText file)
      let fetching ← (s.session.fetching (some s.root)).2
      return (source, ← Reader.expandFile s.session.world.files
        (Remote.fetch s.session.world.remote fetching.options) source) : Outcome _) := by
  have hlook : s.files.look = pure s.session.world.files := by
    rw [h.still herrors]
    rfl
  unfold expansion
  simp only [hlook, pure_bind, Reader.spliceFile_still]
  rfl

theorem listing_still (h : Ready w s) (herrors : ∀ d ∈ s.setup.handlers, d.target = .errors)
    (file target : String) : listing file target s = liftM (do
      let parent ← s.session.world.files.resolve (.ofText file)
      let fetching ← (s.session.fetching (some s.root)).2
      (Include.parse s.session.world.files (Remote.fetch s.session.world.remote fetching.options)
        (some parent) ⟨["!include", target]⟩).registered : Outcome _) := by
  have hlook : s.files.look = pure s.session.world.files := by
    rw [h.still herrors]
    rfl
  unfold listing
  simp only [hlook, pure_bind, Include.parseIn_still]
  rfl

end Command

end Splice
