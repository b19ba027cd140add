import Splice.Proofs.Include.Children
import Splice.Proofs.Include.Order
import Splice.Proofs.Reader.PassThrough
import Splice.Proofs.Words.Enclosed

namespace Splice.Reader

open Outcome Include

variable {resolve : Resolver} {expand : SourceUnit → Outcome (List Line)}

/-- Expand the units that `found` registers, after all of them have been registered. -/
def expandFound (expand : SourceUnit → Outcome (List Line)) (found : Outcome Unit) :
    Outcome (List Line) :=
  found >>= fun _ => concat (found.units.map expand)

theorem akin_expandFound {x y : Outcome Unit} (h : SameUnits x y) :
    Akin (expandFound expand x) (expandFound expand y) := by
  cases h with
  | ok left right units quiet quiet' =>
      have hx := akin_bind_quiet left quiet fun _ => concat (x.units.map expand)
      have hy := akin_bind_quiet right quiet' fun _ => concat (y.units.map expand)
      rw [units] at hx
      unfold expandFound
      rw [units]
      exact hx.trans hy.symm
  | error d e left right =>
      exact .error d e (result_bind_error_iff.mpr (.inl left))
        (result_bind_error_iff.mpr (.inl right))

theorem units_bind {x : Outcome Unit} (h : x.result = .ok ()) (f : Unit → Outcome Unit) :
    (x >>= f).units = x.units ++ (f ()).units := by
  rw [bind_ok h]
  exact List.filterMap_append

theorem expandFound_error {x : Outcome Unit} {e : Fault} (h : x.result = .error e) :
    (expandFound expand x).result = .error e := result_bind_error_iff.mpr (.inl h)

theorem akin_expandFound_ok {x : Outcome Unit} (h : x.result = .ok ()) (hquiet : x.requests = []) :
    Akin (expandFound expand x) (concat (x.units.map expand)) :=
  akin_bind_quiet h hquiet fun _ => concat (x.units.map expand)

/-- Registering the units of both before any of them is expanded comes to the same as expanding those
of the first before the second is looked at. -/
theorem akin_expandFound_bind {x y : Outcome Unit} (hx : x.requests = []) (hy : y.requests = []) :
    Akin (expandFound expand (x >>= fun _ => y))
      (concat [expandFound expand x, expandFound expand y]) := by
  cases hr : x.result with
  | error e =>
      have hleft : (x >>= fun _ => y).result = .error e := result_bind_error_iff.mpr (.inl hr)
      exact .error e e (expandFound_error hleft)
        (result_bind_error_iff.mpr (.inl (expandFound_error hr)))
  | ok a =>
      cases hr' : y.result with
      | error e =>
          have hleft : (x >>= fun _ => y).result = .error e :=
            result_bind_error_iff.mpr (.inr ⟨a, hr, hr'⟩)
          obtain ⟨d, hd⟩ := concat_pair_error (expandFound expand x)
            (@expandFound_error expand _ _ hr')
          exact .error e d (expandFound_error hleft) hd
      | ok b =>
          have hboth : (x >>= fun _ => y).result = .ok () := result_bind_ok_iff.mpr ⟨a, hr, hr'⟩
          have hquiet : (x >>= fun _ => y).requests = [] := by
            rw [requests_bind hr, hx, hy, List.nil_append]
          have hsplit : concat ((x >>= fun _ => y).units.map expand) =
              concat [concat (x.units.map expand), concat (y.units.map expand)] := by
            rw [units_bind hr, List.map_append, concat_append, concat, concat_singleton]
          have hall := @akin_expandFound_ok expand _ hboth hquiet
          rw [hsplit] at hall
          exact hall.trans
            ((akin_expandFound_ok hr hx).symm.concat_pair (akin_expandFound_ok hr' hy).symm)

theorem akin_forEach {names : List String} {step : String → Outcome Unit}
    (hquiet : ∀ name ∈ names, (step name).requests = []) :
    Akin (expandFound expand (forEach names step))
      (concat (names.map fun name => expandFound expand (step name))) := by
  induction names with
  | nil => exact .refl _
  | cons name rest ih =>
      obtain ⟨hname, hrest⟩ := List.forall_mem_cons.mp hquiet
      rw [List.map_cons, concat_cons]
      exact (akin_expandFound_bind hname (requests_forEach hrest)).trans
        ((Akin.refl _).concat_pair (ih hrest))

/-- The line is a directive with this target, however it is written. -/
def Names (line target : String) : Prop :=
  ∃ keyword, Directive.ofLine? line = .ok (some ⟨[keyword, target]⟩)

theorem names_write (target : String) : Names (Directive.write target) target :=
  ⟨_, Directive.ofLine?_write target⟩

section

variable {t : FileTree} {fetch : Remote.Fetcher} {origin : Option Path}

theorem expandLine_names {line target : String} (h : Names line target) (number : Nat) :
    expandLine (Include.parse t fetch) expand origin number line =
      expandFound expand (Include.resolve t fetch origin target) := by
  obtain ⟨keyword, hline⟩ := h
  rw [expandLine_directive hline, Include.parse_pair origin rfl]
  rfl

theorem expandLines_names {lines targets : List String} (h : List.Forall₂ Names lines targets)
    (number : Nat) :
    expandLines (Include.parse t fetch) expand origin number lines =
      concat (targets.map fun target =>
        expandFound expand (Include.resolve t fetch origin target)) := by
  induction h generalizing number with
  | nil => rfl
  | cons hline _ ih => rw [expandLines_bind, ih, expandLine_names hline, List.map_cons, concat]

end

theorem akin_directory {t : FileTree} (hroot : t.root.wellNamed = true) {file : Path}
    {source : String} (hsource : ¬"https:".toList <+: source.toList) {names : List String}
    (hlists : Lists t (target file source) names) (fetch : Remote.Fetcher) {line : String}
    {lines : List String} (hline : Names line source)
    (hlines : List.Forall₂ Names lines ((inOrder names).map (source ++ "/" ++ ·))) :
    Akin (Reader.expand t fetch (some file) [line]) (Reader.expand t fetch (some file) lines) := by
  have hwhole : Reader.expand t fetch (some file) [line] =
      expandFound (expandWithin (Include.parse t fetch) (deepest - 1))
        (resolve t fetch (some file) source) :=
    (expandLines_names (.cons hline .nil) 1).trans (concat_singleton _)
  have hparts : Reader.expand t fetch (some file) lines = _ := expandLines_names hlines 1
  have hchild : ∀ name ∈ inOrder names,
      Akin (expandFound (expandWithin (Include.parse t fetch) (deepest - 1))
          (collect t ((target file source).child name)))
        (expandFound (expandWithin (Include.parse t fetch) (deepest - 1))
          (resolve t fetch (some file) (source ++ "/" ++ name))) := by
    intro name hname
    have hsame := @sameUnits_resolve t fetch file _ (isRemote_child hsource name)
    rw [target_child (hlists.isName hroot (mem_inOrder.mp hname))] at hsame
    exact (akin_expandFound hsame).symm
  rw [hwhole, hparts, List.map_map]
  refine (akin_expandFound (sameUnits_resolve (isRemote_eq_false hsource))).trans ?_
  rw [collect_lists hroot hlists]
  refine (akin_forEach fun name _ => requests_collectWithin _ _).trans (Akin.concat ?_)
  rw [List.forall₂_map_left_iff, List.forall₂_map_right_iff]
  exact List.forall₂_same.mpr hchild

/-- Including a directory is including its children one by one, in order, each as a target of its own
below that of the directory: both succeed with the same lines by the same requests, or both fail. It
does not matter how the lines are written. -/
theorem expand_directory {t : FileTree} (hroot : t.root.wellNamed = true) {file : Path}
    {source : String} (hsource : ¬"https:".toList <+: source.toList) {names : List String}
    (hlists : Lists t (target file source) names) (fetch : Remote.Fetcher) :
    Akin (Reader.expand t fetch (some file) [Directive.write source])
      (Reader.expand t fetch (some file)
        ((inOrder names).map fun name => Directive.write (source ++ "/" ++ name))) ∧
    ∀ line lines, Names line source →
      List.Forall₂ Names lines ((inOrder names).map (source ++ "/" ++ ·)) →
      Akin (Reader.expand t fetch (some file) [line]) (Reader.expand t fetch (some file) lines) := by
  refine ⟨akin_directory hroot hsource hlists fetch (names_write source) ?_, ?_⟩
  · rw [List.forall₂_map_left_iff, List.forall₂_map_right_iff]
    exact List.forall₂_same.mpr fun name _ => names_write (source ++ "/" ++ name)
  · intro line lines
    exact akin_directory hroot hsource hlists fetch

theorem target_shelf : target ⟨.root, ["m"]⟩ "d" = ⟨.root, ["d"]⟩ := by decide

theorem lists_shelf : Lists shelf (target ⟨.root, ["m"]⟩ "d") ["a.dsl", "a-b", "a"] := by
  rw [target_shelf]
  exact FileTree.lists_iff.mpr ⟨_, _, find_shelf (.inl rfl), rfl, rfl, rfl⟩

theorem expand_shelf (fetch : Remote.Fetcher) :
    (Reader.expand shelf fetch (some ⟨.root, ["m"]⟩) [Directive.write "d"]).result =
      .ok [⟨some ⟨.root, ["d", "a", "b"]⟩, 1, "k"⟩, ⟨some ⟨.root, ["d", "a-b"]⟩, 1, "k"⟩,
        ⟨some ⟨.root, ["d", "a.dsl"]⟩, 1, "k"⟩] := by
  have hsame := @sameUnits_resolve shelf fetch ⟨.root, ["m"]⟩ "d" rfl
  rw [target_shelf] at hsame
  cases hsame with
  | error d e left right => rw [collect_shelf] at right; cases right
  | ok left right units =>
      rw [(collect_read (by decide +kernel) unitsAt_shelf).2] at units
      refine (congrArg result (expandLines_names (.cons (names_write "d") .nil) 1)).trans ?_
      rw [List.map_singleton, concat_singleton]
      refine result_bind_ok_iff.mpr ⟨(), left, ?_⟩
      rw [units]
      rfl

/-- A directory with a directory in it, whose names do not come in order. -/
theorem expand_directory_shelf : shelf.root.wellNamed = true ∧ ¬"https:".toList <+: "d".toList ∧
    Lists shelf (target ⟨.root, ["m"]⟩ "d") ["a.dsl", "a-b", "a"] ∧
    (Reader.expand shelf (Remote.direct []) (some ⟨.root, ["m"]⟩) (["a", "a-b", "a.dsl"].map
      fun name => Directive.write ("d" ++ "/" ++ name))).result =
        .ok [⟨some ⟨.root, ["d", "a", "b"]⟩, 1, "k"⟩, ⟨some ⟨.root, ["d", "a-b"]⟩, 1, "k"⟩,
          ⟨some ⟨.root, ["d", "a.dsl"]⟩, 1, "k"⟩] := by
  have hroot : shelf.root.wellNamed = true := by decide +kernel
  have horder : inOrder ["a.dsl", "a-b", "a"] = ["a", "a-b", "a.dsl"] :=
    inOrder_eq (by decide) (by decide)
  have hsame := (expand_directory hroot (by decide) lists_shelf (Remote.direct [])).1
  rw [horder] at hsame
  refine ⟨hroot, by decide, lists_shelf, ?_⟩
  cases hsame with
  | ok out left right requests => rw [right, ← left, expand_shelf]
  | error d e left right => rw [expand_shelf] at left; cases left

end Splice.Reader
