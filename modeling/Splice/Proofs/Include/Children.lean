import Splice.Proofs.FileTree.CanonicalNames
import Splice.Proofs.Include.Loop
import Splice.Proofs.Outcome.Akin

namespace Splice.Include

open FileTree Outcome

variable {t : FileTree} {fetch : Remote.Fetcher} {p file : Path} {source name : String}

theorem target_child (h : Node.isName name = true) :
    target file (source ++ "/" ++ name) = (target file source).child name := by
  have hparts : Path.partsOf (source ++ "/" ++ name).toList =
      Path.partsOf source.toList ++ [name] := by
    rw [String.toList_append, String.toList_append, List.append_assoc]
    exact Path.partsOf_append_slash source.toList (isPart_of_isName h)
  simp only [target, Path.nest, Path.ofText, Path.child, hparts, List.append_assoc]

theorem isRemote_child (h : ¬"https:".toList <+: source.toList) (name : String) :
    isRemote (source ++ "/" ++ name) = false := by
  rw [isRemote, Bool.eq_false_iff, ne_eq, List.isPrefixOf_iff_prefix, String.toList_append,
    String.toList_append]
  intro hprefix
  have hcolon := (List.prefix_append "https:".toList "//".toList).trans hprefix
  by_cases hlength : "https:".toList.length ≤ source.toList.length
  · rw [List.append_assoc] at hcolon
    exact h (List.prefix_of_prefix_length_le hcolon (List.prefix_append _ _) hlength)
  · -- The slash before the name would be one of the first six characters.
    have hslash : source.toList ++ "/".toList <+: "https:".toList := by
      refine List.prefix_of_prefix_length_le (List.prefix_append _ _) hcolon ?_
      rw [List.length_append]
      exact Nat.lt_of_not_le hlength
    have hmem : '/' ∈ "https:".toList := hslash.subset (List.mem_append_right _ (by decide))
    exact absurd hmem (by decide)

theorem isRemote_eq_false (h : ¬"https:".toList <+: source.toList) : isRemote source = false := by
  rw [isRemote, Bool.eq_false_iff, ne_eq, List.isPrefixOf_iff_prefix]
  exact fun hprefix => h ((List.prefix_append "https:".toList "//".toList).trans hprefix)

theorem requests_forEach {names : List String} {step : String → Outcome Unit}
    (h : ∀ name ∈ names, (step name).requests = []) : (forEach names step).requests = [] := by
  induction names with
  | nil => rfl
  | cons name rest ih =>
      obtain ⟨hname, hrest⟩ := List.forall_mem_cons.mp h
      rw [forEach]
      cases hr : (step name).result with
      | error e => rw [bind_error hr]; exact hname
      | ok a => rw [requests_bind hr, hname, ih hrest]; rfl

theorem requests_collectWithin (n : Nat) (p : Path) : (collectWithin t n p).requests = [] := by
  induction n generalizing p with
  | zero => rfl
  | succ n ih =>
      cases hd : t.isDirectory p with
      | error e => rw [collectWithin_fault hd]; rfl
      | ok isDir =>
          cases isDir with
          | false =>
              rw [collectWithin_file hd]
              cases readLines t p <;> rfl
          | true =>
              cases hl : t.list p with
              | error e => rw [collectWithin_skipped hd hl]; rfl
              | ok names =>
                  rw [collectWithin_listed hd hl]
                  exact requests_forEach fun name _ => ih (p.child name)

theorem collect_lists (hroot : t.root.wellNamed = true) {names : List String}
    (h : Lists t p names) :
    collect t p = forEach (inOrder names) fun name => collect t (p.child name) := by
  obtain ⟨n, hn⟩ := Nat.exists_eq_add_of_lt (depthBound_pos t)
  rw [Nat.zero_add] at hn
  rw [collect, hn, collectWithin_lists h]
  apply forEach_congr
  intro name hname
  obtain ⟨hfits, hpos⟩ := Fits.child hroot h (hn ▸ fits_depthBound t p) (mem_inOrder.mp hname)
  exact (collectWithin_eq_of_le (by omega) (collectWithin_ne_tooDeep hroot hpos hfits)).symm

theorem requests_announce (events : List Event) (r : Except Fault Unit) :
    Outcome.requests ⟨events.flatMap announce, r⟩ = Outcome.requests ⟨events, r⟩ := by
  induction events with
  | nil => rfl
  | cons e es ih => cases e <;> simp_all [requests, announce]

/-- Both register the same units without a request, or both fail. -/
inductive SameUnits (x y : Outcome Unit) : Prop
  | ok (left : x.result = .ok ()) (right : y.result = .ok ()) (units : x.units = y.units)
      (quiet : x.requests = []) (quiet' : y.requests = [])
  | error (d e : Fault) (left : x.result = .error d) (right : y.result = .error e)

/-- A local target registers what the walk from its path finds, and fails where the walk fails, if for
another reason: what is not there is missed before the walk. -/
theorem sameUnits_resolve (h : isRemote source = false) :
    SameUnits (resolve t fetch (some file) source) (collect t (target file source)) := by
  by_cases hc : t.contains (target file source) = .ok true
  · have hquiet := requests_collectWithin (t := t) (depthBound t) (target file source)
    rw [resolve_found h hc]
    cases hr : (collect t (target file source)).result with
    | ok u => exact .ok rfl hr (units_announce _ _) ((requests_announce _ _).trans hquiet) hquiet
    | error e => exact .error e e rfl hr
  · obtain ⟨e, he⟩ := resolve_unfound fetch h hc
    cases hr : (collect t (target file source)).result with
    | ok u => exact absurd (contains_of_ok hr) hc
    | error d => exact .error e d (congrArg result he) hr

end Splice.Include
