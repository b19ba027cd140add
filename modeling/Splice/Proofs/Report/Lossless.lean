import Splice.Proofs.Json.Ascii
import Splice.Proofs.Value.Casters
import Splice.Proofs.Words.Enclosed
import Splice.Report

namespace Splice

namespace Entries

variable {α : Type} {m rest : Entries α} {k : Key} {v : α}

/-- The entries of other keys. -/
def without (m : Entries α) (k : Key) : Entries α := m.filter (! ·.1.same k)

theorem without_cons_of_eq {e : Key × α} (h : e.1.meaning = k.meaning) (m : Entries α) :
    without (e :: m) k = without m k :=
  List.filter_cons_of_neg (by simp [Key.same_iff.mpr h])

theorem without_cons_of_ne {e : Key × α} (h : e.1.meaning ≠ k.meaning) (m : Entries α) :
    without (e :: m) k = e :: without m k :=
  List.filter_cons_of_pos (by simp [mt Key.same_iff.mp h])

theorem foldl_insert_cons (hdistinct : Distinct rest) (v : α) {done : Entries α}
    (hnew : ∀ e ∈ rest, e.1.meaning ∉ meanings done) :
    rest.foldl (fun m e => insert m e.1 e.2) ((k, v) :: done) =
      (k, (get? rest k).getD v) :: (done ++ without rest k) := by
  induction rest generalizing v done with
  | nil => rw [List.foldl_nil, get?_nil, without, List.filter_nil, List.append_nil]; rfl
  | cons e rest ih =>
      obtain ⟨hfirst, hothers⟩ := List.forall_mem_cons.mp hnew
      obtain ⟨habsent, hrest⟩ := distinct_cons_iff.mp hdistinct
      rw [List.foldl_cons, get?_cons]
      by_cases he : e.1.meaning = k.meaning
      · have hnone : get? rest k = none := get?_eq_none_iff.mpr (he ▸ habsent)
        rw [insert_cons_of_eq (e := (k, v)) he.symm, ih hrest e.2 hothers, hnone, if_pos he,
          without_cons_of_eq he]
        rfl
      · have hnew : ∀ d ∈ rest, d.1.meaning ∉ meanings (done ++ [e]) := by
          intro d hd hmem
          rw [meanings, List.map_append, List.mem_append] at hmem
          rcases hmem with hmem | hmem
          · exact hothers d hd hmem
          · have heq : d.1.meaning = e.1.meaning := List.mem_singleton.mp hmem
            exact habsent (heq ▸ List.mem_map_of_mem hd)
        rw [insert_cons_of_ne (e := (k, v)) (Ne.symm he), insert_of_absent hfirst, ih hrest v hnew,
          if_neg he, without_cons_of_ne he, List.append_assoc]
        rfl

theorem mem_without {e : Key × α} (h : e ∈ without m k) : e ∈ m ∧ e.1.meaning ≠ k.meaning := by
  obtain ⟨hmem, hne⟩ := List.mem_filter.mp h
  refine ⟨hmem, fun heq => ?_⟩
  rw [Key.same_iff.mpr heq] at hne
  cases hne

theorem Distinct.without (h : Distinct m) (k : Key) : Distinct (m.without k) :=
  h.sublist (List.filter_sublist.map _)

end Entries

namespace Report

open Json Entries

variable {limit : Option Nat} {status : String} {data : Mapping}

/-- The value under the name of the status: that of the data, if they have one. -/
def statusOf (status : String) (data : Mapping) : Value :=
  (data.get? (.text "status")).getD (.text status)

theorem successDocument_eq (hdistinct : data.Distinct) (status : String) :
    successDocument status data =
      (.text "status", statusOf status data) :: data.without (.text "status") :=
  foldl_insert_cons hdistinct (.text status) fun _ _ => List.not_mem_nil

theorem successDocument_eq_iff {data' : Mapping} (hdistinct : data.Distinct)
    (hdistinct' : data'.Distinct) : successDocument status data = successDocument status data' ↔
      statusOf status data = statusOf status data' ∧
        data.without (.text "status") = data'.without (.text "status") := by
  rw [successDocument_eq hdistinct, successDocument_eq hdistinct', List.cons.injEq, Prod.mk.injEq,
    eq_self, true_and]

theorem statusOf_mem (status : String) (data : Mapping) :
    statusOf status data = .text status ∨ ∃ e ∈ data, statusOf status data = e.2 := by
  unfold statusOf
  cases hget : data.get? (.text "status") with
  | none => exact .inl rfl
  | some v =>
      obtain ⟨e, he, _, rfl⟩ := mem_of_get? hget
      exact .inr ⟨e, he, rfl⟩

theorem portable_successDocument (h : Portable (.map data)) (status : String) :
    Portable (.map (successDocument status data)) := by
  obtain ⟨hkeys, hdistinct, hvalues⟩ := portable_map_iff.mp h
  rw [successDocument_eq hdistinct]
  refine .map ?_ ?_ ?_
  · refine List.forall_mem_cons.mpr ⟨⟨"status", rfl⟩, ?_⟩
    exact fun e he => hkeys e (mem_without he).1
  · refine distinct_cons_iff.mpr ⟨?_, hdistinct.without _⟩
    intro hmem
    obtain ⟨e, he, hkey⟩ := List.mem_map.mp hmem
    exact (mem_without he).2 hkey
  · refine List.forall_mem_cons.mpr ⟨?_, fun e he => hvalues e (mem_without he).1⟩
    rcases statusOf_mem status data with hstatus | ⟨e, he, hstatus⟩
    · exact hstatus ▸ .text status
    · exact hstatus ▸ hvalues e he

theorem within_successDocument (hdistinct : data.Distinct) (h : Within limit (.map data))
    (status : String) : Within limit (.map (successDocument status data)) := by
  have hvalues := within_map_iff.mp h
  rw [successDocument_eq hdistinct]
  refine .map (List.forall_mem_cons.mpr ⟨?_, fun e he => hvalues e (mem_without he).1⟩)
  rcases statusOf_mem status data with hstatus | ⟨e, he, hstatus⟩
  · exact hstatus ▸ .text status
  · exact hstatus ▸ hvalues e he

theorem writeValue_map (indent : Option Nat) (depth : Nat) (m : Mapping) :
    ∃ s, writeValue indent depth (.map m) = '\x7b' :: (s ++ ['\x7d']) := by
  cases m with
  | nil => exact ⟨[], rfl⟩
  | cons e m =>
      rw [writeValue]
      exact ⟨_, rfl⟩

theorem value_document_line (indent : Option Nat) {m : Mapping} (hm : Portable (.map m))
    (hwithin : Within (some Fault.mostDigits) (.map m)) :
    Coerce.value (write indent (.map m) ++ "\n") = .ok (.map m) := by
  obtain ⟨s, hs⟩ := writeValue_map indent 0 m
  have hlist : (write indent (.map m)).toList = '\x7b' :: (s ++ ['\x7d']) := by
    rw [write, String.toList_ofList, hs]
  have hlast : ('\x7b' :: (s ++ ['\x7d'])).getLast? = some '\x7d' := by
    rw [← List.cons_append, List.getLast?_concat]
  have htrim : Text.trim (write indent (.map m) ++ "\n").toList = (write indent (.map m)).toList := by
    rw [String.toList_append, hlist]
    refine Text.trimWhile_append (List.forall_mem_singleton.mpr rfl) rfl ?_
    intro c hc
    rw [← Option.some.inj (hlast.symm.trans hc)]
    rfl
  refine Coerce.value_document ?_ ?_
  · rw [htrim, hlist, Coerce.isBracketed, hlast]
    rfl
  · have hread := readWithin_document indent hm hwithin (List.forall_mem_nil _)
    rw [List.append_nil] at hread
    rw [htrim]
    exact hread

theorem value_success (indent : Option Nat) (status message : String)
    (hdata : Portable (.map data)) (hdigits : Within (some Fault.mostDigits) (.map data)) :
    Coerce.value ((Report.mk true indent).success status data message).output =
      .ok (.map (successDocument status data)) :=
  value_document_line indent (portable_successDocument hdata status)
    (within_successDocument (portable_map_iff.mp hdata).2.1 hdigits status)

/-- What a command prints as a document is ASCII, and reading it gives the data back, with the status
where they have none. Two sets of data look the same exactly if all else is the same in the same
order, and under the name of the status, where a missing value counts as the status. -/
theorem success_lossless (indent : Option Nat) (status message : String) {data : Mapping}
    (hdata : Portable (.map data)) (hdigits : Within (some Fault.mostDigits) (.map data)) :
    ((Report.mk true indent).success status data message).errors = "" ∧
      Ascii ((Report.mk true indent).success status data message).output.toList ∧
      Coerce.value ((Report.mk true indent).success status data message).output =
        .ok (.map (successDocument status data)) ∧
      successDocument status data =
        (.text "status", statusOf status data) :: data.without (.text "status") ∧
      ∀ (data' : Mapping) (message' : String), Portable (.map data') →
        Within (some Fault.mostDigits) (.map data') →
        ((Report.mk true indent).success status data' message' =
            (Report.mk true indent).success status data message ↔
          statusOf status data' = statusOf status data ∧
            data'.without (.text "status") = data.without (.text "status")) := by
  have hdistinct := (portable_map_iff.mp hdata).2.1
  have hread := value_success indent status message hdata hdigits
  refine ⟨rfl, ?_, hread, successDocument_eq hdistinct status, ?_⟩
  · show Ascii (write indent (.map (successDocument status data)) ++ "\n").toList
    rw [String.toList_append, ascii_append_iff]
    exact ⟨ascii_write indent (portable_successDocument hdata status), by decide⟩
  · intro data' message' hdata' hdigits'
    have hdistinct' := (portable_map_iff.mp hdata').2.1
    have hread' := value_success indent status message' hdata' hdigits'
    rw [← successDocument_eq_iff hdistinct' hdistinct]
    constructor
    · intro hsame
      rw [hsame, hread] at hread'
      exact (Value.map.inj (Except.ok.inj hread')).symm
    · intro hsame
      show Printed.line (document _ (successDocument status data')) = _
      rw [hsame]
      rfl

/-- Escapes, a number below zero, and containers with nothing in them. -/
def nested : Mapping := [(.text "\"é\"", .list [.int (-12), .map [], .text "a\n😀"])]

theorem portable_nested : Portable (.map nested) := by
  refine portable_fields [("\"é\"", _)] (List.pairwise_singleton _ _) ?_
  simp [portable_list_iff, portable_map_iff, Portable.int, Portable.text, Distinct.nil]

theorem within_nested : Within (some Fault.mostDigits) (.map nested) := by
  have hfits : FitsIn (some Fault.mostDigits) (-12 : Int).natAbs := by
    rintro k ⟨⟩
    decide
  simp [nested, within_map_iff, within_list_iff, Within.int hfits, Within.text]

theorem success_lossless_nested :
    Portable (.map nested) ∧ Within (some Fault.mostDigits) (.map nested) ∧
      Coerce.value ((Report.mk true (some 2)).success "success" nested "").output =
        .ok (.map ((.text "status", .text "success") :: nested)) :=
  ⟨portable_nested, within_nested,
    (success_lossless (some 2) "success" "" portable_nested within_nested).2.2.1⟩

/-- Data that give the status themselves look like data without one. -/
theorem success_eq_of_status :
    Portable (.map []) ∧ Within (some Fault.mostDigits) (.map []) ∧
      Portable (.map [(.text "status", .text "success")]) ∧
      Within (some Fault.mostDigits) (.map [(.text "status", .text "success")]) ∧
      ([] : Mapping) ≠ [(.text "status", .text "success")] ∧
      (Report.mk true (some 2)).success "success" [] "m" =
        (Report.mk true (some 2)).success "success" [(.text "status", .text "success")] "m" := by
  refine ⟨portable_fields [] List.nodup_nil (by simp), .map (by simp), ?_,
    .map (by simp [Within.text]), (List.cons_ne_nil _ _).symm, rfl⟩
  exact portable_fields [("status", .text "success")] (List.pairwise_singleton _ _)
    (by simp [Portable.text])

end Report

end Splice
