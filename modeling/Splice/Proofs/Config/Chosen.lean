import Splice.Config.File
import Splice.Proofs.Include.Visits

namespace Splice.Config

open FileTree

variable {t : FileTree} {dir : Path} {names names' : List String} {s ending name : String}

/-! ### Stems and endings -/

/-- The endings of YAML files, the preferred one first. -/
def endings : List String := [".yaml", ".yml"]

theorem yaml_mem_endings : ".yaml" ∈ endings := List.mem_cons_self

theorem yml_mem_endings : ".yml" ∈ endings := List.mem_cons_of_mem ".yaml" List.mem_cons_self

/-- No name is an ending alone, with nothing before it. -/
def Full (names : List String) : Prop := ∀ name ∈ names, name ∉ endings

def Ends (ending name : String) : Prop := ∃ s, name = s ++ ending

theorem hasEnding_iff : hasEnding ending name = true ↔ Ends ending name := by
  rw [hasEnding, List.isSuffixOf_iff_suffix]
  constructor
  · rintro ⟨s, hs⟩
    exact ⟨String.ofList s, String.toList_inj.mp (by simpa using hs.symm)⟩
  · rintro ⟨s, rfl⟩
    exact ⟨s.toList, (String.toList_append).symm⟩

/-- The stem is what stands before the last dot, where anything does, and anything behind it. -/
theorem stem_append {before after : List Char} (hbefore : before ≠ []) (hafter : after ≠ [])
    (hdot : '.' ∉ after) : stem (String.ofList (before ++ '.' :: after)) = String.ofList before := by
  obtain ⟨a, as, has⟩ := List.exists_cons_of_ne_nil (mt List.reverse_eq_nil_iff.mp hafter)
  obtain ⟨b, bs, hbs⟩ := List.exists_cons_of_ne_nil (mt List.reverse_eq_nil_iff.mp hbefore)
  have hall : ∀ c ∈ after.reverse, decide (c ≠ '.') = true := by
    intro c hc
    rw [decide_eq_true_eq]
    rintro rfl
    exact hdot (List.mem_reverse.mp hc)
  have hreverse : (String.ofList (before ++ '.' :: after)).toList.reverse =
      after.reverse ++ '.' :: before.reverse := by simp
  have hspan : (after.reverse ++ '.' :: before.reverse).span (· ≠ '.') =
      (a :: as, '.' :: b :: bs) := by
    rw [List.span_eq_takeWhile_dropWhile, List.takeWhile_append_of_pos hall,
      List.dropWhile_append_of_pos hall, has, hbs]
    simp
  rw [stem, hreverse, hspan]
  dsimp only
  rw [← hbs, List.reverse_reverse]

theorem stem_ending (hs : s ≠ "") (hending : ending ∈ endings) : stem (s ++ ending) = s := by
  have hbefore : s.toList ≠ [] := mt String.toList_eq_nil_iff.mp hs
  have hparts : ∃ after, ending = String.ofList ('.' :: after) ∧ after ≠ [] ∧ '.' ∉ after := by
    rw [endings, List.mem_pair] at hending
    rcases hending with rfl | rfl
    · exact ⟨"yaml".toList, rfl, by decide, by decide⟩
    · exact ⟨"yml".toList, rfl, by decide, by decide⟩
  obtain ⟨after, rfl, hafter, hdot⟩ := hparts
  have hstem := stem_append hbefore hafter hdot
  rw [String.ofList_toList, String.ofList_append, String.ofList_toList] at hstem
  exact hstem

theorem Full.ne_empty (hfull : Full names) (hending : ending ∈ endings) (h : s ++ ending ∈ names) :
    s ≠ "" := by
  rintro rfl
  rw [String.empty_append] at h
  exact hfull ending h hending

/-! ### The names chosen -/

theorem mem_stems (hfull : Full names) :
    s ∈ stems names ↔ ∃ ending ∈ endings, s ++ ending ∈ names := by
  unfold stems
  rw [List.mem_mergeSort, List.mem_eraseDups]
  constructor
  · intro h
    obtain ⟨name, hmem, rfl⟩ := List.mem_map.mp h
    obtain ⟨hname, hends⟩ := List.mem_filter.mp hmem
    have hending : ∃ ending ∈ endings, Ends ending name := by
      simpa [endings, hasEnding_iff] using hends
    obtain ⟨ending, hending, s, rfl⟩ := hending
    rw [stem_ending (hfull.ne_empty hending hname) hending]
    exact ⟨ending, hending, hname⟩
  · rintro ⟨ending, hending, hname⟩
    have hstem := stem_ending (hfull.ne_empty hending hname) hending
    refine List.mem_map.mpr ⟨s ++ ending, List.mem_filter.mpr ⟨hname, ?_⟩, hstem⟩
    have hends : hasEnding ending (s ++ ending) = true := hasEnding_iff.mpr ⟨s, rfl⟩
    rw [endings, List.mem_pair] at hending
    rcases hending with rfl | rfl <;> simp [hends]

theorem ne_empty_of_mem_stems (hfull : Full names) (h : s ∈ stems names) : s ≠ "" := by
  obtain ⟨ending, hending, hname⟩ := (mem_stems hfull).mp h
  exact hfull.ne_empty hending hname

theorem yml_of_mem_stems (hfull : Full names) (h : s ∈ stems names) (hyaml : s ++ ".yaml" ∉ names) :
    s ++ ".yml" ∈ names := by
  have hending := (mem_stems hfull).mp h
  simpa [endings, hyaml] using hending

theorem withStem?_eq (hfull : Full names) (hending : ending ∈ endings) (hs : s ≠ "") :
    withStem? names ending s = if s ++ ending ∈ names then some (s ++ ending) else none := by
  unfold withStem?
  cases hfound : (names.filter (hasEnding ending)).find? (stem · = s) with
  | none =>
      have habsent : s ++ ending ∉ names := by
        intro hmem
        have hmem' := List.mem_filter.mpr ⟨hmem, hasEnding_iff.mpr ⟨s, rfl⟩⟩
        have hstem := List.find?_eq_none.mp hfound _ hmem'
        exact hstem (decide_eq_true (stem_ending hs hending))
      rw [if_neg habsent]
  | some name =>
      obtain ⟨hmem, hends⟩ := List.mem_filter.mp (List.mem_of_find?_eq_some hfound)
      have hstem : stem name = s := by simpa using List.find?_some hfound
      obtain ⟨s', rfl⟩ := hasEnding_iff.mp hends
      rw [stem_ending (hfull.ne_empty hending hmem) hending] at hstem
      rw [← hstem, if_pos hmem]

/-- The name for a stem: with the first ending if there is one. -/
def preferred (names : List String) (s : String) : String :=
  if s ++ ".yaml" ∈ names then s ++ ".yaml" else s ++ ".yml"

theorem choose_eq_map (hfull : Full names) :
    choose names = (stems names).map (preferred names) := by
  refine List.filterMap_eq_map_iff_forall_eq_some.mpr fun s hmem => ?_
  have hs := ne_empty_of_mem_stems hfull hmem
  rw [withStem?_eq hfull yaml_mem_endings hs, withStem?_eq hfull yml_mem_endings hs, preferred]
  by_cases hyaml : s ++ ".yaml" ∈ names
  · rw [if_pos hyaml, if_pos hyaml]
    rfl
  · rw [if_neg hyaml, if_neg hyaml, if_pos (yml_of_mem_stems hfull hmem hyaml)]
    rfl

theorem stem_preferred (hs : s ≠ "") : stem (preferred names s) = s := by
  unfold preferred
  split
  · exact stem_ending hs yaml_mem_endings
  · exact stem_ending hs yml_mem_endings

theorem ending_mem_choose (hfull : Full names) (hending : ending ∈ endings)
    (hname : s ++ ending ∈ names) :
    s ++ ending ∈ choose names ↔ preferred names s = s ++ ending := by
  have hs := hfull.ne_empty hending hname
  rw [choose_eq_map hfull, List.mem_map]
  constructor
  · rintro ⟨s', hs', heq⟩
    have hstem := congrArg stem heq
    rw [stem_preferred (ne_empty_of_mem_stems hfull hs'), stem_ending hs hending] at hstem
    rw [← hstem, heq, hstem]
  · intro heq
    exact ⟨s, (mem_stems hfull).mpr ⟨ending, hending, hname⟩, heq⟩

theorem yaml_mem_choose (hfull : Full names) (hname : s ++ ".yaml" ∈ names) :
    s ++ ".yaml" ∈ choose names := by
  rw [ending_mem_choose hfull yaml_mem_endings hname, preferred, if_pos hname]

theorem yml_mem_choose_iff (hfull : Full names) (hname : s ++ ".yml" ∈ names) :
    s ++ ".yml" ∈ choose names ↔ s ++ ".yaml" ∉ names := by
  rw [ending_mem_choose hfull yml_mem_endings hname, preferred]
  split
  · rename_i hyaml
    refine iff_of_false ?_ (not_not_intro hyaml)
    rw [String.append_right_inj]
    decide
  · rename_i hyaml
    exact iff_of_true rfl hyaml

theorem mem_of_mem_choose (hfull : Full names) (h : name ∈ choose names) :
    name ∈ names ∧ (Ends ".yaml" name ∨ Ends ".yml" name) := by
  rw [choose_eq_map hfull] at h
  obtain ⟨s, hs, rfl⟩ := List.mem_map.mp h
  rw [preferred]
  split
  · rename_i hyaml
    exact ⟨hyaml, .inl ⟨s, rfl⟩⟩
  · rename_i hyaml
    exact ⟨yml_of_mem_stems hfull hs hyaml, .inr ⟨s, rfl⟩⟩

/-! ### In whatever order the names come -/

theorem nodup_eraseDups : ∀ l : List String, l.eraseDups.Nodup
  | [] => by simp
  | a :: l => by
      rw [List.eraseDups_cons, List.nodup_cons]
      exact ⟨by simp, nodup_eraseDups _⟩
termination_by l => l.length
decreasing_by exact Nat.lt_succ_of_le (List.length_filter_le _ _)

theorem pairwise_stems (names : List String) : (stems names).Pairwise (· < ·) :=
  Include.pairwise_lt_inOrder (nodup_eraseDups _)

theorem stems_eq_of_perm (h : names'.Perm names) : stems names' = stems names := by
  refine Include.inOrder_eq_of_perm ?_
  refine (List.perm_ext_iff_of_nodup (nodup_eraseDups _) (nodup_eraseDups _)).mpr fun s => ?_
  rw [List.mem_eraseDups, List.mem_eraseDups]
  exact ((h.filter _).map stem).mem_iff

theorem choose_eq_of_perm (hfull : Full names) (h : names'.Perm names) :
    choose names' = choose names := by
  have hfull' : Full names' := fun name hname => hfull name (h.mem_iff.mp hname)
  have hpreferred : preferred names' = preferred names := by
    funext s
    simp only [preferred, h.mem_iff]
  rw [choose_eq_map hfull', choose_eq_map hfull, stems_eq_of_perm h, hpreferred]

/-! ### Directories -/

theorem files_of_list (h : t.list dir = .ok names) :
    files t dir = .ok ((choose names).map dir.child) := by
  have hpresent : t.contains dir = .ok true := by
    cases hl : t.find dir with
    | error e =>
        rw [list, hl] at h
        cases h
    | ok l =>
        cases hn : t.node? l with
        | some n => exact leadsTo_eq hl hn _
        | none =>
            exfalso
            simp only [list, entries, hl, hn, bind, Except.bind] at h
            split at h <;> cases h
  rw [files, hpresent, h]
  rfl

theorem pairwise_choose (hfull : Full names) :
    (choose names).Pairwise fun a b => stem a < stem b := by
  rw [choose_eq_map hfull, List.pairwise_map]
  refine (pairwise_stems names).imp_of_mem ?_
  intro a b ha hb hlt
  rwa [stem_preferred (ne_empty_of_mem_stems hfull ha),
    stem_preferred (ne_empty_of_mem_stems hfull hb)]

theorem exists_stem_iff (hfull : Full names) (hs : s ≠ "") :
    (∃ m ∈ names, Ends ".yaml" m ∧ stem m = s) ↔ s ++ ".yaml" ∈ names := by
  constructor
  · rintro ⟨m, hm, ⟨s', rfl⟩, hstem⟩
    rw [stem_ending (hfull.ne_empty yaml_mem_endings hm) yaml_mem_endings] at hstem
    exact hstem ▸ hm
  · intro hmem
    exact ⟨_, hmem, ⟨s, rfl⟩, stem_ending hs yaml_mem_endings⟩

/-- The YAML files of a directory come in the order of their stems, no stem twice. Every name that ends
in the first ending is taken, one with the other where no name with its stem has the first, and no
further name. In which order the directory lists its entries does not matter. -/
theorem files_selected (hlist : t.list dir = .ok names) (hfull : Full names) :
    ∃ chosen : List String, files t dir = .ok (chosen.map dir.child) ∧
      chosen.Pairwise (fun a b => stem a < stem b) ∧
      (∀ name ∈ names, Ends ".yaml" name → name ∈ chosen) ∧
      (∀ name ∈ names, Ends ".yml" name →
        (name ∈ chosen ↔ ¬∃ m ∈ names, Ends ".yaml" m ∧ stem m = stem name)) ∧
      (∀ name ∈ chosen, name ∈ names ∧ (Ends ".yaml" name ∨ Ends ".yml" name)) ∧
      (∀ name ∈ names, ∀ ending ∈ endings, Ends ending name → name = stem name ++ ending) ∧
      ∀ t' names', t'.list dir = .ok names' → names'.Perm names → files t' dir = files t dir := by
  refine ⟨choose names, files_of_list hlist, pairwise_choose hfull, ?_, ?_,
    fun _ h => mem_of_mem_choose hfull h, ?_, ?_⟩
  · rintro _ hname ⟨s, rfl⟩
    exact yaml_mem_choose hfull hname
  · rintro _ hname ⟨s, rfl⟩
    have hs := hfull.ne_empty yml_mem_endings hname
    rw [stem_ending hs yml_mem_endings, exists_stem_iff hfull hs,
      yml_mem_choose_iff hfull hname]
  · rintro _ hname ending hending ⟨s, rfl⟩
    rw [stem_ending (hfull.ne_empty hending hname) hending]
  · intro t' names' hlist' hperm
    rw [files_of_list hlist', files_of_list hlist, choose_eq_of_perm hfull hperm]

/-- Stems with dots inside and in front, one that others begin with, and both endings for one. -/
def mixedNames : List String := ["b.yml", "notes", "b.c.yaml", "a.yml", ".d.yml", "a.yaml", "b..yml"]

def mixedTree (names : List String) : FileTree where
  root := .directory (names.map (·, .file []))
  current := []
  unlistable := []
  unreadable := []

theorem list_mixedTree (names : List String) :
    (mixedTree names).list ⟨.root, []⟩ = .ok names := by
  have hfind : (mixedTree names).find ⟨.root, []⟩ = .ok [] := by
    rw [find_eq (by decide) (by decide +kernel), walk_nil]
    rfl
  rw [list_eq hfind rfl, List.map_map]
  have hids : Prod.fst ∘ (fun name : String => (name, Node.file [])) = id := rfl
  rw [hids, List.map_id]
  rfl

theorem files_selected_mixed :
    (mixedTree mixedNames).list ⟨.root, []⟩ = .ok mixedNames ∧ Full mixedNames ∧
      ∃ chosen : List String,
        files (mixedTree mixedNames) ⟨.root, []⟩ = .ok (chosen.map (Path.child ⟨.root, []⟩)) ∧
        chosen.Pairwise (fun a b => stem a < stem b) ∧ "a.yaml" ∈ chosen ∧ "a.yml" ∉ chosen ∧
        files (mixedTree mixedNames.reverse) ⟨.root, []⟩ = files (mixedTree mixedNames) ⟨.root, []⟩ := by
  have hfull : Full mixedNames := by
    unfold Full
    decide
  obtain ⟨chosen, hfiles, hpairwise, hyaml, hyml, -, -, horder⟩ :=
    files_selected (list_mixedTree mixedNames) hfull
  have hpreferred : "a.yaml" ∈ chosen := hyaml "a.yaml" (by decide) ⟨"a", rfl⟩
  have hother : "a.yml" ∉ chosen := by
    intro hmem
    exact (hyml "a.yml" (by decide) ⟨"a", rfl⟩).mp hmem ⟨"a.yaml", by decide, ⟨"a", rfl⟩, by decide +kernel⟩
  exact ⟨list_mixedTree mixedNames, hfull, chosen, hfiles, hpairwise, hpreferred, hother,
    horder _ _ (list_mixedTree _) (List.reverse_perm _)⟩

end Splice.Config
