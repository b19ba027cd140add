import Splice.Config.Load
import Splice.Proofs.FileTree.Places
import Splice.Proofs.Outcome.Results
import Splice.Proofs.Outcome.Sequence
import Splice.Proofs.Value.Layers
import Splice.Proofs.Yaml.Files
import Splice.Proofs.Yaml.WellFormed

namespace Splice.Config

open Outcome Results Value

variable {t : FileTree} {w : World} {root p : Path} {m r : Mapping} {base : Objects}

theorem object_ok_iff {o : Object} : object t p = .ok o ↔ t.contains p = .ok true ∧ ∃ bs cs,
    t.contents p = .ok bs ∧ Text.Utf8.decode bs = .ok cs ∧
      Yaml.document p.text (Text.unifyLineEnds cs) = .ok o := by
  constructor
  · intro h
    obtain ⟨present, hpresent, h⟩ := bind_ok_iff.mp h
    cases present with
    | false => cases h
    | true =>
        obtain ⟨bs, hbs, h⟩ := bind_ok_iff.mp h
        obtain ⟨cs, hcs, h⟩ := bind_ok_iff.mp h
        refine ⟨hpresent, bs, cs, hbs, mapError_ok_iff.mp hcs, ?_⟩
        cases hread : Yaml.document p.text (Text.unifyLineEnds cs) with
        | ok u =>
            rw [hread] at h
            exact congrArg Except.ok (Except.ok.inj h)
        | error flaw =>
            rw [hread] at h
            cases flaw <;> cases h
  · rintro ⟨hpresent, bs, cs, hbs, hcs, ho⟩
    refine bind_ok_iff.mpr ⟨true, hpresent, bind_ok_iff.mpr ⟨bs, hbs, ?_⟩⟩
    refine bind_ok_iff.mpr ⟨cs, mapError_ok_iff.mpr hcs, ?_⟩
    rw [ho]
    rfl

theorem read_ok_iff {v : Value} : read t p = .ok v ↔ t.contains p = .ok true ∧ ∃ bs cs,
    t.contents p = .ok bs ∧ Text.Utf8.decode bs = .ok cs ∧
      Yaml.read (Text.unifyLineEnds cs) = .ok v := by
  simp only [read, map_ok_iff, object_ok_iff, ← Yaml.value_document p.text]
  constructor
  · rintro ⟨o, ⟨hpresent, bs, cs, hbs, hcs, ho⟩, hv⟩
    exact ⟨hpresent, bs, cs, hbs, hcs, o, ho, hv⟩
  · rintro ⟨hpresent, bs, cs, hbs, hcs, o, ho, hv⟩
    exact ⟨o, ⟨hpresent, bs, cs, hbs, hcs, ho⟩, hv⟩

theorem object_eq {l : Location} {bs : List UInt8} {cs : List Char} {o : Object}
    (hl : t.find p = .ok l) (hbs : t.node? l = some (.file bs))
    (hreadable : t.unreadable.contains l = false) (hcs : Text.Utf8.decode bs = .ok cs)
    (ho : Yaml.document p.text (Text.unifyLineEnds cs) = .ok o) : object t p = .ok o :=
  object_ok_iff.mpr ⟨FileTree.leadsTo_eq hl hbs _, bs, cs, FileTree.contents_eq hl hbs hreadable,
    hcs, ho⟩

theorem files_eq {l : Location} {es : List (String × Node)} (hl : t.find p = .ok l)
    (hes : t.node? l = some (.directory es)) (hlistable : t.unlistable.contains l = false) :
    files t p = .ok ((choose (es.map Prod.fst)).map p.child) := by
  have hpresent : t.contains p = .ok true := FileTree.leadsTo_eq hl hes _
  have hlist : t.list p = .ok (es.map Prod.fst) := by
    rw [FileTree.list_eq hl hes, hlistable]
    rfl
  rw [files, hpresent, hlist]
  rfl

theorem layer_ok_iff : layer t p = .ok base ↔
    object t p = .ok (.scalar .null) ∧ base = [] ∨ ∃ label, object t p = .ok (.map label base) := by
  unfold layer
  split
  · rename_i h
    simp [h, eq_comm]
  · rename_i h
    simp [h]
  · rename_i o hnull hmap h
    simp only [h, Except.ok.injEq]
    constructor
    · rintro ⟨⟩
    · rintro (⟨rfl, -⟩ | ⟨label, rfl⟩)
      · exact absurd rfl (hnull ·)
      · exact absurd rfl (hmap label base ·)
  · rename_i h
    simp [h]

theorem mapping_ok_iff : mapping t p = .ok m ↔ ∃ o, layer t p = .ok o ∧ o.values = m :=
  map_ok_iff

theorem wellFormed_mapping (h : mapping t p = .ok m) : WellFormed (.map m) := by
  obtain ⟨base, hbase, rfl⟩ := mapping_ok_iff.mp h
  rcases layer_ok_iff.mp hbase with ⟨-, rfl⟩ | ⟨label, ho⟩
  · exact wellFormed_map_iff.mpr ⟨List.Pairwise.nil, List.forall_mem_nil _⟩
  · obtain ⟨-, _, _, -, -, hdocument⟩ := object_ok_iff.mp ho
    exact Yaml.wellFormed_document hdocument

/-- The mappings of the files that come with the library. -/
def bundledLayers : List Mapping := Bundle.layers.map (·.2)

/-- What the files that come with the library hold, laid over each other. -/
def bundledDefaults : Objects :=
  Bundle.layers.foldl (fun m l => m.overlay (Object.ofEntries l.2)) []

theorem result_defaults (dir : Path) : (defaults dir).result = .ok bundledDefaults := rfl

theorem values_bundledDefaults :
    bundledDefaults.values = bundledLayers.foldl Mapping.merge [] := rfl

theorem wellFormed_bundledLayers : ∀ m ∈ bundledLayers, WellFormed (.map m) := by
  simp [bundledLayers, Bundle.layers, Bundle.entries, Bundle.mapping, wellFormed_map_iff, Entries.Distinct,
    Key.meaning, WellFormed.null, WellFormed.text]

theorem result_layFiles_ok_iff {ps : List Path} :
    (layFiles t base ps).result.map Entries.values = .ok r ↔
      ∃ ms : List Mapping, ps.map (mapping t) = ms.map .ok ∧
        r = ms.foldl Mapping.merge base.values := by
  induction ps generalizing base with
  | nil =>
      constructor
      · intro h
        exact ⟨[], rfl, (Except.ok.inj h).symm⟩
      · rintro ⟨ms, hms, rfl⟩
        obtain rfl := List.map_eq_nil_iff.mp hms.symm
        rfl
  | cons p ps ih =>
      simp only [map_cons_ok_iff]
      rw [layFiles, announce, log_bind, map_ok_iff]
      constructor
      · rintro ⟨o, ho, rfl⟩
        obtain ⟨n, hn, ho⟩ := result_bind_ok_iff.mp ho
        obtain ⟨ms, hms, hvalues⟩ := ih.mp (map_ok_iff.mpr ⟨o, ho, rfl⟩)
        rw [hvalues, Entries.values_overlay]
        exact ⟨n.values :: ms, ⟨n.values, ms, rfl, mapping_ok_iff.mpr ⟨n, hn, rfl⟩, hms⟩, rfl⟩
      · rintro ⟨_, ⟨_, ms, rfl, hn, hms⟩, rfl⟩
        obtain ⟨n, hlayer, rfl⟩ := mapping_ok_iff.mp hn
        have hvalues : ms.foldl Mapping.merge (base.values.merge n.values) =
            ms.foldl Mapping.merge (base.overlay n).values := by rw [Entries.values_overlay]
        obtain ⟨o, ho, hr⟩ := map_ok_iff.mp (ih.mpr ⟨ms, hms, hvalues⟩)
        exact ⟨o, result_bind_ok_iff.mpr ⟨n, hlayer, ho⟩, hr⟩

theorem result_layered_ok_iff :
    (layered w root).result.map Entries.values = .ok r ↔ ∃ ps, ∃ ms : List Mapping,
      files w.files (directory root) = .ok ps ∧ ps.map (mapping w.files) = ms.map .ok ∧
        r = (bundledLayers ++ ms).foldl Mapping.merge [] := by
  rw [layered, result_bind, result_defaults, map_ok_iff]
  constructor
  · rintro ⟨o, h, rfl⟩
    obtain ⟨ps, hps, h⟩ := result_bind_ok_iff.mp h
    obtain ⟨ms, hms, hvalues⟩ := result_layFiles_ok_iff.mp (map_ok_iff.mpr ⟨o, h, rfl⟩)
    refine ⟨ps, ms, hps, hms, ?_⟩
    rw [hvalues, values_bundledDefaults, List.foldl_append]
  · rintro ⟨ps, ms, hps, hms, rfl⟩
    obtain ⟨o, ho, hvalues⟩ := map_ok_iff.mp (result_layFiles_ok_iff.mpr ⟨ms, hms, rfl⟩)
    refine ⟨o, result_bind_ok_iff.mpr ⟨ps, hps, ho⟩, ?_⟩
    rw [hvalues, values_bundledDefaults, List.foldl_append]

theorem wellFormed_layers {ps : List Path} {ms : List Mapping}
    (hms : ps.map (mapping t) = ms.map .ok) : ∀ n ∈ bundledLayers ++ ms, WellFormed (.map n) := by
  intro n hn
  rcases List.mem_append.mp hn with hn | hn
  · exact wellFormed_bundledLayers n hn
  · obtain ⟨p, -, hp⟩ := (mem_iff_of_map_eq hms).mp hn
    exact wellFormed_mapping hp

theorem key_layered (h : (layered w root).result.map Entries.values = .ok r) {k : String} :
    (r.get? (.text k)).isSome = true ↔ k ∈ ["includes", "logging"] ∨
      ∃ ps, files w.files (directory root) = .ok ps ∧ ∃ p ∈ ps, ∃ n, mapping w.files p = .ok n ∧
        (n.get? (.text k)).isSome = true := by
  obtain ⟨ps, ms, hps, hms, rfl⟩ := result_layered_ok_iff.mp h
  have hbundled : ((bundledLayers.foldl Mapping.merge []).get? (.text k)).isSome = true ↔
      k ∈ ["includes", "logging"] := by
    have hkeys : (bundledLayers.foldl Mapping.merge []).map (·.1) =
        [.text "includes", .text "logging"] := rfl
    rw [Entries.isSome_get?_text_iff, hkeys]
    simp
  rw [List.foldl_append, Mapping.isSome_get?_foldl_merge fun n hn =>
    (wellFormed_layers hms n (List.mem_append_right _ hn)).distinct, hbundled]
  refine or_congr_right ⟨?_, ?_⟩
  · rintro ⟨n, hn, hk⟩
    obtain ⟨p, hp, hpn⟩ := (mem_iff_of_map_eq hms).mp hn
    exact ⟨ps, hps, p, hp, n, hpn, hk⟩
  · rintro ⟨_, hps', p, hp, n, hpn, hk⟩
    cases hps.symm.trans hps'
    exact ⟨n, (mem_iff_of_map_eq hms).mpr ⟨p, hp, hpn⟩, hk⟩

/-- A configuration is its layers with the settings from variables over them, checked on demand. -/
theorem result_load_ok_iff {validate : Bool} :
    (load w root validate).result = .ok r ↔ ∃ base, (layered w root).result = .ok base ∧
      (Override.applyAll base w.bindings).2.result = .ok () ∧
      r = (Override.applyAll base w.bindings).1.values ∧
      (validate = true → check r = .ok ()) := by
  rw [load, result_bind_ok_iff]
  refine exists_congr fun base => and_congr_right fun _ => ?_
  rw [result_bind_ok_iff]
  cases validate with
  | false =>
      constructor
      · rintro ⟨⟨⟩, happlied, h⟩
        exact ⟨happlied, (Except.ok.inj h).symm, by rintro ⟨⟩⟩
      · rintro ⟨happlied, rfl, -⟩
        exact ⟨(), happlied, rfl⟩
  | true =>
      constructor
      · rintro ⟨⟨⟩, happlied, h⟩
        obtain ⟨⟨⟩, hcheck, h⟩ := result_bind_ok_iff.mp h
        cases h
        exact ⟨happlied, rfl, fun _ => hcheck⟩
      · rintro ⟨happlied, rfl, hcheck⟩
        exact ⟨(), happlied, result_bind_ok_iff.mpr ⟨(), hcheck rfl, rfl⟩⟩

theorem settings_eq_nil {bindings : List (String × String)}
    (h : ∀ v ∈ bindings, Override.settingName? v.1 = none) : Override.settings bindings = [] := by
  have hnone : bindings.filter (fun v => (Override.settingName? v.1).isSome) = [] := by
    rw [List.filter_eq_nil_iff]
    intro v hv
    simp [h v hv]
  rw [Override.settings, hnone, List.mergeSort_nil]

theorem result_load_of_no_settings {validate : Bool}
    (h : ∀ v ∈ w.bindings, Override.settingName? v.1 = none) :
    (load w root validate).result = .ok m ↔
      (layered w root).result.map Entries.values = .ok m ∧
        (validate = true → check m = .ok ()) := by
  rw [result_load_ok_iff, map_ok_iff]
  simp only [Override.applyAll, settings_eq_nil h, Override.applyEach]
  constructor
  · rintro ⟨base, hbase, -, rfl, hcheck⟩
    exact ⟨⟨base, hbase, rfl⟩, hcheck⟩
  · rintro ⟨⟨base, hbase, rfl⟩, hcheck⟩
    exact ⟨base, hbase, rfl, rfl, hcheck⟩

theorem choose_singleton {name : String} (h : hasEnding ".yaml" name = true) :
    choose [name] = [name] := by
  have hstems : stems [name] = [stem name] := by
    rw [stems, List.filter_cons_of_pos (by rw [h]; rfl), List.filter_nil, List.map_singleton]
    exact List.mergeSort_singleton _
  have hfound : withStem? [name] ".yaml" (stem name) = some name := by simp [withStem?, h]
  rw [choose, hstems, List.filterMap_cons, hfound]
  rfl

/-- A project with one file of configuration. -/
def oneFile (text : String) (bindings : List (String × String)) : World where
  files := ⟨.directory [(".archdsl", .directory [("config", .directory
    [("a.yaml", .file (Text.Utf8.encode text))])])], [], [], []⟩
  bundle := ⟨.root, ["D"]⟩
  bindings := bindings
  remote := []
  homes := []
  clock := fun _ => ""

theorem find_oneFile (text : String) (bindings : List (String × String)) {rest : List String}
    (h : rest = [] ∨ rest = ["a.yaml"]) :
    (oneFile text bindings).files.find ⟨.root, [".archdsl", "config"] ++ rest⟩ =
      .ok ([".archdsl", "config"] ++ rest) := by
  rcases h with rfl | rfl
  all_goals exact FileTree.find_of_walkFor 3 (by decide) (by decide +kernel) rfl

def oneFilePath : Path := ⟨.root, [".archdsl", "config", "a.yaml"]⟩

theorem objects_oneFile {text : String} (bindings : List (String × String)) {label : Option Label}
    {n : Objects} (htext : Text.Utf8.decode (Text.Utf8.encode text) = .ok text.toList)
    (hn : Yaml.document oneFilePath.text (Text.unifyLineEnds text.toList) = .ok (.map label n)) :
    files (oneFile text bindings).files (directory ⟨.root, []⟩) = .ok [oneFilePath] ∧
    mapping (oneFile text bindings).files oneFilePath = .ok n.values ∧
    (layered (oneFile text bindings) ⟨.root, []⟩).result = .ok (bundledDefaults.overlay n) := by
  have hfiles : files (oneFile text bindings).files (directory ⟨.root, []⟩) =
      .ok [oneFilePath] := by
    refine (files_eq (find_oneFile text bindings (.inl rfl)) rfl rfl).trans ?_
    have hchoose : choose ["a.yaml"] = ["a.yaml"] := choose_singleton (by decide)
    exact congrArg _ (congrArg _ hchoose)
  have hlayer : layer (oneFile text bindings).files oneFilePath = .ok n :=
    layer_ok_iff.mpr (.inr ⟨label, object_eq (find_oneFile text bindings (.inr rfl)) rfl rfl htext hn⟩)
  refine ⟨hfiles, mapping_ok_iff.mpr ⟨n, hlayer, rfl⟩, ?_⟩
  rw [layered, result_bind, result_defaults]
  refine result_bind_ok_iff.mpr ⟨_, hfiles, ?_⟩
  rw [layFiles, announce, log_bind]
  exact result_bind_ok_iff.mpr ⟨n, hlayer, rfl⟩

theorem layered_oneFile {text : String} (bindings : List (String × String))
    (htext : Text.Utf8.decode (Text.Utf8.encode text) = .ok text.toList)
    (hm : Yaml.read (Text.unifyLineEnds text.toList) = .ok (.map m)) :
    files (oneFile text bindings).files (directory ⟨.root, []⟩) = .ok [oneFilePath] ∧
    mapping (oneFile text bindings).files oneFilePath = .ok m ∧
    (layered (oneFile text bindings) ⟨.root, []⟩).result.map Entries.values =
      .ok ((bundledLayers ++ [m]).foldl Mapping.merge []) := by
  rw [← Yaml.value_document oneFilePath.text, map_ok_iff] at hm
  obtain ⟨o, ho, hvalue⟩ := hm
  cases o with
  | scalar k => cases k <;> cases hvalue
  | list os => cases hvalue
  | map label n =>
      cases hvalue
      obtain ⟨hfiles, hmapping, hlayered⟩ := objects_oneFile bindings htext ho
      refine ⟨hfiles, hmapping, map_ok_iff.mpr ⟨_, hlayered, ?_⟩⟩
      rw [Entries.values_overlay, values_bundledDefaults, List.foldl_append]
      rfl

theorem read_emptyLogging :
    Yaml.read (Text.unifyLineEnds "logging:\n".toList) = .ok (.map [(.text "logging", .null)]) :=
  toOption_eq_some_iff.mp (by decide +kernel)

end Splice.Config
