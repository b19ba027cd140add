import Splice.Proofs.Config.Layered

namespace Splice.Config

open Outcome Value

variable {w : World} {root : Path} {m : Mapping}

/-- The layers of the library are what its two files hold. -/
theorem bundledLayers_read :
    [Bundle.includesText, Bundle.loggingText].map
        (fun text => (Yaml.read (Text.unifyLineEnds text.toList)).toOption) =
      bundledLayers.map fun n => some (.map n) := by decide +kernel

/-- Without settings from variables, the last of the files that touches a place of the configuration
decides it, the two files that come with the library counting as the first ones. What no file touches
is not there. -/
theorem load_precedence (hvariables : ∀ v ∈ w.bindings, Override.settingName? v.1 = none)
    (hload : (load w root false).result = .ok m) :
    [Bundle.includesText, Bundle.loggingText].map
        (fun text => (Yaml.read (Text.unifyLineEnds text.toList)).toOption) =
      bundledLayers.map (fun n => some (.map n)) ∧
    ∃ ps, ∃ ms : List Mapping, files w.files (directory root) = .ok ps ∧
      ps.map (mapping w.files) = ms.map .ok ∧
      ∀ path ≠ [],
        ((∀ n ∈ bundledLayers ++ ms, ¬ (Value.map n).Touches path) →
          (Value.map m).at? path = none) ∧
        ∀ before n after, bundledLayers ++ ms = before ++ n :: after →
          (Value.map n).Touches path → (∀ n' ∈ after, ¬ (Value.map n').Touches path) →
            Decides (.map n) (.map m) path := by
  obtain ⟨ps, ms, hps, hms, rfl⟩ :=
    result_layered_ok_iff.mp ((result_load_of_no_settings hvariables).mp hload).1
  have hwf := wellFormed_layers hms
  refine ⟨bundledLayers_read, ps, ms, hps, hms, fun path hpath => ⟨fun h => ?_, ?_⟩⟩
  · rw [at?_foldl_merge hwf h]
    cases path with
    | nil => exact absurd rfl hpath
    | cons k path => rfl
  · intro before n after hlayers htouches hafter
    rw [hlayers] at hwf ⊢
    exact decides_foldl_merge (fun n' hn' => hwf n' (List.mem_append_right _ hn')) htouches hafter []

/-- Where the library has the level of the log, the project has a null in the way. -/
theorem load_precedence_shadowed :
    (∃ n ∈ bundledLayers, (Value.map n).at? [.text "logging", .text "level"] =
      some (.text "WARNING")) ∧
    ∃ m, (load (oneFile "logging:\n" []) ⟨.root, []⟩ false).result = .ok m ∧
      (Value.map m).at? [.text "logging", .text "level"] = none := by
  have hvariables : ∀ v ∈ (oneFile "logging:\n" []).bindings, Override.settingName? v.1 = none := by
    simp [oneFile]
  obtain ⟨hfiles, hmapping, hlayered⟩ := layered_oneFile [] rfl read_emptyLogging
  have hload : (load (oneFile "logging:\n" []) ⟨.root, []⟩ false).result = _ :=
    (result_load_of_no_settings hvariables).mpr ⟨hlayered, by rintro ⟨⟩⟩
  obtain ⟨-, ps, ms, hps, hms, hplaces⟩ := load_precedence hvariables hload
  obtain rfl := Except.ok.inj (hfiles.symm.trans hps)
  obtain ⟨n, others, rfl, hn, hothers⟩ := Results.map_cons_ok_iff.mp hms
  obtain rfl := Except.ok.inj (hmapping.symm.trans hn)
  obtain rfl := List.map_eq_nil_iff.mp hothers.symm
  refine ⟨⟨_, List.mem_cons_of_mem _ List.mem_cons_self, rfl⟩, _, hload, ?_⟩
  have hblocks : (Value.map [(.text "logging", .null)]).Blocks [.text "logging", .text "level"] :=
    blocks_map_cons_iff.mpr ⟨.null, rfl, blocks_cons_of_not_map rfl _ _⟩
  exact ((hplaces _ (by simp)).2 bundledLayers _ [] rfl (.inr hblocks) (by simp)).nothing hblocks

end Splice.Config
