import Mathlib.Data.List.Nodup
import Splice.Config.Session
import Splice.Proofs.Config.Override
import Splice.Proofs.FileTree.CanonicalNames
import Splice.Proofs.Text.Quoting

namespace Splice

open Text

namespace Override

variable {bindings bindings' : List (String × String)}

/-- Variables of different names give the same settings exactly if they have the same settings among
them, in whatever order. -/
theorem settings_eq_iff (h : (bindings.map Prod.fst).Nodup) (h' : (bindings'.map Prod.fst).Nodup) :
    settings bindings = settings bindings' ↔
      ∀ v : String × String, (settingName? v.1).isSome = true → (v ∈ bindings ↔ v ∈ bindings') := by
  constructor
  · intro heq v hv
    have hmem : v ∈ settings bindings ↔ v ∈ settings bindings' := by rw [heq]
    simpa [mem_settings_iff, hv] using hmem
  · intro hsame
    have hsorted (l : List (String × String)) : (settings l).Pairwise fun a b => a.1 ≤ b.1 := by
      refine (List.pairwise_mergeSort (fun a b c hab hbc => ?_) (fun a b => ?_) _).imp
        of_decide_eq_true
      · exact decide_eq_true (String.le_trans (of_decide_eq_true hab) (of_decide_eq_true hbc))
      · simpa using String.le_total a.1 b.1
    have hperm : (settings bindings).Perm (settings bindings') := by
      have hnodup {l : List (String × String)} (hl : (l.map Prod.fst).Nodup) :
          (settings l).Nodup :=
        ((List.mergeSort_perm _ _).nodup_iff).mpr (.filter _ (.of_map Prod.fst hl))
      refine (List.perm_ext_iff_of_nodup (hnodup h) (hnodup h')).mpr fun v => ?_
      rw [mem_settings_iff, mem_settings_iff, and_congr_left_iff]
      exact fun hv => hsame v hv
    refine hperm.eq_of_pairwise (fun a b ha hb hab hba => ?_) (hsorted _) (hsorted _)
    have hb : b ∈ bindings := (mem_settings_iff.mp (hperm.mem_iff.mpr hb)).1
    exact List.inj_on_of_nodup_map h (mem_settings_iff.mp ha).1 hb (String.le_antisymm hab hba)

/-! ### Settings as a text -/

def settingText (v : String × String) : List Char :=
  '(' :: (quote v.1.toList ++ [',', ' '] ++ quote v.2.toList) ++ [')']

/-- Settings as a list in brackets shows them. -/
def settingsText (settings : List (String × String)) : String :=
  String.ofList ('[' :: [',', ' '].intercalate (settings.map settingText) ++ [']'])

theorem unambiguous_settingText : Unambiguous settingText := by
  have hvalue : Unambiguous fun v : String => quote v.toList := by
    intro a b s t h
    obtain ⟨hab, hst⟩ := unambiguous_quote _ _ _ _ h
    exact ⟨String.toList_inj.mp hab, hst⟩
  intro v v' s t h
  simp only [settingText, List.cons_append, List.append_assoc, List.cons.injEq, true_and] at h
  obtain ⟨hname, h⟩ := hvalue _ _ _ _ h
  simp only [List.nil_append, List.cons.injEq, true_and] at h
  obtain ⟨hvalue, h⟩ := hvalue _ _ _ _ h
  simp only [List.cons.injEq, true_and] at h
  exact ⟨Prod.ext hname hvalue, h⟩

theorem intercalate_settingTexts (v : String × String) (vs : List (String × String)) :
    [',', ' '].intercalate ((v :: vs).map settingText) =
      settingText v ++ vs.flatMap fun v => ',' :: ' ' :: settingText v := by
  induction vs generalizing v with
  | nil => simp [List.intercalate_singleton]
  | cons v' vs ih =>
      rw [List.map_cons, List.map_cons, List.intercalate_cons_cons, ← List.map_cons, ih v',
        List.flatMap_cons]
      simp

theorem unambiguous_laterText :
    Unambiguous fun v : String × String => ',' :: ' ' :: settingText v := by
  intro v v' s t h
  simp only [List.cons_append, List.cons.injEq, true_and] at h
  exact unambiguous_settingText _ _ _ _ h

theorem settingsText_inj {l l' : List (String × String)} (h : settingsText l = settingsText l') :
    l = l' := by
  have hlist : [',', ' '].intercalate (l.map settingText) ++ [']'] =
      [',', ' '].intercalate (l'.map settingText) ++ [']'] :=
    (List.cons.inj (String.ofList_inj.mp h)).2
  cases l with
  | nil =>
      cases l' with
      | nil => rfl
      | cons v' vs' =>
          rw [intercalate_settingTexts] at hlist
          exact absurd (List.cons.inj hlist).1 (by decide)
  | cons v vs =>
      rw [intercalate_settingTexts, List.append_assoc] at hlist
      cases l' with
      | nil => exact absurd (List.cons.inj hlist).1 (by decide)
      | cons v' vs' =>
          rw [intercalate_settingTexts, List.append_assoc] at hlist
          obtain ⟨rfl, hrest⟩ := unambiguous_settingText _ _ _ _ hlist
          obtain ⟨rfl, -⟩ := unambiguous_laterText.flatMap
            (fun _ => ⟨',', _, rfl, by decide⟩) hrest
          rfl

end Override

namespace Config.Fingerprint

variable {digest : String → String} {key key' : Fingerprint}

/-- The text that stands for a fingerprint: its root, and a digest of its settings. -/
def text (digest : String → String) (key : Fingerprint) : String :=
  key.root.text ++ ":env=" ++ digest (Override.settingsText key.settings)

/-- Fingerprints of different roots or settings have different texts, if the digest tells the
settings apart and has always the same length. -/
theorem text_inj (hlength : ∀ s s', (digest s).length = (digest s').length)
    (hdigest : digest (Override.settingsText key.settings) =
      digest (Override.settingsText key'.settings) →
        Override.settingsText key.settings = Override.settingsText key'.settings)
    (hroot : key.root.Plain) (hroot' : key'.root.Plain)
    (h : key.text digest = key'.text digest) : key = key' := by
  have hlist := congrArg String.toList h
  simp only [text, String.toList_append] at hlist
  obtain ⟨hfront, hback⟩ := List.append_inj' hlist (by
    rw [String.length_toList, String.length_toList]
    exact hlength _ _)
  have htext : key.root.text = key'.root.text :=
    String.toList_inj.mp (List.append_cancel_right hfront)
  have hsettings : key.settings = key'.settings :=
    Override.settingsText_inj (hdigest (String.toList_inj.mp hback))
  rw [Fingerprint.mk.injEq]
  exact ⟨Path.text_inj hroot hroot' htext, hsettings⟩

end Config.Fingerprint

end Splice
