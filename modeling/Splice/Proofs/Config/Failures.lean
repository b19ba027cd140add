import Splice.Proofs.Config.Layered
import Splice.Proofs.Config.Placement
import Splice.Proofs.Yaml.Faults

namespace Splice

namespace Override

open Outcome Results

variable {m m' : Objects} {v : String × String} {vs : List (String × String)} {e : Fault}

theorem kind_refusal {text : List Char} (h : Coerce.refusal? text = some e) : e.kind = .value := by
  unfold Coerce.refusal? at h
  dsimp only at h
  split at h
  · cases h
    rfl
  · split at h
    · cases h
      rfl
    · split at h
      · cases h
        rfl
      · cases h

theorem kind_coerceJson {s : List Char} (h : Coerce.json? s = .error e) : e.kind = .value := by
  unfold Coerce.json? at h
  split at h
  · split at h
    · cases h
    · cases h
    · cases h
      rfl
  · cases h

theorem kind_coerce {text : String} (h : Coerce.value text = .error e) : e.kind = .value := by
  unfold Coerce.value at h
  dsimp only at h
  split at h
  · cases h
  · split at h
    · cases h
    · split at h
      · split at h
        · rename_i hrefusal
          cases h
          exact kind_refusal hrefusal
        · cases h
      · split at h
        · cases h
        · split at h
          · rename_i hjson
            cases h
            exact kind_coerceJson hjson
          · cases h
          · cases h

theorem path_error {name : String} (h : path name = .error e) : e = .emptySegment name := by
  unfold path at h
  dsimp only at h
  split at h
  · exact (Except.error.inj h).symm
  · cases h

/-- The text of a setting with a proper name does not write a value. -/
structure Refused (v : String × String) (e : Fault) : Prop where
  name : ∃ name, settingName? v.1 = some name ∧ name.isEmpty = false ∧ ∃ p, path name = .ok p
  value : Coerce.value v.2 = .error e

theorem exists_failed (h : (applyEach m vs).2.result = .error e) :
    ∃ before v after, vs = before ++ v :: after ∧ (applyEach m before).2.result = .ok () ∧
      (apply (applyEach m before).1 v).result = .error e := by
  induction vs generalizing m with
  | nil => cases h
  | cons v vs ih =>
      rw [applyEach] at h
      cases hv : (apply m v).result with
      | error d =>
          rw [hv] at h
          cases h
          exact ⟨[], v, vs, rfl, rfl, hv⟩
      | ok m' =>
          rw [hv] at h
          obtain ⟨before, v', after, rfl, hbefore, hfailed⟩ := ih h
          refine ⟨v :: before, v', after, rfl, ?_, ?_⟩
          · rw [applyEach, hv]
            exact hbefore
          · rw [applyEach, hv]
            exact hfailed

theorem applyEach_failed {before after : List (String × String)}
    (hbefore : (applyEach m before).2.result = .ok ())
    (h : (apply (applyEach m before).1 v).result = .error e) :
    (applyEach m (before ++ v :: after)).2.result = .error e := by
  induction before generalizing m with
  | nil =>
      rw [applyEach] at h
      rw [List.nil_append, applyEach, h]
  | cons v' before ih =>
      rw [applyEach] at hbefore h
      rw [List.cons_append, applyEach]
      cases hv : (apply m v').result with
      | error d => rw [hv] at hbefore; cases hbefore
      | ok m' =>
          rw [hv] at hbefore h
          exact ih hbefore h

/-- Settings fail where the first of them does. -/
theorem applyEach_error_iff : (applyEach m vs).2.result = .error e ↔
    ∃ before v after, vs = before ++ v :: after ∧ (applyEach m before).2.result = .ok () ∧
      (apply (applyEach m before).1 v).result = .error e := by
  refine ⟨exists_failed, ?_⟩
  rintro ⟨before, v, after, rfl, hbefore, h⟩
  exact applyEach_failed hbefore h

end Override

namespace Config

open FileTree Outcome Results

variable {t : FileTree} {w : World} {root p : Path} {m : Mapping} {base : Objects} {e : Fault}
  {validate : Bool}

/-- Why the contents of a file are not known, or not the value of any document. -/
inductive Unread (t : FileTree) (p : Path) : Fault → Prop
  | overlong (long : t.contains p = .error (.refused .nameTooLong p.text)) :
      Unread t p (.refused .nameTooLong p.text)
  | absent (missing : t.contains p = .ok false) : Unread t p (.absentFile p.text)
  | denied {l : Location} {n : Node} (place : t.find p = .ok l) (node : t.node? l = some n)
      (closed : t.unreadable.contains l = true) : Unread t p (.refused .denied p.text)
  | noFile {l : Location} {n : Node} (place : t.find p = .ok l) (node : t.node? l = some n)
      (open_ : t.unreadable.contains l = false) (kind : ∀ bs, n ≠ .file bs) :
      Unread t p (.refused .isDirectory p.text)
  | undecodable {bs : List UInt8} {u : Text.Utf8.Invalid} (bytes : t.contents p = .ok bs)
      (invalid : Text.Utf8.decode bs = .error u) : Unread t p (.undecodable (streamed u))
  | scalar {bs : List UInt8} {cs : List Char} {e : Fault} (bytes : t.contents p = .ok bs)
      (decoded : Text.Utf8.decode bs = .ok cs)
      (faulty : Yaml.read (Text.unifyLineEnds cs) = .error (.fault e)) : Unread t p e

theorem contains_of_contents {bs : List UInt8} (h : t.contents p = .ok bs) :
    t.contains p = .ok true := by
  obtain ⟨l, hl, -, hnode⟩ := contents_ok h
  exact contains_true_iff.mpr ⟨l, _, hl, hnode⟩

theorem document_error_iff {file : String} {cs : List Char} {flaw : Yaml.Flaw} :
    Yaml.document file cs = .error flaw ↔ Yaml.read cs = .error flaw := by
  rw [← Yaml.value_document file cs, map_error_iff]

theorem Unread.object_eq (h : Unread t p e) : object t p = .error e := by
  have hclosed {l : Location} {n : Node} {d : Fault} (place : t.find p = .ok l)
      (node : t.node? l = some n) (hd : t.contents p = .error d) : object t p = .error d :=
    bind_error_iff.mpr (.inr ⟨true, contains_true_iff.mpr ⟨_, _, place, node⟩,
      bind_error_iff.mpr (.inl hd)⟩)
  cases h with
  | overlong long => exact bind_error_iff.mpr (.inl long)
  | absent missing => exact bind_error_iff.mpr (.inr ⟨false, missing, rfl⟩)
  | denied place node closed =>
      exact hclosed place node ((contents_of_find place).trans (if_pos closed))
  | noFile place node hopen kind =>
      refine hclosed place node ?_
      rw [contents_of_find place, hopen, if_neg Bool.false_ne_true]
      refine bind_error_iff.mpr (.inr ⟨_, place, ?_⟩)
      rw [node]
      split
      · rename_i hfile
        exact absurd (Option.some.inj hfile) (kind _)
      · rfl
  | undecodable bytes invalid =>
      refine bind_error_iff.mpr (.inr ⟨true, contains_of_contents bytes,
        bind_error_iff.mpr (.inr ⟨_, bytes, bind_error_iff.mpr (.inl ?_)⟩)⟩)
      exact mapError_error_iff.mpr ⟨_, invalid, rfl⟩
  | scalar bytes decoded faulty =>
      refine bind_error_iff.mpr (.inr ⟨true, contains_of_contents bytes,
        bind_error_iff.mpr (.inr ⟨_, bytes, bind_error_iff.mpr (.inr ⟨_,
          mapError_ok_iff.mpr decoded, ?_⟩)⟩)⟩)
      rw [document_error_iff.mpr faulty]
      rfl

theorem exists_mapping_iff : (∃ n, mapping t p = .ok n) ↔ ∃ n, layer t p = .ok n := by
  simp only [mapping_ok_iff]
  constructor
  · rintro ⟨_, n, hn, -⟩
    exact ⟨n, hn⟩
  · rintro ⟨n, hn⟩
    exact ⟨_, n, hn, rfl⟩

theorem layFiles_error_iff {ps : List Path} : (layFiles t base ps).result = .error e ↔
    ∃ before p after, ps = before ++ p :: after ∧ (∀ q ∈ before, ∃ n, mapping t q = .ok n) ∧
      layer t p = .error e := by
  induction ps generalizing base with
  | nil =>
      constructor
      · rintro ⟨⟩
      · rintro ⟨before, p, after, hps, -⟩
        exact absurd hps.symm (by simp)
  | cons p ps ih =>
      rw [layFiles, announce, log_bind]
      constructor
      · intro h
        rcases result_bind_error_iff.mp h with h | ⟨n, hn, h⟩
        · exact ⟨[], p, ps, rfl, List.forall_mem_nil _, h⟩
        · obtain ⟨before, q, after, rfl, hbefore, hq⟩ := ih.mp h
          exact ⟨p :: before, q, after, rfl,
            List.forall_mem_cons.mpr ⟨exists_mapping_iff.mpr ⟨n, hn⟩, hbefore⟩, hq⟩
      · rintro ⟨before, q, after, hps, hbefore, hq⟩
        cases before with
        | nil =>
            obtain ⟨rfl, -⟩ := List.cons.inj hps
            exact result_bind_error_iff.mpr (.inl hq)
        | cons p' before =>
            obtain ⟨rfl, rfl⟩ := List.cons.inj hps
            obtain ⟨hp, hbefore⟩ := List.forall_mem_cons.mp hbefore
            obtain ⟨n, hn⟩ := exists_mapping_iff.mp hp
            exact result_bind_error_iff.mpr
              (.inr ⟨n, hn, ih.mpr ⟨before, q, after, rfl, hbefore, hq⟩⟩)

theorem layered_error_iff : (layered w root).result = .error e ↔
    files w.files (directory root) = .error e ∨
      ∃ before p after, files w.files (directory root) = .ok (before ++ p :: after) ∧
        (∀ q ∈ before, ∃ n, mapping w.files q = .ok n) ∧ layer w.files p = .error e := by
  rw [layered, result_bind, result_defaults]
  constructor
  · intro h
    rcases result_bind_error_iff.mp h with h | ⟨ps, hps, h⟩
    · exact .inl h
    · obtain ⟨before, p, after, rfl, hbefore, hp⟩ := layFiles_error_iff.mp h
      exact .inr ⟨before, p, after, hps, hbefore, hp⟩
  · rintro (h | ⟨before, p, after, hps, hbefore, hp⟩)
    · exact result_bind_error_iff.mpr (.inl h)
    · exact result_bind_error_iff.mpr
        (.inr ⟨_, hps, layFiles_error_iff.mpr ⟨before, p, after, rfl, hbefore, hp⟩⟩)

/-- A failure of a load that does not say that the configuration cannot be loaded. -/
inductive Escapes (w : World) (root : Path) : Fault → Prop
  | listing (long : w.files.contains (directory root) =
      .error (.refused .nameTooLong (directory root).text)) :
      Escapes w root (.refused .nameTooLong (directory root).text)
  | file {before : List Path} {p : Path} {after : List Path} {e : Fault}
      (found : files w.files (directory root) = .ok (before ++ p :: after))
      (earlier : ∀ q ∈ before, ∃ n, mapping w.files q = .ok n) (unread : Unread w.files p e) :
      Escapes w root e
  | setting {base : Objects} {before : List (String × String)} {v : String × String}
      {after : List (String × String)} {e : Fault} (loaded : (layered w root).result = .ok base)
      (found : Override.settings w.bindings = before ++ v :: after)
      (earlier : (Override.applyEach base before).2.result = .ok ()) (refused : Override.Refused v e) :
      Escapes w root e

theorem result_load_error_iff : (load w root validate).result = .error e ↔
    (layered w root).result = .error e ∨ ∃ base, (layered w root).result = .ok base ∧
      ((Override.applyAll base w.bindings).2.result = .error e ∨
        (Override.applyAll base w.bindings).2.result = .ok () ∧ validate = true ∧
          check (Override.applyAll base w.bindings).1.values = .error e) := by
  rw [load, result_bind_error_iff]
  refine or_congr_right (exists_congr fun base => and_congr_right fun _ => ?_)
  rw [result_bind_error_iff]
  cases validate with
  | false =>
      refine or_congr_right ⟨?_, by rintro ⟨_, ⟨⟩, _⟩⟩
      rintro ⟨_, -, h⟩
      cases h
  | true =>
      refine or_congr_right ⟨?_, ?_⟩
      · rintro ⟨⟨⟩, happlied, h⟩
        rcases result_bind_error_iff.mp h with h | ⟨_, -, h⟩
        · exact ⟨happlied, rfl, h⟩
        · cases h
      · rintro ⟨happlied, -, h⟩
        exact ⟨(), happlied, result_bind_error_iff.mpr (.inl h)⟩

theorem files_error (h : files t p = .error e) :
    t.contains p = .error (.refused .nameTooLong p.text) ∧ e = .refused .nameTooLong p.text := by
  unfold files at h
  split at h
  · rename_i hcontains
    cases h
    obtain ⟨rfl, -⟩ := leadsTo_error hcontains
    exact ⟨hcontains, rfl⟩
  · cases h

end Config

end Splice
