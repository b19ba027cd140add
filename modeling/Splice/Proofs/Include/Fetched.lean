import Splice.Proofs.Include.Units

namespace Splice

theorem Kind.isExplained_of_isResolution {k : Kind} (h : k.isResolution = true) :
    k.isExplained = false := by
  fun_induction Kind.isResolution k with
  | case1 => rfl
  | case2 name above ih => exact ih h
  | case3 => cases h

theorem Kind.isExplained_iff {k : Kind} : k.isExplained = true ↔
    k.isSystem = true ∨ k.isValue = true ∨ k.isTransfer = true := by
  simp [isExplained, or_assoc]

theorem Kind.isExplained_eq_false_iff {k : Kind} : k.isExplained = false ↔
    k.isSystem = false ∧ k.isValue = false ∧ k.isTransfer = false := by
  simp [isExplained, and_assoc]

namespace Remote

variable {table : Table} {source : String} {e : Fault}

theorem explain_of_explained (h : e.kind.isExplained = true) :
    explain source e = .failed source e := by
  rw [explain, if_pos h]

theorem explain_of_passed (h : e.kind.isExplained = false) : explain source e = e := by
  rw [explain, h, if_neg Bool.false_ne_true]

theorem explain_explain (source : String) (e : Fault) :
    explain source (explain source e) = explain source e := by
  cases h : e.kind.isExplained with
  | true =>
      rw [explain_of_explained h]
      exact explain_of_passed rfl
  | false => rw [explain_of_passed h, explain_of_passed h]

theorem mapError_explain_explain (source : String) (text : Except Fault String) :
    (text.mapError (explain source)).mapError (explain source) =
      text.mapError (explain source) := by
  cases text with
  | ok body => rfl
  | error e => exact congrArg Except.error (explain_explain source e)

theorem fetch_direct (h : address source = .ok source) (o : Options) :
    (fetch table o source).result = (direct table source).result.mapError (explain source) := by
  rw [fetch_eq, ask_eq h, direct_eq]

/-- The failure `explained` tells of `e`, which no fetch has explained before. -/
structure Explains (source : String) (e explained : Fault) : Prop where
  kind : explained.kind = .resolution
  message : explained.message = e.message
  context : explained.context = Mapping.ofTexts [("source", source), ("cause", e.kind.name)]
  cause : explained.cause = some e.kind
  original : e.kind.isResolution = false

theorem explains_failed (hsource : source.isEmpty = false) (h : e.kind.isExplained = true) :
    Explains source e (.failed source e) where
  kind := rfl
  message := rfl
  context := by
    rw [Fault.context, Fault.resolutionContext, hsource]
    rfl
  cause := rfl
  original := by
    rw [← Bool.not_eq_true]
    intro hresolution
    rw [Kind.isExplained_of_isResolution hresolution] at h
    cases h

end Remote

namespace Include

open Outcome

variable {t : FileTree} {fetch : Remote.Fetcher} {source : String} {parent : Option Path}

theorem isEmpty_of_isRemote (h : isRemote source = true) : source.isEmpty = false := by
  rw [← Bool.not_eq_true, String.isEmpty_iff]
  rintro rfl
  cases h

theorem resolve_unfetched {e : Fault} (h : isRemote source = true)
    (he : (fetch source).result = .error e) (parent : Option Path) :
    (resolve t fetch parent source).result = .error (Remote.explain source e) ∧
      (resolve t fetch parent source).units = (fetch source).units := by
  have hr : ((fetch source).mapFault (Remote.explain source)).result =
      .error (Remote.explain source e) := by
    rw [mapFault, he]
    rfl
  rw [resolve_remote h, bind_error hr]
  exact ⟨rfl, rfl⟩

/-- An inclusion only depends on the text that is fetched, or on the failure as it is explained. -/
theorem resolve_text (h : isRemote source = true) (hunits : (fetch source).units = [])
    {text : Except Fault String} (htext : (fetch source).result.mapError (Remote.explain source) =
      text.mapError (Remote.explain source)) (parent : Option Path) :
    (resolve t fetch parent source).result =
        (text.mapError (Remote.explain source)).map (fun _ => ()) ∧
      (resolve t fetch parent source).units =
        (text.toOption.map fun body => ⟨parent, Text.linesOfBody body⟩).toList := by
  cases text with
  | ok body =>
      have hbody : (fetch source).result = .ok body := Results.mapError_ok_iff.mp htext
      rw [result_resolve_remote h hbody, units_resolve_remote h hbody, hunits]
      exact ⟨rfl, rfl⟩
  | error e =>
      obtain ⟨d, hd, hde⟩ := Results.mapError_error_iff.mp htext
      obtain ⟨hresult, hus⟩ := resolve_unfetched (t := t) h hd parent
      rw [hresult, hus, hunits, hde]
      exact ⟨rfl, rfl⟩

/-- What comes of the answer to a request: a unit that counts as the current file, or a failure. One
of the connection, of the address or of the encoding is explained, any other is as it was. -/
inductive Arrives (parent : Option Path) (source : String) :
    Remote.Answer → Except Fault Unit → List SourceUnit → Prop
  | registered {bytes : List UInt8} {cs : List Char} (decoded : Text.Utf8.decode bytes = .ok cs) :
      Arrives parent source (.body bytes) (.ok ()) [⟨parent, Text.linesOfBody (String.ofList cs)⟩]
  | undecodable {bytes : List UInt8} {what : Text.Utf8.Invalid}
      (invalid : Text.Utf8.decode bytes = .error what)
      (once : Remote.Explains source (.undecodable what) (.failed source (.undecodable what))) :
      Arrives parent source (.body bytes) (.error (.failed source (.undecodable what))) []
  | explained {what : Remote.Failure}
      (kind : what.kind.isSystem = true ∨ what.kind.isValue = true ∨ what.kind.isTransfer = true)
      (once : Remote.Explains source (.remote what) (.failed source (.remote what))) :
      Arrives parent source (.failure what) (.error (.failed source (.remote what))) []
  | passed {what : Remote.Failure} (system : what.kind.isSystem = false)
      (value : what.kind.isValue = false) (transfer : what.kind.isTransfer = false) :
      Arrives parent source (.failure what) (.error (.remote what)) []

theorem arrives_text (hsource : source.isEmpty = false) (answer : Remote.Answer) :
    Arrives parent source answer ((answer.text.mapError (Remote.explain source)).map fun _ => ())
      (answer.text.toOption.map fun body => ⟨parent, Text.linesOfBody body⟩).toList := by
  cases answer with
  | body bytes =>
      rw [Remote.Answer.text]
      cases hdecode : Text.Utf8.decode bytes with
      | ok cs => exact .registered hdecode
      | error what => exact .undecodable hdecode (Remote.explains_failed hsource rfl)
  | failure what =>
      rw [Remote.Answer.text]
      cases hkind : (Fault.remote what).kind.isExplained with
      | true =>
          rw [Results.mapError_error, Remote.explain_of_explained hkind]
          exact .explained (Kind.isExplained_iff.mp hkind) (Remote.explains_failed hsource hkind)
      | false =>
          obtain ⟨hsystem, hvalue, htransfer⟩ := Kind.isExplained_eq_false_iff.mp hkind
          rw [Results.mapError_error, Remote.explain_of_passed hkind]
          exact .passed hsystem hvalue htransfer

/-- For an address that is asked for as it stands, it makes no difference who fetches: a fetcher
that explains nothing, or the library's own one with any options. What arrives is told by the answer
alone, and failures to resolve are never explained again. -/
theorem resolve_fetched (hremote : isRemote source = true)
    (haddress : Remote.address source = .ok source) (t : FileTree) (table : Remote.Table)
    (parent : Option Path) :
    (∀ o, (resolve t (Remote.fetch table o) parent source).result =
        (resolve t (Remote.direct table) parent source).result ∧
      (resolve t (Remote.fetch table o) parent source).units =
        (resolve t (Remote.direct table) parent source).units) ∧
    Arrives parent source (Remote.answer table source)
      (resolve t (Remote.direct table) parent source).result
      (resolve t (Remote.direct table) parent source).units ∧
    ∀ what, Remote.answer table source = .failure what → what.kind.isResolution = true →
      (resolve t (Remote.direct table) parent source).result = .error (.remote what) := by
  have hdirect : (Remote.direct table source).result = (Remote.answer table source).text := by
    rw [Remote.direct_eq]
  obtain ⟨hresult, hunits⟩ := resolve_text (t := t) hremote
    ((Remote.plain_direct table).units_eq source) (congrArg _ hdirect) parent
  rw [hresult, hunits]
  refine ⟨fun o => ?_, arrives_text (isEmpty_of_isRemote hremote) _, ?_⟩
  · have hfetch : (Remote.fetch table o source).result.mapError (Remote.explain source) =
        (Remote.answer table source).text.mapError (Remote.explain source) := by
      rw [Remote.fetch_direct haddress, hdirect, Remote.mapError_explain_explain]
    exact resolve_text hremote ((Remote.plain_fetch table o).units_eq source) hfetch parent
  · intro what hwhat hkind
    have hpassed : (Fault.remote what).kind.isExplained = false :=
      Kind.isExplained_of_isResolution hkind
    rw [hwhat, Remote.Answer.text, Results.mapError_error, Remote.explain_of_passed hpassed]
    rfl

def brokenLine : Remote.Failure := .raised (.derived "SSLError" .system) "handshake failure"

/-- A failure below those of the system is explained under its own name by both fetchers. -/
theorem resolve_fetched_brokenLine :
    Remote.address "https://h/a" = .ok "https://h/a" ∧
    (resolve default (Remote.fetch [("https://h/a", .failure brokenLine)] ⟨some (.int 5), none⟩)
      none "https://h/a").result = .error (.failed "https://h/a" (.remote brokenLine)) ∧
    Remote.Explains "https://h/a" (.remote brokenLine)
      (.failed "https://h/a" (.remote brokenLine)) := by
  have haddress : Remote.address "https://h/a" = .ok "https://h/a" := rfl
  obtain ⟨hsame, harrives, -⟩ := resolve_fetched rfl haddress default
    [("https://h/a", .failure brokenLine)] none
  rw [(hsame _).1]
  generalize (resolve default (Remote.direct [("https://h/a", .failure brokenLine)]) none
    "https://h/a").result = result at harrives ⊢
  generalize (resolve default (Remote.direct [("https://h/a", .failure brokenLine)]) none
    "https://h/a").units = units at harrives
  have hanswer : Remote.answer [("https://h/a", .failure brokenLine)] "https://h/a" =
    .failure brokenLine := rfl
  rw [hanswer] at harrives
  cases harrives with
  | explained kind once => exact ⟨haddress, rfl, once⟩
  | passed system => cases system

end Include

end Splice
