import Splice.Proofs.Include.Descent
import Splice.Proofs.Reader.Budget

namespace Splice.Include

open Outcome

variable {t : FileTree} {fetch : Remote.Fetcher}

theorem resolve_ne_tooDeep (hroot : t.root.wellNamed = true) (hfetch : Remote.Plain fetch)
    (parent : Option Path) (source : String) :
    (resolve t fetch parent source).result ≠ .error .tooDeep := by
  intro h
  generalize hdeep : Fault.tooDeep = e at h
  cases resolve_error_iff.mp h with
  | unfetched remote given =>
      refine Remote.explain_ne_tooDeep ?_ hdeep.symm
      rintro rfl
      exact hfetch.ne_tooDeep source given
  | refused here contains =>
      rw [(FileTree.leadsTo_error contains).1] at hdeep
      cases hdeep
  | unwalked here contains walk => exact collect_ne_tooDeep hroot _ (hdeep ▸ walk)
  | misplaced here contains canonical =>
      rw [FileTree.canonical_error canonical] at hdeep
      cases hdeep
  | absent => cases hdeep

theorem parse_ne_tooDeep (hroot : t.root.wellNamed = true) (hfetch : Remote.Plain fetch)
    (parent : Option Path) (words : Words) :
    (parse t fetch parent words).result ≠ .error .tooDeep := by
  intro h
  unfold parse parseIn at h
  split at h
  · cases h
  · exact resolve_ne_tooDeep hroot hfetch _ _ h
  · cases h

end Splice.Include

namespace Splice.Reader

open Outcome Relation

/-- Budgets only cut expansions off. One that is used up is due to inclusions without a rank, and a
unit that comes to itself again is never expanded. -/
theorem expansion_ends (t : FileTree) (fetch : Remote.Fetcher) (u : SourceUnit) :
    (∀ n m, n ≤ m → (expandWithin (Include.parse t fetch) n u).result ≠ .error .tooDeep →
      expandWithin (Include.parse t fetch) m u = expandWithin (Include.parse t fetch) n u) ∧
    (t.root.wellNamed = true → Remote.Plain fetch → ∀ rank : SourceUnit → Nat,
      (∀ v w, ReflTransGen (Includes (Include.parse t fetch)) u v →
        Includes (Include.parse t fetch) v w → rank w < rank v) →
      ∀ n, rank u < n → (expandWithin (Include.parse t fetch) n u).result ≠ .error .tooDeep) ∧
    ∀ v, ReflTransGen (Includes (Include.parse t fetch)) u v →
      TransGen (Includes (Include.parse t fetch)) v v →
      ∀ n out, (expandWithin (Include.parse t fetch) n u).result ≠ .ok out := by
  refine ⟨?_, ?_, ?_⟩
  · intro n m hnm h
    exact expandWithin_eq_of_le hnm h
  · intro hroot hfetch rank hrank n hn
    exact expandWithin_ne_tooDeep (Include.parse_ne_tooDeep hroot hfetch) hrank hn
  · intro v huv hv n out h
    rcases reflTransGen_iff_eq_or_transGen.mp huv with rfl | huv
    · exact not_ok_of_cycle hv out h
    · obtain ⟨m, _, given, hgiven⟩ := expanded_of_transGen h huv
      exact not_ok_of_cycle hv given hgiven

/-- Two documents, the second of which includes itself. -/
def documents : Remote.Table :=
  [("https://h/a", .body [120]),
    ("https://h/b", .body [33, 105, 110, 99, 108, 117, 100, 101, 32, 104, 116, 116, 112, 115, 58, 47,
      47, 104, 47, 98])]

def noFiles : FileTree := ⟨.directory [], [], [], []⟩

def documentUnits : Resolver := Include.parse noFiles (Remote.fetch documents .none)

theorem fetch_a : (Remote.fetch documents .none "https://h/a").result = .ok "x" := by
  have haddress : Remote.address "https://h/a" = .ok "https://h/a" := rfl
  exact Remote.result_fetch haddress rfl _

theorem line_a : Directive.ofLine? "!include https://h/a" =
    .ok (some ⟨["!include", "https://h/a"]⟩) := rfl

theorem includes_document {text url body : String} {words : Words} {lines : List String}
    (hline : Directive.ofLine? text = .ok (some words)) (hwords : words.toList = ["!include", url])
    (hremote : Include.isRemote url = true) (hurl : Remote.address url = .ok url)
    (hbody : (Remote.answer documents url).text = .ok body)
    (hlines : Text.linesOfBody body = lines) {v : SourceUnit} :
    Includes documentUnits ⟨none, [text]⟩ v ↔ v = ⟨none, lines⟩ := by
  have hunits : (documentUnits none words).units = [⟨none, lines⟩] := hlines ▸
    Include.units_parse_remote (Remote.plain_fetch _ _) hwords hremote
      (Remote.result_fetch hurl hbody _) none
  constructor
  · rintro ⟨text', htext, words', hwords', hv⟩
    obtain rfl := List.mem_singleton.mp htext
    obtain rfl : words = words' := Option.some.inj (Except.ok.inj (hline.symm.trans hwords'))
    rw [hunits] at hv
    exact List.mem_singleton.mp hv
  · rintro rfl
    refine ⟨text, List.mem_singleton_self _, words, hline, ?_⟩
    rw [hunits]
    exact List.mem_singleton_self _

theorem expansion_ends_documents :
    (expandWithin documentUnits 2 ⟨none, ["!include https://h/a"]⟩).result ≠ .error .tooDeep ∧
    expandWithin documentUnits deepest ⟨none, ["!include https://h/a"]⟩ =
      expandWithin documentUnits 2 ⟨none, ["!include https://h/a"]⟩ ∧
    ∀ n out, (expandWithin documentUnits n ⟨none, ["!include https://h/b"]⟩).result ≠ .ok out := by
  have hlineb : Directive.ofLine? "!include https://h/b" =
      .ok (some ⟨["!include", "https://h/b"]⟩) := rfl
  have hbodya : (Remote.answer documents "https://h/a").text = .ok "x" := rfl
  have hbodyb : (Remote.answer documents "https://h/b").text = .ok "!include https://h/b" := rfl
  have ha (v : SourceUnit) : Includes documentUnits ⟨none, ["!include https://h/a"]⟩ v ↔
      v = ⟨none, ["x"]⟩ := includes_document line_a rfl rfl rfl hbodya rfl
  have hb (v : SourceUnit) : Includes documentUnits ⟨none, ["!include https://h/b"]⟩ v ↔
      v = ⟨none, ["!include https://h/b"]⟩ :=
    includes_document hlineb rfl rfl rfl hbodyb rfl
  have hx (v : SourceUnit) : ¬Includes documentUnits ⟨none, ["x"]⟩ v := by
    rintro ⟨text, htext, words, hwords, _⟩
    obtain rfl := List.mem_singleton.mp htext
    exact absurd hwords (by rw [show Directive.ofLine? "x" = .ok none from rfl]; exact nofun)
  have hrank (v w : SourceUnit)
      (hv : ReflTransGen (Includes documentUnits) ⟨none, ["!include https://h/a"]⟩ v)
      (hvw : Includes documentUnits v w) :
      (if w = ⟨none, ["x"]⟩ then 0 else 1) < if v = ⟨none, ["x"]⟩ then 0 else 1 := by
    rcases hv.cases_head with rfl | ⟨c, hc, hcv⟩
    · rw [if_pos ((ha w).mp hvw)]
      decide
    · obtain rfl := (ha c).mp hc
      rcases hcv.cases_head with rfl | ⟨d, hd, _⟩
      · exact absurd hvw (hx w)
      · exact absurd hd (hx d)
  obtain ⟨hstable, hends, _⟩ := expansion_ends noFiles (Remote.fetch documents .none)
    ⟨none, ["!include https://h/a"]⟩
  obtain ⟨_, _, hcycle⟩ := expansion_ends noFiles (Remote.fetch documents .none)
    ⟨none, ["!include https://h/b"]⟩
  have hdeep := hends rfl (Remote.plain_fetch _ _)
    (fun v => if v = ⟨none, ["x"]⟩ then 0 else 1) hrank 2 (by decide)
  exact ⟨hdeep, hstable 2 deepest (by decide) hdeep, hcycle _ .refl (.single ((hb _).mpr rfl))⟩

end Splice.Reader
