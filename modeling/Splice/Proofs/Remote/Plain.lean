import Splice.Proofs.Outcome.Results
import Splice.Proofs.Outcome.Sequence
import Splice.Remote

namespace Splice.Remote

open Outcome

/-- A fetcher that knows nothing of inclusion: it registers no unit, it does not run out of depth, and
it asks for what it gives. -/
structure Plain (fetch : Fetcher) : Prop where
  units_eq : ∀ url, (fetch url).units = []
  ne_tooDeep : ∀ url, (fetch url).result ≠ .error .tooDeep
  requests_ne : ∀ url body, (fetch url).result = .ok body → (fetch url).requests ≠ []

theorem text_ne_tooDeep (a : Answer) : a.text ≠ .error .tooDeep := by
  intro h
  cases a with
  | failure what => cases h
  | body bytes =>
      rw [Answer.text] at h
      cases hd : Text.Utf8.decode bytes with
      | error e => rw [hd] at h; cases h
      | ok cs => rw [hd] at h; cases h

theorem explain_ne_tooDeep {url : String} {e : Fault} (h : e ≠ .tooDeep) :
    explain url e ≠ .tooDeep := by
  unfold explain
  split
  · exact Fault.noConfusion
  · exact h

theorem address_error {url : String} {e : Fault} (h : address url = .error e) :
    ∃ asked, e = .unknownScheme asked := by
  unfold address at h
  dsimp only at h
  split at h
  all_goals
    split at h
    · cases h
    · exact ⟨_, (Except.error.inj h).symm⟩

theorem direct_eq (table : Table) (url : String) :
    direct table url = ⟨[.request ⟨url, none, none⟩], (answer table url).text⟩ := by
  rw [direct, emit_bind]
  rfl

theorem ask_eq {url asked : String} (h : address url = .ok asked) (table : Table) (o : Options) :
    ask table o url = ⟨[.request (o.request asked)], (answer table asked).text⟩ := by
  rw [ask, lift_bind_ok h, emit_bind]
  rfl

theorem ask_error {url : String} {e : Fault} (h : address url = .error e) (table : Table)
    (o : Options) : ask table o url = ⟨[], .error e⟩ := by
  rw [ask, lift_bind_error h]
  rfl

theorem fetch_eq (table : Table) (o : Options) (url : String) :
    fetch table o url =
      ⟨.record ⟨.debug, Log.Origin.remote.logger, "Fetching remote include " ++ url⟩ ::
        (ask table o url).trace, (ask table o url).result.mapError (explain url)⟩ := by
  rw [fetch, log_bind, mapFault]

theorem result_fetch {table : Table} {url asked body : String} (h : address url = .ok asked)
    (hbody : (answer table asked).text = .ok body) (o : Options) :
    (fetch table o url).result = .ok body := by
  rw [fetch_eq, ask_eq h, hbody]
  rfl

theorem plain_direct (table : Table) : Plain (direct table) where
  units_eq url := by rw [direct_eq]; rfl
  ne_tooDeep url := by rw [direct_eq]; exact text_ne_tooDeep _
  requests_ne url body _ := by rw [direct_eq]; exact List.cons_ne_nil _ _

theorem plain_fetch (table : Table) (o : Options) : Plain (fetch table o) where
  units_eq url := by
    rw [fetch_eq]
    cases h : address url with
    | error e => rw [ask_error h]; rfl
    | ok asked => rw [ask_eq h]; rfl
  ne_tooDeep url h := by
    rw [fetch_eq] at h
    dsimp only at h
    obtain ⟨e, he, hdeep⟩ := Results.mapError_error_iff.mp h
    refine explain_ne_tooDeep ?_ hdeep
    rintro rfl
    cases hurl : address url with
    | error d =>
        obtain ⟨asked, rfl⟩ := address_error hurl
        rw [ask_error hurl] at he
        cases he
    | ok asked => rw [ask_eq hurl] at he; exact text_ne_tooDeep _ he
  requests_ne url body h := by
    rw [fetch_eq] at h ⊢
    cases hurl : address url with
    | error d => rw [ask_error hurl] at h; cases h
    | ok asked => rw [ask_eq hurl]; exact List.cons_ne_nil _ _

end Splice.Remote
