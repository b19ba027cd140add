import Splice.Include.Context
import Splice.Proofs.Include.Descent
import Splice.Proofs.Include.Fetched

namespace Splice

/-- Failures over a directive that does not match the grammar. -/
def Kind.isGrammar : Kind → Bool
  | grammar => true
  | derived _ above => above.isGrammar
  | _ => false

theorem Kind.isExplained_of_isGrammar {k : Kind} (h : k.isGrammar = true) :
    k.isExplained = true := by
  fun_induction Kind.isGrammar k with
  | case1 => rfl
  | case2 name above ih => exact ih h
  | case3 => cases h

theorem Kind.isGrammar_ofCode (why : Refusal) : (Kind.ofCode why.code).isGrammar = false := by
  cases why <;> rfl

namespace Words

variable {words : Words}

theorem hasMoreThan_one_iff : words.hasMoreThan 1 = true ↔ 2 < words.size := by
  rw [hasMoreThan, decide_eq_true_eq]
  omega

theorem has_one_iff : words.has 1 = true ↔ 2 ≤ words.size := by
  rw [has, Bool.and_eq_true, decide_eq_true_eq, decide_eq_true_eq]
  omega

theorem size_eq_two_iff : words.size = 2 ↔ ∃ keyword source, words.toList = [keyword, source] :=
  List.length_eq_two

end Words

namespace Include

open FileTree Outcome

variable {t : FileTree} {fetch : Remote.Fetcher} {parent : Option Path} {source : String}
  {words : Words} {e : Fault}

/-- Every failure of the computation is about something else than the grammar. -/
def Grammatical {α : Type} (x : Outcome α) : Prop :=
  ∀ e, x.result = .error e → e.kind.isGrammar = false

theorem isGrammar_explain (source : String) (e : Fault) :
    (Remote.explain source e).kind.isGrammar = false := by
  cases h : e.kind.isExplained with
  | true =>
      rw [Remote.explain_of_explained h]
      rfl
  | false =>
      rw [Remote.explain_of_passed h, ← Bool.not_eq_true]
      intro hgrammar
      rw [Kind.isExplained_of_isGrammar hgrammar] at h
      cases h

theorem grammatical_collectWithin (n : Nat) (p : Path) : Grammatical (collectWithin t n p) := by
  intro e h
  rcases collectWithin_error h with rfl | ⟨q, hdirectory | ⟨-, hlines⟩⟩
  · rfl
  · obtain ⟨rfl, -⟩ := leadsTo_error hdirectory
    exact Kind.isGrammar_ofCode .nameTooLong
  · rcases readLines_error hlines with ⟨-, rfl⟩ | ⟨why, -, -, rfl⟩ <;> rfl

theorem grammatical_resolve (t : FileTree) (fetch : Remote.Fetcher) (parent : Option Path)
    (source : String) : Grammatical (resolve t fetch parent source) := by
  intro e h
  cases resolve_error_iff.mp h with
  | unfetched => exact isGrammar_explain source _
  | refused here contains =>
      obtain ⟨rfl, -⟩ := leadsTo_error contains
      exact Kind.isGrammar_ofCode .nameTooLong
  | unwalked here contains walk => exact grammatical_collectWithin _ _ e walk
  | misplaced here contains canonical =>
      obtain rfl := canonical_error canonical
      rfl
  | absent => rfl

theorem parse_eq (t : FileTree) (fetch : Remote.Fetcher) (parent : Option Path) (words : Words) :
    parse t fetch parent words =
      if words.hasMoreThan 1 then .fail .tooManyWords
      else if words.has 1 then resolve t fetch parent ((words.get? 1).getD "")
      else .fail .missingTarget := by
  obtain ⟨ws⟩ := words
  match ws with
  | [] => rfl
  | [_] => rfl
  | [_, _] => rfl
  | _ :: _ :: _ :: rest =>
      rw [if_pos (Words.hasMoreThan_one_iff.mpr (by simp [Words.size]))]
      rfl

/-- How a directive ends that has another number of words than two: in the same way for every tree
and every fetcher, with nothing in its trace and nothing registered. -/
structure Miscounted (words : Words) (e : Fault) : Prop where
  kind : e.kind = .grammar
  unread : ∀ t fetch parent, parse t fetch parent words = .fail e
  kept : ∀ t fetch (c : Context), c.parse t fetch words = (c, .error e)
  tooMany : 2 < words.size ↔ e.message = "Too many tokens, expected: !include <file|directory|url>"
  tooFew : words.size < 2 ↔ e.message = "Expected: !include <file|directory|url>"

theorem Context.add_nil (c : Context) : c.add [] = c := by
  rw [add, List.append_nil]

theorem Context.parse_fail (c : Context) (h : Include.parse t fetch c.parent words = .fail e) :
    c.parse t fetch words = (c, .error e) := by
  rw [parse, h]
  exact congrArg (·, Except.error e) (add_nil c)

theorem miscounted_tooMany (h : 2 < words.size) : Miscounted words .tooManyWords := by
  have hparse (t fetch parent) : parse t fetch parent words = .fail .tooManyWords := by
    rw [parse_eq, if_pos (Words.hasMoreThan_one_iff.mpr h)]
  exact ⟨rfl, hparse, fun t fetch c => c.parse_fail (hparse t fetch c.parent),
    ⟨fun _ => rfl, fun _ => h⟩, ⟨fun hfew => by omega, fun hmessage => absurd hmessage (by decide)⟩⟩

theorem miscounted_tooFew (h : words.size < 2) : Miscounted words .missingTarget := by
  have hparse (t fetch parent) : parse t fetch parent words = .fail .missingTarget := by
    rw [parse_eq, if_neg (by rw [Words.hasMoreThan_one_iff]; omega),
      if_neg (by rw [Words.has_one_iff]; omega)]
  exact ⟨rfl, hparse, fun t fetch c => c.parse_fail (hparse t fetch c.parent),
    ⟨fun hmany => by omega, fun hmessage => absurd hmessage (by decide)⟩, ⟨fun _ => rfl, fun _ => h⟩⟩

theorem exists_miscounted (h : words.size ≠ 2) : ∃ e, Miscounted words e := by
  rcases Nat.lt_or_gt_of_ne h with hfew | hmany
  · exact ⟨_, miscounted_tooFew hfew⟩
  · exact ⟨_, miscounted_tooMany hmany⟩

/-- Parsing fails over the grammar if and only if there are not two words, and then before anything is
asked, read or registered. A fetcher may fail as it likes, over the grammar too: that is explained as
a failure to resolve the target. -/
theorem parse_grammar_iff (t : FileTree) (fetch : Remote.Fetcher) (c : Context) (words : Words) :
    ((∃ e, (c.parse t fetch words).2 = .error e ∧ e.kind.isGrammar = true) ↔ words.size ≠ 2) ∧
    (words.size ≠ 2 → ∃ e, Miscounted words e) ∧
    ∀ keyword source d, words.toList = [keyword, source] → isRemote source = true →
      (fetch source).result = .error d → d.kind.isGrammar = true →
        (c.parse t fetch words).2 = .error (.failed source d) := by
  refine ⟨⟨?_, ?_⟩, exists_miscounted, ?_⟩
  · rintro ⟨e, h, hgrammar⟩ hsize
    obtain ⟨keyword, source, hwords⟩ := Words.size_eq_two_iff.mp hsize
    rw [Context.parse, parse_pair _ hwords] at h
    rw [grammatical_resolve t fetch c.parent source e h] at hgrammar
    cases hgrammar
  · intro hsize
    obtain ⟨e, he⟩ := exists_miscounted hsize
    exact ⟨e, congrArg Prod.snd (he.kept t fetch c), by rw [he.kind]; rfl⟩
  · intro keyword source d hwords hremote hd hgrammar
    rw [Context.parse, parse_pair _ hwords]
    rw [(resolve_unfetched hremote hd c.parent).1,
      Remote.explain_of_explained (Kind.isExplained_of_isGrammar hgrammar)]

/-- A failure below those over the grammar, raised by the network. -/
def dialect : Remote.Failure := .raised (.derived "DialectError" .grammar) "no such dialect"

theorem parse_grammar_iff_dialect :
    (Context.parse ⟨none, []⟩ default (Remote.direct [("https://h/a", .failure dialect)])
      ⟨["!include", "https://h/a"]⟩).2 = .error (.failed "https://h/a" (.remote dialect)) ∧
    dialect.kind.isGrammar = true ∧
    (¬∃ e, (Context.parse ⟨none, []⟩ default (Remote.direct [("https://h/a", .failure dialect)])
      ⟨["!include", "https://h/a"]⟩).2 = .error e ∧ e.kind.isGrammar = true) ∧
    ∃ e, Miscounted ⟨["!include", "https://h/a", "b"]⟩ e := by
  have htwo := parse_grammar_iff default (Remote.direct [("https://h/a", .failure dialect)])
    ⟨none, []⟩ ⟨["!include", "https://h/a"]⟩
  have hthree := parse_grammar_iff default (Remote.direct []) ⟨none, []⟩
    ⟨["!include", "https://h/a", "b"]⟩
  exact ⟨htwo.2.2 _ _ _ rfl rfl rfl rfl, rfl, fun h => htwo.1.mp h rfl, hthree.2.1 (by decide)⟩

end Include

end Splice
