import Mathlib.Data.Bool.Basic
import Splice.Proofs.FileTree.Approach
import Splice.Proofs.FileTree.Names
import Splice.Proofs.FileTree.Walk

namespace Splice.FileTree

variable {t : FileTree} {p : Path} {l : Location}

/-- A path leads to a place, and `left` more links might be followed from there. -/
def Leads (t : FileTree) (p : Path) (l : Location) (left : Nat) : Prop :=
  hasNul p = false ∧ tooLong p = false ∧
    walkLeft t.root mostLinks (t.start p) p.parts = .ok (l, left)

theorem Leads.unique {l' : Location} {left left' : Nat} (h : Leads t p l left)
    (h' : Leads t p l' left') : l = l' ∧ left = left' := by
  have heq := h.2.2.symm.trans h'.2.2
  simpa using heq

theorem find_ok_iff : t.find p = .ok l ↔ ∃ left, Leads t p l left := by
  unfold find Leads
  cases hnul : hasNul p with
  | true => simp
  | false =>
      cases hlong : tooLong p with
      | true => simp
      | false =>
          rw [if_neg Bool.false_ne_true, if_neg Bool.false_ne_true, walk_eq, Results.mapError_ok_iff,
            Results.map_ok_iff]
          simp

theorem find_eq (hnul : hasNul p = false) (hlong : tooLong p = false) :
    t.find p = (walk t.root mostLinks (t.start p) p.parts).mapError (.refused · p.text) := by
  rw [find, hnul, hlong, if_neg Bool.false_ne_true, if_neg Bool.false_ne_true]

theorem find_of_walkFor (n : Nat) (hnul : hasNul p = false) (hlong : tooLong p = false)
    (h : walkFor t.root mostLinks (t.start p) n p.parts = some (.ok l)) : t.find p = .ok l := by
  rw [find_eq hnul hlong, walk_of_walkFor h]
  rfl

theorem find_of_walkFor_error {why : Refusal} (n : Nat) (hnul : hasNul p = false)
    (hlong : tooLong p = false)
    (h : walkFor t.root mostLinks (t.start p) n p.parts = some (.error why)) :
    t.find p = .error (.refused why p.text) := by
  rw [find_eq hnul hlong, walk_of_walkFor h]
  rfl

theorem find_tooLong (hnul : hasNul p = false) (hlong : tooLong p = true) :
    t.find p = .error (.refused .nameTooLong p.text) := by
  rw [find, hnul, hlong, if_neg Bool.false_ne_true, if_pos rfl]

theorem find_error {e : Fault} (h : t.find p = .error e) :
    e = .embeddedNul ∨ ∃ why, e = .refused why p.text ∧
      (why = .absent ∨ why = .notDirectory ∨ why = .nameTooLong ∨ why = .tooManyLinks) := by
  unfold find at h
  split at h
  · exact .inl (Except.error.inj h).symm
  · split at h
    · exact .inr ⟨.nameTooLong, (Except.error.inj h).symm, .inr (.inr (.inl rfl))⟩
    · rw [walk_eq] at h
      cases hw : walkLeft t.root mostLinks (t.start p) p.parts with
      | ok r => rw [hw] at h; cases h
      | error why =>
          rw [hw] at h
          exact .inr ⟨why, (Except.error.inj h).symm, walkLeft_error hw⟩

theorem hasNul_child (p : Path) (name : String) :
    hasNul (p.child name) = (hasNul p || name.toList.contains '\x00') := by
  simp only [hasNul, Path.child, List.any_append, List.any_cons, List.any_nil, Bool.or_false]

theorem tooLong_eq_false_iff : tooLong p = false ↔ p.text.utf8ByteSize ≤ longestPath := by
  rw [tooLong, decide_eq_false_iff_not, Nat.not_lt]

theorem text_child (h : p.parts ≠ []) (name : String) :
    (p.child name).text = p.text ++ "/" ++ name := by
  have hchild : (p.child name).parts ≠ [] := List.append_ne_nil_of_left_ne_nil h [name]
  rw [Path.text, Path.text, if_neg fun hempty => hchild hempty.2, if_neg fun hempty => h hempty.2]
  show p.anchor.text ++ "/".intercalate (p.parts ++ [name]) = _
  rw [String.intercalate_append_of_ne_nil h (List.cons_ne_nil _ _), String.intercalate_singleton]
  simp only [String.append_assoc]

theorem tooLong_of_child {name : String} (h : tooLong (p.child name) = false) :
    tooLong p = false := by
  by_cases hparts : p.parts = []
  · -- Without names, a path is its anchor or a dot.
    obtain ⟨anchor, parts⟩ := p
    obtain rfl : parts = [] := hparts
    cases anchor <;> decide
  · rw [tooLong_eq_false_iff, text_child hparts, String.utf8ByteSize_append,
      String.utf8ByteSize_append] at h
    rw [tooLong_eq_false_iff]
    omega

theorem leads_child {name : String} {left : Nat} :
    Leads t (p.child name) l left ↔ tooLong (p.child name) = false ∧ ∃ here links,
      Leads t p here links ∧ name.toList.contains '\x00' = false ∧
        walkLeft t.root links here [name] = .ok (l, left) := by
  have hparts : (p.child name).parts = p.parts ++ [name] := rfl
  have hstart : t.start (p.child name) = t.start p := rfl
  unfold Leads
  rw [hasNul_child, hparts, hstart, walkLeft_append]
  constructor
  · rintro ⟨hnul, hlong, hw⟩
    obtain ⟨hp, hname⟩ := Bool.or_eq_false_iff.mp hnul
    cases hr : walkLeft t.root mostLinks (t.start p) p.parts with
    | error why => rw [hr] at hw; cases hw
    | ok r =>
        rw [hr] at hw
        exact ⟨hlong, r.1, r.2, ⟨hp, tooLong_of_child hlong, rfl⟩, hname, hw⟩
  · rintro ⟨hlong, here, links, ⟨hp, _, hr⟩, hname, hw⟩
    rw [hr]
    exact ⟨Bool.or_eq_false_iff.mpr ⟨hp, hname⟩, hlong, hw⟩

theorem leadsTo_eq {n : Node} (hl : t.find p = .ok l) (hn : t.node? l = some n)
    (test : Node → Bool) : t.leadsTo test p = .ok (test n) := by
  rw [leadsTo, hl]
  dsimp only
  rw [hn]
  rfl

theorem leadsTo_lost {e : Fault} (h : t.find p = .error e) (test : Node → Bool) :
    t.leadsTo test p = if isAbsence e then .ok false else .error e := by
  rw [leadsTo, h]

/-- Only a name that is too long leaves a question about a path without an answer. -/
theorem leadsTo_error {test : Node → Bool} {e : Fault} (h : t.leadsTo test p = .error e) :
    e = .refused .nameTooLong p.text ∧ t.find p = .error e := by
  cases hf : t.find p with
  | ok l => rw [leadsTo, hf] at h; cases h
  | error d =>
      rw [leadsTo_lost hf] at h
      by_cases habsent : isAbsence d = true
      · rw [if_pos habsent] at h
        cases h
      · rw [if_neg habsent] at h
        cases h
        rcases find_error hf with rfl | ⟨why, rfl, rfl | rfl | rfl | rfl⟩
        · exact absurd rfl habsent
        · exact absurd rfl habsent
        · exact absurd rfl habsent
        · exact ⟨rfl, rfl⟩
        · exact absurd rfl habsent

theorem leadsTo_true_iff {test : Node → Bool} : t.leadsTo test p = .ok true ↔
    ∃ l n, t.find p = .ok l ∧ t.node? l = some n ∧ test n = true := by
  constructor
  · intro h
    cases hf : t.find p with
    | error e =>
        rw [leadsTo_lost hf] at h
        split at h
        all_goals cases h
    | ok l =>
        rw [leadsTo, hf] at h
        obtain ⟨n, hn, htest⟩ := (Option.any_eq_true _ _).mp (Except.ok.inj h)
        exact ⟨l, n, rfl, hn, htest⟩
  · rintro ⟨l, n, hl, hn, htest⟩
    rw [leadsTo_eq hl hn, htest]

theorem contains_true_iff : t.contains p = .ok true ↔
    ∃ l n, t.find p = .ok l ∧ t.node? l = some n := by
  unfold contains
  rw [leadsTo_true_iff]
  simp only [and_true]

theorem isDirectory_true_iff : t.isDirectory p = .ok true ↔
    ∃ l es, t.find p = .ok l ∧ t.node? l = some (.directory es) := by
  unfold isDirectory
  rw [leadsTo_true_iff]
  constructor
  · rintro ⟨l, n, hl, hn, htest⟩
    cases n with
    | file | link => cases htest
    | directory es => exact ⟨l, es, hl, hn⟩
  · rintro ⟨l, es, hl, hn⟩
    exact ⟨l, _, hl, hn, rfl⟩

theorem bytes_eq {bs : List UInt8} (hl : t.find p = .ok l) (hbs : t.node? l = some (.file bs)) :
    t.bytes p = .ok bs := by
  simp only [bytes, hl, bind, Except.bind, hbs]
  rfl

theorem bytes_ok {bs : List UInt8} (hl : t.find p = .ok l) (h : t.bytes p = .ok bs) :
    t.node? l = some (.file bs) := by
  simp only [bytes, hl, bind, Except.bind] at h
  split at h
  · rename_i hn
    cases h
    exact hn
  · cases h

theorem bytes_error {e : Fault} (hl : t.find p = .ok l) (h : t.bytes p = .error e) :
    e = .refused .isDirectory p.text := by
  simp only [bytes, hl, bind, Except.bind] at h
  split at h
  · cases h
  · exact (Except.error.inj h).symm

theorem contents_of_find (hl : t.find p = .ok l) : t.contents p =
    if t.unreadable.contains l then .error (.refused .denied p.text) else t.bytes p := by
  rw [contents, hl]
  show (if t.unreadable.contains l then _ else _) = _
  split
  · rfl
  · rfl

theorem contents_eq {bs : List UInt8} (hl : t.find p = .ok l) (hbs : t.node? l = some (.file bs))
    (hreadable : t.unreadable.contains l = false) : t.contents p = .ok bs := by
  rw [contents_of_find hl, hreadable, if_neg Bool.false_ne_true, bytes_eq hl hbs]

theorem contents_lost {e : Fault} (h : t.find p = .error e) : t.contents p = .error e := by
  rw [contents, h]
  rfl

theorem contents_ok {bs : List UInt8} (h : t.contents p = .ok bs) :
    ∃ l, t.find p = .ok l ∧ t.unreadable.contains l = false ∧ t.node? l = some (.file bs) := by
  cases hl : t.find p with
  | error e => rw [contents_lost hl] at h; cases h
  | ok l =>
      rw [contents_of_find hl] at h
      split at h
      · cases h
      · rename_i hreadable
        exact ⟨l, rfl, Bool.eq_false_of_not_eq_true hreadable, bytes_ok hl h⟩

/-- What is found has no contents if it may not be read or is no file. -/
theorem contents_error {e : Fault} (hl : t.find p = .ok l) (h : t.contents p = .error e) :
    (t.unreadable.contains l = true ∧ e = .refused .denied p.text) ∨
      (t.unreadable.contains l = false ∧ e = .refused .isDirectory p.text) := by
  rw [contents_of_find hl] at h
  split at h
  · rename_i hdenied
    exact .inl ⟨hdenied, (Except.error.inj h).symm⟩
  · rename_i hreadable
    exact .inr ⟨Bool.eq_false_of_not_eq_true hreadable, bytes_error hl h⟩

theorem read_eq {bs : List UInt8} {cs : List Char} (hl : t.find p = .ok l)
    (hbs : t.node? l = some (.file bs)) (hreadable : t.unreadable.contains l = false)
    (hcs : Text.Utf8.decode bs = .ok cs) :
    t.read p = .ok (String.ofList (Text.unifyLineEnds cs)) := by
  rw [read, contents_eq hl hbs hreadable]
  show (Text.Utf8.decode bs).mapError Fault.undecodable >>= _ = _
  rw [hcs]
  rfl

theorem read_lost {e : Fault} (h : t.find p = .error e) : t.read p = .error e := by
  rw [read, contents_lost h]
  rfl

theorem read_ok {text : String} (h : t.read p = .ok text) :
    ∃ l bs cs, t.find p = .ok l ∧ t.node? l = some (.file bs) ∧ t.unreadable.contains l = false ∧
      Text.Utf8.decode bs = .ok cs ∧ text = String.ofList (Text.unifyLineEnds cs) := by
  cases hbs : t.contents p with
  | error e => rw [read, hbs] at h; cases h
  | ok bs =>
      rw [read, hbs] at h
      change (Text.Utf8.decode bs).mapError Fault.undecodable >>= _ = _ at h
      obtain ⟨l, hl, hreadable, hn⟩ := contents_ok hbs
      cases hcs : Text.Utf8.decode bs with
      | error why => rw [hcs] at h; cases h
      | ok cs =>
          rw [hcs] at h
          exact ⟨l, bs, cs, hl, hn, hreadable, hcs, (Except.ok.inj h).symm⟩

theorem list_eq {es : List (String × Node)} (hl : t.find p = .ok l)
    (hes : t.node? l = some (.directory es)) :
    t.list p = if t.unlistable.contains l then .error (.refused .denied p.text)
      else .ok (es.map Prod.fst) := by
  have hentries : t.entries p = .ok es := by
    simp only [entries, hl, bind, Except.bind, hes]
    rfl
  unfold list
  rw [hl, hentries]
  show (if t.unlistable.contains l then _ else _) = _
  split
  · rfl
  · rfl

theorem lists_iff {names : List String} : t.isDirectory p = .ok true ∧ t.list p = .ok names ↔
    ∃ l es, t.find p = .ok l ∧ t.node? l = some (.directory es) ∧
      t.unlistable.contains l = false ∧ names = es.map Prod.fst := by
  rw [isDirectory_true_iff]
  constructor
  · rintro ⟨⟨l, es, hl, hes⟩, hnames⟩
    rw [list_eq hl hes] at hnames
    split at hnames
    · cases hnames
    · rename_i hlistable
      exact ⟨l, es, hl, hes, by simpa using hlistable, (Except.ok.inj hnames).symm⟩
  · rintro ⟨l, es, hl, hes, hlistable, rfl⟩
    refine ⟨⟨l, es, hl, hes⟩, ?_⟩
    rw [list_eq hl hes, hlistable]
    rfl

theorem hasNul_of_find (h : t.find p = .error .embeddedNul) : hasNul p = true := by
  unfold find at h
  split at h
  · assumption
  · split at h
    · cases h
    · rw [walk_eq] at h
      cases hw : walkLeft t.root mostLinks (t.start p) p.parts with
      | ok r => rw [hw] at h; cases h
      | error why => rw [hw] at h; cases h

theorem hasNul_of_read (h : t.read p = .error .embeddedNul) : hasNul p = true := by
  cases hf : t.find p with
  | error e =>
      rw [read_lost hf] at h
      cases h
      exact hasNul_of_find hf
  | ok l =>
      cases hbs : t.contents p with
      | error e =>
          rw [read, hbs] at h
          cases h
          obtain ⟨-, h⟩ | ⟨-, h⟩ := contents_error hf hbs <;> cases h
      | ok bs =>
          rw [read, hbs] at h
          change (Text.Utf8.decode bs).mapError Fault.undecodable >>= _ = _ at h
          cases hd : Text.Utf8.decode bs with
          | ok cs => rw [hd] at h; cases h
          | error why => rw [hd] at h; cases h

theorem leads_child_fewer {q : Path} {name : String} {left fewer : Nat} (hle : fewer ≤ left)
    (hp : Leads t p l left) (hq : Leads t q l fewer) {l' : Location} {left' : Nat}
    (hp' : Leads t (p.child name) l' left') (hq' : ∃ l'' left'', Leads t (q.child name) l'' left'') :
    ∃ fewer' ≤ left', Leads t (q.child name) l' fewer' := by
  obtain ⟨_, here, links, hhere, hnul, hw⟩ := leads_child.mp hp'
  obtain ⟨rfl, rfl⟩ := hhere.unique hp
  obtain ⟨l'', left'', hq'⟩ := hq'
  obtain ⟨hshort, there, few, hthere, _, hfound⟩ := leads_child.mp hq'
  obtain ⟨rfl, rfl⟩ := hthere.unique hq
  rcases walkLeft_fewer hle hw with herror | ⟨fewer', hle', hw'⟩
  · rw [herror] at hfound
    cases hfound
  · exact ⟨fewer', hle', leads_child.mpr ⟨hshort, _, _, hq, hnul, hw'⟩⟩

/-- How many directories may still be entered one below the other from a place: down to the leaves of
the tree, and as far again for every link. -/
def descent (t : FileTree) (l : Location) (left : Nat) : Nat :=
  left * (t.root.depth + 1) + (t.root.depth - l.length)

theorem descent_child {name : String} (hname : Node.isName name = true) {left left' : Nat}
    {l' : Location} (h : Leads t p l left) (h' : Leads t (p.child name) l' left')
    {es : List (String × Node)} (hes : t.node? l' = some (.directory es)) :
    descent t l' left' < descent t l left := by
  obtain ⟨_, here, links, hp, _, hw⟩ := leads_child.mp h'
  obtain ⟨rfl, rfl⟩ := hp.unique h
  have hdepth : l'.length < t.root.depth := Node.length_lt_depth hes
  unfold descent
  rcases walkLeft_name (Node.ne_dot_of_isName hname) (Node.ne_dots_of_isName hname) hw with
    heq | hlt
  · cases heq
    rw [List.length_append, List.length_singleton] at hdepth ⊢
    omega
  · have hmul : (left' + 1) * (t.root.depth + 1) ≤ links * (t.root.depth + 1) :=
      Nat.mul_le_mul_right _ hlt
    rw [Nat.add_mul, Nat.one_mul] at hmul
    omega

theorem resolve_eq {place : Location} (hplace : t.canonical p = .ok place)
    (hl : t.find (pathTo place) = .ok l) : t.resolve p = .ok (pathTo place) := by
  rw [resolve, hplace]
  simp only [bind, Except.bind, hl]
  rfl

end Splice.FileTree
