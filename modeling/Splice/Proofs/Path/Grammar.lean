import Splice.Proofs.Path.Written

namespace Splice

/-- The anchor that a number of slashes at the front stands for. -/
def Anchor.ofSlashes : Nat → Anchor
  | 0 => .none
  | 2 => .doubleRoot
  | _ => .root

namespace Path

variable {s piece : List Char} {text : String} {names : List String} {p : Path}

/-- Here a name ends: the text does, or a slash follows. -/
def Parted (s : List Char) : Prop := ∀ c ∈ s.head?, c = '/'

/-- A row of characters and the names that it writes. Slashes part them, any number of slashes as one
does, and a dot alone is no name. -/
inductive Names : List Char → List String → Prop
  | nil : Names [] []
  | slash (s : List Char) (names : List String) (rest : Names s names) : Names ('/' :: s) names
  | dot (s : List Char) (names : List String) (parted : Parted s) (rest : Names s names) :
      Names ('.' :: s) names
  | name (first : String) (s : List Char) (names : List String) (proper : isPart first = true)
      (parted : Parted s) (rest : Names s names) : Names (first.toList ++ s) (first :: names)

/-- A text and the path that it writes: slashes for the anchor, and names. -/
inductive Reads : String → Path → Prop
  | mk (slashes : Nat) (s : List Char) (names : List String) (front : s.head? ≠ some '/')
      (written : Names s names) :
      Reads (String.ofList (List.replicate slashes '/' ++ s)) ⟨.ofSlashes slashes, names⟩

/-! ### Names -/

theorem partsOf_slash (s : List Char) : partsOf ('/' :: s) = partsOf s := partsOf_slashes 1 s

theorem partsOf_append_parted (piece : List Char) (hs : Parted s) :
    partsOf (piece ++ s) = partsOf piece ++ partsOf s := by
  cases s with
  | nil => rw [List.append_nil]; exact (List.append_nil _).symm
  | cons c s =>
      obtain rfl := hs c rfl
      rw [partsOf_slash, partsOf_append_cons]

theorem Names.partsOf_eq (h : Names s names) : partsOf s = names := by
  induction h with
  | nil => rfl
  | slash s names _ ih => rw [partsOf_slash, ih]
  | dot s names parted _ ih =>
      have hdot := partsOf_append_parted ['.'] parted
      rw [ih] at hdot
      exact hdot
  | name first s names proper parted _ ih =>
      rw [partsOf_append_parted first.toList parted, partsOf_part proper, ih]
      rfl

theorem names_piece (hpiece : '/' ∉ piece) (parted : Parted s) (rest : Names s names) :
    Names (piece ++ s) (partsOf piece ++ names) := by
  by_cases hempty : piece = []
  · subst hempty
    exact rest
  by_cases hdot : piece = ['.']
  · subst hdot
    exact .dot s names parted rest
  · have hproper : isPart (String.ofList piece) = true := by
      refine isPart_iff.mpr ⟨?_, ?_, ?_⟩
      · exact fun h => hempty (by simpa using congrArg String.toList h)
      · exact fun h => hdot (by simpa using congrArg String.toList h)
      · rwa [String.toList_ofList]
    have hparts := partsOf_part hproper
    rw [String.toList_ofList] at hparts
    have hname := Names.name (String.ofList piece) s names hproper parted rest
    rw [String.toList_ofList] at hname
    rw [hparts]
    exact hname

theorem names_intercalate {pieces : List (List Char)} (h : ∀ piece ∈ pieces, '/' ∉ piece) :
    Names (['/'].intercalate pieces) (partsOf (['/'].intercalate pieces)) := by
  induction pieces with
  | nil => exact .nil
  | cons piece pieces ih =>
      obtain ⟨hpiece, hpieces⟩ := List.forall_mem_cons.mp h
      cases pieces with
      | nil =>
          have hlast := names_piece hpiece (by simp [Parted]) .nil
          rw [List.append_nil, List.append_nil] at hlast
          rwa [List.intercalate_singleton]
      | cons next pieces =>
          have hparted : Parted ('/' :: ['/'].intercalate (next :: pieces)) := by simp [Parted]
          have hfirst := names_piece hpiece hparted (.slash _ _ (ih hpieces))
          rw [← partsOf_slash (['/'].intercalate (next :: pieces)),
            ← partsOf_append_parted piece hparted] at hfirst
          rwa [List.intercalate_cons_cons, List.append_assoc]

theorem partsOf_eq_iff : partsOf s = names ↔ Names s names := by
  constructor
  · rintro rfl
    have hall := names_intercalate fun _ => Text.not_mem_of_mem_cut (c := '/') (s := s)
    rwa [Text.intercalate_cut] at hall
  · exact Names.partsOf_eq

/-! ### Anchors -/

theorem anchorOf_slashes (n : Nat) (hs : s.head? ≠ some '/') :
    anchorOf (List.replicate n '/' ++ s) = .ofSlashes n := by
  match n with
  | 0 => exact anchorOf_append hs .none
  | 1 => exact anchorOf_append hs .root
  | 2 => exact anchorOf_append hs .doubleRoot
  | n + 3 => rfl

theorem exists_slashes (s : List Char) :
    ∃ n rest, s = List.replicate n '/' ++ rest ∧ rest.head? ≠ some '/' := by
  induction s with
  | nil => exact ⟨0, [], rfl, by simp⟩
  | cons c s ih =>
      by_cases hc : c = '/'
      · obtain ⟨n, rest, rfl, hrest⟩ := ih
        exact ⟨n + 1, rest, by rw [hc, List.replicate_succ, List.cons_append], hrest⟩
      · exact ⟨0, c :: s, rfl, by simpa using hc⟩

theorem ofText_eq_iff : ofText text = p ↔ Reads text p := by
  constructor
  · rintro rfl
    obtain ⟨n, rest, htext, hrest⟩ := exists_slashes text.toList
    have hreads := Reads.mk n rest (partsOf rest) hrest (partsOf_eq_iff.mp rfl)
    rw [← htext, String.ofList_toList] at hreads
    rwa [ofText, htext, anchorOf_slashes n hrest, partsOf_slashes]
  · rintro ⟨n, rest, names, hrest, hnames⟩
    rw [ofText, String.toList_ofList, anchorOf_slashes n hrest, partsOf_slashes, hnames.partsOf_eq]

theorem parts_ofText_slashes (n : Nat) (text : String) :
    (ofText (String.ofList (List.replicate n '/') ++ text)).parts = (ofText text).parts := by
  rw [ofText, String.toList_append, String.toList_ofList]
  exact partsOf_slashes n text.toList

/-! ### Joining -/

/-- Texts taken in turn from a directory; each is read by itself, and one that starts from a root
leaves what stands before it. -/
def joined (p : Path) (texts : List String) : Path := texts.foldl (fun p s => p.append (ofText s)) p

theorem ofText_part {name : String} (h : isPart name = true) : ofText name = ⟨.none, [name]⟩ := by
  have hslash : name.toList.head? ≠ some '/' := by
    intro hhead
    exact (isPart_iff.mp h).2.2 (List.mem_of_mem_head? hhead)
  have hanchor : anchorOf name.toList = .none := anchorOf_slashes 0 hslash
  rw [ofText, hanchor, partsOf_part h]

theorem joined_parts (p : Path) (h : ∀ s ∈ names, isPart s = true) :
    p.joined names = { p with parts := p.parts ++ names } := by
  induction names generalizing p with
  | nil =>
      rw [List.append_nil]
      rfl
  | cons name names ih =>
      obtain ⟨hname, hnames⟩ := List.forall_mem_cons.mp h
      have hstep : p.append (ofText name) = { p with parts := p.parts ++ [name] } := by
        rw [ofText_part hname]
        rfl
      have htail := ih { p with parts := p.parts ++ [name] } hnames
      rw [List.append_assoc, List.singleton_append] at htail
      rw [joined, List.foldl_cons, hstep]
      exact htail

end Path

end Splice
