import Splice.Proofs.FileTree.Places
import Splice.Proofs.Outcome.Results

namespace Splice

/-- The places that lie in an entry of that name, as they are seen from the entry. -/
def Location.within (name : String) (places : List Location) : List Location :=
  places.filterMap fun
    | first :: rest => if first = name then some rest else none
    | [] => none

/-- The places that lie at or below `l`, as they are seen from there. -/
def Location.below (places : List Location) : Location → List Location
  | [] => places
  | name :: rest => below (within name places) rest

/-- `l` does not lie inside one of the places, though it may be one of them. -/
def Location.Outside (places : List Location) (l : Location) : Prop :=
  ∀ place ∈ places, place <+: l → place = l

namespace Node

mutual
/-- Delete what lies inside the directories at the given places. -/
def emptied : Node → List Location → Node
  | .file bytes, _ => .file bytes
  | .link target, _ => .link target
  | .directory es, places => .directory (if [] ∈ places then [] else emptiedAll es places)

def emptiedAll : List (String × Node) → List Location → List (String × Node)
  | [], _ => []
  | (name, n) :: es, places =>
    (name, n.emptied (Location.within name places)) :: emptiedAll es places
end

end Node

namespace FileTree

/-- The tree in which the directories at the given places may not be listed. -/
def denying (t : FileTree) (places : List Location) : FileTree :=
  { t with unlistable := t.unlistable ++ places }

/-- The tree in which the directories at the given places are empty, and may be listed. -/
def emptied (t : FileTree) (places : List Location) : FileTree :=
  { t with
    root := t.root.emptied places
    unlistable := t.unlistable.filter (· ∉ places) }

end FileTree

namespace Location

variable {places : List Location} {l m : Location} {name : String}

theorem mem_within_iff : l ∈ within name places ↔ name :: l ∈ places := by
  simp only [within, List.mem_filterMap]
  constructor
  · rintro ⟨place, hplace, h⟩
    cases place with
    | nil => cases h
    | cons first rest =>
        obtain ⟨rfl, rfl⟩ : first = name ∧ rest = l := by simpa using h
        exact hplace
  · intro h
    exact ⟨name :: l, h, by simp⟩

theorem mem_below_iff : m ∈ below places l ↔ l ++ m ∈ places := by
  induction l generalizing places with
  | nil => rfl
  | cons name rest ih => rw [below, ih, mem_within_iff, List.cons_append]

theorem Outside.within (h : Outside places (name :: l)) : Outside (within name places) l := by
  intro place hplace hprefix
  have hwhole := h _ (mem_within_iff.mp hplace) (List.cons_prefix_cons.mpr ⟨rfl, hprefix⟩)
  exact (List.cons.inj hwhole).2

theorem Outside.nil_not_mem (h : Outside places (name :: l)) : [] ∉ places := by
  intro hmem
  cases h [] hmem (List.nil_prefix)

theorem outside_child (h : Outside places l) (hl : l ∉ places) (name : String) :
    Outside places (l ++ [name]) := by
  intro place hplace hprefix
  rcases List.prefix_concat_iff.mp hprefix with heq | hprefix
  · exact heq
  · exact absurd (h place hplace hprefix ▸ hplace) hl

end Location

namespace Node

open Location

variable {places : List Location}

theorem emptiedAll_names (es : List (String × Node)) (places : List Location) :
    (emptiedAll es places).map Prod.fst = es.map Prod.fst := by
  induction es with
  | nil => rfl
  | cons e es ih => rw [emptiedAll, List.map_cons, List.map_cons, ih]

theorem lookup_emptiedAll (es : List (String × Node)) (places : List Location) (name : String) :
    (emptiedAll es places).lookup name =
      (es.lookup name).map (·.emptied (within name places)) := by
  induction es with
  | nil => rfl
  | cons e es ih =>
      rw [emptiedAll, List.lookup_cons, List.lookup_cons]
      split
      · rename_i heq
        rw [beq_iff_eq.mp heq]
        rfl
      · exact ih

theorem at?_emptied {l : Location} (h : Outside places l) (n : Node) :
    (n.emptied places).at? l = (n.at? l).map (·.emptied (below places l)) := by
  induction l generalizing n places with
  | nil => rfl
  | cons name rest ih =>
      cases n with
      | file | link => rfl
      | directory es =>
          rw [emptied, if_neg h.nil_not_mem, at?, at?, lookup_emptiedAll]
          cases es.lookup name with
          | none => rfl
          | some m => exact ih h.within m

mutual
theorem wellNamed_emptied : ∀ (n : Node) (places : List Location), n.wellNamed = true →
    (n.emptied places).wellNamed = true
  | .file _, _, _ => rfl
  | .link _, _, _ => rfl
  | .directory es, places, h => by
      rw [emptied]
      split
      · rfl
      · exact wellNamedAll_emptiedAll es places h

theorem wellNamedAll_emptiedAll : ∀ (es : List (String × Node)) (places : List Location),
    wellNamedAll es = true → wellNamedAll (emptiedAll es places) = true
  | [], _, _ => rfl
  | (name, n) :: es, places, h => by
      obtain ⟨hname, hnew, hn, hes⟩ := wellNamedAll_cons h
      simp only [emptiedAll, wellNamedAll, Bool.and_eq_true, Bool.not_eq_true', emptiedAll_names]
      exact ⟨⟨⟨hname, by simpa using hnew⟩, wellNamed_emptied n _ hn⟩,
        wellNamedAll_emptiedAll es places hes⟩
end

end Node

namespace FileTree

open Location

variable {t : FileTree} {places : List Location} {p : Path} {l here : Location} {name : String}

theorem node?_emptied (h : Outside places l) :
    (t.emptied places).node? l = (t.node? l).map (·.emptied (below places l)) :=
  Node.at?_emptied h t.root

theorem node?_emptied_mem (h : Outside places l) (hl : l ∈ places) {es : List (String × Node)}
    (hes : t.node? l = some (.directory es)) :
    (t.emptied places).node? l = some (.directory []) := by
  have hself : [] ∈ below places l := mem_below_iff.mpr (by rwa [List.append_nil])
  rw [node?_emptied h, hes, Option.map_some, Node.emptied, if_pos hself]

theorem node?_emptied_kept (h : Outside places l) (hl : l ∉ places) {es : List (String × Node)}
    (hes : t.node? l = some (.directory es)) : (t.emptied places).node? l =
      some (.directory (Node.emptiedAll es (below places l))) := by
  have hself : [] ∉ below places l := fun hmem => hl (by simpa using mem_below_iff.mp hmem)
  rw [node?_emptied h, hes, Option.map_some, Node.emptied, if_neg hself]

theorem node?_emptied_leaf (h : Outside places l) {n : Node} (hn : t.node? l = some n)
    (hleaf : ∀ es, n ≠ .directory es) : (t.emptied places).node? l = some n := by
  rw [node?_emptied h, hn]
  cases n with
  | file | link => rfl
  | directory es => exact absurd rfl (hleaf es)

theorem node?_emptied_none (h : Outside places l) (hn : t.node? l = none) :
    (t.emptied places).node? l = none := by
  rw [node?_emptied h, hn]
  rfl

/-- Whatever the path goes through lies outside the places, as far as it leads anywhere. -/
def Avoids (t : FileTree) (places : List Location) (p : Path) : Prop :=
  ∀ names l, names <+: p.parts → walk t.root mostLinks (t.start p) names = .ok l → Outside places l

theorem step_linkless (hlinks : t.root.links = 0) {links : Nat} {s : Step}
    (h : step t.root links here name = .ok s) : s.links = links ∧ s.names = [] := by
  obtain ⟨es, hes, hs⟩ := step_ok_iff.mp h
  cases hs with
  | stay | up | down => exact ⟨rfl, rfl⟩
  | follow links name target hdot hdots hshort hlook =>
      have hzero := Node.links_eq_zero_of_lookup (Node.links_eq_zero_of_at? hlinks hes) hlook
      cases hzero

theorem stepIn_emptied {es es' : List (String × Node)} (below : List Location)
    (h : name ≠ "." → name ≠ ".." → name.utf8ByteSize ≤ longestName →
      es'.lookup name = (es.lookup name).map (·.emptied below)) (links : Nat) :
    stepIn es' links here name = stepIn es links here name := by
  unfold stepIn
  split
  · rfl
  · rename_i hdot
    split
    · rfl
    · rename_i hdots
      split
      · rfl
      · rename_i hlong
        rw [h hdot hdots (Nat.le_of_not_lt hlong)]
        cases es.lookup name with
        | none => rfl
        | some n => cases n <;> rfl

theorem lookup_of_emptied (hlinks : t.root.links = 0) {links : Nat} {es : List (String × Node)}
    (hes : t.root.at? here = some (.directory es)) (hmem : here ∈ places)
    (hnext : ∀ s, step t.root links here name = .ok s → Outside places s.place)
    (hdot : name ≠ ".") (hdots : name ≠ "..") (hshort : name.utf8ByteSize ≤ longestName) :
    es.lookup name = none := by
  by_contra hlook
  obtain ⟨n, hn⟩ := Option.ne_none_iff_exists'.mp hlook
  have hlink : ∀ target, n ≠ .link target := by
    rintro target rfl
    have hzero := Node.links_eq_zero_of_lookup (Node.links_eq_zero_of_at? hlinks hes) hn
    cases hzero
  have hstep := step_ok_iff.mpr ⟨es, hes, .down links name n hdot hdots hshort hn hlink⟩
  have hself : here = here ++ [name] := hnext _ hstep here hmem (List.prefix_append here [name])
  simp at hself

theorem step_emptied (hlinks : t.root.links = 0) {links : Nat} (hhere : Outside places here)
    (hnext : ∀ s, step t.root links here name = .ok s → Outside places s.place) :
    step (t.emptied places).root links here name = step t.root links here name := by
  have hnode : ∀ n, (t.emptied places).node? here = n → (t.emptied places).root.at? here = n :=
    fun _ h => h
  cases hn : t.root.at? here with
  | none =>
      rw [step, step, hn, hnode _ (node?_emptied_none hhere hn)]
  | some n =>
      cases n with
      | file | link =>
          rw [step, step, hn, hnode _ (node?_emptied_leaf hhere hn (by rintro _ ⟨⟩))]
      | directory es =>
          -- An emptied directory held nothing of that name: the step would have led inside it.
          by_cases hmem : here ∈ places
          · have hlook := lookup_of_emptied hlinks hn hmem hnext
            rw [step, step, hn, hnode _ (node?_emptied_mem hhere hmem hn)]
            refine stepIn_emptied [] (fun hdot hdots hshort => ?_) links
            rw [hlook hdot hdots hshort]
            rfl
          · rw [step, step, hn, hnode _ (node?_emptied_kept hhere hmem hn)]
            exact stepIn_emptied _ (fun _ _ _ => Node.lookup_emptiedAll es _ name) links

theorem walk_emptied (hlinks : t.root.links = 0) {links : Nat} {names : List String}
    (h : ∀ before l, before <+: names → walk t.root links here before = .ok l → Outside places l) :
    walk (t.emptied places).root links here names = walk t.root links here names := by
  induction names generalizing here with
  | nil => rw [walk_nil, walk_nil]
  | cons name rest ih =>
      have hstays {s : Step} (hs : step t.root links here name = .ok s) (before : List String) :
          walk t.root links here (name :: before) = walk t.root links s.place before := by
        obtain ⟨hleft, hnames⟩ := step_linkless hlinks hs
        rw [walk_cons, hs]
        show walk t.root s.links s.place (s.names ++ before) = _
        rw [hleft, hnames, List.nil_append]
      have hnext : ∀ s, step t.root links here name = .ok s → Outside places s.place := by
        intro s hs
        refine h [name] s.place (List.cons_prefix_cons.mpr ⟨rfl, List.nil_prefix⟩) ?_
        rw [hstays hs, walk_nil]
      have hstep := step_emptied hlinks (h [] here List.nil_prefix (walk_nil _ _)) hnext
      rw [walk_cons, walk_cons, hstep]
      cases hs : step t.root links here name with
      | error e => rfl
      | ok s =>
          obtain ⟨hleft, hnames⟩ := step_linkless hlinks hs
          show walk _ s.links s.place (s.names ++ rest) = walk _ s.links s.place (s.names ++ rest)
          rw [hleft, hnames, List.nil_append]
          refine ih ?_
          intro before l hbefore hl
          exact h (name :: before) l (List.cons_prefix_cons.mpr ⟨rfl, hbefore⟩)
            ((hstays hs before).trans hl)

theorem find_emptied (hlinks : t.root.links = 0) (h : Avoids t places p) :
    (t.emptied places).find p = t.find p := by
  have hwalk := walk_emptied hlinks h
  have hstart : (t.emptied places).start p = t.start p := rfl
  rw [find, find, hstart, hwalk]

theorem Avoids.outside (h : Avoids t places p) (hl : t.find p = .ok l) : Outside places l := by
  obtain ⟨left, hnul, hlong, hwalk⟩ := find_ok_iff.mp hl
  refine h p.parts l List.prefix_rfl ?_
  rw [walk_eq, hwalk]
  rfl

theorem walkLeft_name_linkless (hlinks : t.root.links = 0) (hname : Node.isName name = true)
    {links : Nat} {r : Location × Nat} (h : walkLeft t.root links here [name] = .ok r) :
    r = (here ++ [name], links) := by
  have hdown := walkLeft_name (Node.ne_dot_of_isName hname) (Node.ne_dots_of_isName hname) h
  refine hdown.resolve_right fun hlt => ?_
  cases hs : step t.root links here name with
  | error e => rw [walkLeft_cons_error hs] at h; cases h
  | ok s =>
      obtain ⟨hleft, hnames⟩ := step_linkless hlinks hs
      rw [walkLeft_cons_ok hs, hnames, List.append_nil, walkLeft_nil] at h
      cases h
      exact absurd hlt (by rw [hleft]; exact Nat.lt_irrefl links)

theorem Avoids.child (h : Avoids t places p) (hl : t.find p = .ok l) (hmem : l ∉ places)
    (hlinks : t.root.links = 0) (hname : Node.isName name = true) :
    Avoids t places (p.child name) := by
  intro names m hnames hm
  rcases List.prefix_concat_iff.mp hnames with rfl | hnames
  · obtain ⟨left, _, _, hwalk⟩ := find_ok_iff.mp hl
    have hstart : t.start (p.child name) = t.start p := rfl
    rw [hstart, walk_eq, walkLeft_append, hwalk] at hm
    obtain ⟨r, hr, rfl⟩ := Results.map_ok_iff.mp hm
    rw [walkLeft_name_linkless hlinks hname hr]
    exact outside_child (h.outside hl) hmem name
  · exact h names m hnames hm

/-- The path leads to one of the places. -/
def leadsInto (t : FileTree) (places : List Location) (p : Path) : Bool :=
  match t.find p with
  | .ok l => places.contains l
  | .error _ => false

theorem leadsInto_eq (hl : t.find p = .ok l) : t.leadsInto places p = places.contains l := by
  rw [leadsInto, hl]

theorem leadsInto_true_iff : t.leadsInto places p = true ↔ ∃ l ∈ places, t.find p = .ok l := by
  unfold leadsInto
  cases t.find p with
  | error e => simp
  | ok l => simp

theorem isDirectory_emptied (hlinks : t.root.links = 0) (h : Avoids t places p) :
    (t.emptied places).isDirectory p = (t.denying places).isDirectory p := by
  show (t.emptied places).isDirectory p = t.isDirectory p
  unfold isDirectory leadsTo
  rw [find_emptied hlinks h]
  cases hl : t.find p with
  | error e => rfl
  | ok l =>
      have hnode := node?_emptied (t := t) (h.outside hl)
      dsimp only
      rw [hnode]
      cases t.node? l with
      | none => rfl
      | some n => cases n <;> rfl

theorem read_emptied (hlinks : t.root.links = 0) (h : Avoids t places p) :
    (t.emptied places).read p = (t.denying places).read p := by
  show (t.emptied places).read p = t.read p
  have hbytes : (t.emptied places).bytes p = t.bytes p := by
    unfold bytes
    rw [find_emptied hlinks h]
    cases hl : t.find p with
    | error e => rfl
    | ok l =>
        have hnode := node?_emptied (t := t) (h.outside hl)
        simp only [bind, Except.bind, hnode]
        cases t.node? l with
        | none => rfl
        | some n => cases n <;> rfl
  unfold FileTree.read contents
  rw [find_emptied hlinks h, hbytes]
  rfl

theorem list_emptied (hlinks : t.root.links = 0) (h : Avoids t places p)
    (hinto : t.leadsInto places p = false) :
    (t.emptied places).list p = (t.denying places).list p := by
  have hfind := find_emptied hlinks h
  have hdenying : (t.denying places).find p = t.find p := rfl
  unfold list entries
  rw [hfind, hdenying]
  cases hl : t.find p with
  | error e => rfl
  | ok l =>
      rw [leadsInto_eq hl] at hinto
      have hmem : l ∉ places := by simpa using hinto
      have hnode := node?_emptied (t := t) (h.outside hl)
      have hsame : (t.denying places).node? l = t.node? l := rfl
      have hself : [] ∉ below places l := fun hin => hmem (by simpa using mem_below_iff.mp hin)
      have hlistable : (t.emptied places).unlistable.contains l =
          (t.denying places).unlistable.contains l := by
        simp [emptied, denying, hmem]
      simp only [bind, Except.bind, hnode, hsame, hlistable]
      cases t.node? l with
      | none => rfl
      | some n =>
          cases n with
          | file | link => rfl
          | directory es =>
              rw [Option.map_some, Node.emptied, if_neg hself]
              split
              · rfl
              · exact congrArg Except.ok (Node.emptiedAll_names es _)

end FileTree

end Splice
