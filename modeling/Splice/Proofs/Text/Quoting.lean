import Splice.Proofs.Text.Hex
import Splice.Text.Quoted

namespace Splice.Text

variable {α : Type} {q a b : Char} {s t : List Char}

/-- What `f` writes can be told from what follows it. -/
def Unambiguous (f : α → List Char) : Prop :=
  ∀ a b s t, f a ++ s = f b ++ t → a = b ∧ s = t

/-- Pieces one after the other can be told apart, if none of them begins with the character behind
them. -/
theorem Unambiguous.flatMap {f : α → List Char} (hf : Unambiguous f) {e : Char}
    (hend : ∀ a, ∃ c s, f a = c :: s ∧ c ≠ e) {as bs : List α}
    (h : as.flatMap f ++ e :: s = bs.flatMap f ++ e :: t) : as = bs ∧ s = t := by
  induction as generalizing bs with
  | nil =>
      cases bs with
      | nil => exact ⟨rfl, (List.cons.inj h).2⟩
      | cons b bs =>
          obtain ⟨c, _, hb, hc⟩ := hend b
          rw [List.flatMap_cons, hb] at h
          exact absurd (List.cons.inj h).1.symm hc
  | cons a as ih =>
      cases bs with
      | nil =>
          obtain ⟨c, _, ha, hc⟩ := hend a
          rw [List.flatMap_cons, ha] at h
          exact absurd (List.cons.inj h).1 hc
      | cons b bs =>
          rw [List.flatMap_cons, List.flatMap_cons, List.append_assoc, List.append_assoc] at h
          obtain ⟨rfl, hrest⟩ := hf _ _ _ _ h
          obtain ⟨rfl, hst⟩ := ih hrest
          exact ⟨rfl, hst⟩

/-! ### Escapes -/

/-- The character that a backslash and `c` stand for between quotes `q`. -/
def named? (q c : Char) : Option Char :=
  if c = q ∨ c = '\\' then some c
  else if c = 'n' then some '\n'
  else if c = 'r' then some '\r'
  else if c = 't' then some '\t'
  else none

/-- The number of digits behind a backslash and `c`. -/
def width? : Char → Option Nat
  | 'x' => some 2
  | 'u' => some 4
  | 'U' => some 8
  | _ => none

inductive Escapes (q c : Char) : List Char → Prop
  | plain (hquote : c ≠ q) (hslash : c ≠ '\\') : Escapes q c [c]
  | named (n : Char) (hn : named? q n = some c) : Escapes q c ['\\', n]
  | coded (k : Char) (width : Nat) (hname : named? q k = none) (hk : width? k = some width)
      (hsize : c.toNat < Nat.pow 16 width) : Escapes q c ('\\' :: k :: hex width c.toNat)

def IsQuote (q : Char) : Prop := q = '\'' ∨ q = '"'

theorem isQuote_quoteFor (s : List Char) : IsQuote (quoteFor s) := by
  unfold quoteFor
  split
  · exact .inr rfl
  · exact .inl rfl

theorem IsQuote.ne_slash (hq : IsQuote q) : q ≠ '\\' := by
  rcases hq with rfl | rfl <;> decide

theorem escapes_escape (hq : IsQuote q) (c : Char) : Escapes q c (escape q c) := by
  have hname (k : Char) (width : Nat) (hk : width? k = some width) : named? q k = none := by
    unfold width? at hk
    split at hk
    case h_4 => cases hk
    all_goals rcases hq with rfl | rfl <;> decide
  unfold escape
  split
  · exact .named c (if_pos ‹_›)
  · rename_i hc
    obtain ⟨hquote, hslash⟩ := not_or.mp hc
    split
    · subst c
      exact .named 'n' (by rcases hq with rfl | rfl <;> rfl)
    · split
      · subst c
        exact .named 'r' (by rcases hq with rfl | rfl <;> rfl)
      · split
        · subst c
          exact .named 't' (by rcases hq with rfl | rfl <;> rfl)
        · split
          · exact .plain hquote hslash
          · split
            · exact .coded 'x' 2 (hname 'x' 2 rfl) rfl ‹_›
            · split
              · exact .coded 'u' 4 (hname 'u' 4 rfl) rfl ‹_›
              · have hlast : c.toNat < Nat.pow 16 8 := by
                  exact c.val.toNat_lt
                exact .coded 'U' 8 (hname 'U' 8 rfl) rfl hlast

theorem Escapes.unique {w v : List Char} (ha : Escapes q a w) (hb : Escapes q b v)
    (h : w ++ s = v ++ t) : a = b ∧ s = t := by
  cases ha with
  | plain _ hslash =>
      cases hb with
      | plain => exact ⟨(List.cons.inj h).1, (List.cons.inj h).2⟩
      | named | coded => exact absurd (List.cons.inj h).1 hslash
  | named n hn =>
      cases hb with
      | plain _ hslash => exact absurd (List.cons.inj h).1.symm hslash
      | named m hm =>
          obtain ⟨rfl, hst⟩ := List.cons.inj (List.cons.inj h).2
          exact ⟨Option.some.inj (hn.symm.trans hm), hst⟩
      | coded k width hname =>
          obtain ⟨rfl, -⟩ := List.cons.inj (List.cons.inj h).2
          cases hn.symm.trans hname
  | coded k width hname hk hsize =>
      cases hb with
      | plain _ hslash => exact absurd (List.cons.inj h).1.symm hslash
      | named m hm =>
          obtain ⟨rfl, -⟩ := List.cons.inj (List.cons.inj h).2
          cases hname.symm.trans hm
      | coded k' width' _ hk' hsize' =>
          obtain ⟨rfl, hdigits⟩ := List.cons.inj (List.cons.inj h).2
          obtain rfl := Option.some.inj (hk.symm.trans hk')
          obtain ⟨hhex, hst⟩ := List.append_inj hdigits (by rw [length_hex, length_hex])
          exact ⟨Char.toNat_inj.mp (hex_inj hsize hsize' hhex), hst⟩

theorem unambiguous_escape (hq : IsQuote q) : Unambiguous (escape q) :=
  fun a b _ _ h => (escapes_escape hq a).unique (escapes_escape hq b) h

theorem head_escape (hq : IsQuote q) (c : Char) : ∃ d s, escape q c = d :: s ∧ d ≠ q := by
  have h := escapes_escape hq c
  generalize escape q c = w at h
  cases h with
  | plain hquote => exact ⟨c, [], rfl, hquote⟩
  | named n => exact ⟨'\\', [n], rfl, hq.ne_slash.symm⟩
  | coded k => exact ⟨'\\', _, rfl, hq.ne_slash.symm⟩

theorem unambiguous_quote : Unambiguous quote := by
  intro a b s t h
  simp only [quote, List.cons_append, List.append_assoc] at h
  obtain ⟨hquote, h⟩ := List.cons.inj h
  rw [← hquote] at h
  exact (unambiguous_escape (isQuote_quoteFor a)).flatMap (head_escape (isQuote_quoteFor a)) h

end Splice.Text
