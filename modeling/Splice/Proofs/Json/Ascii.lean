import Splice.Proofs.Json.RoundTrip

namespace Splice.Json

variable {indent : Option Nat} {depth : Nat} {c : Char} {s t : List Char}

def Ascii (s : List Char) : Prop := ∀ c ∈ s, c.toNat < 128

instance (s : List Char) : Decidable (Ascii s) :=
  List.decidableBAll _ s

theorem ascii_nil : Ascii [] := List.forall_mem_nil _

theorem ascii_cons_iff : Ascii (c :: s) ↔ c.toNat < 128 ∧ Ascii s := List.forall_mem_cons

theorem ascii_append_iff : Ascii (s ++ t) ↔ Ascii s ∧ Ascii t := List.forall_mem_append

theorem ascii_hex (width n : Nat) : Ascii (Text.hex width n) := by
  have hdigit : ∀ m < 16, (Text.hexDigit m).toNat < 128 := by decide
  induction width generalizing n with
  | zero => exact ascii_nil
  | succ width ih =>
      have hlast := hdigit (n % 16) (Nat.mod_lt _ (by decide))
      exact ascii_append_iff.mpr ⟨ih (n / 16), ascii_cons_iff.mpr ⟨hlast, ascii_nil⟩⟩

theorem ascii_writeUnit (n : Nat) : Ascii (writeUnit n) :=
  ascii_cons_iff.mpr ⟨by decide, ascii_cons_iff.mpr ⟨by decide, ascii_hex 4 n⟩⟩

theorem ascii_writeChar (c : Char) : Ascii (writeChar c) := by
  have hescape (e : Char) (he : e.toNat < 128) : Ascii ['\\', e] :=
    ascii_cons_iff.mpr ⟨by decide, ascii_cons_iff.mpr ⟨he, ascii_nil⟩⟩
  unfold writeChar
  repeat' split
  all_goals first
    | exact hescape _ (by decide)
    | exact ascii_writeUnit _
    | skip
  · rename_i hprintable
    have hlast : c.toNat ≤ '~'.toNat := hprintable.2
    exact ascii_cons_iff.mpr ⟨Nat.lt_of_le_of_lt hlast (by decide), ascii_nil⟩
  · exact ascii_append_iff.mpr ⟨ascii_writeUnit _, ascii_writeUnit _⟩

theorem ascii_writeText (s : List Char) : Ascii (writeText s) := by
  have hchars : Ascii (s.flatMap writeChar) := by
    intro c hc
    obtain ⟨d, _, hc⟩ := List.mem_flatMap.mp hc
    exact ascii_writeChar d c hc
  exact ascii_cons_iff.mpr ⟨by decide,
    ascii_append_iff.mpr ⟨hchars, ascii_cons_iff.mpr ⟨by decide, ascii_nil⟩⟩⟩

theorem ascii_of_space (h : ∀ c ∈ s, isSpace c = true) : Ascii s := by
  intro c hc
  have hspace := h c hc
  simp only [isSpace, Bool.or_eq_true, decide_eq_true_eq] at hspace
  obtain ((rfl | rfl) | rfl) | rfl := hspace <;> decide

theorem ascii_lineBreak (indent : Option Nat) (depth : Nat) : Ascii (lineBreak indent depth) :=
  ascii_of_space (isSpace_lineBreak indent depth)

theorem ascii_separator (indent : Option Nat) (depth : Nat) : Ascii (separator indent depth) := by
  obtain ⟨gap, hgap, hspace⟩ := separator_eq indent depth
  rw [hgap]
  exact ascii_cons_iff.mpr ⟨by decide, ascii_of_space hspace⟩

theorem ascii_toDigits (n : Nat) : Ascii (Nat.toDigits 10 n) := by
  intro c hc
  have hdigit : isAsciiDigit c = true := isAsciiDigit_of_mem hc
  simp only [isAsciiDigit, Bool.and_eq_true, decide_eq_true_eq] at hdigit
  have hlast : c.toNat ≤ '9'.toNat := hdigit.2
  exact Nat.lt_of_le_of_lt hlast (by decide)

theorem ascii_toString (i : Int) : Ascii (toString i).toList := by
  rcases toList_toString i with ⟨n, _, htext⟩ | ⟨n, _, htext⟩
  · rw [htext]
    exact ascii_toDigits n
  · rw [htext]
    exact ascii_cons_iff.mpr ⟨by decide, ascii_toDigits n⟩

mutual
theorem ascii_writeValue (indent : Option Nat) : ∀ (v : Value) (depth : Nat), Portable v →
    Ascii (writeValue indent depth v)
  | .null, depth, _ => by
      rw [writeValue]
      decide
  | .bool b, depth, _ => by
      rw [writeValue]
      cases b <;> decide
  | .int i, depth, _ => ascii_toString i
  | .float d, depth, h => by cases h
  | .text s, depth, _ => ascii_writeText s.toList
  | .list [], depth, _ => by
      rw [writeValue]
      decide
  | .list (v :: vs), depth, h => by
      obtain ⟨hv, hvs⟩ := List.forall_mem_cons.mp (portable_list_iff.mp h)
      have hfirst := ascii_writeValue indent v (depth + 1) hv
      have hothers := ascii_writeItems indent vs (depth + 1) hvs
      simp only [writeValue, ascii_cons_iff, ascii_append_iff]
      exact ⟨by decide, ⟨⟨⟨ascii_lineBreak _ _, hfirst⟩, hothers⟩, ascii_lineBreak _ _⟩,
        by decide, ascii_nil⟩
  | .map [], depth, _ => by
      rw [writeValue]
      decide
  | .map ((k, v) :: es), depth, h => by
      obtain ⟨hv, hes⟩ := List.forall_mem_cons.mp (portable_map_iff.mp h).2.2
      have hfirst := ascii_writeValue indent v (depth + 1) hv
      have hothers := ascii_writeEntries indent es (depth + 1) hes
      simp only [writeValue, ascii_cons_iff, ascii_append_iff]
      exact ⟨by decide, ⟨⟨⟨⟨⟨ascii_lineBreak _ _, ascii_writeText _⟩, by decide, by decide, ascii_nil⟩,
        hfirst⟩, hothers⟩, ascii_lineBreak _ _⟩, by decide, ascii_nil⟩

theorem ascii_writeItems (indent : Option Nat) : ∀ (vs : List Value) (depth : Nat),
    (∀ v ∈ vs, Portable v) → Ascii (writeItems indent depth vs)
  | [], depth, _ => ascii_nil
  | v :: vs, depth, h => by
      obtain ⟨hv, hvs⟩ := List.forall_mem_cons.mp h
      rw [writeItems, ascii_append_iff, ascii_append_iff]
      exact ⟨⟨ascii_separator _ _, ascii_writeValue indent v depth hv⟩,
        ascii_writeItems indent vs depth hvs⟩

theorem ascii_writeEntries (indent : Option Nat) : ∀ (es : List (Key × Value)) (depth : Nat),
    (∀ e ∈ es, Portable e.2) → Ascii (writeEntries indent depth es)
  | [], depth, _ => ascii_nil
  | (k, v) :: es, depth, h => by
      obtain ⟨hv, hes⟩ := List.forall_mem_cons.mp h
      simp only [writeEntries, ascii_append_iff]
      exact ⟨⟨⟨⟨ascii_separator _ _, ascii_writeText _⟩, by decide⟩,
        ascii_writeValue indent v depth hv⟩, ascii_writeEntries indent es depth hes⟩
end

theorem ascii_write (indent : Option Nat) {v : Value} (h : Portable v) :
    Ascii (write indent v).toList := by
  rw [write, String.toList_ofList]
  exact ascii_writeValue indent v 0 h

end Splice.Json
