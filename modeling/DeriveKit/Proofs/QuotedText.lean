import DeriveKit.Proofs.ReadLiteral
import Mathlib.Algebra.Ring.Parity
import Mathlib.Data.List.DropRight

/-!
# DeriveKit.Proofs.QuotedText

Literals of texts and of characters end where they say. Reading one back tells where it ends
whatever follows, so no literal can be continued to another one (`quoted_append_eq_iff`). Between
the quotes stand the escapes of the characters one after the other: taking the escapes out gives the
text (`unescape_escape`), and a quote there is always the second half of an escape
(`escape_eq_append_quote`), which is how it differs from the one that ends the literal.

* `Constant.literals_are_self_delimiting` — the result, for strings and for characters.
-/

namespace DeriveKit

variable {quote : Char}

/-! ## unescaping -/

/-- Takes the escapes out of what stands between two `quote` characters. -/
def unescape (quote : Char) (inner : List Char) : Option (List Char) :=
  match many (readChar quote) inner with
  | (cs, []) => some cs
  | _ => none

/-- The number of backslashes at the end of a text. If it is odd, the last one escapes what follows;
if it is even, each escapes or is escaped by a neighbour. -/
def trailingBackslashes (cs : List Char) : Nat := (cs.rtakeWhile (· == '\\')).length

/-- A literal of `s` in `quote` characters: taking the escapes out of what stands between the first
and the last gives `s`, and every `quote` there is escaped. -/
def IsLiteral (quote : Char) (literal : String) (s : List Char) : Prop :=
  ∃ inner, literal.toList = quote :: (inner ++ [quote]) ∧ unescape quote inner = some s ∧
    ∀ before after, inner = before ++ quote :: after → Odd (trailingBackslashes before)

/-- Taking the escapes out gives the text (`unescape`). -/
theorem unescape_escape (hquote : quote ∈ ['"', '\x27']) (cs : List Char) :
    unescape quote (escape quote cs) = some cs := by
  have hmany : many (readChar quote) (escape quote cs ++ []) = (cs, []) :=
    many_readChar_escape hquote cs rfl
  rw [List.append_nil] at hmany
  rw [unescape, hmany]

/-- A literal and what follows it can be told from each other. -/
theorem quoted_append_eq_iff (hquote : quote ∈ ['"', '\x27']) {s s' r r' : String} :
    quoted quote s ++ r = quoted quote s' ++ r' ↔ s = s' ∧ r = r' := by
  constructor
  · intro h
    have hlists := congrArg String.toList h
    rw [String.toList_append, String.toList_append] at hlists
    have hread := reads_readQuoted hquote s r.toList trivial
    rw [hlists, reads_readQuoted hquote s' r'.toList trivial, Option.some.injEq,
      Prod.mk.injEq] at hread
    exact ⟨hread.1.symm, String.toList_injective hread.2.symm⟩
  · rintro ⟨rfl, rfl⟩
    rfl

/-! ## quotes between the quotes -/

/-- The quote itself is escaped by a backslash. -/
theorem escapeChar_quote (hquote : quote ∈ ['"', '\x27']) :
    escapeChar quote quote = ['\\', quote] := by
  simp only [List.mem_cons, List.not_mem_nil, or_false] at hquote
  obtain rfl | rfl := hquote <;> rfl

/-- Only the escape of a quote has one in it. -/
theorem eq_quote_of_mem_escapeChar (hquote : quote ∈ ['"', '\x27']) {c : Char}
    (h : quote ∈ escapeChar quote c) : c = quote := by
  have hdigits : ∀ n < 160, '"' ∉ '\\' :: threeDigits n ∧ '\x27' ∉ '\\' :: threeDigits n := by
    decide +kernel
  have hother {cs : List Char} (hcs : '"' ∉ cs ∧ '\x27' ∉ cs) : quote ∉ cs := by
    simp only [List.mem_cons, List.not_mem_nil, or_false] at hquote
    obtain rfl | rfl := hquote
    · exact hcs.1
    · exact hcs.2
  rw [escapeChar] at h
  split_ifs at h with _ _ _ _ hc hcontrol
  · exact absurd h (hother (by decide))
  · exact absurd h (hother (by decide))
  · exact absurd h (hother (by decide))
  · exact absurd h (hother (by decide))
  · exact hc
  · refine absurd h (hother (hdigits c.toNat ?_))
    simp only [isControl, Bool.or_eq_true, Bool.and_eq_true, decide_eq_true_eq] at hcontrol
    omega
  · exact (List.mem_singleton.1 h).symm

theorem escape_cons (c : Char) (cs : List Char) :
    escape quote (c :: cs) = escapeChar quote c ++ escape quote cs :=
  List.flatMap_cons

/-- A quote among the escapes is the second half of the escape of one. -/
theorem escape_eq_append_quote (hquote : quote ∈ ['"', '\x27']) {cs u v : List Char}
    (h : escape quote cs = u ++ quote :: v) :
    ∃ before after, cs = before ++ quote :: after ∧ u = escape quote before ++ ['\\'] ∧
      v = escape quote after := by
  induction cs generalizing u with
  | nil => exact absurd h.symm (List.append_ne_nil_of_right_ne_nil u (List.cons_ne_nil _ _))
  | cons c cs ih =>
      rw [escape_cons] at h
      obtain ⟨w, rfl, hw⟩ | ⟨w, hc, hw⟩ := List.append_eq_append_iff.1 h
      · obtain ⟨before, after, rfl, rfl, rfl⟩ := ih hw
        refine ⟨c :: before, after, rfl, ?_, rfl⟩
        rw [escape_cons, List.append_assoc]
      · cases w with
        | nil =>
            -- No escape begins with the quote.
            obtain ⟨before, _, _, hu, _⟩ := ih (u := []) hw.symm
            exact absurd hu.symm (List.append_ne_nil_of_right_ne_nil _ (List.cons_ne_nil _ _))
        | cons d w =>
            obtain ⟨rfl, rfl⟩ := List.cons.inj hw
            obtain rfl := eq_quote_of_mem_escapeChar hquote (by rw [hc]; simp)
            rw [escapeChar_quote hquote] at hc
            cases u with
            | nil =>
                obtain ⟨rfl, -⟩ := List.cons.inj hc
                exact absurd hquote (by decide)
            | cons d u =>
                obtain ⟨rfl, htail⟩ := List.cons.inj hc
                obtain ⟨rfl, rfl⟩ : u = [] ∧ w = [] := by
                  simpa [List.append_eq_singleton_iff] using htail.symm
                exact ⟨[], cs, rfl, rfl, rfl⟩

/-! ## backslashes between the quotes -/

/-- A further backslash makes one more at the end. -/
theorem trailingBackslashes_backslash (cs : List Char) :
    trailingBackslashes (cs ++ ['\\']) = trailingBackslashes cs + 1 := by
  rw [trailingBackslashes, List.rtakeWhile_concat_pos _ _ _ rfl, List.length_append]
  rfl

/-- Any other character leaves no backslash at the end. -/
theorem trailingBackslashes_of_ne {c : Char} (h : c ≠ '\\') (cs : List Char) :
    trailingBackslashes (cs ++ [c]) = 0 := by
  rw [trailingBackslashes, List.rtakeWhile_concat_neg _ _ _ (by simpa using h)]
  rfl

/-- Only the escape of a backslash ends in one. -/
theorem escapeChar_eq_concat (quote : Char) {c : Char} (h : c ≠ '\\') :
    ∃ cs last, escapeChar quote c = cs ++ [last] ∧ last ≠ '\\' := by
  have hdigit : ∀ n < 10, Nat.digitChar n ≠ '\\' := by decide
  rw [escapeChar, if_neg h]
  split_ifs with _ _ _ hc
  · exact ⟨['\\'], 'n', rfl, by decide⟩
  · exact ⟨['\\'], 't', rfl, by decide⟩
  · exact ⟨['\\'], 'r', rfl, by decide⟩
  · exact ⟨['\\'], quote, rfl, hc ▸ h⟩
  · exact ⟨'\\' :: (threeDigits c.toNat).dropLast, _, rfl,
      hdigit (c.toNat % 10) (Nat.mod_lt _ (by decide))⟩
  · exact ⟨[], c, rfl, h⟩

/-- The backslashes at the end of the escapes belong to escapes of backslashes. -/
theorem even_trailingBackslashes_escape (cs : List Char) :
    Even (trailingBackslashes (escape quote cs)) := by
  induction cs using List.reverseRecOn with
  | nil => exact Even.zero
  | append_singleton cs c ih =>
      have hescape : escape quote (cs ++ [c]) = escape quote cs ++ escapeChar quote c := by
        rw [escape, List.flatMap_append, List.flatMap_singleton, escape]
      rw [hescape]
      by_cases hc : c = '\\'
      · have hpair : escapeChar quote c = ['\\'] ++ ['\\'] := if_pos hc
        rw [hpair, ← List.append_assoc, trailingBackslashes_backslash,
          trailingBackslashes_backslash]
        exact ih.add even_two
      · obtain ⟨init, last, hlast, hne⟩ := escapeChar_eq_concat quote hc
        rw [hlast, ← List.append_assoc, trailingBackslashes_of_ne hne]
        exact Even.zero

/-- What the printer writes is a literal of the text (`IsLiteral`). -/
theorem isLiteral_quoted (hquote : quote ∈ ['"', '\x27']) (s : String) :
    IsLiteral quote (quoted quote s) s.toList := by
  refine ⟨escape quote s.toList, String.toList_ofList, unescape_escape hquote _, ?_⟩
  intro before after h
  obtain ⟨cs, _, _, rfl, _⟩ := escape_eq_append_quote hquote h
  rw [trailingBackslashes_backslash]
  exact (even_trailingBackslashes_escape cs).add_one

namespace Constant

/-- **Literals are self-delimiting.** If the literals of two strings, the ones in double quotes, are
followed by texts so that the whole is the same, then the strings are the same and the texts are;
and so for the literals of two characters. In every literal, what stands between the quotes gives
the string or the character back when its escapes are taken out, and each quote in it has an odd
number of backslashes right before it: it is escaped. -/
theorem literals_are_self_delimiting :
    (∀ s s' r r' : String,
      (string s none).text ++ r = (string s' none).text ++ r' ↔ s = s' ∧ r = r') ∧
    (∀ (c c' : Char) (r r' : String),
      (char c).text ++ r = (char c').text ++ r' ↔ c = c' ∧ r = r') ∧
    (∀ s : String, IsLiteral '"' (string s none).text s.toList) ∧
    ∀ c : Char, IsLiteral '\x27' (char c).text [c] := by
  have hdouble : '"' ∈ ['"', '\x27'] := List.mem_cons_self
  have hsingle : '\x27' ∈ ['"', '\x27'] := List.mem_cons_of_mem _ List.mem_cons_self
  refine ⟨fun s s' r r' => quoted_append_eq_iff hdouble, fun c c' r r' => ?_,
    isLiteral_quoted hdouble, fun c => ?_⟩
  · have hchar : c.toString = c'.toString ↔ c = c' := by
      rw [← String.toList_inj]
      simp
    exact (quoted_append_eq_iff hsingle).trans (and_congr_left' hchar)
  · have hchar : c.toString.toList = [c] := by simp
    exact hchar ▸ isLiteral_quoted hsingle c.toString

end Constant

end DeriveKit
