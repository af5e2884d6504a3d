/-!
# DeriveKit.Text.Pieces

Cutting a text at a separator and joining texts with one. Each undoes the other: joining the pieces
of a text with the character it was cut at gives the text back, whatever it begins or ends with
(`joinWith_pieces`), and cutting joined texts gives them back if the separator is in none of them
(`pieces_joinWith`).
-/

namespace DeriveKit

/-- Cuts a text at every `sep`: the piece before the first one, and the pieces after each. -/
def cutAt (sep : Char) : List Char → List Char × List (List Char)
  | [] => ([], [])
  | c :: cs =>
      if c = sep then ([], (cutAt sep cs).1 :: (cutAt sep cs).2)
      else (c :: (cutAt sep cs).1, (cutAt sep cs).2)

/-- The pieces of a text that is cut at every `sep`, in order. There is always a first one. -/
def pieces (sep : Char) (cs : List Char) : List (List Char) := (cutAt sep cs).1 :: (cutAt sep cs).2

/-- The texts in order with `sep` between neighbours. -/
def joinWith (sep : String) : List String → String
  | [] => ""
  | [s] => s
  | s :: t :: rest => s ++ sep ++ joinWith sep (t :: rest)

/-- The texts in order, each with `lead` before it. -/
def leadEach (lead : String) : List String → String
  | [] => ""
  | s :: rest => lead ++ s ++ leadEach lead rest

/-- The texts in order with nothing between them. -/
def joinAll : List String → String
  | [] => ""
  | s :: rest => s ++ joinAll rest

@[simp] theorem joinWith_cons_cons (sep s t : String) (rest : List String) :
    joinWith sep (s :: t :: rest) = s ++ sep ++ joinWith sep (t :: rest) := rfl

/-- `joinWith` is the library's `String.intercalate`, whose recursion runs over an accumulator. -/
theorem joinWith_eq_intercalate (sep : String) : (ts : List String) →
    joinWith sep ts = sep.intercalate ts
  | [] => by rw [joinWith, String.intercalate_nil]
  | [s] => by rw [joinWith, String.intercalate_singleton]
  | s :: t :: rest => by
      rw [joinWith_cons_cons, joinWith_eq_intercalate sep (t :: rest), String.intercalate_cons_cons]

/-- Without a separator nothing is cut off. -/
theorem cutAt_of_not_mem {sep : Char} {cs : List Char} (h : sep ∉ cs) : cutAt sep cs =
    (cs, []) := by
  induction cs with
  | nil => rfl
  | cons c cs ih =>
      obtain ⟨hc, hcs⟩ := not_or.1 (mt List.mem_cons.2 h)
      rw [cutAt, if_neg (Ne.symm hc), ih hcs]

/-! ## pieces -/

/-- Joining the pieces of a text with the character it was cut at gives the text back. -/
theorem joinWith_pieces (sep : Char) (cs : List Char) :
    joinWith (String.singleton sep) ((pieces sep cs).map String.ofList) = String.ofList cs := by
  induction cs with
  | nil => rfl
  | cons c cs ih =>
      have hc : String.ofList (c :: cs) = String.singleton c ++ String.ofList cs := by
        apply String.toList_injective; simp
      by_cases h : c = sep
      · subst h
        simp only [pieces, cutAt, if_pos, List.map_cons, joinWith_cons_cons] at ih ⊢
        rw [ih, hc]; simp
      · cases hr : (cutAt sep cs).2 with
        | nil =>
            simp only [pieces, cutAt, if_neg h, hr, List.map_cons, List.map_nil, joinWith] at ih ⊢
            apply String.toList_injective
            rw [hc, ← ih]; simp
        | cons p ps =>
            simp only [pieces, cutAt, if_neg h, hr, List.map_cons, joinWith_cons_cons] at ih ⊢
            rw [hc, ← ih]
            apply String.toList_injective
            simp

/-- A text without the separator is one piece. -/
theorem pieces_of_not_mem {sep : Char} {cs : List Char} (h : sep ∉ cs) : pieces sep cs = [cs] := by
  rw [pieces, cutAt_of_not_mem h]

/-- A separator cuts a text in two, whatever stands before it and after it. -/
theorem pieces_append_cons (sep : Char) (cs rest : List Char) :
    pieces sep (cs ++ sep :: rest) = pieces sep cs ++ pieces sep rest := by
  induction cs with
  | nil => simp [pieces, cutAt]
  | cons c cs ih =>
      simp only [pieces, List.cons_append, List.cons.injEq] at ih
      by_cases h : c = sep
      · simp [pieces, cutAt, h, ih]
      · simp [pieces, cutAt, h, ih]

/-- The first piece ends at the first separator. -/
theorem cutAt_append_cons {sep : Char} {cs : List Char} (h : sep ∉ cs) (rest : List Char) :
    cutAt sep (cs ++ sep :: rest) = (cs, pieces sep rest) := by
  have hcut := pieces_append_cons sep cs rest
  rw [pieces_of_not_mem h] at hcut
  obtain ⟨hfirst, hlater⟩ := List.cons.inj hcut
  exact Prod.ext hfirst hlater

/-- Texts without the separator are the pieces of what they are joined to. -/
theorem pieces_joinWith {sep : Char} {s : String} {rest : List String}
    (h : ∀ t ∈ s :: rest, sep ∉ t.toList) :
    pieces sep (joinWith (String.singleton sep) (s :: rest)).toList =
      (s :: rest).map String.toList := by
  induction rest generalizing s with
  | nil => exact pieces_of_not_mem (h s List.mem_cons_self)
  | cons t rest ih =>
      have hs : pieces sep s.toList = [s.toList] := pieces_of_not_mem (h s List.mem_cons_self)
      have hrest := ih fun u hu => h u (List.mem_cons_of_mem _ hu)
      have hjoin : (joinWith (String.singleton sep) (s :: t :: rest)).toList =
          s.toList ++ sep :: (joinWith (String.singleton sep) (t :: rest)).toList := by simp
      rw [hjoin, pieces_append_cons, hs, hrest]
      rfl

/-- The separator is in none of the pieces. -/
theorem not_mem_of_mem_pieces {sep : Char} {cs p : List Char} (h : p ∈ pieces sep cs) :
    sep ∉ p := by
  induction cs generalizing p with
  | nil =>
      obtain rfl : p = [] := by simpa [pieces, cutAt] using h
      exact List.not_mem_nil
  | cons c cs ih =>
      have hfirst : sep ∉ (cutAt sep cs).1 := ih List.mem_cons_self
      have hlater : ∀ q ∈ (cutAt sep cs).2, sep ∉ q := fun q hq => ih (List.mem_cons_of_mem _ hq)
      by_cases hc : c = sep
      · simp only [pieces, cutAt, if_pos hc, List.mem_cons] at h
        obtain rfl | rfl | hp := h
        · exact List.not_mem_nil
        · exact hfirst
        · exact hlater p hp
      · simp only [pieces, cutAt, if_neg hc, List.mem_cons] at h
        obtain rfl | hp := h
        · simp [Ne.symm hc, hfirst]
        · exact hlater p hp

end DeriveKit
