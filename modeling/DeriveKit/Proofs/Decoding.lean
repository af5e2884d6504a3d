import DeriveKit.Proofs.ArgumentShape
import DeriveKit.Proofs.IntegerLiteral
import Mathlib.Data.List.Forall2
import Mathlib.Data.List.Lex

/-!
# DeriveKit.Proofs.Decoding

Decoders made of the basic ones by any nesting of lists. A `Format` says what is read; reading gives
back what an expression was built from, and fails at the first position where the expression is not
what the format expects.

* `Format.Enters` — the positions that a format has in an expression, as paths of indices;
* `Format.Expects` — what has to be at such a position;
* `Format.reading_decoder` — a read passes all positions, or complains about the first mismatch;
* `Format.decoders_invert_builders` — the result.
-/

namespace DeriveKit

variable {π : Type}

/-! ## the basic decoders -/

namespace Decoder

/-- A truth value is read from its constructor, and refused otherwise. -/
theorem bool_cases (e : Expr π) :
    (∃ value name, e.shape = .construct name none ∧
      name.value = .simple (if value then "true" else "false") ∧ bool e = .ok value) ∨
    (¬ ∃ (value : Bool) (name : Located QualName), e.shape = .construct name none ∧
      name.value = .simple (if value then "true" else "false")) ∧ bool e = .error "boolean" := by
  simp only [← and_assoc, exists_and_right, ← Expr.asArgument_eq_bool_iff, bool]
  cases e.asArgument <;> simp

/-- A text is read from its literal, and refused otherwise. -/
theorem string_cases (e : Expr π) :
    (∃ value delimiter, e.shape = .constant (.string value delimiter) ∧ string e = .ok value) ∨
    (¬ ∃ value delimiter, e.shape = .constant (.string value delimiter)) ∧
      string e = .error "string" := by
  simp only [exists_and_right, ← Expr.asArgument_eq_string_iff, string]
  cases e.asArgument <;> simp

/-- A character is read from its literal, and refused otherwise. -/
theorem char_cases (e : Expr π) :
    (∃ value, e.shape = .constant (.char value) ∧ char e = .ok value) ∨
    (¬ ∃ value, e.shape = .constant (.char value)) ∧ char e = .error "character" := by
  simp only [← Expr.asArgument_eq_char_iff, char]
  cases e.asArgument <;> simp

/-- A choice is read from one of the tags, and refused otherwise. -/
theorem oneOf_cases (tags : List String) (e : Expr π) :
    (∃ tag ∈ tags, e.shape = .variant tag none ∧ oneOf tags e = .ok tag) ∨
    (¬ ∃ tag ∈ tags, e.shape = .variant tag none) ∧ oneOf tags e = .error (oneOfText tags) := by
  simp only [← Expr.asArgument_eq_tag_iff, oneOf]
  cases e.asArgument with
  | tag name => by_cases h : name ∈ tags <;> simp [h]
  | _ => simp

/-- The elements of a list are read one by one. -/
theorem elements_eq_ok_iff {α : Type} {item : Decoder π α} {es : List (Expr π)} {vs : List α} :
    elements item es = .ok vs ↔ List.Forall₂ (fun v e => item e = .ok v) vs es := by
  induction es generalizing vs with
  | nil => cases vs <;> simp [elements]
  | cons e es ih =>
      rw [elements]
      cases he : item e with
      | error expected => cases vs <;> simp [he]
      | ok v =>
          cases vs with
          | nil => cases elements item es <;> simp [Except.map]
          | cons v' vs =>
              rw [List.forall₂_cons, ← ih, he]
              cases elements item es <;> simp [Except.map]

/-- The elements are all read, or the first that is refused decides. -/
theorem elements_cases {α : Type} (item : Decoder π α) (es : List (Expr π)) :
    (∃ vs, elements item es = .ok vs) ∨
    ∃ (i : Nat) (e : Expr π) (expected : String), es[i]? = some e ∧
      (∀ j < i, ∀ x, es[j]? = some x → ∃ v, item x = .ok v) ∧
      item e = .error expected ∧ elements item es = .error ("list:" ++ expected) := by
  induction es with
  | nil => exact .inl ⟨[], rfl⟩
  | cons e es ih =>
      cases he : item e with
      | error expected => exact .inr ⟨0, e, expected, rfl, nofun, he, by rw [elements, he]⟩
      | ok v =>
          obtain ⟨vs, hvs⟩ | ⟨i, x, expected, hx, hbefore, hexpected, herror⟩ := ih
          · exact .inl ⟨v :: vs, by rw [elements, he, hvs]; rfl⟩
          · refine .inr ⟨i + 1, x, expected, hx, fun j hj y hy => ?_, hexpected, ?_⟩
            · cases j with
              | zero =>
                  obtain rfl : e = y := Option.some.inj hy
                  exact ⟨v, he⟩
              | succ j => exact hbefore j (by omega) y hy
            · rw [elements, he, herror]
              rfl

/-- Each element gives one value, and each value comes from one. -/
theorem exists_of_elements_eq_ok {α : Type} {item : Decoder π α} {es : List (Expr π)} {vs : List α}
    (h : elements item es = .ok vs) :
    (∀ e ∈ es, ∃ v, item e = .ok v) ∧ ∀ v ∈ vs, ∃ e, item e = .ok v := by
  rw [elements_eq_ok_iff] at h
  induction h with
  | nil => simp
  | cons hread h ih =>
      exact ⟨List.forall_mem_cons.2 ⟨⟨_, hread⟩, ih.1⟩, List.forall_mem_cons.2 ⟨⟨_, hread⟩, ih.2⟩⟩

end Decoder

/-! ## formats -/

/-- What is read: any expression, a literal of a kind, one of some tags, or a list literal. -/
inductive Format
  | expr
  | int
  | bool
  | string
  | char
  | oneOf (tags : List String)
  | list (item : Format)

namespace Format

/-- The type of what is read. -/
abbrev Value (π : Type) : Format → Type
  | expr => Expr π
  | int => Int
  | bool => Bool
  | string | oneOf _ => String
  | char => Char
  | list item => List (Value π item)

/-- The decoder for a format. -/
def decoder : (f : Format) → Decoder π (f.Value π)
  | expr => Decoder.expr
  | int => Decoder.int
  | bool => Decoder.bool
  | string => Decoder.string
  | char => Decoder.char
  | oneOf tags => Decoder.oneOf tags
  | list item => Decoder.list (decoder item)

/-- Whether a value is one of the format: integers have 64 bits, and a tag is one of those given. -/
def Fits : (f : Format) → f.Value π → Prop
  | expr, _ | bool, _ | string, _ | char, _ => True
  | int, (n : Int) => -2 ^ 63 ≤ n ∧ n ≤ 2 ^ 63 - 1
  | oneOf tags, tag => tag ∈ tags
  | list item, (vs : List (item.Value π)) => ∀ v ∈ vs, Fits item v

/-- The expression is built from the value, each of its parts placed anywhere. -/
def Builds : (f : Format) → f.Value π → Expr π → Prop
  | expr, v, e => e = v
  | int, n, e => ∃ span, e = .int n span
  | bool, b, e => ∃ span, e = .bool b span
  | string, s, e => ∃ span, e = .string s span
  | char, c, e => ∃ span, e = .char c span
  | oneOf _, tag, e => ∃ span, e = .variant tag none span
  | list item, (vs : List (item.Value π)), e =>
      ∃ es span, e = .list es span ∧ List.Forall₂ (Builds item) vs es

/-- What has to be at a position, whatever the elements of a list literal are. -/
def Expects : Format → Expr π → Prop
  | expr, _ => True
  | int, e => ∃ literal v, e.shape = .constant (.integer literal none) ∧ Denotes literal.toList v
  | bool, e => ∃ (value : Bool) (name : Located QualName), e.shape = .construct name none ∧
      name.value = .simple (if value then "true" else "false")
  | string, e => ∃ value delimiter, e.shape = .constant (.string value delimiter)
  | char, e => ∃ value, e.shape = .constant (.char value)
  | oneOf tags, e => ∃ tag ∈ tags, e.shape = .variant tag none
  | list _, e => ∃ elements, e.IsListOf elements

/-- Reading `e` in the format `f` means reading `x` in the format `g` at the position `path`, which
has the index of an element for each list that is entered. -/
inductive Enters : Format → Expr π → List Nat → Format → Expr π → Prop
  | here (f : Format) (e : Expr π) : Enters f e [] f e
  | element {item g : Format} {e x y : Expr π} {es : List (Expr π)} {i : Nat} {path : List Nat}
      (hlist : e.IsListOf es) (hx : es[i]? = some x) (h : Enters item x path g y) :
      Enters (list item) e (i :: path) g y

/-- The first position, from left to right, at which something else is than what is expected. -/
structure FirstMismatch (f : Format) (e : Expr π) (path : List Nat) (g : Format) : Prop where
  enters : ∃ x, f.Enters e path g x ∧ ¬ g.Expects x
  expects_of_lt : ∀ path' < path, ∀ g' x, f.Enters e path' g' x → g'.Expects x

/-- The complaint about something else than what is expected; any expression is expected as such. -/
def complaint? : Format → Option String
  | expr => none
  | int => some "integer"
  | bool => some "boolean"
  | string => some "string"
  | char => some "character"
  | oneOf tags => some (Decoder.oneOfText tags)
  | list _ => some "list"

/-- A complaint about an element inside `depth` lists. -/
def inLists (depth : Nat) (complaint : String) : String :=
  joinAll (List.replicate depth "list:") ++ complaint

/-! ## one position -/

/-- A format that is not a list decides at the expression itself. -/
theorem decoder_leaf (f : Format) (hleaf : ∀ item, f ≠ list item) (e : Expr π) :
    (f.Expects e ∧ ∃ v, f.decoder e = .ok v ∧ f.Fits v) ∨
    (¬ f.Expects e ∧ ∃ complaint, f.complaint? = some complaint ∧ f.decoder e =
    .error complaint) := by
  cases f with
  | expr => exact .inl ⟨trivial, e, rfl, trivial⟩
  | int =>
      obtain ⟨t, v, hshape, hdenotes, hread⟩ | ⟨hnone, hread⟩ := Decoder.int_cases e
      · exact .inl ⟨⟨t, v, hshape, hdenotes⟩, v, hread, hdenotes.fits⟩
      · exact .inr ⟨hnone, _, rfl, hread⟩
  | bool =>
      obtain ⟨value, name, hshape, hname, hread⟩ | ⟨hnone, hread⟩ := Decoder.bool_cases e
      · exact .inl ⟨⟨value, name, hshape, hname⟩, value, hread, trivial⟩
      · exact .inr ⟨hnone, _, rfl, hread⟩
  | string =>
      obtain ⟨value, delimiter, hshape, hread⟩ | ⟨hnone, hread⟩ := Decoder.string_cases e
      · exact .inl ⟨⟨value, delimiter, hshape⟩, value, hread, trivial⟩
      · exact .inr ⟨hnone, _, rfl, hread⟩
  | char =>
      obtain ⟨value, hshape, hread⟩ | ⟨hnone, hread⟩ := Decoder.char_cases e
      · exact .inl ⟨⟨value, hshape⟩, value, hread, trivial⟩
      · exact .inr ⟨hnone, _, rfl, hread⟩
  | oneOf tags =>
      obtain ⟨tag, htag, hshape, hread⟩ | ⟨hnone, hread⟩ := Decoder.oneOf_cases tags e
      · exact .inl ⟨⟨tag, htag, hshape⟩, tag, hread, htag⟩
      · exact .inr ⟨hnone, _, rfl, hread⟩
  | list item => exact absurd rfl (hleaf item)

/-! ## lists -/

/-- A list is read by reading its elements (`Decoder.elements`). -/
theorem decoder_list {item : Format} {e : Expr π} {es : List (Expr π)} (h : e.IsListOf es) :
    (list item).decoder e = Decoder.elements item.decoder es := by
  rw [decoder, Decoder.list, Expr.asArgument_eq_list_iff.2 h]

/-- What is no list is refused as a whole, before any element is looked at. -/
theorem decoder_list_of_not_expects {item : Format} {e : Expr π} (h : ¬ (list item).Expects e) :
    (list item).decoder e = .error "list" := by
  rw [decoder, Decoder.list]
  split
  · exact absurd ⟨_, Expr.asArgument_eq_list_iff.1 ‹_›⟩ h
  · rfl

/-! ## positions -/

/-- One path leads to one position. -/
theorem Enters.unique {f g g' : Format} {e x x' : Expr π} {path : List Nat}
    (h : f.Enters e path g x) (h' : f.Enters e path g' x') : g = g' ∧ x = x' := by
  induction h with
  | here => cases h'; exact ⟨rfl, rfl⟩
  | element hlist hx h ih =>
      cases h' with
      | element hlist' hx' h' =>
          obtain rfl := hlist.unique hlist'
          obtain rfl := Option.some.inj (hx.symm.trans hx')
          exact ih h'

/-- What is not expected at the top is the first mismatch, since no path comes before the empty
one. -/
theorem firstMismatch_here {f : Format} {e : Expr π} (h : ¬ f.Expects e) :
    f.FirstMismatch e [] f where
  enters := ⟨e, .here f e, h⟩
  expects_of_lt path' hlt := absurd hlt (List.not_lt_nil path')

/-- There is one first mismatch at most. -/
theorem FirstMismatch.unique {f g g' : Format} {e : Expr π} {path path' : List Nat}
    (h : f.FirstMismatch e path g) (h' : f.FirstMismatch e path' g') : path = path' ∧ g = g' := by
  obtain ⟨x, hx, hmismatch⟩ := h.enters
  obtain ⟨x', hx', hmismatch'⟩ := h'.enters
  -- The order of paths is total, and each mismatch rules out one at a lesser path.
  rcases lt_trichotomy path path' with hlt | rfl | hlt
  · exact absurd (h'.expects_of_lt path hlt g x hx) hmismatch
  · exact ⟨rfl, (hx.unique hx').1⟩
  · exact absurd (h.expects_of_lt path' hlt g' x' hx') hmismatch'

/-- The positions in a list literal are the literal itself and those in its elements. -/
theorem enters_list_iff {item g : Format} {e y : Expr π} {es : List (Expr π)} (h : e.IsListOf es)
    {path : List Nat} :
    (list item).Enters e path g y ↔ (path = [] ∧ g = list item ∧ y = e) ∨
      ∃ i x rest, path = i :: rest ∧ es[i]? = some x ∧ item.Enters x rest g y := by
  constructor
  · intro henters
    cases henters with
    | here => exact .inl ⟨rfl, rfl, rfl⟩
    | element hlist hx henters =>
        obtain rfl := h.unique hlist
        exact .inr ⟨_, _, _, rfl, hx, henters⟩
  · rintro (⟨rfl, rfl, rfl⟩ | ⟨i, x, rest, rfl, hx, henters⟩)
    · exact .here _ _
    · exact .element h hx henters

/-- The first mismatch of the first element that has one is that of the list. -/
theorem FirstMismatch.element {item g : Format} {e x : Expr π} {es : List (Expr π)} {i : Nat}
    {path : List Nat} (hlist : e.IsListOf es) (hx : es[i]? = some x)
    (hbefore : ∀ j < i, ∀ y, es[j]? = some y →
      ∀ path g' z, item.Enters y path g' z → g'.Expects z)
    (h : item.FirstMismatch x path g) : (list item).FirstMismatch e (i :: path) g where
  enters := by
    obtain ⟨y, hy, hmismatch⟩ := h.enters
    exact ⟨y, .element hlist hx hy, hmismatch⟩
  expects_of_lt path' hlt g' z hz := by
    obtain ⟨rfl, rfl, rfl⟩ | ⟨j, y, rest, rfl, hy, hz⟩ := (enters_list_iff hlist).1 hz
    · exact ⟨es, hlist⟩
    · -- A lesser path enters an earlier element, or goes on to a lesser position in the same one.
      obtain hj | ⟨rfl, hrest⟩ := List.cons_lt_cons_iff.1 hlt
      · exact hbefore j hj y hy rest g' z hz
      · obtain rfl := Option.some.inj (hx.symm.trans hy)
        exact h.expects_of_lt rest hrest g' z hz

/-! ## reading at all positions -/

/-- Each list around a position adds one word to the complaint. -/
theorem inLists_succ (depth : Nat) (complaint : String) :
    inLists (depth + 1) complaint = "list:" ++ inLists depth complaint := by
  rw [inLists, List.replicate_succ, joinAll, String.append_assoc, ← inLists]

/-- What reading an expression comes to: a value if all positions are passed, and else a complaint
about the first that is not. -/
inductive Reading (f : Format) (e : Expr π) : Except String (f.Value π) → Prop
  | passes {v : f.Value π} (hfits : f.Fits v)
      (hall : ∀ path g x, f.Enters e path g x → g.Expects x) : Reading f e (.ok v)
  | stops {path : List Nat} {g : Format} {complaint message : String}
      (hfirst : f.FirstMismatch e path g) (hcomplaint : g.complaint? = some complaint)
      (hmessage : message = inLists path.length complaint) : Reading f e (.error message)

section

variable {f item : Format} {e : Expr π} {es : List (Expr π)}

/-- What is read is a value of the format. -/
theorem Reading.fits {v : f.Value π} (h : f.Reading e (.ok v)) : f.Fits v := by
  cases h with
  | passes hfits hall => exact hfits

/-- A read that succeeds has found what it expects at every position. -/
theorem Reading.expects {v : f.Value π} (h : f.Reading e (.ok v)) :
    ∀ path g x, f.Enters e path g x → g.Expects x := by
  cases h with
  | passes hfits hall => exact hall

/-- A read that fails complains about the first mismatch, with its depth. -/
theorem Reading.firstMismatch {message : String} (h : f.Reading e (.error message)) :
    ∃ path g complaint, f.FirstMismatch e path g ∧ g.complaint? = some complaint ∧
      message = inLists path.length complaint := by
  cases h with
  | stops hfirst hcomplaint hmessage => exact ⟨_, _, _, hfirst, hcomplaint, hmessage⟩

/-- A format that is not a list has one position. -/
theorem reading_leaf (hleaf : ∀ item, f ≠ list item) : f.Reading e (f.decoder e) := by
  obtain ⟨hexpects, v, hread, hfits⟩ | ⟨hnot, complaint, hcomplaint, hread⟩ :=
    decoder_leaf f hleaf e
  · rw [hread]
    refine .passes hfits fun path g x henters => ?_
    cases henters with
    | here => exact hexpects
    | element => exact absurd rfl (hleaf _)
  · rw [hread]
    exact .stops (firstMismatch_here hnot) hcomplaint rfl

/-- The positions of a list literal are those of its elements; the first element that is refused
decides. -/
theorem reading_list (hitem : ∀ x : Expr π, item.Reading x (item.decoder x))
    (hlist : e.IsListOf es) :
    (list item).Reading e ((list item).decoder e) := by
  have hok {x : Expr π} {v : item.Value π} (hx : item.decoder x = .ok v) : item.Reading x (.ok v) :=
    hx ▸ hitem x
  rw [decoder_list hlist]
  obtain ⟨vs, hvs⟩ | ⟨i, x, expected, hx, hbefore, hexpected, herror⟩ :=
    Decoder.elements_cases item.decoder es
  · obtain ⟨hes, hvs'⟩ := Decoder.exists_of_elements_eq_ok hvs
    rw [hvs]
    refine .passes (fun v hv => ?_) fun path g y henters => ?_
    · obtain ⟨x, hx⟩ := hvs' v hv
      exact (hok hx).fits
    · obtain ⟨rfl, rfl, rfl⟩ | ⟨i, x, rest, rfl, hx, hy⟩ := (enters_list_iff hlist).1 henters
      · exact ⟨es, hlist⟩
      · obtain ⟨v, hv⟩ := hes x (List.mem_of_getElem? hx)
        exact (hok hv).expects rest g y hy
  · have hrefused : item.Reading x (.error expected) := hexpected ▸ hitem x
    obtain ⟨path, g, complaint, hfirst, hcomplaint, rfl⟩ := hrefused.firstMismatch
    rw [herror, ← inLists_succ]
    refine .stops (.element hlist hx (fun j hj y hy => ?_) hfirst) hcomplaint rfl
    obtain ⟨v, hv⟩ := hbefore j hj y hy
    exact (hok hv).expects

end

theorem reading_decoder (f : Format) (e : Expr π) : f.Reading e (f.decoder e) := by
  induction f generalizing e with
  | list item ih =>
      by_cases hexpects : (list item).Expects e
      · obtain ⟨es, hlist⟩ := hexpects
        exact reading_list ih hlist
      · rw [decoder_list_of_not_expects hexpects]
        exact .stops (firstMismatch_here hexpects) rfl rfl
  | expr | int | bool | string | char | oneOf => exact reading_leaf (by simp)

/-- A read succeeds exactly if everything is as expected. -/
theorem decoder_eq_ok_iff {f : Format} {e : Expr π} :
    (∃ v, f.decoder e = .ok v) ↔ ∀ path g x, f.Enters e path g x → g.Expects x := by
  have hreading := reading_decoder f e
  cases hread : f.decoder e with
  | ok v =>
      rw [hread] at hreading
      exact ⟨fun _ => hreading.expects, fun _ => ⟨v, rfl⟩⟩
  | error message =>
      rw [hread] at hreading
      obtain ⟨path, g, -, hfirst, -, -⟩ := hreading.firstMismatch
      obtain ⟨x, hx, hmismatch⟩ := hfirst.enters
      exact ⟨nofun, fun hall => absurd (hall path g x hx) hmismatch⟩

/-- It fails with the complaint about the first mismatch and with nothing else. -/
theorem decoder_eq_error_iff {f : Format} {e : Expr π} {message : String} :
    f.decoder e = .error message ↔ ∃ path g complaint, f.FirstMismatch e path g ∧
      g.complaint? = some complaint ∧ message = inLists path.length complaint := by
  have hreading := reading_decoder f e
  constructor
  · intro hread
    rw [hread] at hreading
    exact hreading.firstMismatch
  · rintro ⟨path, g, complaint, hfirst, hcomplaint, rfl⟩
    cases hread : f.decoder e with
    | ok v =>
        rw [hread] at hreading
        obtain ⟨x, hx, hmismatch⟩ := hfirst.enters
        exact absurd (hreading.expects path g x hx) hmismatch
    | error message =>
        rw [hread] at hreading
        obtain ⟨path', g', complaint', hfirst', hcomplaint', rfl⟩ := hreading.firstMismatch
        obtain ⟨rfl, rfl⟩ := hfirst.unique hfirst'
        obtain rfl := Option.some.inj (hcomplaint.symm.trans hcomplaint')
        rfl

/-! ## reading what was built -/

/-- What is built from a value is read as the value. -/
theorem decoder_of_builds {f : Format} {v : f.Value π} {e : Expr π} (hfits : f.Fits v)
    (hbuilds : f.Builds v e) : f.decoder e = .ok v := by
  induction f generalizing e with
  | expr => exact congrArg Except.ok hbuilds
  | int =>
      obtain ⟨span, rfl⟩ := hbuilds
      exact Decoder.int_int hfits.1 hfits.2 span
  | bool =>
      obtain ⟨span, rfl⟩ := hbuilds
      cases v <;> rfl
  | string | char =>
      obtain ⟨span, rfl⟩ := hbuilds
      rfl
  | oneOf tags =>
      obtain ⟨span, rfl⟩ := hbuilds
      exact if_pos (List.contains_iff_mem.2 hfits)
  | list item ih =>
      obtain ⟨es, span, rfl, hes⟩ := hbuilds
      have hread : List.Forall₂ (fun v e => item.decoder e = .ok v) v es :=
        ((List.forall₂_and_left _ _).2 ⟨hfits, hes⟩).imp fun v e h => ih h.1 h.2
      exact (decoder_list (Expr.isListOf_list es span)).trans (Decoder.elements_eq_ok_iff.2 hread)

/-- Every value of a format can be built. -/
theorem exists_builds (f : Format) (v : f.Value π) : ∃ e, f.Builds v e := by
  induction f with
  | expr => exact ⟨v, rfl⟩
  | int | bool | string | char | oneOf => exact ⟨_, .generated, rfl⟩
  | list item ih =>
      have hall (vs : List (item.Value π)) : ∃ es, List.Forall₂ item.Builds vs es := by
        induction vs with
        | nil => exact ⟨[], .nil⟩
        | cons v vs ihvs =>
            obtain ⟨e, he⟩ := ih v
            obtain ⟨es, hes⟩ := ihvs
            exact ⟨e :: es, .cons he hes⟩
      obtain ⟨es, hes⟩ := hall v
      exact ⟨_, es, .generated, rfl, hes⟩

/-- The values of a format are those that its decoder can give. -/
theorem fits_iff {f : Format} {v : f.Value π} : f.Fits v ↔ ∃ e, f.decoder e = .ok v := by
  constructor
  · intro hfits
    obtain ⟨e, hbuilds⟩ := exists_builds f v
    exact ⟨e, decoder_of_builds hfits hbuilds⟩
  · rintro ⟨e, hread⟩
    have hreading := reading_decoder f e
    rw [hread] at hreading
    exact hreading.fits

/-- **Decoders invert builders.** A decoder made by any nesting of lists gives back the value that
an expression was built from, whichever of its values that is. It reads an expression exactly if
each position is as expected there, and else it complains about the first position that is not, once
for each list that was entered on the way to it. -/
theorem decoders_invert_builders (f : Format) :
    (∀ (v : f.Value π) (e : Expr π), f.Fits v → f.Builds v e → f.decoder e = .ok v) ∧
    (∀ v : f.Value π, f.Fits v ↔ ∃ e, f.decoder e = .ok v) ∧
    ∀ e : Expr π,
      ((∃ v, f.decoder e = .ok v) ↔ ∀ path g x, f.Enters e path g x → g.Expects x) ∧
      ∀ message, f.decoder e = .error message ↔ ∃ path g complaint, f.FirstMismatch e path g ∧
        g.complaint? = some complaint ∧ message = inLists path.length complaint :=
  ⟨fun _ _ => decoder_of_builds, fun _ => fits_iff,
    fun _ => ⟨decoder_eq_ok_iff, fun _ => decoder_eq_error_iff⟩⟩

/-- The list `[[1]; [2; -3]]`, and a list with a string that is met before the other mistake. -/
theorem decoders_invert_builders_nested :
    let f := list (list int)
    let int (n : Int) : Expr Payload := .int n .generated
    let list (es : List (Expr Payload)) : Expr Payload := .list es .generated
    let good := list [list [int 1], list [int 2, int (-3)]]
    let bad := list [list [int 1], list [int 2, .string "x" .generated], int 4]
    (f.Fits (π := Payload) [[1], [2, -3]] ∧ f.Builds [[1], [2, -3]] good ∧
      f.decoder good = .ok [[1], [2, -3]]) ∧
    f.decoder bad = .error "list:list:integer" ∧
    ∃ path g complaint, f.FirstMismatch bad path g ∧ g.complaint? = some complaint ∧
      "list:list:integer" = inLists path.length complaint := by
  intro f int list good bad
  obtain ⟨hinvert, -, hread⟩ := decoders_invert_builders (π := Payload) f
  have hfits : f.Fits (π := Payload) [[1], [2, -3]] := by simp [f, Fits]
  have hbuilds : f.Builds [[1], [2, -3]] good :=
    ⟨_, .generated, rfl, .cons ⟨_, .generated, rfl, .cons ⟨.generated, rfl⟩ .nil⟩
      (.cons ⟨_, .generated, rfl, .cons ⟨.generated, rfl⟩ (.cons ⟨.generated, rfl⟩ .nil)⟩ .nil)⟩
  have hrefused : f.decoder bad = .error "list:list:integer" := rfl
  exact ⟨⟨hfits, hbuilds, hinvert _ _ hfits hbuilds⟩, hrefused, ((hread bad).2 _).1 hrefused⟩

end Format

end DeriveKit
