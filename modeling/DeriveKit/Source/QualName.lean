import DeriveKit.Text.Pieces

/-!
# DeriveKit.Source.QualName

Names qualified by modules (`M.N.t`): the enclosing modules, and the last segment, which is always
there. `segments_ofSegments` ties the two ways of writing a name down, and `dotted_ofDotted` and
`ofDotted_dotted` the text and the name. Operators are written in parentheses (`QualName.text`).
-/

namespace DeriveKit

/-- A name with the modules that qualify it, outermost first. -/
structure QualName where
  path : List String
  last : String
deriving DecidableEq, Repr, Inhabited

namespace QualName

/-- An unqualified name. -/
def simple (name : String) : QualName := ⟨[], name⟩

/-- The name with the given segments, of which there is at least a first one. -/
def ofSegments : String → List String → QualName
  | first, [] => simple first
  | first, second :: rest => ⟨first :: (ofSegments second rest).path, (ofSegments second rest).last⟩

/-- Reads a name written with dots between its segments. Every dot separates, also a leading or a
trailing one, so some segments may be empty. -/
def ofDotted (dotted : String) : QualName :=
  ofSegments (String.ofList (cutAt '.' dotted.toList).1)
    ((cutAt '.' dotted.toList).2.map String.ofList)

/-- All segments, outermost first. -/
def segments (n : QualName) : List String := n.path ++ [n.last]

/-- All segments with `sep` between them. -/
def joined (n : QualName) (sep : String) : String := joinWith sep n.segments

/-- The name as one writes it with dots, operators included. -/
def dotted (n : QualName) : String := n.joined "."

/-- Whether some module qualifies the name. -/
def isQualified (n : QualName) : Bool := !n.path.isEmpty

/-- The member called `name` of the module that `n` names. -/
def member (n : QualName) (name : String) : QualName := ⟨n.path ++ [n.last], name⟩

/-- The same qualification with another last segment. -/
def withLast (n : QualName) (name : String) : QualName := ⟨n.path, name⟩

/-- The characters an operator may begin with. -/
def operatorChars : List Char :=
  ['!', '$', '%', '&', '*', '+', '-', '.', '/', ':', '<', '=', '>', '?', '@', '^', '|', '~', '#']

/-- Names that begin with a symbol are operators; the names of the list constructors and of the
unit value are not. -/
def isOperator (name : String) : Bool :=
  name != "::" && name != "()" && name != "[]" &&
    match name.toList with
    | [] => false
    | c :: _ => operatorChars.contains c

/-- Source text of the name; an operator stands in parentheses. -/
def text (n : QualName) : String :=
  joinAll (n.path.map (· ++ ".")) ++
    if isOperator n.last then "( " ++ n.last ++ " )" else n.last

/-- Taking the last segment off a list of segments and putting it back changes nothing. -/
@[simp] theorem segments_ofSegments (first : String) (rest : List String) :
    (ofSegments first rest).segments = first :: rest := by
  induction rest generalizing first with
  | nil => rfl
  | cons second rest ih => simpa [ofSegments, segments] using ih second

/-- A name without dots is one segment. -/
theorem ofDotted_of_dot_not_mem {s : String} (h : '.' ∉ s.toList) : ofDotted s = simple s := by
  rw [ofDotted, cutAt_of_not_mem h]
  exact congrArg simple String.ofList_toList

@[simp] theorem segments_member (n : QualName) (name : String) :
    (n.member name).segments = n.segments ++ [name] := rfl

/-- A name is determined by its segments. -/
theorem segments_injective {m n : QualName} (h : m.segments = n.segments) : m = n := by
  obtain ⟨hp, hl⟩ := List.append_inj' h rfl
  cases m; cases n; simp_all

/-- The segments of a name written with dots are the pieces between them. -/
theorem segments_ofDotted (dotted : String) :
    (ofDotted dotted).segments = (pieces '.' dotted.toList).map String.ofList :=
  segments_ofSegments _ _

/-- A dot splits the last segment off. -/
theorem ofDotted_append_dot (s : String) {last : String} (h : '.' ∉ last.toList) :
    ofDotted (s ++ "." ++ last) = (ofDotted s).member last := by
  have hlast : pieces '.' last.toList = [last.toList] := pieces_of_not_mem h
  have hcut : (s ++ "." ++ last).toList = s.toList ++ '.' :: last.toList := by simp
  apply segments_injective
  rw [segments_ofDotted, segments_member, segments_ofDotted, hcut, pieces_append_cons, hlast]
  simp

/-- Splitting a text at its dots and joining the segments gives it back. -/
theorem dotted_ofDotted (s : String) : (ofDotted s).dotted = s := by
  rw [dotted, joined, segments_ofDotted]
  exact (joinWith_pieces '.' s.toList).trans String.ofList_toList

/-- No segment of a name that was read has a dot. -/
theorem dot_not_mem_of_mem_segments_ofDotted {s t : String} (h : t ∈ (ofDotted s).segments) :
    '.' ∉ t.toList := by
  rw [segments_ofDotted] at h
  obtain ⟨p, hp, rfl⟩ := List.mem_map.1 h
  rw [String.toList_ofList]
  exact not_mem_of_mem_pieces hp

/-- Reading a name with dots gives the segments that were written. -/
theorem segments_ofDotted_joinWith {s : String} {segments : List String}
    (h : ∀ t ∈ s :: segments, '.' ∉ t.toList) :
    (ofDotted (joinWith "." (s :: segments))).segments = s :: segments := by
  have hpieces : pieces '.' (joinWith "." (s :: segments)).toList =
      (s :: segments).map String.toList := pieces_joinWith h
  rw [segments_ofDotted, hpieces, List.map_map]
  simp

/-- A name without dots in its segments is read back from its text. -/
theorem ofDotted_dotted {n : QualName} (h : ∀ t ∈ n.segments, '.' ∉ t.toList) :
    ofDotted n.dotted = n := by
  obtain ⟨s, rest, hsegments⟩ : ∃ s rest, n.segments = s :: rest :=
    List.exists_cons_of_ne_nil (by simp [segments])
  apply segments_injective
  rw [dotted, joined, hsegments, segments_ofDotted_joinWith (hsegments ▸ h)]

/-- A name whose last segment is no operator is written with dots and nothing else. -/
theorem text_eq_dotted {n : QualName} (h : isOperator n.last = false) : n.text = n.dotted := by
  have hjoin : ∀ path : List String,
      joinAll (path.map (· ++ ".")) ++ n.last = joinWith "." (path ++ [n.last]) := by
    intro path
    induction path with
    | nil => rw [List.map_nil, joinAll, String.empty_append, List.nil_append, joinWith]
    | cons s path ih =>
        obtain ⟨t, rest, ht⟩ : ∃ t rest, path ++ [n.last] = t :: rest :=
          List.exists_cons_of_ne_nil (by simp)
        rw [List.map_cons, joinAll, String.append_assoc, ih, List.cons_append, ht,
          joinWith_cons_cons]
  rw [text, h, if_neg Bool.false_ne_true, dotted, joined, segments, hjoin]

end QualName

end DeriveKit
