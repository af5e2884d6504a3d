import DeriveKit.Proofs.Reading
import DeriveKit.Text.Pattern

/-!
# DeriveKit.Proofs.ReadName

The names of values, fields, modules and constructors can be read back. Other than in types, a name
has to be told apart by its role: constructors and modules begin with a capital letter, values and
fields do not.

* `reads_valueName`, `reads_labelName`, `reads_modulePath`, `reads_constructorName` — what is read;
* `noOpening_of_keyword`, `noOpening_of_sign` — where nothing is.
-/

namespace DeriveKit

/-! ## combining readers -/

section

variable {α β : Type} {read : Reader α} {stops stops' : List Char → Prop} {text : String} {a : α}
  {cs : List Char}

/-- A text that is read up to some places is read up to fewer of them. -/
theorem Reads.weaken (h : Reads read stops text a) (hstops : ∀ cs, stops' cs → stops cs) :
    Reads read stops' text a :=
  fun rest hrest => h rest (hstops rest hrest)

/-- A word is not expected where another character stands than its first one. -/
theorem expect_of_ne {w : String} {c : Char} (h : w.toList.head?.any (· != c)) :
    expect w (c :: cs) = none := by
  rw [Option.any_eq_true] at h
  obtain ⟨d, hd, hne⟩ := h
  obtain ⟨ds, hw⟩ := List.head?_eq_some_iff.1 hd
  rw [expect, hw, dropLead, if_neg (bne_iff_ne.1 hne)]

/-- A text that begins with a closer stands where something closes. -/
theorem stopsAt_append {closers : List String} {lead : String} (h : lead ∈ closers) (text : String)
    (cs : List Char) : StopsAt closers ((lead ++ text).toList ++ cs) := by
  rw [String.toList_append, List.append_assoc]
  exact .lead h _

/-! ### one after the other -/

/-- Takes nothing off the text. -/
def readNothing (a : α) : Reader α := fun cs => some (a, cs)

/-- Reads a value and makes another one of it. -/
def readAs (f : α → β) (read : Reader α) : Reader β := fun cs => (read cs).map fun r => (f r.1, r.2)

/-- Reads a value and then what depends on it. -/
def andThen (read : Reader α) (next : α → Reader β) : Reader β := fun cs =>
  read cs >>= fun r => next r.1 r.2

/-- Reads what comes before a word, and the word. -/
def before (word : String) (read : Reader α) : Reader α := fun cs =>
  read cs >>= fun r => (expect word r.2).map (r.1, ·)

/-- `readNothing` reads the empty text, as the value that it is given. -/
theorem reads_readNothing (a : α) : Reads (readNothing a) (fun _ => True) "" a := fun _ _ => rfl

/-- `readAs` fails where its reader does. -/
theorem readAs_of_none (h : read cs = none) (f : α → β) : readAs f read cs = none := by
  rw [readAs, h, Option.map_none]

/-- `andThen` fails where its first reader does. -/
theorem andThen_of_none (h : read cs = none)
    (next : α → Reader β) : andThen read next cs = none := by
  rw [andThen, h, Option.bind_eq_bind, Option.bind_none]

/-- `before` fails where its reader does, whether the word is there or not. -/
theorem before_of_none (h : read cs = none) (word : String) : before word read cs = none := by
  rw [before, h, Option.bind_eq_bind, Option.bind_none]

/-- What is read may be wrapped in something else. -/
theorem Reads.as (h : Reads read stops text a) (f : α → β) :
    Reads (readAs f read) stops text (f a) := by
  intro rest hrest
  rw [readAs, h rest hrest, Option.map_some]

/-- One text after another is read by one reader after another, if the first ends where the second
begins. -/
theorem Reads.andThen {next : α → Reader β} {text' : String} {b : β} (h : Reads read stops text a)
    (hnext : Reads (next a) stops' text' b)
    (hstops : ∀ rest, stops' rest → stops (text'.toList ++ rest)) :
    Reads (andThen read next) stops' (text ++ text') b := by
  intro rest hrest
  rw [String.toList_append, List.append_assoc, DeriveKit.andThen, h _ (hstops rest hrest),
    Option.bind_eq_bind, Option.bind_some, hnext rest hrest]

/-- A text with a closing word behind it is read to the end of the word, whatever follows. -/
theorem Reads.before {word : String} (h : Reads read stops text a)
    (hstops : ∀ rest, stops (word.toList ++ rest)) :
    Reads (before word read) (fun _ => True) (text ++ word) a := by
  intro rest _
  rw [String.toList_append, List.append_assoc, DeriveKit.before, h _ (hstops rest),
    Option.bind_eq_bind, Option.bind_some, expect_append, Option.map_some]

/-- Texts with separators between them are read by one reader. None of them is longer than all of
them together, so a bound on the whole is one on each. -/
theorem Reads.sepBy {τ : Type} {sep : String} {f : τ → String} {g : τ → α} {ts : List τ}
    (h : ∀ t ∈ ts, (f t).length ≤ (joinWith sep (ts.map f)).length → Reads read stops (f t) (g t))
    (hts : ts ≠ []) (hsep : sep ≠ "") (hstops : ∀ cs, stops (sep.toList ++ cs)) :
    Reads (sepBy sep read) (fun rest => stops rest ∧ DeriveKit.after sep read rest = none)
      (joinWith sep (ts.map f)) (ts.map g) := by
  have hread : ∀ t ∈ ts, Reads read stops (f t) (g t) := fun t ht =>
    h t ht (length_le_length_joinWith sep (List.mem_map_of_mem ht))
  exact fun _ hrest => sepBy_joinWith hread hts hsep hstops hrest.1 hrest.2

/-- Texts with separators between them are read up to the word that closes them. -/
theorem Reads.sepBy_before {τ : Type} {sep close : String} {f : τ → String} {g : τ → α}
    {ts : List τ}
    (h : ∀ t ∈ ts, (f t).length ≤ (joinWith sep (ts.map f)).length → Reads read stops (f t) (g t))
    (hts : ts ≠ []) (hsep : sep ≠ "") (hstops : ∀ cs, stops (sep.toList ++ cs))
    (hclose : ∀ cs, stops (close.toList ++ cs)) (hclash : clash sep.toList close.toList)
    (make : List α → β) :
    Reads (DeriveKit.before close (readAs make (DeriveKit.sepBy sep read))) (fun _ => True)
      (joinWith sep (ts.map f) ++ close) (make (ts.map g)) :=
  ((Reads.sepBy h hts hsep hstops).as make).before fun rest =>
    ⟨hclose rest, after_of_expect (expect_of_clash hclash rest)⟩

/-! ### any number -/

/-- Reads as often as there is something to read. -/
def several (read : Reader α) : Reader (List α) := fun cs => some (many read cs)

/-- `several` reads nothing where nothing can be read. -/
theorem reads_several_nil (h : ∀ rest, stops rest → read rest = none) :
    Reads (several read) stops "" [] := fun rest hrest =>
      congrArg some (many_of_none (h rest hrest))

/-- It reads a text and what is read after it. -/
theorem Reads.several_cons {text' : String} {as : List α} (h : Reads read stops text a)
    (htext : text ≠ "") (hmore : Reads (several read) stops' text' as)
    (hstops : ∀ rest, stops' rest → stops (text'.toList ++ rest)) :
    Reads (several read) stops' (text ++ text') (a :: as) := by
  intro rest hrest
  have hmore := Option.some.inj (hmore rest hrest)
  rw [String.toList_append, List.append_assoc, several,
    many_append h htext (hstops rest hrest), hmore]

/-- Texts that each follow the same word are read by one reader. -/
theorem Reads.several {τ : Type} {lead : String} {f : τ → String} {g : τ → α} {ts : List τ}
    (h : ∀ t ∈ ts, Reads read stops (f t) (g t)) (hlead : lead ≠ "")
    (hstops : ∀ cs, stops (lead.toList ++ cs)) :
    Reads (several (DeriveKit.after lead read))
      (fun rest => stops rest ∧ DeriveKit.after lead read rest = none)
      (leadEach lead (ts.map f)) (ts.map g) :=
  fun _ hrest => congrArg some (many_leadEach h hlead hstops hrest.1 hrest.2)

/-! ### one of several -/

/-- Reads with the first of some readers that reads anything. -/
def firstOf (readers : List (Reader α)) : Reader α := fun cs => readers.findSome? (· cs)

variable {readers : List (Reader α)}

@[simp] theorem firstOf_nil : firstOf ([] : List (Reader α)) cs = none := rfl

/-- `firstOf` passes over a reader that fails. -/
theorem firstOf_cons_of_none (h : read cs = none) :
    firstOf (read :: readers) cs = firstOf readers cs := by
  rw [firstOf, List.findSome?_cons, h]
  rfl

/-- `firstOf` goes no further than a reader that succeeds. -/
theorem firstOf_cons_of_some {r : α × List Char} (h : read cs = some r) :
    firstOf (read :: readers) cs = some r := by
  rw [firstOf, List.findSome?_cons, h]

@[simp] theorem firstOf_singleton : firstOf [read] cs = read cs := by
  rw [firstOf, List.findSome?_cons]
  cases read cs <;> rfl

/-- It fails if all its readers do. -/
theorem firstOf_eq_none (h : ∀ read ∈ readers, read cs = none) : firstOf readers cs = none :=
  List.findSome?_eq_none_iff.2 h

/-- What the first reader reads is read. -/
theorem Reads.first (h : Reads read stops text a) :
    Reads (firstOf (read :: readers)) stops text a :=
  fun rest hrest => firstOf_cons_of_some (h rest hrest)

/-- The first reader does not count if it reads nothing. -/
theorem Reads.later (h : Reads (firstOf readers) stops text a)
    (hnone : ∀ rest, stops rest → read (text.toList ++ rest) = none) :
    Reads (firstOf (read :: readers)) stops text a := by
  intro rest hrest
  rw [firstOf_cons_of_none (hnone rest hrest), h rest hrest]

/-- The first reader does not count if it expects another word than the one the text begins with. -/
theorem Reads.later_of_clash {word lead : String}
    (h : Reads (firstOf readers) stops (lead ++ text) a)
    (hclash : clash word.toList lead.toList) :
    Reads (firstOf (DeriveKit.after word read :: readers)) stops (lead ++ text) a := by
  refine h.later fun rest _ => after_of_expect ?_
  rw [String.toList_append, List.append_assoc]
  exact expect_of_clash hclash _

end

/-! ## names by their role -/

/-- Whether the letter is a capital one. -/
def isCapital (c : Char) : Bool :=
  c.isUpper || (0xc0 ≤ c.toNat && c.toNat ≤ 0xde && c.toNat != 0xd7) ||
    [0x152, 0x160, 0x178, 0x17d, 0x1e9e].contains c.toNat

/-- Whether the text begins with a capital letter. -/
def isCapitalized (s : String) : Bool := s.toList.head?.any isCapital

/-- Whether the text is the name of a module or a constructor. -/
def isUpperName (s : String) : Bool := isName s && isCapitalized s

/-- Whether the text is the name of a value or a field. -/
def isLowerName (s : String) : Bool := isName s && !isCapitalized s

/-- Reads the name of a module or a constructor. -/
def readUpper : Reader String := fun cs => (readName cs).filter fun r => isCapitalized r.1

/-- Reads the name of a value or a field. -/
def readLower : Reader String := fun cs => (readName cs).filter fun r => !isCapitalized r.1

section

variable {s : String} {cs : List Char}

/-- A name with a capital letter is a name. -/
theorem isName_of_isUpperName (h : isUpperName s) : isName s := ((Bool.and_eq_true _ _).mp h).1

/-- A name that begins with a small letter is a name. -/
theorem isName_of_isLowerName (h : isLowerName s) : isName s := ((Bool.and_eq_true _ _).mp h).1

/-- Names with a capital letter are read back by `readUpper`. -/
theorem reads_readUpper (h : isUpperName s) : Reads readUpper (Ends isNameChar) s s := by
  intro rest hrest
  rw [isUpperName, Bool.and_eq_true] at h
  rw [readUpper, reads_readName h.1 rest hrest, Option.filter_some, if_pos h.2]

/-- Names with a small letter are read back by `readLower`. -/
theorem reads_readLower (h : isLowerName s) : Reads readLower (Ends isNameChar) s s := by
  intro rest hrest
  rw [isLowerName, Bool.and_eq_true] at h
  rw [readLower, reads_readName h.1 rest hrest, Option.filter_some, if_pos h.2]

/-- No name is read in both ways: `readUpper` refuses the names of values. -/
theorem readUpper_of_isLowerName (h : isLowerName s) (hcs : Ends isNameChar cs) :
    readUpper (s.toList ++ cs) = none := by
  rw [isLowerName, Bool.and_eq_true, Bool.not_eq_true'] at h
  rw [readUpper, reads_readName h.1 cs hcs, Option.filter_some, h.2, if_neg Bool.false_ne_true]

/-- `readLower` refuses the names of modules and constructors. -/
theorem readLower_of_isUpperName (h : isUpperName s) (hcs : Ends isNameChar cs) :
    readLower (s.toList ++ cs) = none := by
  rw [isUpperName, Bool.and_eq_true] at h
  rw [readLower, reads_readName h.1 cs hcs, Option.filter_some, h.2, Bool.not_true,
    if_neg Bool.false_ne_true]

/-- Where no name stands, `readUpper` fails. -/
theorem readUpper_of_none (h : readName cs = none) : readUpper cs = none := by
  rw [readUpper, h, Option.filter_none]

/-- Where no name stands, `readLower` fails. -/
theorem readLower_of_none (h : readName cs = none) : readLower cs = none := by
  rw [readLower, h, Option.filter_none]

end

/-! ### qualification -/

/-- Reads a module that qualifies what follows. -/
def readSegment : Reader String := before "." readUpper

/-- Reads a name qualified by modules. What its last segment may be can depend on the modules. -/
def readQualified (last : List String → Reader String) : Reader QualName := fun cs => do
  let (path, rest) := many readSegment cs
  let (name, rest) ← last path rest
  some (⟨path, name⟩, rest)

namespace QualName

/-- Whether the modules that qualify the name are capitalized. -/
def isRooted (n : QualName) : Bool := n.path.all isUpperName

/-- Source text of the last segment; an operator stands in parentheses. -/
def lastText (n : QualName) : String :=
  if isOperator n.last then "( " ++ n.last ++ " )" else n.last

variable {n : QualName} {rest : List Char}

/-- Only an operator is written differently as the last segment of a name. -/
theorem lastText_of_not_operator (h : isOperator n.last = false) : n.lastText = n.last := by
  rw [lastText, h, if_neg Bool.false_ne_true]

/-- The modules before a name are read one by one, and the last segment is left
(`QualName.isRooted`). -/
theorem many_readSegment (h : n.isRooted) (hrest : readSegment (n.lastText.toList ++ rest) = none) :
    many readSegment (n.text.toList ++ rest) = (n.path, n.lastText.toList ++ rest) := by
  have hsegment : ∀ s ∈ n.path, Reads readSegment (fun _ => True) (s ++ ".") (id s) := by
    intro s hs
    exact (reads_readUpper (List.all_eq_true.1 h s hs)).before fun _ => rfl
  have hmany := many_joinAll hsegment (by simp) (fun _ _ _ => trivial) trivial hrest
  rw [List.map_id] at hmany
  rw [text, String.toList_append, List.append_assoc]
  exact hmany

/-- A name in a module is read back if its last segment is. -/
theorem reads_readQualified {last : List String → Reader String} {stops : List Char → Prop}
    (h : n.isRooted) (hlast : Reads (last n.path) stops n.lastText n.last)
    (hsegment : ∀ rest, stops rest → readSegment (n.lastText.toList ++ rest) = none) :
    Reads (readQualified last) stops n.text n := by
  intro rest hrest
  rw [readQualified, many_readSegment h (hsegment rest hrest)]
  simp only [hlast rest hrest, Option.bind_eq_bind, Option.bind_some]

/-- It is not read if its last segment is none of those that `last` reads. -/
theorem readQualified_of_none {last : List String → Reader String} (h : n.isRooted)
    (hsegment : readSegment (n.lastText.toList ++ rest) = none)
    (hlast : last n.path (n.lastText.toList ++ rest) = none) :
    readQualified last (n.text.toList ++ rest) = none := by
  rw [readQualified, many_readSegment h hsegment]
  simp only [hlast, Option.bind_eq_bind, Option.bind_none]

end QualName

section

variable {s : String} {cs : List Char}

/-- Where no name stands there is no module before one. -/
theorem readSegment_of_none (h : readName cs = none) : readSegment cs = none :=
  before_of_none (readUpper_of_none h) "."

/-- The name of a value is not taken for a module before it. -/
theorem readSegment_of_isLowerName (h : isLowerName s) (hcs : Ends isNameChar cs) :
    readSegment (s.toList ++ cs) = none :=
  before_of_none (readUpper_of_isLowerName h hcs) "."

/-- Nor is a constructor, if no dot follows. -/
theorem readSegment_of_isUpperName (h : isUpperName s) (hcs : Ends isPathChar cs) :
    readSegment (s.toList ++ cs) = none := by
  have hends : Ends isNameChar cs ∧ expect "." cs = none := by
    cases cs with
    | nil => exact ⟨trivial, rfl⟩
    | cons c cs =>
        obtain ⟨hname, hdot⟩ := Bool.or_eq_false_iff.1 hcs
        refine ⟨hname, expect_of_ne ?_⟩
        simpa using Ne.symm (beq_eq_false_iff_ne.1 hdot)
  rw [readSegment, before, reads_readUpper h cs hends.1, Option.bind_eq_bind, Option.bind_some,
    hends.2, Option.map_none]

/-- No qualified name is read where no name begins, if there is no last segment either. -/
theorem readQualified_of_readName {last : List String → Reader String} (h : readName cs = none)
    (hlast : last [] cs = none) : readQualified last cs = none := by
  rw [readQualified, many_of_none (readSegment_of_none h)]
  simp only [hlast, Option.bind_eq_bind, Option.bind_none]

end

/-! ### values, fields, modules and constructors -/

/-- Reads an operator in parentheses. -/
def readOperator : Reader String := fun cs => do
  let rest ← expect "( " cs
  let name := String.ofList (rest.takeWhile (· != ' '))
  let rest ← expect " )" (rest.dropWhile (· != ' '))
  some (name, rest)

/-- Reads the given word. -/
def readWord (word : String) : Reader String := fun cs => (expect word cs).map (word, ·)

/-- The constructors that are not capitalized. The one of non-empty lists has a text of its own only
if modules qualify it. -/
def constructorWords (path : List String) : List String :=
  ["()", "[]", "true", "false"] ++ if path.isEmpty then [] else ["::"]

/-- Reads the name of a value. -/
def readValueName : Reader QualName := readQualified fun _ => firstOf [readLower, readOperator]

/-- Reads the name of a field. -/
def readLabelName : Reader QualName := readQualified fun _ => readLower

/-- Reads the name of a module. -/
def readModulePath : Reader QualName := readQualified fun _ => readUpper

/-- Reads the name of a constructor. -/
def readConstructorName : Reader QualName :=
  readQualified fun path => firstOf (readUpper :: (constructorWords path).map readWord)

/-- Whether the text is an operator. -/
def isOperatorName (s : String) : Bool := QualName.isOperator s && s.toList.all (· != ' ')

namespace QualName

/-- Whether the name is that of a value. -/
def isValue (n : QualName) : Bool := n.isRooted && (isLowerName n.last || isOperatorName n.last)

/-- Whether the name is that of a field. -/
def isLabel (n : QualName) : Bool := n.isRooted && isLowerName n.last

/-- Whether the name is that of a module. -/
def isModule (n : QualName) : Bool := n.isRooted && isUpperName n.last

/-- Whether the name is that of a constructor that is written before its argument. -/
def isConstructor (n : QualName) : Bool :=
  n.isRooted && (isUpperName n.last || (constructorWords n.path).contains n.last)

end QualName

/-- A word that begins with a sign is not expected where a name begins. -/
theorem expect_of_isNameStart {w : String} {c : Char}
    (hw : w.toList.head?.any fun d => !isNameStart d) (hc : isNameStart c) (cs : List Char) :
    expect w (c :: cs) = none := by
  refine expect_of_ne ?_
  rw [Option.any_eq_true] at hw ⊢
  obtain ⟨d, hd, hstart⟩ := hw
  refine ⟨d, hd, bne_iff_ne.2 ?_⟩
  rintro rfl
  rw [hc] at hstart
  exact Bool.false_ne_true hstart

/-- The first reader does not count if it expects a sign and the text begins as a name does. -/
theorem Reads.later_of_isNameStart {α : Type} {read : Reader α} {readers : List (Reader α)}
    {stops : List Char → Prop} {text word : String} {a : α}
    (h : Reads (firstOf readers) stops text a)
    (hstart : ∃ c cs, text.toList = c :: cs ∧ isNameStart c)
    (hword : word.toList.head?.any fun d => !isNameStart d) :
    Reads (firstOf (DeriveKit.after word read :: readers)) stops text a := by
  obtain ⟨c, cs, htext, hc⟩ := hstart
  refine h.later fun rest _ => after_of_expect ?_
  rw [htext]
  exact expect_of_isNameStart hword hc _

/-- A character that begins no name keeps `readName` from reading one. -/
theorem readName_of_not_start {c : Char} (h : isNameStart c = false) (cs : List Char) :
    readName (c :: cs) = none := by
  by_cases hc : isNameChar c = true
  · have hname : isName (String.ofList ((c :: cs).takeWhile isNameChar)) = false := by
      simp [isName, List.takeWhile_cons_of_pos hc, h]
    rw [readName, hname, if_neg Bool.false_ne_true]
  · exact readName_of_ends (show Ends isNameChar (c :: cs) from Bool.eq_false_iff.2 hc)

section

variable {s w : String} {n : QualName} {words : List String} {cs : List Char}

/-- Where a name with modules ends, its last segment ends. -/
theorem ends_isNameChar_of_isPathChar (h : Ends isPathChar cs) : Ends isNameChar cs := by
  cases cs with
  | nil => trivial
  | cons c cs => exact (Bool.or_eq_false_iff.1 h).1

/-- An operator in parentheses is read back; the blanks keep it apart from a comment. -/
theorem reads_readOperator (h : isOperatorName s) :
    Reads readOperator (fun _ => True) ("( " ++ s ++ " )") s := by
  rw [isOperatorName, Bool.and_eq_true, List.all_eq_true] at h
  intro rest _
  have hspace : Ends (· != ' ') (" )".toList ++ rest) := rfl
  rw [String.toList_append, String.toList_append, List.append_assoc, List.append_assoc,
    readOperator, expect_append]
  simp only [takeWhile_append_of_ends h.2 hspace, dropWhile_append_of_ends h.2 hspace,
    expect_append, String.ofList_toList, Option.bind_eq_bind, Option.bind_some]

/-- Without the parenthesis and the blank there is no operator. -/
theorem readOperator_of_expect (h : expect "( " cs = none) : readOperator cs = none := by
  rw [readOperator, h, Option.bind_eq_bind, Option.bind_none]

/-- One of some words that differ is read. -/
theorem firstOf_readWord (hw : w ∈ words)
    (h : (words.all fun v => v == w || clash v.toList w.toList) = true) (cs : List Char) :
    firstOf (words.map readWord) (w.toList ++ cs) = some (w, cs) := by
  induction words with
  | nil => simp at hw
  | cons v words ih =>
      rw [List.all_cons, Bool.and_eq_true, Bool.or_eq_true, beq_iff_eq] at h
      by_cases hvw : v = w
      · subst hvw
        exact firstOf_cons_of_some (by rw [readWord, expect_append, Option.map_some])
      · have hclash : expect v (w.toList ++ cs) = none := expect_of_clash (h.1.resolve_left hvw) cs
        rw [List.map_cons, firstOf_cons_of_none (by rw [readWord, hclash, Option.map_none])]
        exact ih ((List.mem_cons.1 hw).resolve_left (Ne.symm hvw)) h.2

/-- The constructors that are no names are these five, wherever they may stand. -/
theorem mem_of_mem_constructorWords {path : List String} (hw : w ∈ constructorWords path) :
    w ∈ ["()", "[]", "true", "false", "::"] := by
  cases path with
  | nil =>
      obtain hw | hw := List.mem_append.1 hw
      · exact List.mem_append_left ["::"] hw
      · exact absurd hw List.not_mem_nil
  | cons => exact hw

/-- A constructor that is not capitalized is no name. -/
theorem readName_of_constructorWord {path : List String} (hw : w ∈ constructorWords path)
    (hcs : Ends isNameChar cs) : readName (w.toList ++ cs) = none := by
  have hw := mem_of_mem_constructorWords hw
  simp only [List.mem_cons, List.not_mem_nil, or_false] at hw
  obtain rfl | rfl | rfl | rfl | rfl := hw
  · exact readName_of_ends (show Ends isNameChar ('(' :: ')' :: cs) from rfl)
  · exact readName_of_ends (show Ends isNameChar ('[' :: ']' :: cs) from rfl)
  · exact readName_of_reserved (by decide) hcs
  · exact readName_of_reserved (by decide) hcs
  · exact readName_of_ends (show Ends isNameChar (':' :: ':' :: cs) from rfl)

/-- None of them is an operator, though one begins with a symbol. -/
theorem isOperator_of_constructorWord {path : List String} (hw : w ∈ constructorWords path) :
    QualName.isOperator w = false := by
  have hall : ∀ w ∈ ["()", "[]", "true", "false", "::"], QualName.isOperator w = false := by decide
  exact hall w (mem_of_mem_constructorWords hw)

/-- A last segment that is a name is written as it is. -/
theorem lastText_of_isName (h : isName n.last) : n.lastText = n.last :=
  QualName.lastText_of_not_operator (isOperator_of_isName h)

/-- The names of values are read back, operators included (`QualName.isValue`). -/
theorem reads_valueName (h : n.isValue) : Reads readValueName (Ends isNameChar) n.text n := by
  rw [QualName.isValue, Bool.and_eq_true, Bool.or_eq_true] at h
  obtain ⟨hrooted, hlower | hoperator⟩ := h
  · refine QualName.reads_readQualified hrooted (fun rest hrest => ?_) fun rest hrest => ?_
    · rw [lastText_of_isName (isName_of_isLowerName hlower)]
      exact firstOf_cons_of_some (reads_readLower hlower rest hrest)
    · rw [lastText_of_isName (isName_of_isLowerName hlower)]
      exact readSegment_of_isLowerName hlower hrest
  · have htext : n.lastText = "( " ++ n.last ++ " )" :=
      if_pos ((Bool.and_eq_true _ _).mp hoperator).1
    have hname : ∀ rest : List Char, readName (("( " ++ n.last ++ " )").toList ++ rest) = none := by
      intro rest
      rw [String.append_assoc, String.toList_append, List.append_assoc]
      exact readName_of_ends rfl
    refine QualName.reads_readQualified hrooted (fun rest hrest => ?_) fun rest _ => ?_
    · rw [htext, firstOf_cons_of_none (readLower_of_none (hname rest))]
      exact firstOf_cons_of_some (reads_readOperator hoperator rest trivial)
    · rw [htext, readSegment_of_none (hname rest)]

/-- The names of fields are read back. -/
theorem reads_labelName (h : n.isLabel) : Reads readLabelName (Ends isNameChar) n.text n := by
  rw [QualName.isLabel, Bool.and_eq_true] at h
  refine QualName.reads_readQualified h.1 (fun rest hrest => ?_) fun rest hrest => ?_
  · rw [lastText_of_isName (isName_of_isLowerName h.2)]
    exact reads_readLower h.2 rest hrest
  · rw [lastText_of_isName (isName_of_isLowerName h.2)]
    exact readSegment_of_isLowerName h.2 hrest

/-- The names of modules are read back. -/
theorem reads_modulePath (h : n.isModule) : Reads readModulePath (Ends isPathChar) n.text n := by
  rw [QualName.isModule, Bool.and_eq_true] at h
  refine QualName.reads_readQualified h.1 (fun rest hrest => ?_) fun rest hrest => ?_
  · rw [lastText_of_isName (isName_of_isUpperName h.2)]
    exact reads_readUpper h.2 rest (ends_isNameChar_of_isPathChar hrest)
  · rw [lastText_of_isName (isName_of_isUpperName h.2)]
    exact readSegment_of_isUpperName h.2 hrest

/-- The names of constructors are read back, those that are no names included. -/
theorem reads_constructorName (h : n.isConstructor) :
    Reads readConstructorName (Ends isPathChar) n.text n := by
  rw [QualName.isConstructor, Bool.and_eq_true, Bool.or_eq_true, List.contains_iff_mem] at h
  obtain ⟨hrooted, hupper | hword⟩ := h
  · refine QualName.reads_readQualified hrooted (fun rest hrest => ?_) fun rest hrest => ?_
    · rw [lastText_of_isName (isName_of_isUpperName hupper)]
      exact firstOf_cons_of_some (reads_readUpper hupper rest (ends_isNameChar_of_isPathChar hrest))
    · rw [lastText_of_isName (isName_of_isUpperName hupper)]
      exact readSegment_of_isUpperName hupper hrest
  · have hname : ∀ rest, Ends isPathChar rest → readName (n.last.toList ++ rest) = none :=
      fun rest hrest => readName_of_constructorWord hword (ends_isNameChar_of_isPathChar hrest)
    have htext := QualName.lastText_of_not_operator (isOperator_of_constructorWord hword)
    have hclash : (constructorWords n.path).all fun v => v == n.last ||
      clash v.toList n.last.toList := by
      have hall : ∀ w ∈ ["()", "[]", "true", "false", "::"],
        ∀ v ∈ ["()", "[]", "true", "false", "::"],
          (v == w || clash v.toList w.toList) = true := by decide
      exact List.all_eq_true.2 fun v hv =>
        hall _ (mem_of_mem_constructorWords hword) v (mem_of_mem_constructorWords hv)
    refine QualName.reads_readQualified hrooted (fun rest hrest => ?_) fun rest hrest => ?_
    · rw [htext, firstOf_cons_of_none (readUpper_of_none (hname rest hrest))]
      exact firstOf_readWord hword hclash rest
    · rw [htext, readSegment_of_none (hname rest hrest)]

/-- No operator is read where a name stands. -/
theorem readOperator_of_isName (h : isName s) : readOperator (s.toList ++ cs) = none := by
  obtain ⟨c, s', hs, hstart⟩ := exists_isNameStart_of_isName h
  have hparen : expect "( " (c :: (s' ++ cs)) = none := by
    refine expect_of_ne (bne_iff_ne.2 ?_)
    rintro rfl
    exact absurd hstart (by decide)
  rw [hs, List.cons_append, readOperator_of_expect hparen]

/-- No operator is read where a constructor stands. -/
theorem readOperator_of_constructorWord {path : List String} (hw : w ∈ constructorWords path) :
    readOperator (w.toList ++ cs) = none := by
  have hall : ∀ w ∈ ["()", "[]", "true", "false", "::"], clash "( ".toList w.toList := by decide
  exact readOperator_of_expect (expect_of_clash (hall w (mem_of_mem_constructorWords hw)) cs)

/-- The name of a constructor is not read as that of a value. -/
theorem readValueName_of_isConstructor (h : n.isConstructor) (hcs : Ends isPathChar cs) :
    readValueName (n.text.toList ++ cs) = none := by
  have hends := ends_isNameChar_of_isPathChar hcs
  rw [QualName.isConstructor, Bool.and_eq_true, Bool.or_eq_true, List.contains_iff_mem] at h
  obtain ⟨hrooted, hupper | hword⟩ := h
  · have hname := isName_of_isUpperName hupper
    refine QualName.readQualified_of_none hrooted ?_ ?_
    · rw [lastText_of_isName hname, readSegment_of_isUpperName hupper hcs]
    · rw [lastText_of_isName hname, firstOf_cons_of_none (readLower_of_isUpperName hupper hends),
        firstOf_cons_of_none (readOperator_of_isName hname), firstOf_nil]
  · have htext := QualName.lastText_of_not_operator (isOperator_of_constructorWord hword)
    have hname := readName_of_constructorWord hword hends
    refine QualName.readQualified_of_none hrooted ?_ ?_
    · rw [htext, readSegment_of_none hname]
    · rw [htext, firstOf_cons_of_none (readLower_of_none hname),
        firstOf_cons_of_none (readOperator_of_constructorWord hword), firstOf_nil]

/-- The name of a constructor is not read as a variable. -/
theorem readLower_of_isConstructor (h : n.isConstructor) (hcs : Ends isNameChar cs) :
    readLower (n.text.toList ++ cs) = none := by
  obtain ⟨path, last⟩ := n
  rw [QualName.isConstructor, Bool.and_eq_true, Bool.or_eq_true, List.contains_iff_mem] at h
  cases path with
  | nil =>
      have htext : QualName.text ⟨[], last⟩ = QualName.lastText ⟨[], last⟩ := String.empty_append
      obtain hupper | hword := h.2
      · rw [htext, lastText_of_isName (isName_of_isUpperName hupper)]
        exact readLower_of_isUpperName hupper hcs
      · rw [htext, QualName.lastText_of_not_operator (isOperator_of_constructorWord hword)]
        exact readLower_of_none (readName_of_constructorWord hword hcs)
  | cons s path =>
      have hs : isUpperName s := List.all_eq_true.1 h.1 s List.mem_cons_self
      have htext : QualName.text ⟨s :: path, last⟩ = s ++ ("." ++ QualName.text ⟨path, last⟩) := by
        simp only [QualName.text, List.map_cons, joinAll, String.append_assoc]
      rw [htext, String.toList_append, List.append_assoc, String.toList_append, List.append_assoc]
      exact readLower_of_isUpperName hs rfl

/-! ### how names begin -/

/-- A name begins as its first segment does. -/
theorem exists_start_of_isRooted (h : n.isRooted) :
    (∃ c cs, n.text.toList = c :: cs ∧ isNameStart c) ∨ n.path = [] ∧ n.text = n.lastText := by
  obtain ⟨path, last⟩ := n
  cases path with
  | nil => exact .inr ⟨rfl, String.empty_append⟩
  | cons s path =>
      have hs : isUpperName s := List.all_eq_true.1 h s List.mem_cons_self
      obtain ⟨c, cs, hcs, hstart⟩ := exists_isNameStart_of_isName (isName_of_isUpperName hs)
      have htext : QualName.text ⟨s :: path, last⟩ = s ++ ("." ++ QualName.text ⟨path, last⟩) := by
        simp only [QualName.text, List.map_cons, joinAll, String.append_assoc]
      exact .inl ⟨c, _, by rw [htext, String.toList_append, hcs, List.cons_append], hstart⟩

/-- The name of a value begins as a name or with a parenthesis. -/
theorem exists_start_of_isValue (h : n.isValue) :
    (∃ c cs, n.text.toList = c :: cs ∧ isNameStart c) ∨ ∃ s, n.text = "( " ++ s := by
  rw [QualName.isValue, Bool.and_eq_true, Bool.or_eq_true] at h
  obtain hstart | ⟨-, htext⟩ := exists_start_of_isRooted h.1
  · exact .inl hstart
  · obtain hlower | hoperator := h.2
    · have hname := isName_of_isLowerName hlower
      rw [htext, lastText_of_isName hname]
      exact .inl (exists_isNameStart_of_isName hname)
    · refine .inr ⟨n.last ++ " )", ?_⟩
      rw [htext, QualName.lastText, if_pos ((Bool.and_eq_true _ _).mp hoperator).1,
        String.append_assoc]

/-- A constructor begins as a name, or it is `()` or `[]`. -/
theorem exists_start_of_isConstructor (h : n.isConstructor) :
    (∃ c cs, n.text.toList = c :: cs ∧ isNameStart c) ∨ n.text = "()" ∨ n.text = "[]" := by
  rw [QualName.isConstructor, Bool.and_eq_true, Bool.or_eq_true, List.contains_iff_mem] at h
  obtain hstart | ⟨hpath, htext⟩ := exists_start_of_isRooted h.1
  · exact .inl hstart
  · obtain hupper | hword := h.2
    · have hname := isName_of_isUpperName hupper
      rw [htext, lastText_of_isName hname]
      exact .inl (exists_isNameStart_of_isName hname)
    · rw [htext, QualName.lastText_of_not_operator (isOperator_of_constructorWord hword)]
      rw [hpath] at hword
      generalize n.last = w at hword
      simp only [constructorWords, List.isEmpty_nil, if_true, List.append_nil, List.mem_cons,
        List.not_mem_nil, or_false] at hword
      obtain rfl | rfl | rfl | rfl := hword
      · exact .inr (.inl rfl)
      · exact .inr (.inr rfl)
      · exact .inl ⟨'t', _, rfl, rfl⟩
      · exact .inl ⟨'f', _, rfl, rfl⟩

/-! ### where no name stands -/

/-- The words that begin or end a part of a pattern or an expression. -/
def keywords : List String :=
  ["and", "as", "else", "fun", "function", "if", "in", "let", "match", "open", "rec",
    "then", "when", "with"]

/-- The words and signs that begin a form and are no names. -/
def openings : List String := ["(", "[", "`", "\x7b ", "_"]

/-- Neither a name begins here, nor a form with an opening of its own. -/
structure NoOpening (cs : List Char) : Prop where
  lower : readLower cs = none
  value : readValueName cs = none
  constructor : readConstructorName cs = none
  opening : ∀ w ∈ openings, expect w cs = none

/-- Where no name and none of the four words stands, no constructor is read. -/
theorem readConstructorName_of_readName (hname : readName cs = none)
    (hwords : ∀ w ∈ ["()", "[]", "true", "false"], expect w cs = none) :
    readConstructorName cs = none := by
  refine readQualified_of_readName hname ?_
  rw [firstOf_cons_of_none (readUpper_of_none hname)]
  refine firstOf_eq_none fun read hread => ?_
  obtain ⟨w, hw, rfl⟩ := List.mem_map.1 hread
  rw [readWord, hwords w hw, Option.map_none]

/-- Nothing opens an atom where none of the ways to open one is there. -/
theorem noOpening_of_readName (hname : readName cs = none)
    (h : ∀ w ∈ openings, expect w cs = none)
    (hwords : ∀ w ∈ ["( ", "()", "[]", "true", "false"], expect w cs = none) : NoOpening cs where
  lower := readLower_of_none hname
  value := by
    refine readQualified_of_readName hname ?_
    rw [firstOf_cons_of_none (readLower_of_none hname),
      firstOf_cons_of_none (readOperator_of_expect (hwords "( " List.mem_cons_self)), firstOf_nil]
  constructor := readConstructorName_of_readName hname fun w hw =>
    hwords w (List.mem_cons_of_mem _ hw)
  opening := h

/-- A keyword opens no atom: it is reserved, so it is not taken for a name. -/
theorem noOpening_of_keyword (hw : w ∈ keywords) (hcs : Ends isNameChar cs) :
    NoOpening (w.toList ++ cs) := by
  have hall : ∀ w ∈ keywords, w ∈ reservedWords ∧ (∀ v ∈ openings, clash v.toList w.toList) ∧
      ∀ v ∈ ["( ", "()", "[]", "true", "false"], clash v.toList w.toList := by
    decide
  obtain ⟨hreserved, hopening, hclash⟩ := hall w hw
  exact noOpening_of_readName (readName_of_reserved hreserved hcs)
    (fun v hv => expect_of_clash (hopening v hv) cs) fun v hv => expect_of_clash (hclash v hv) cs

/-- Nor does a sign that is no bracket and no quote. -/
theorem noOpening_of_sign {c : Char} (h : isNameStart c = false) (hc : c ∉ ['(', '[', '`', '\x7b'])
    (cs : List Char) : NoOpening (c :: cs) := by
  have hne : ∀ w : String,
      w.toList.head?.any (fun d => isNameStart d || ['(', '[', '`', '\x7b'].contains d) →
        expect w (c :: cs) = none := by
    intro w hw
    refine expect_of_ne ?_
    rw [Option.any_eq_true] at hw ⊢
    obtain ⟨d, hd, hopening⟩ := hw
    refine ⟨d, hd, bne_iff_ne.2 ?_⟩
    rintro rfl
    rw [h, Bool.false_or, List.contains_iff_mem] at hopening
    exact hc hopening
  refine noOpening_of_readName (readName_of_not_start h cs) (fun w hw => hne w ?_) fun w hw =>
    hne w ?_
  · exact List.all_eq_true.1 (by decide : openings.all fun w => w.toList.head?.any fun d =>
      isNameStart d || ['(', '[', '`', '\x7b'].contains d) w hw
  · exact List.all_eq_true.1 (by decide : ["( ", "()", "[]", "true", "false"].all fun w =>
      w.toList.head?.any fun d => isNameStart d || ['(', '[', '`', '\x7b'].contains d) w hw

end

end DeriveKit
