import DeriveKit.Source.QualName

/-!
# DeriveKit.Proofs.Reading

Readers, to say that a text can be read back. A reader takes a value off the front of a text and
leaves the rest. What it takes off a written text is the value that was written, provided that the
rest does not go on with it; `Reads` says so for one text, and the lemmas here compose it:

* `reads_readName`, `reads_readQualName` — names;
* `many_joinAll`, `sepBy_joinWith` — any number of texts, one after the other or with separators.
-/

namespace DeriveKit

/-! ## names -/

/-- The characters a name may begin with. -/
def isNameStart (c : Char) : Bool := c.isAlpha || c == '_' || 0x80 ≤ c.toNat

/-- The characters that a name consists of. -/
def isNameChar (c : Char) : Bool := isNameStart c || c.isDigit || c == '\x27'

/-- The characters that a name qualified by modules consists of. -/
def isPathChar (c : Char) : Bool := isNameChar c || c == '.'

/-- The words that are no names. -/
def reservedWords : List String :=
  ["_", "and", "as", "asr", "assert", "begin", "class", "constraint", "do", "done", "downto",
    "else", "end", "exception", "external", "false", "for", "fun", "function", "functor", "if",
    "in", "include", "inherit", "initializer", "land", "lazy", "let", "lor", "lsl", "lsr", "lxor",
    "match", "method", "mod", "module", "mutable", "new", "nonrec", "object", "of", "open", "or",
    "private", "rec", "sig", "struct", "then", "to", "true", "try", "type", "val", "virtual",
    "when", "while", "with"]

/-- Whether the text is a name, in whatever role. What a role asks for beyond that, such as a
capital letter, is of no account for telling texts apart. -/
def isName (s : String) : Bool :=
  (s.toList.head?.any isNameStart && s.toList.all isNameChar) && !reservedWords.contains s

/-- Whether all segments are names. -/
def QualName.isNamed (n : QualName) : Bool := n.segments.all isName

/-- Names with modules are made of the characters of names, and dots. -/
theorem isPathChar_of_isNameChar {c : Char} (h : isNameChar c = true) : isPathChar c = true := by
  rw [isPathChar, h, Bool.true_or]

section

variable {s : String}

/-- A name is made of characters of names. -/
theorem isNameChar_of_isName (h : isName s) {c : Char} (hc : c ∈ s.toList) : isNameChar c := by
  simp only [isName, Bool.and_eq_true, List.all_eq_true] at h
  exact h.1.2 c hc

/-- A name is not empty, and begins as names do. -/
theorem exists_isNameStart_of_isName (h : isName s) :
    ∃ c cs, s.toList = c :: cs ∧ isNameStart c := by
  simp only [isName, Bool.and_eq_true, Option.any_eq_true] at h
  obtain ⟨⟨⟨c, hc, hstart⟩, -⟩, -⟩ := h
  obtain ⟨cs, hcs⟩ := List.head?_eq_some_iff.1 hc
  exact ⟨c, cs, hcs, hstart⟩

/-- No name has a dot in it, so the dots of a qualified one are those between segments. -/
theorem dot_not_mem_of_isName (h : isName s) : '.' ∉ s.toList := fun hdot =>
  absurd (isNameChar_of_isName h hdot) (by decide)

/-- No name is an operator, since operators begin with a symbol. -/
theorem isOperator_of_isName (h : isName s) : QualName.isOperator s = false := by
  obtain ⟨c, cs, hcs, hstart⟩ := exists_isNameStart_of_isName h
  have hc : QualName.operatorChars.contains c = false := by
    rw [Bool.eq_false_iff]
    intro hmem
    have hall : QualName.operatorChars.all fun c => !isNameStart c := by decide
    have := List.all_eq_true.1 hall c (List.contains_iff_mem.1 hmem)
    rw [hstart] at this
    exact absurd this (by decide)
  simp only [QualName.isOperator, hcs, hc, Bool.and_false]

end

namespace QualName

variable {n : QualName}

/-- Each segment of a name with modules is a name (`QualName.isNamed`). -/
theorem isName_of_isNamed (h : n.isNamed) {s : String} (hs : s ∈ n.segments) : isName s :=
  List.all_eq_true.1 h s hs

theorem isNamed_simple {s : String} (h : isName s) : (simple s).isNamed := by
  simpa [isNamed, segments, simple] using h

/-- Names that are no operators are written as they are joined. -/
theorem text_of_isNamed (h : n.isNamed) : n.text = n.dotted :=
  text_eq_dotted (isOperator_of_isName (isName_of_isNamed h (List.mem_append_right _ (by simp))))

/-- Splitting the text of a name gives the name. -/
theorem ofDotted_text (h : n.isNamed) : ofDotted n.text = n := by
  rw [text_of_isNamed h, ofDotted_dotted fun s hs => dot_not_mem_of_isName (isName_of_isNamed h hs)]

/-- The text of a name begins as its first segment does. -/
theorem exists_isNameStart_of_isNamed (h : n.isNamed) :
    ∃ c cs, n.text.toList = c :: cs ∧ isNameStart c := by
  obtain ⟨s, rest, hsegments⟩ : ∃ s rest, n.segments = s :: rest :=
    List.exists_cons_of_ne_nil (by simp [segments])
  obtain ⟨c, cs, hs, hstart⟩ :=
    exists_isNameStart_of_isName (isName_of_isNamed h (hsegments ▸ List.mem_cons_self))
  rw [text_of_isNamed h, dotted, joined, hsegments]
  cases rest with
  | nil => exact ⟨c, cs, hs, hstart⟩
  | cons t rest =>
      rw [joinWith_cons_cons, String.toList_append, String.toList_append, hs]
      exact ⟨c, _, rfl, hstart⟩

/-- The text of a name is made of characters of names and dots. -/
theorem isPathChar_of_isNamed (h : n.isNamed) {c : Char} (hc : c ∈ n.text.toList) :
    isPathChar c := by
  have hjoin : ∀ segments : List String, (∀ s ∈ segments, isName s) →
      ∀ c ∈ (joinWith "." segments).toList, isPathChar c := by
    intro segments
    induction segments with
    | nil => simp [joinWith]
    | cons s rest ih =>
        intro hnames c hc
        have hs : c ∈ s.toList → isPathChar c := fun hc =>
          isPathChar_of_isNameChar (isNameChar_of_isName (hnames s List.mem_cons_self) hc)
        cases rest with
        | nil => exact hs hc
        | cons t rest =>
            rw [joinWith_cons_cons, String.toList_append, String.toList_append, List.mem_append,
              List.mem_append] at hc
            obtain (hc | hc) | hc := hc
            · exact hs hc
            · obtain rfl : c = '.' := by simpa using hc
              rfl
            · exact ih (fun u hu => hnames u (List.mem_cons_of_mem _ hu)) c hc
  rw [text_of_isNamed h] at hc
  exact hjoin n.segments (fun s hs => isName_of_isNamed h hs) c hc

end QualName

/-! ## readers -/

/-- Takes a value off the front of a text, and leaves the rest. -/
abbrev Reader (α : Type) := List Char → Option (α × List Char)

/-- Whether a text does not begin with a character of a kind. -/
def Ends (p : Char → Bool) : List Char → Prop
  | [] => True
  | c :: _ => p c = false

/-- A reader takes a value off its text, whatever follows that does not go on with it. -/
def Reads {α : Type} (read : Reader α) (stops : List Char → Prop) (text : String) (a : α) : Prop :=
  ∀ rest, stops rest → read (text.toList ++ rest) = some (a, rest)

/-- What is left after the given characters. -/
def dropLead : List Char → List Char → Option (List Char)
  | [], cs => some cs
  | _ :: _, [] => none
  | w :: ws, c :: cs => if w = c then dropLead ws cs else none

/-- What is left after the given word. -/
def expect (word : String) (cs : List Char) : Option (List Char) := dropLead word.toList cs

/-- Reads the longest run of characters of a kind, as a name. -/
def readName : Reader String := fun cs =>
  let name := String.ofList (cs.takeWhile isNameChar)
  if isName name then some (name, cs.dropWhile isNameChar) else none

/-- Reads a name qualified by modules. -/
def readQualName : Reader QualName := fun cs =>
  let name := QualName.ofDotted (String.ofList (cs.takeWhile isPathChar))
  if name.isNamed then some (name, cs.dropWhile isPathChar) else none

section

variable {α : Type}

/-- Reads a word and then what follows it. -/
def after (word : String) (read : Reader α) : Reader α := fun cs => expect word cs >>= read

/-- Reads as often as there is something to read. -/
def many (read : Reader α) (cs : List Char) : List α × List Char :=
  match read cs with
  | none => ([], cs)
  | some (a, rest) =>
      if rest.length < cs.length then (a :: (many read rest).1, (many read rest).2) else ([], cs)
termination_by cs.length

/-- Reads one or more, with a separator between neighbours. -/
def sepBy (sep : String) (read : Reader α) : Reader (List α) := fun cs =>
  match read cs with
  | none => none
  | some (a, rest) => some (a :: (many (after sep read) rest).1, (many (after sep read) rest).2)

end

/-- A beginning is dropped from a text that has it. -/
@[simp] theorem dropLead_append (ws cs : List Char) : dropLead ws (ws ++ cs) = some cs := by
  induction ws with
  | nil => rfl
  | cons w ws ih => rw [List.cons_append, dropLead, if_pos rfl, ih]

/-- `expect` takes a word off a text that begins with it. -/
@[simp] theorem expect_append (word : String) (cs : List Char) :
    expect word (word.toList ++ cs) = some cs :=
  dropLead_append word.toList cs

/-- A beginning is dropped piece by piece. -/
theorem dropLead_append_word (ws vs cs : List Char) :
    dropLead (ws ++ vs) cs = (dropLead ws cs).bind (dropLead vs) := by
  induction ws generalizing cs with
  | nil => rfl
  | cons w ws ih =>
      cases cs with
      | nil => rfl
      | cons c cs =>
          rw [List.cons_append, dropLead, dropLead, ih]
          split <;> rfl

/-- Two words in a row are expected one after the other. -/
theorem expect_append_word (w v : String) (cs : List Char) :
    expect (w ++ v) cs = (expect w cs).bind (expect v) := by
  rw [expect, String.toList_append, dropLead_append_word]
  rfl

/-- Whether two words differ at some place that both have. -/
def clash : List Char → List Char → Bool
  | w :: ws, c :: cs => w != c || clash ws cs
  | _, _ => false

/-- Two texts that clash go on clashing, whatever follows. -/
theorem clash_append {ws cs : List Char} (h : clash ws cs) (ds : List Char) :
    clash ws (cs ++ ds) := by
  induction ws generalizing cs with
  | nil => simp [clash] at h
  | cons w ws ih =>
      cases cs with
      | nil => simp [clash] at h
      | cons c cs =>
          rw [clash, Bool.or_eq_true] at h
          rw [List.cons_append, clash, Bool.or_eq_true]
          exact h.imp_right ih

/-- A beginning is not dropped from a text that clashes with it. -/
theorem dropLead_of_clash {ws lead : List Char} (h : clash ws lead) (cs : List Char) :
    dropLead ws (lead ++ cs) = none := by
  induction ws generalizing lead with
  | nil => simp [clash] at h
  | cons w ws ih =>
      cases lead with
      | nil => simp [clash] at h
      | cons c lead =>
          rw [List.cons_append, dropLead]
          by_cases hwc : w = c
          · rw [if_pos hwc]
            exact ih (by simpa [clash, hwc] using h)
          · rw [if_neg hwc]

/-- A word is not expected where another one begins. -/
theorem expect_of_clash {w l : String} (h : clash w.toList l.toList) (cs : List Char) :
    expect w (l.toList ++ cs) = none :=
  dropLead_of_clash h cs

/-- At the end of the text there is no word. -/
theorem expect_nil {word : String} (h : word ≠ "") : expect word [] = none := by
  obtain ⟨c, cs, hword⟩ := List.exists_cons_of_ne_nil (l := word.toList) (by simpa using h)
  rw [expect, hword, dropLead]

/-- A text that is empty or begins with one of some words. -/
inductive StopsAt (closers : List String) : List Char → Prop
  | nil : StopsAt closers []
  | lead {s : String} (h : s ∈ closers) (cs : List Char) : StopsAt closers (s.toList ++ cs)

/-- What stands before one of some words stands before one of more words. -/
theorem StopsAt.mono {closers more : List String} {cs : List Char} (h : StopsAt closers cs)
    (hmore : closers ⊆ more) : StopsAt more cs := by
  cases h with
  | nil => exact .nil
  | lead h cs => exact .lead (hmore h) cs

/-- A word that clashes with every closer is not there where one of them is. -/
theorem StopsAt.expect_eq_none {closers : List String} {cs : List Char} (h : StopsAt closers cs)
    {w : String} (hword : (w != "" && closers.all (clash w.toList ·.toList)) = true) :
    expect w cs = none := by
  obtain ⟨hne, hall⟩ := (Bool.and_eq_true _ _).mp hword
  cases h with
  | nil => exact expect_nil (bne_iff_ne.1 hne)
  | lead h cs => exact expect_of_clash (List.all_eq_true.1 hall _ h) cs

/-- `takeWhile` takes all of a text up to the place where it ends (`Ends`). -/
theorem takeWhile_append_of_ends {p : Char → Bool} {cs rest : List Char} (h : ∀ c ∈ cs, p c)
    (hrest : Ends p rest) : (cs ++ rest).takeWhile p = cs := by
  rw [List.takeWhile_append_of_pos h]
  cases rest with
  | nil => rw [List.takeWhile_nil, List.append_nil]
  | cons c rest => rw [List.takeWhile_cons_of_neg (by simp [show p c = false from hrest]),
    List.append_nil]

/-- And `dropWhile` leaves what stands behind that place. -/
theorem dropWhile_append_of_ends {p : Char → Bool} {cs rest : List Char} (h : ∀ c ∈ cs, p c)
    (hrest : Ends p rest) : (cs ++ rest).dropWhile p = rest := by
  rw [List.dropWhile_append_of_pos h]
  cases rest with
  | nil => rfl
  | cons c rest => rw [List.dropWhile_cons_of_neg (by simp [show p c = false from hrest])]

/-- No name is read where no character of a name stands. -/
theorem readName_of_ends {cs : List Char} (h : Ends isNameChar cs) : readName cs = none := by
  have hword : ([] ++ cs).takeWhile isNameChar = [] := takeWhile_append_of_ends (by simp) h
  rw [List.nil_append] at hword
  rw [readName, hword]
  rfl

/-- Nor is one with modules before it. -/
theorem readQualName_of_ends (cs : List Char) (h : Ends isPathChar cs) :
    readQualName cs = none := by
  have hword : ([] ++ cs).takeWhile isPathChar = [] := takeWhile_append_of_ends (by simp) h
  rw [List.nil_append] at hword
  rw [readQualName, hword]
  rfl

/-- Nothing is read where no name begins. -/
theorem readQualName_of_not_start {c : Char} (h : isNameStart c = false) (cs : List Char) :
    readQualName (c :: cs) = none := by
  have hname : ∀ s : String, s.toList.head? = some c → isName s = false := by
    intro s hs
    rw [isName, hs, Option.any_some, h, Bool.false_and, Bool.false_and]
  have hsegment : ∀ word : String, word.toList.head? = some c →
      (QualName.ofDotted word).isNamed = false := by
    intro word hword
    obtain ⟨w, hw⟩ := List.head?_eq_some_iff.1 hword
    have hfirst : isName (String.ofList (cutAt '.' (c :: w)).1) = false := by
      by_cases hdot : c = '.'
      · rw [cutAt, if_pos hdot]
        rfl
      · rw [cutAt, if_neg hdot]
        exact hname _ (by simp)
    rw [QualName.isNamed, QualName.ofDotted, hw, QualName.segments_ofSegments,
      List.all_cons, hfirst, Bool.false_and]
  by_cases hc : isPathChar c = true
  · rw [readQualName, hsegment _ (by simp [List.takeWhile_cons_of_pos hc]),
      if_neg Bool.false_ne_true]
  · exact readQualName_of_ends (c :: cs) (Bool.eq_false_iff.2 hc)

section

variable {w : String}

/-- A reserved word is made of the characters of names. -/
theorem isNameChar_of_reserved (h : w ∈ reservedWords) : ∀ c ∈ w.toList, isNameChar c := by
  have hall : reservedWords.all fun w => w.toList.all isNameChar := by decide +kernel
  exact List.all_eq_true.1 (List.all_eq_true.1 hall w h)

/-- A reserved word is no name, although it looks like one. -/
theorem isName_of_reserved (h : w ∈ reservedWords) : isName w = false := by
  simp [isName, h]

/-- A reserved word is not read as a name. -/
theorem readName_of_reserved (h : w ∈ reservedWords) {cs : List Char} (hcs : Ends isNameChar cs) :
    readName (w.toList ++ cs) = none := by
  rw [readName, takeWhile_append_of_ends (isNameChar_of_reserved h) hcs, String.ofList_toList,
    isName_of_reserved h, if_neg Bool.false_ne_true]

/-- `readQualName` refuses a reserved word, which stays for what it opens or closes. -/
theorem readQualName_of_reserved (h : w ∈ reservedWords) (cs : List Char)
    (hcs : Ends isPathChar cs) : readQualName (w.toList ++ cs) = none := by
  have hchars := isNameChar_of_reserved h
  have hdot : '.' ∉ w.toList := fun hdot => absurd (hchars '.' hdot) (by decide)
  have hname : (QualName.simple w).isNamed = false := by
    simp [QualName.isNamed, QualName.simple, QualName.segments, isName_of_reserved h]
  rw [readQualName,
    takeWhile_append_of_ends (fun c hc => isPathChar_of_isNameChar (hchars c hc)) hcs,
    String.ofList_toList, QualName.ofDotted_of_dot_not_mem hdot, hname, if_neg Bool.false_ne_true]

end

/-- A name is read back up to the first character that is no part of names. -/
theorem reads_readName {s : String} (h : isName s) : Reads readName (Ends isNameChar) s s := by
  intro rest hrest
  have hchars : ∀ c ∈ s.toList, isNameChar c := fun c hc => isNameChar_of_isName h hc
  rw [readName, takeWhile_append_of_ends hchars hrest, dropWhile_append_of_ends hchars hrest,
    String.ofList_toList, if_pos h]

/-- A name with modules is read back up to the first character that could go on with it. -/
theorem reads_readQualName {n : QualName} (h : n.isNamed) :
    Reads readQualName (Ends isPathChar) n.text n := by
  intro rest hrest
  have hchars : ∀ c ∈ n.text.toList, isPathChar c := fun c hc => QualName.isPathChar_of_isNamed h hc
  rw [readQualName, takeWhile_append_of_ends hchars hrest, dropWhile_append_of_ends hchars hrest,
    String.ofList_toList, QualName.ofDotted_text h, if_pos h]

section

variable {α τ : Type} {read : Reader α} {stops : List Char → Prop} {rest : List Char}

/-- `after` reads behind a word that is there. -/
@[simp] theorem after_append (word : String) (cs : List Char) :
    after word read (word.toList ++ cs) = read cs := by
  rw [after, expect_append, Option.bind_eq_bind, Option.bind_some]

/-- `after` fails if the word is not there. -/
theorem after_of_expect {word : String} {cs : List Char} (h : expect word cs = none) :
    after word read cs = none := by
  rw [after, h, Option.bind_eq_bind, Option.bind_none]

/-- A text with a word in front is read by skipping the word. -/
theorem Reads.after {text : String} {a : α} (h : Reads read stops text a) (word : String) :
    Reads (after word read) stops (word ++ text) a := by
  intro rest hrest
  rw [String.toList_append, List.append_assoc, after_append, h rest hrest]

/-- `many` stops at once if there is nothing to read. -/
theorem many_of_none (h : read rest = none) : many read rest = ([], rest) := by
  rw [many, h]

/-- `many` takes one text off and goes on with the rest. The text is not empty, so it gets nearer to
the end. -/
theorem many_append {text : String} {a : α} (h : Reads read stops text a) (htext : text ≠ "")
    (hrest : stops rest) :
    many read (text.toList ++ rest) = (a :: (many read rest).1, (many read rest).2) := by
  have hlength : rest.length < (text.toList ++ rest).length := by
    have : text.toList ≠ [] := by simpa using htext
    have := List.length_pos_iff.2 this
    rw [List.length_append]
    omega
  rw [many, h rest hrest]
  exact if_pos hlength

/-- Texts one after the other are read one after the other, if the beginning of each one ends the
one before. -/
theorem many_joinAll {f : τ → String} {g : τ → α} {ts : List τ}
    (h : ∀ t ∈ ts, Reads read stops (f t) (g t)) (hne : ∀ t ∈ ts, f t ≠ "")
    (hstops : ∀ t ∈ ts, ∀ cs, stops ((f t).toList ++ cs)) (hrest : stops rest)
    (hend : read rest = none) :
    many read ((joinAll (ts.map f)).toList ++ rest) = (ts.map g, rest) := by
  induction ts with
  | nil => exact many_of_none hend
  | cons t ts ih =>
      have hnext : stops ((joinAll (ts.map f)).toList ++ rest) := by
        cases ts with
        | nil => exact hrest
        | cons u ts =>
            rw [List.map_cons, joinAll, String.toList_append, List.append_assoc]
            exact hstops u (by simp) _
      have ih := ih (fun u hu => h u (List.mem_cons_of_mem _ hu))
        (fun u hu => hne u (List.mem_cons_of_mem _ hu))
        (fun u hu => hstops u (List.mem_cons_of_mem _ hu))
      rw [List.map_cons, joinAll, String.toList_append, List.append_assoc,
        many_append (h t List.mem_cons_self) (hne t List.mem_cons_self) hnext, ih, List.map_cons]

/-- Texts with something in front of each are texts that follow on each other. -/
theorem leadEach_eq_joinAll (lead : String) (ss : List String) :
    leadEach lead ss = joinAll (ss.map (lead ++ ·)) := by
  induction ss with
  | nil => rfl
  | cons s ss ih => rw [leadEach, ih, List.map_cons, joinAll]

theorem leadEach_append (lead : String) (ss rest : List String) :
    leadEach lead (ss ++ rest) = leadEach lead ss ++ leadEach lead rest := by
  induction ss with
  | nil => rw [List.nil_append, leadEach, String.empty_append]
  | cons s ss ih =>
      simp only [List.cons_append, leadEach, ih, String.append_assoc]

theorem leadEach_map_append (lead first : String) (ss : List String) :
    leadEach lead (ss.map (first ++ ·)) = leadEach (lead ++ first) ss := by
  induction ss with
  | nil => rfl
  | cons s ss ih => rw [List.map_cons, leadEach, ih, leadEach,
      ← @String.append_assoc lead first s]

/-- Separated texts are the first one and the others with a separator in front of each. -/
theorem joinWith_cons (sep s : String) (ss : List String) :
    joinWith sep (s :: ss) = s ++ leadEach sep ss := by
  induction ss generalizing s with
  | nil => rw [joinWith, leadEach, String.append_empty]
  | cons t ss ih => rw [joinWith_cons_cons, ih, leadEach, String.append_assoc, String.append_assoc]

/-- A list of two elements or more has a first and a second one. -/
theorem exists_cons_cons {τ : Type} {ts : List τ} (h : 2 ≤ ts.length) :
    ∃ t u rest, ts = t :: u :: rest := by
  match ts, h with
  | t :: u :: rest, _ => exact ⟨t, u, rest, rfl⟩

/-- At least two texts with separators between them, in brackets: the first one and the others. -/
theorem joinWith_bracketed {τ : Type} {ts : List τ} (hts : 2 ≤ ts.length)
    (first sep last : String) (f : τ → String) :
    ∃ t rest, ts = t :: rest ∧ rest ≠ [] ∧ first ++ joinWith sep (ts.map f) ++ last =
      first ++ (f t ++ (sep ++ (joinWith sep (rest.map f) ++ last))) := by
  obtain ⟨t, u, rest, rfl⟩ := exists_cons_cons hts
  refine ⟨t, u :: rest, rfl, List.cons_ne_nil u rest, ?_⟩
  simp only [List.map_cons, joinWith_cons_cons, String.append_assoc]

/-- A last text is joined by one more separator. -/
theorem joinWith_append_singleton (sep last : String) {ss : List String} (h : ss ≠ []) :
    joinWith sep (ss ++ [last]) = joinWith sep ss ++ sep ++ last := by
  obtain ⟨s, ss, rfl⟩ := List.exists_cons_of_ne_nil h
  simp only [List.cons_append, joinWith_cons, leadEach_append, leadEach, String.append_empty,
    String.append_assoc]

/-- No text is longer than what it is joined to; this bounds the depth that its reader needs. -/
theorem length_le_length_leadEach (lead : String) {s : String} {ss : List String} (h : s ∈ ss) :
    s.length ≤ (leadEach lead ss).length := by
  induction ss with
  | nil => simp at h
  | cons t ss ih =>
      rw [leadEach, String.length_append, String.length_append]
      obtain rfl | h := List.mem_cons.1 h
      · omega
      · have := ih h
        omega

/-- No text is longer than what it is joined to by separators. -/
theorem length_le_length_joinWith (sep : String) {s : String} {ss : List String} (h : s ∈ ss) :
    s.length ≤ (joinWith sep ss).length := by
  cases ss with
  | nil => simp at h
  | cons t ss =>
      rw [joinWith_cons, String.length_append]
      obtain rfl | h := List.mem_cons.1 h
      · omega
      · have := length_le_length_leadEach sep h
        omega

/-- Joining further texts makes nothing shorter. -/
theorem length_joinWith_le_append (sep : String) (ss more : List String) :
    (joinWith sep ss).length ≤ (joinWith sep (ss ++ more)).length := by
  cases ss with
  | nil => exact Nat.zero_le _
  | cons s ss =>
      simp only [List.cons_append, joinWith_cons, leadEach_append, String.length_append]
      omega

/-- Texts that each follow the same word are read one after the other. -/
theorem many_leadEach {lead : String} {f : τ → String} {g : τ → α} {ts : List τ}
    (h : ∀ t ∈ ts, Reads read stops (f t) (g t)) (hlead : lead ≠ "")
    (hstops : ∀ cs, stops (lead.toList ++ cs)) (hrest : stops rest)
    (hend : after lead read rest = none) :
    many (after lead read) ((leadEach lead (ts.map f)).toList ++ rest) = (ts.map g, rest) := by
  rw [leadEach_eq_joinAll, List.map_map]
  refine many_joinAll (fun t ht => (h t ht).after lead) (fun t _ => ?_)
    (fun t _ cs => ?_) hrest hend
  · simp [hlead]
  · rw [Function.comp_apply, String.toList_append, List.append_assoc]
    exact hstops _

/-- Names that each follow the same word are read one after the other. -/
theorem many_readName {lead : String} {names : List String} (h : ∀ s ∈ names, isName s)
    (hlead : lead ≠ "") (hstops : ∀ cs, Ends isNameChar (lead.toList ++ cs))
    (hrest : Ends isNameChar rest) (hend : expect lead rest = none) :
    many (after lead readName) ((leadEach lead names).toList ++ rest) = (names, rest) := by
  have hmany := many_leadEach (f := id) (g := id) (fun s hs => reads_readName (h s hs)) hlead hstops
    hrest (after_of_expect hend)
  rwa [List.map_id] at hmany

/-- `sepBy` fails if there is no first text: it reads one at least. -/
theorem sepBy_of_none {cs : List Char} (h : read cs = none) (sep : String) :
    sepBy sep read cs = none := by
  rw [sepBy, h]

/-- Texts with separators between them are read one after the other. -/
theorem sepBy_joinWith {sep : String} {f : τ → String} {g : τ → α} {ts : List τ}
    (h : ∀ t ∈ ts, Reads read stops (f t) (g t)) (hts : ts ≠ []) (hsep : sep ≠ "")
    (hstops : ∀ cs, stops (sep.toList ++ cs)) (hrest : stops rest)
    (hend : after sep read rest = none) :
    sepBy sep read ((joinWith sep (ts.map f)).toList ++ rest) = some (ts.map g, rest) := by
  obtain ⟨t, ts, rfl⟩ := List.exists_cons_of_ne_nil hts
  have hnext : stops ((leadEach sep (ts.map f)).toList ++ rest) := by
    cases ts with
    | nil => exact hrest
    | cons u ts =>
        rw [List.map_cons, leadEach, String.append_assoc, String.toList_append, List.append_assoc]
        exact hstops _
  have hmany :=
    many_leadEach (fun u hu => h u (List.mem_cons_of_mem _ hu)) hsep hstops hrest hend
  rw [List.map_cons, joinWith_cons, String.toList_append, List.append_assoc, sepBy,
    h t List.mem_cons_self _ hnext]
  simp only [hmany, List.map_cons]

end

end DeriveKit
