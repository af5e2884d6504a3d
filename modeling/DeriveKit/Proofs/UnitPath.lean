import DeriveKit.Expansion.Report

/-!
# DeriveKit.Proofs.UnitPath

The path that the expansion of a file starts from, and the directory of the file. The ending is
taken off before the last component is looked for (`ModulePath.ofFile_eq`). What is left of the name
of the file is its last component whatever directory stands before it
(`baseName?_append_slash`), unless it is empty or made of one or two dots: these are no components,
and then it is the directory that decides.

* `ModulePath.unit_follows_base_name` — the directory does not show, except for three names.
-/

namespace DeriveKit

/-! ## endings -/

/-- The stem of a file is what stands before its `.ml`. -/
theorem sourceStem?_eq_some_iff {file stem : List Char} :
    sourceStem? file = some stem ↔ file = stem ++ ['.', 'm', 'l'] := by
  constructor
  · intro h
    unfold sourceStem? at h
    split at h
    · next rest hreverse =>
      obtain rfl : rest.reverse = stem := by simpa using h
      simpa using congrArg List.reverse hreverse
    · cases h
  · rintro rfl
    simp [sourceStem?]

/-- What stands before a slash is no part of the ending. -/
theorem sourceStem?_append_slash (dir base : List Char) :
    sourceStem? (dir ++ '/' :: base) = (sourceStem? base).map (dir ++ '/' :: ·) := by
  apply Option.ext
  intro stem
  rw [sourceStem?_eq_some_iff, Option.map_eq_some_iff]
  constructor
  · intro h
    obtain ⟨before, rfl, hending⟩ | ⟨before, hdir, hending⟩ := List.append_eq_append_iff.1 h
    · -- The ending is in the rest after the directory, so after the slash.
      cases before with
      | nil => simp at hending
      | cons c before =>
          obtain ⟨rfl, rfl⟩ := List.cons.inj hending
          exact ⟨before, sourceStem?_eq_some_iff.2 rfl, rfl⟩
    · have hslash : '/' ∈ ['.', 'm', 'l'] := by simp [hending]
      exact absurd hslash (by decide)
  · rintro ⟨rest, hrest, rfl⟩
    rw [sourceStem?_eq_some_iff.1 hrest]
    simp

/-! ## last components -/

/-- Whether a piece between slashes counts. -/
def isComponent (piece : List Char) : Bool := piece ≠ [] ∧ piece ≠ ['.']

/-- The last piece that counts is the last component, unless it leads back up. -/
theorem baseName?_eq (path : List Char) :
    baseName? path = ((pieces '/' path).reverse.find? isComponent).filter (· ≠ ['.', '.']) := by
  unfold baseName?
  dsimp only
  split
  · next hnone =>
    have hfind : (pieces '/' path).reverse.find? isComponent = none := hnone
    rw [hfind]
    rfl
  · next base hsome =>
    have hfind : (pieces '/' path).reverse.find? isComponent = some base := hsome
    rw [hfind]
    by_cases hup : base = ['.', '.'] <;> simp [hup, Option.filter]

/-- Texts without a slash that are no last component. -/
def nameless : List (List Char) := [[], ['.'], ['.', '.']]

theorem slash_not_mem_nameless : ∀ piece ∈ nameless, '/' ∉ piece := by decide

/-- A last component has a name. -/
theorem not_mem_nameless_of_baseName? {path base : List Char} (h : baseName? path = some base) :
    base ∉ nameless := by
  rw [baseName?_eq, Option.filter_eq_some_iff] at h
  have hcomponent : isComponent base = true := List.find?_some h.1
  simp_all [isComponent, nameless]

/-- After a directory the last component is what follows the slash, if that can be one. What does
not count as a component leaves it to the directory. -/
theorem baseName?_append_slash (dir : List Char) {piece : List Char} (h : '/' ∉ piece) :
    baseName? (dir ++ '/' :: piece) =
      if isComponent piece then (some piece).filter (· ≠ ['.', '.']) else baseName? dir := by
  have hpieces : (pieces '/' (dir ++ '/' :: piece)).reverse =
      piece :: (pieces '/' dir).reverse := by
    rw [pieces_append_cons, pieces_of_not_mem h]
    simp
  rw [baseName?_eq, baseName?_eq, hpieces, List.find?_cons]
  cases isComponent piece <;> rfl

/-- A text without a slash is its own last component or has none. -/
theorem getD_baseName?_of_not_mem {piece : List Char} (h : '/' ∉ piece) :
    (baseName? piece).getD piece = piece := by
  rw [baseName?_eq, pieces_of_not_mem h, List.reverse_singleton, List.find?_singleton]
  by_cases hpiece : isComponent piece = true ∧ piece ≠ ['.', '.'] <;> grind

namespace ModulePath

/-! ## units -/

/-- Capitalizing makes no dot and hides none. -/
theorem toUpper_eq_dot_iff {c : Char} : c.toUpper = '.' ↔ c = '.' := by
  have hletters : ∀ n ≤ 122, 97 ≤ n → (Char.ofNat n).toUpper ≠ '.' := by decide
  constructor
  · intro h
    by_cases hlower : 'a'.val ≤ c.val ∧ c.val ≤ 'z'.val
    · refine absurd h ?_
      rw [← Char.ofNat_toNat c]
      exact hletters c.toNat hlower.2 hlower.1
    · have hsame : c.toUpper = c := dif_neg hlower
      rwa [hsame] at h
  · rintro rfl
    rfl

/-- A module whose path is that of a text that is no last component is named after no other text. -/
theorem ofBase_eq_iff {base piece : List Char} (h : piece ∈ nameless) :
    ofBase base = ofBase piece ↔ base = piece := by
  constructor
  · intro hpath
    simp only [nameless, List.mem_cons, List.not_mem_nil, or_false] at h
    obtain rfl | rfl | rfl := h <;> cases base <;>
      simp_all [ofBase, root, ← String.toList_inj, toUpper_eq_dot_iff]
  · rintro rfl
    rfl

/-- Input that comes from no source file has no ending of one, so it needs no treatment of its
own. -/
theorem ofFile_eq (file : String) :
    ofFile file = match sourceStem? file.toList with
      | none => root
      | some stem => ofBase ((baseName? stem).getD stem) := by
  unfold ofFile
  split
  · next h =>
    obtain rfl | rfl := h <;> rfl
  · rfl

/-- Source files with nothing before the ending that a path could end in. -/
def namelessFiles : List String := [".ml", "..ml", "...ml"]

/-- The three file names whose stem is no component. -/
theorem mem_namelessFiles_iff {base : String} :
    base ∈ namelessFiles ↔ ∃ stem ∈ nameless, sourceStem? base.toList = some stem := by
  simp [namelessFiles, nameless, sourceStem?_eq_some_iff, ← String.toList_inj]

section

variable {dir base : String} {stem : List Char}

/-- A file that does not end in `.ml` has no unit module. -/
theorem ofFile_of_none {file : String} (h : sourceStem? file.toList = none) :
    ofFile file = root := by
  rw [ofFile_eq, h]

/-- The unit module is the base name of the stem, or the stem if it has none. -/
theorem ofFile_of_some {file : String} (h : sourceStem? file.toList = some stem) :
    ofFile file = ofBase ((baseName? stem).getD stem) := by
  rw [ofFile_eq, h]

/-- The stem of a name without a slash has none. -/
theorem slash_not_mem_stem (hslash : '/' ∉ base.toList) (h : sourceStem? base.toList = some stem) :
    '/' ∉ stem := by
  rw [sourceStem?_eq_some_iff] at h
  rw [h] at hslash
  exact fun hmem => hslash (List.mem_append_left _ hmem)

/-- The ending of a file in a directory is that of its name. -/
theorem sourceStem?_in (dir base : String) :
    sourceStem? (dir ++ "/" ++ base).toList =
      (sourceStem? base.toList).map (dir.toList ++ '/' :: ·) := by
  rw [← sourceStem?_append_slash]
  simp

/-- The unit of a file in a directory is named after the last component of what stands before the
ending, and after all of that if there is none. -/
theorem ofFile_in_of_some (h : sourceStem? base.toList = some stem) :
    ofFile (dir ++ "/" ++ base) =
      ofBase ((baseName? (dir.toList ++ '/' :: stem)).getD (dir.toList ++ '/' :: stem)) := by
  have hstem : sourceStem? (dir ++ "/" ++ base).toList = some (dir.toList ++ '/' :: stem) := by
    rw [sourceStem?_in, h, Option.map_some]
  exact ofFile_of_some hstem

/-- The unit of a file without a directory is named after what stands before the ending. -/
theorem ofFile_of_not_mem (hslash : '/' ∉ base.toList) (h : sourceStem? base.toList = some stem) :
    ofFile base = ofBase stem := by
  rw [ofFile_of_some h, getD_baseName?_of_not_mem (slash_not_mem_stem hslash h)]

/-- The unit of a file in a directory is named after what stands before the ending, if that can be a
last component. -/
theorem ofFile_in_of_not_mem_nameless (hslash : '/' ∉ base.toList)
    (h : sourceStem? base.toList = some stem) (hname : stem ∉ nameless) :
    ofFile (dir ++ "/" ++ base) = ofBase stem := by
  have hbase : baseName? (dir.toList ++ '/' :: stem) = some stem := by
    rw [baseName?_append_slash _ (slash_not_mem_stem hslash h)]
    simp_all [nameless, isComponent]
  rw [ofFile_in_of_some h, hbase, Option.getD_some]

/-- What cannot be a last component does not name the unit of a file in a directory. -/
theorem ofFile_in_ne_of_mem_nameless (h : sourceStem? base.toList = some stem)
    (hname : stem ∈ nameless) : ofFile (dir ++ "/" ++ base) ≠ ofBase stem := by
  rw [ofFile_in_of_some h, Ne, ofBase_eq_iff hname]
  cases hbase : baseName? (dir.toList ++ '/' :: stem) with
  | none =>
      -- The whole path stands for a component, and it has a slash.
      intro heq
      have hslash : '/' ∈ stem := heq ▸ List.mem_append_right _ List.mem_cons_self
      exact slash_not_mem_nameless stem hname hslash
  | some component =>
      intro heq
      rw [Option.getD_some] at heq
      exact not_mem_nameless_of_baseName? hbase (heq ▸ hname)

/-- What does not count as a component leaves the name of the unit to the directory. -/
theorem ofFile_in_of_not_isComponent {name : List Char} (h : sourceStem? base.toList = some stem)
    (hstem : isComponent stem = false) (hslash : '/' ∉ stem)
    (hdir : baseName? dir.toList = some name) : ofFile (dir ++ "/" ++ base) = ofBase name := by
  have hbase : baseName? (dir.toList ++ '/' :: stem) = some name := by
    rw [baseName?_append_slash _ hslash, hstem, if_neg Bool.false_ne_true, hdir]
  rw [ofFile_in_of_some h, hbase, Option.getD_some]

/-- The directory does not show in the path of a unit, except for three names of files. -/
theorem ofFile_in_eq_iff (hslash : '/' ∉ base.toList) :
    ofFile (dir ++ "/" ++ base) = ofFile base ↔ base ∉ namelessFiles := by
  rw [mem_namelessFiles_iff]
  cases hstem : sourceStem? base.toList with
  | none =>
      have hpath : sourceStem? (dir ++ "/" ++ base).toList = none := by
        rw [sourceStem?_in, hstem, Option.map_none]
      simp [ofFile_of_none hpath, ofFile_of_none hstem]
  | some stem =>
      rw [ofFile_of_not_mem hslash hstem]
      by_cases hname : stem ∈ nameless
      · simp [ofFile_in_ne_of_mem_nameless hstem hname, hname]
      · simp [ofFile_in_of_not_mem_nameless hslash hstem hname, hname]

end

/-- **The unit follows the name of the file.** The path that the expansion of a file in a directory
starts from is that of the file alone, unless the file has one of the three names that have nothing
or only dots before the ending; so files of another name are expanded alike in all directories. It
is the name before the ending, with a capital letter, if there is the ending of a source file, and
the path outside all modules if there is none. Of two of the three names the unit is named after the
directory. -/
theorem unit_follows_base_name (dir : String) {base : String} (hslash : '/' ∉ base.toList) :
    (ofFile (dir ++ "/" ++ base) = ofFile base ↔ base ∉ namelessFiles) ∧
    (base ∉ namelessFiles → ∀ (dir' : String) (r : Registry) (q : Queue),
      ofFile (dir ++ "/" ++ base) = ofFile (dir' ++ "/" ++ base) ∧
      r.expandStructure q (dir ++ "/" ++ base) = r.expandStructure q (dir' ++ "/" ++ base) ∧
      r.expandSignature q (dir ++ "/" ++ base) = r.expandSignature q (dir' ++ "/" ++ base)) ∧
    (∀ stem : String, base = stem ++ ".ml" → ofFile base = ofBase stem.toList) ∧
    ((∀ stem : String, base ≠ stem ++ ".ml") → ofFile base = root) ∧
    (base = ".ml" ∨ base = "..ml" → ∀ name, baseName? dir.toList = some name →
      ofFile (dir ++ "/" ++ base) = ofBase name) := by
  refine ⟨ofFile_in_eq_iff hslash, fun hname dir' r q => ?_, fun stem hstem => ?_, fun hnone => ?_,
    fun hdots name hdir => ?_⟩
  · have hdir : ofFile (dir ++ "/" ++ base) = ofFile base := (ofFile_in_eq_iff hslash).2 hname
    have hdir' : ofFile (dir' ++ "/" ++ base) = ofFile base := (ofFile_in_eq_iff hslash).2 hname
    have hpath := hdir.trans hdir'.symm
    refine ⟨hpath, ?_, ?_⟩
    · unfold Registry.expandStructure
      rw [hpath]
    · unfold Registry.expandSignature
      rw [hpath]
  · have hsome : sourceStem? base.toList = some stem.toList :=
      sourceStem?_eq_some_iff.2 (by simp [hstem])
    exact ofFile_of_not_mem hslash hsome
  · apply ofFile_of_none
    rw [Option.eq_none_iff_forall_ne_some]
    intro stem hsome
    rw [sourceStem?_eq_some_iff] at hsome
    exact hnone (.ofList stem) (String.toList_injective (by simp [hsome]))
  · obtain rfl | rfl := hdots
    · exact ofFile_in_of_not_isComponent rfl rfl (by decide) hdir
    · exact ofFile_in_of_not_isComponent rfl rfl (by decide) hdir

/-- A source file in two directories, a file of another kind, and a file that takes the name of its
directory. -/
theorem unit_follows_base_name_foo :
    ofFile ("src" ++ "/" ++ "foo.ml") = ofFile "foo.ml" ∧
    ofFile ("src" ++ "/" ++ "foo.ml") = ofFile ("../lib" ++ "/" ++ "foo.ml") ∧
    ofFile "foo.ml" = ⟨["Foo"]⟩ ∧ ofFile "foo.mli" = root ∧
    ofFile ("../lib" ++ "/" ++ ".ml") = ⟨["Lib"]⟩ := by
  have hname : "foo.ml" ∉ namelessFiles := by decide
  have hother (stem : String) : "foo.mli" ≠ stem ++ ".ml" := by
    intro h
    have hlast := congrArg (fun s => s.toList.getLast?) h
    simp at hlast
  obtain ⟨hiff, hsame, hstem, -, -⟩ :=
    unit_follows_base_name "src" (by decide : '/' ∉ "foo.ml".toList)
  obtain ⟨-, -, -, hnone, -⟩ := unit_follows_base_name "src" (by decide : '/' ∉ "foo.mli".toList)
  obtain ⟨-, -, -, -, hdir⟩ := unit_follows_base_name "../lib" (by decide : '/' ∉ ".ml".toList)
  exact ⟨hiff.2 hname, (hsame hname "../lib" .empty (.empty none)).1, hstem "foo" rfl,
    hnone hother, hdir (.inl rfl) _ rfl⟩

/-- A file without a name has no unit by itself, and in a directory it has that of the directory. -/
theorem nameless_file_takes_directory :
    ".ml" ≠ "" ∧ '/' ∉ ".ml".toList ∧ ofFile ".ml" = root ∧
      ofFile ("src" ++ "/" ++ ".ml") = ⟨["Src"]⟩ := by
  decide

end ModulePath

end DeriveKit
