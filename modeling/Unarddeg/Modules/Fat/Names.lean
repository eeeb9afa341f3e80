import Unarddeg.Modules.Fat.Write

/-!
# Names of files

`FatConvert83` of `modules/fat/main.c` on a stem and an optional extension. The loop over the stem
stops behind eight characters, and the loop over the extension goes on from there, so what is behind
the eighth character of a stem is taken for the extension (`fatConvert83_iff`).
-/

namespace Unarddeg.Fat

/-- A character of a C string. -/
abbrev Character := BitVec 8

/-- The dot before an extension. -/
def dot : Character := 0x2E

/-- The character that pads names. -/
def blank : Character := 0x20

/-- A stem, and a dot with an extension behind it if there is one. -/
def fileName (stem : List Character) : Option (List Character) → List Character
  | none => stem
  | some ext => stem ++ dot :: ext

/-- The characters of an extension. -/
def extensionOf (ext : Option (List Character)) : List Character := ext.getD []

/-- A character of a stem or an extension: no zero, no dot and no separator. -/
def IsPlain (char : Character) : Prop := char ≠ 0 ∧ char ≠ dot ∧ char ≠ 0x2F

/-- A stem and an extension of any length. -/
structure NameParts (stem : List Character) (ext : Option (List Character)) : Prop where
  /-- The characters of the stem. -/
  stemPlain : ∀ char ∈ stem, IsPlain char
  /-- The characters of the extension. -/
  extPlain : ∀ char ∈ extensionOf ext, IsPlain char

/-- A short name: it fits the fields of a directory entry, and no blank is in it. -/
structure ShortName (stem : List Character) (ext : Option (List Character)) : Prop
    extends NameParts stem ext where
  /-- The stem is not empty and fits its field. -/
  stemLength : 1 ≤ stem.length ∧ stem.length ≤ 8
  /-- The extension fits its field. -/
  extLength : (extensionOf ext).length ≤ 3
  /-- There is no blank in it. -/
  unpadded : blank ∉ stem ∧ blank ∉ extensionOf ext

/-- What the fields should hold: the front of the stem and the front of the extension, padded. -/
def fields83 (stem : List Character) (ext : Option (List Character)) :
    (Nat → Character) × (Nat → Character) :=
  (padded 8 (stem.take 8), padded 3 ((extensionOf ext).take 3))

/-! ## Padding -/

section Padding

variable {count : Nat} {left right : List Character}

/-- Two padded texts are equal exactly when the first characters are. -/
theorem padded_take_eq_iff : padded count (left.take count) = padded count (right.take count) ↔
    ∀ index < count, left.getD index blank = right.getD index blank := by
  have front : ∀ (text : List Character) (index : Nat), index < count →
      (text.take count).getD index blank = text.getD index blank := by
    intro text index inside
    rw [List.getD_eq_getElem?_getD, List.getElem?_take_of_lt inside, ← List.getD_eq_getElem?_getD]
  constructor
  · intro same index inside
    have here := congrFun same index
    unfold padded at here
    rw [if_pos inside, if_pos inside] at here
    rw [← front left index inside, ← front right index inside]
    exact here
  · intro same
    funext index
    unfold padded
    split
    · rename_i inside
      have here := same index inside
      rw [← front left index inside, ← front right index inside] at here
      exact here
    · rfl

/-- A text without blanks that fits is known from its padding. -/
theorem getElem?_of_padded (same : ∀ index < count, left.getD index blank = right.getD index blank)
    (fits : left.length ≤ count) (unpadded : blank ∉ left) {index : Nat} {char : Character}
    (here : left[index]? = some char) : right[index]? = some char := by
  obtain ⟨inside, value⟩ := List.getElem?_eq_some_iff.mp here
  have equal := same index (by omega)
  rw [List.getD_eq_getElem?_getD, List.getD_eq_getElem?_getD, here, Option.getD_some] at equal
  cases there : right[index]? with
  | none =>
    rw [there, Option.getD_none] at equal
    have member : char ∈ left := List.mem_of_getElem? here
    rw [equal] at member
    exact absurd member unpadded
  | some other =>
    rw [there, Option.getD_some] at equal
    rw [equal]

/-- Texts without blanks that fit are equal when they are padded alike. -/
theorem padded_injective (leftFits : left.length ≤ count) (rightFits : right.length ≤ count)
    (leftUnpadded : blank ∉ left) (rightUnpadded : blank ∉ right)
    (same : ∀ index < count, left.getD index blank = right.getD index blank) : left = right := by
  have symmetric : ∀ index < count, right.getD index blank = left.getD index blank := by
    intro index inside
    exact (same index inside).symm
  apply List.ext_getElem?
  intro index
  cases here : left[index]? with
  | some char => exact (getElem?_of_padded same leftFits leftUnpadded here).symm
  | none =>
    cases there : right[index]? with
    | none => rfl
    | some char =>
      have back := getElem?_of_padded symmetric rightFits rightUnpadded there
      rw [here] at back
      cases back

end Padding

/-! ## The two loops -/

section Convert

variable {stem : List Character} {ext : Option (List Character)}

/-- The first loop takes the front of the stem. -/
theorem NameParts.nameCharacters_eq (parts : NameParts stem ext) :
    nameCharacters (fileName stem ext) = stem.take 8 := by
  have passes : ∀ char ∈ stem, decide (char ≠ 0 ∧ char ≠ 0x2E) = true := by
    intro char member
    have plain := parts.stemPlain char member
    exact decide_eq_true ⟨plain.1, plain.2.1⟩
  unfold nameCharacters
  congr 1
  cases ext with
  | none => exact List.takeWhile_eq_self_iff.mpr passes
  | some ext =>
    unfold fileName
    rw [List.takeWhile_append_of_pos passes]
    have stops : (dot :: ext).takeWhile (fun char => decide (char ≠ 0 ∧ char ≠ 0x2E)) = [] := by
      simp [dot]
    rw [stops, List.append_nil]

/-- The second loop takes the front of what it begins at, if that has no separator. -/
theorem takeWhile_unseparated {rest : List Character}
    (plain : ∀ char ∈ rest, char ≠ 0 ∧ char ≠ 0x2F) :
    rest.takeWhile (fun char => decide (char ≠ 0 ∧ char ≠ 0x2F)) = rest := by
  apply List.takeWhile_eq_self_iff.mpr
  intro char member
  exact decide_eq_true (plain char member)

/-- Behind a stem that fits its field, the second loop takes the front of the extension. -/
theorem NameParts.extCharacters_short (parts : NameParts stem ext) (short : stem.length ≤ 8) :
    extCharacters (fileName stem ext) = (extensionOf ext).take 3 := by
  have plain : ∀ char ∈ extensionOf ext, char ≠ 0 ∧ char ≠ 0x2F := by
    intro char member
    have known := parts.extPlain char member
    exact ⟨known.1, known.2.2⟩
  unfold extCharacters
  rw [parts.nameCharacters_eq, List.take_of_length_le short]
  cases ext with
  | none => simp [fileName, extensionOf]
  | some ext =>
    have rest : (fileName stem (some ext)).drop stem.length = dot :: ext := List.drop_left
    have head : (dot :: ext).head? = some 0x2E := rfl
    rw [rest]
    dsimp only
    rw [if_pos head, List.tail_cons]
    exact congrArg (List.take 3) (takeWhile_unseparated plain)

/-- Behind the eighth character of a longer stem, the second loop takes what follows in the
path. -/
theorem NameParts.extCharacters_long (parts : NameParts stem ext) (long : 8 < stem.length) :
    extCharacters (fileName stem ext) = ((fileName stem ext).drop 8).take 3 := by
  have front : (stem.take 8).length = 8 := by
    rw [List.length_take]
    omega
  have plain : ∀ char ∈ fileName stem ext, char ≠ 0 ∧ char ≠ 0x2F := by
    intro char member
    have stemPlain : char ∈ stem → char ≠ 0 ∧ char ≠ 0x2F := fun inside =>
      ⟨(parts.stemPlain char inside).1, (parts.stemPlain char inside).2.2⟩
    cases ext with
    | none => exact stemPlain member
    | some ext =>
      rcases List.mem_append.mp member with inside | behind
      · exact stemPlain inside
      · rcases List.mem_cons.mp behind with rfl | inside
        · decide
        · have known := parts.extPlain char inside
          exact ⟨known.1, known.2.2⟩
  have ninth : ((fileName stem ext).drop 8).head? = some stem[8] := by
    rw [List.head?_drop]
    cases ext with
    | none => exact List.getElem?_eq_getElem long
    | some ext =>
      unfold fileName
      rw [List.getElem?_append_left long]
      exact List.getElem?_eq_getElem long
  have noDot : ((fileName stem ext).drop 8).head? ≠ some 0x2E := by
    rw [ninth]
    intro same
    exact (parts.stemPlain stem[8] (List.getElem_mem long)).2.1 (Option.some.inj same)
  have restPlain : ∀ char ∈ (fileName stem ext).drop 8, char ≠ 0 ∧ char ≠ 0x2F := by
    intro char member
    exact plain char (List.mem_of_mem_drop member)
  unfold extCharacters
  rw [parts.nameCharacters_eq, front]
  dsimp only
  rw [if_neg noDot, takeWhile_unseparated restPlain]

/-- The fields are filled as they should be exactly when the second loop begins at the extension, or
takes the same characters as if it did. -/
theorem fatConvert83_iff (parts : NameParts stem ext) :
    fatConvert83 (fileName stem ext) = fields83 stem ext ↔
      stem.length ≤ 8 ∨ ∀ index < 3,
        ((fileName stem ext).drop 8).getD index blank = (extensionOf ext).getD index blank := by
  unfold fatConvert83 fields83
  rw [parts.nameCharacters_eq, Prod.mk.injEq]
  constructor
  · intro ⟨_, same⟩
    by_cases short : stem.length ≤ 8
    · exact .inl short
    · right
      rw [parts.extCharacters_long (by omega)] at same
      exact padded_take_eq_iff.mp same
  · intro fits
    refine ⟨rfl, ?_⟩
    by_cases short : stem.length ≤ 8
    · rw [parts.extCharacters_short short]
    · rw [parts.extCharacters_long (by omega)]
      exact padded_take_eq_iff.mpr (fits.resolve_left short)

/-- Short names with the same fields are the same. -/
theorem ShortName.fatConvert83_injective {other : List Character}
    {otherExt : Option (List Character)}
    (name : ShortName stem ext) (otherName : ShortName other otherExt)
    (same : fatConvert83 (fileName stem ext) = fatConvert83 (fileName other otherExt)) :
    stem = other ∧ extensionOf ext = extensionOf otherExt := by
  rw [(fatConvert83_iff name.toNameParts).mpr (.inl name.stemLength.2),
    (fatConvert83_iff otherName.toNameParts).mpr (.inl otherName.stemLength.2)] at same
  have stems := padded_take_eq_iff.mp (Prod.mk.inj same).1
  have exts := padded_take_eq_iff.mp (Prod.mk.inj same).2
  constructor
  · exact padded_injective name.stemLength.2 otherName.stemLength.2 name.unpadded.1
      otherName.unpadded.1 stems
  · exact padded_injective name.extLength otherName.extLength name.unpadded.2
      otherName.unpadded.2 exts

/-- **Names.** `FatConvert83` fills the fields from the front of the stem and of the extension
exactly when the stem has at most eight characters, or the three characters behind its eighth one
happen to be those of the extension; and short names with the same fields are the same. -/
theorem names_converted_iff (parts : NameParts stem ext) :
    (fatConvert83 (fileName stem ext) = fields83 stem ext ↔
      stem.length ≤ 8 ∨ ∀ index < 3,
        ((fileName stem ext).drop 8).getD index blank = (extensionOf ext).getD index blank) ∧
    ∀ other otherExt, ShortName stem ext → ShortName other otherExt →
      fatConvert83 (fileName stem ext) = fatConvert83 (fileName other otherExt) →
      stem = other ∧ extensionOf ext = extensionOf otherExt := by
  constructor
  · exact fatConvert83_iff parts
  · intro other otherExt name otherName same
    exact name.fatConvert83_injective otherName same

end Convert

/-- The stem `longfilename`. -/
def longStem : List Character :=
  [0x6C, 0x6F, 0x6E, 0x67, 0x66, 0x69, 0x6C, 0x65, 0x6E, 0x61, 0x6D, 0x65]

/-- The extension `txt`. -/
def textExt : List Character := [0x74, 0x78, 0x74]

/-- The parts of `longfilename.txt`. -/
theorem longStem_parts : NameParts longStem (some textExt) := by
  constructor
  · unfold IsPlain
    decide
  · unfold IsPlain
    decide

/-- The fields of `longfilename.txt` are not as they should be, since `nam` is not `txt`. -/
theorem names_converted_iff_long :
    (fatConvert83 (fileName longStem (some textExt)) = fields83 longStem (some textExt) ↔
      longStem.length ≤ 8 ∨ ∀ index < 3, ((fileName longStem (some textExt)).drop 8).getD index
        blank = (extensionOf (some textExt)).getD index blank) ∧
    ∀ other otherExt, ShortName longStem (some textExt) → ShortName other otherExt →
      fatConvert83 (fileName longStem (some textExt)) =
        fatConvert83 (fileName other otherExt) →
      longStem = other ∧ extensionOf (some textExt) = extensionOf otherExt :=
  names_converted_iff longStem_parts

/-- The file `longfilename.txt` gets the extension `nam`. -/
theorem long_stem_converted :
    ¬ ∀ (stem : List Character) (ext : Option (List Character)), NameParts stem ext →
      fatConvert83 (fileName stem ext) = fields83 stem ext := by
  intro claim
  have same := congrFun (Prod.mk.inj (claim _ _ longStem_parts)).2 0
  exact absurd same (by decide)

end Unarddeg.Fat
