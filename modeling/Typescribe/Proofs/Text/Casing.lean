import Typescribe.Text.Casing

/-!
# Spellings read back

On ASCII, the tables of cases agree with the cases of `Char`. A name that starts with a capital and
goes on with letters, digits and underscores can therefore be read back from its kebab case: a
hyphen stands for a capital and for nothing else.
-/

namespace Typescribe.Text

/-- Whether a character is a letter, a digit or an underscore of ASCII. -/
def isWordChar (c : Char) : Bool :=
  c.isAlphanum || c == '_'

/-- Whether a name starts with a capital and goes on with letters, digits and underscores. -/
def isProperName (name : String) : Bool :=
  match name.toList with
  | [] => false
  | first :: rest => first.isUpper && rest.all isWordChar

/-- What stands behind the first character of a name, read from kebab case. -/
def unkebabTail : List Char → List Char
  | [] => []
  | '-' :: c :: rest => c.toUpper :: unkebabTail rest
  | c :: rest => c :: unkebabTail rest

/-- A name, read from kebab case. -/
def unkebab (text : String) : String :=
  match text.toList with
  | [] => ""
  | first :: rest => String.ofList (first.toUpper :: unkebabTail rest)

/-- What holds of the first 128 characters holds of every character of ASCII. -/
theorem forall_ascii (property : Char → Prop) (each : ∀ code < 128, property (Char.ofNat code))
    {c : Char} (ascii : c.toNat < 128) : property c :=
  Char.ofNat_toNat c ▸ each c.toNat ascii

theorem isUpper_iff {c : Char} : c.isUpper = true ↔ 65 ≤ c.toNat ∧ c.toNat ≤ 90 := by
  have unfolded : c.isUpper = decide ('A'.val ≤ c.val ∧ c.val ≤ 'Z'.val) := rfl
  rw [unfolded, decide_eq_true_eq, UInt32.le_iff_toNat_le, UInt32.le_iff_toNat_le]
  rfl

theorem ascii_of_isUpper {c : Char} (capital : c.isUpper = true) : c.toNat < 128 := by
  have range := isUpper_iff.mp capital
  omega

theorem CharRun.contains_eq_false_of_lt {run : CharRun} {code : Nat} (below : code < run.first) :
    run.contains code = false := by
  have outside : ¬ run.first ≤ code := by omega
  simp [contains, outside]

/-- The run of the ASCII capitals, with which both tables of capitals start. -/
theorem contains_capitals (c : Char) : CharRun.contains ⟨0x41, 0x5A, 1⟩ c.toNat = c.isUpper := by
  rw [Bool.eq_iff_iff, isUpper_iff]
  simp [CharRun.contains, Nat.mod_one]

theorem uppercaseSet_tail : ∀ run ∈ uppercaseSet.tail, 128 ≤ run.first := by
  decide +kernel

theorem lowercaseShifts_tail : ∀ shift ∈ lowercaseShifts.tail, 128 ≤ shift.run.first := by
  decide +kernel

theorem isUppercase_eq_isUpper {c : Char} (ascii : c.toNat < 128) : isUppercase c = c.isUpper := by
  have others : (uppercaseSet.tail.any fun run => run.contains c.toNat) = false := by
    rw [List.any_eq_false]
    intro run listed
    have above := uppercaseSet_tail run listed
    rw [CharRun.contains_eq_false_of_lt (by omega)]
    decide
  have split : uppercaseSet = ⟨0x41, 0x5A, 1⟩ :: uppercaseSet.tail := rfl
  rw [isUppercase, CharSet.contains, split, List.any_cons, others, Bool.or_false,
    contains_capitals]

theorem toLowercase_eq_toLower {c : Char} (ascii : c.toNat < 128) : toLowercase c = [c.toLower] := by
  have undotted : c ≠ '\u0130' := by
    rintro rfl
    exact absurd ascii (by decide)
  -- Of the whole table, only the first run lies below 128.
  have others : (lowercaseShifts.tail.find? fun shift => shift.run.contains c.toNat) = none := by
    rw [List.find?_eq_none]
    intro shift listed
    have above := lowercaseShifts_tail shift listed
    rw [CharRun.contains_eq_false_of_lt (by omega)]
    decide
  have split : lowercaseShifts = ⟨⟨0x41, 0x5A, 1⟩, 32⟩ :: lowercaseShifts.tail := rfl
  rw [toLowercase, if_neg undotted, split, List.find?_cons, contains_capitals, others]
  cases capital : c.isUpper with
  | true =>
    have shifted := forall_ascii (fun c =>
      c.isUpper = true → Char.ofNat (Int.toNat (c.toNat + 32)) = c.toLower) (by decide) ascii
    exact congrArg (fun lowered => [lowered]) (shifted capital)
  | false =>
    have kept := forall_ascii (fun c => c.isUpper = false → c = c.toLower) (by decide) ascii
    exact congrArg (fun lowered => [lowered]) (kept capital)

theorem toUpper_toLower {c : Char} (capital : c.isUpper = true) : c.toLower.toUpper = c :=
  forall_ascii (fun c => c.isUpper = true → c.toLower.toUpper = c) (by decide)
    (ascii_of_isUpper capital) capital

/-- Digits and letters lie between `0` and `z`. -/
theorem toNat_of_isAlphanum {c : Char} (alphanumeric : c.isAlphanum = true) :
    48 ≤ c.toNat ∧ c.toNat ≤ 122 := by
  have ranges : (decide ('A'.val ≤ c.val ∧ c.val ≤ 'Z'.val) ||
      decide ('a'.val ≤ c.val) && decide (c.val ≤ 'z'.val) ||
      decide ('0'.val ≤ c.val) && decide (c.val ≤ '9'.val)) = true := alphanumeric
  simp only [Bool.or_eq_true, Bool.and_eq_true, decide_eq_true_eq, UInt32.le_iff_toNat_le,
    Char.toNat_val, Char.reduceToNat] at ranges
  omega

theorem ascii_of_isWordChar {c : Char} (word : isWordChar c = true) : c.toNat < 128 := by
  rw [isWordChar, Bool.or_eq_true, beq_iff_eq] at word
  rcases word with alphanumeric | rfl
  · have range := toNat_of_isAlphanum alphanumeric
    omega
  · decide

theorem isWordChar_of_isUpper {c : Char} (capital : c.isUpper = true) : isWordChar c = true :=
  forall_ascii (fun c => c.isUpper = true → isWordChar c = true) (by decide)
    (ascii_of_isUpper capital) capital

/-- A proper name is a capital and the word characters behind it. -/
theorem isProperName_iff {name : String} :
    isProperName name = true ↔ ∃ first rest, name.toList = first :: rest ∧
      first.isUpper = true ∧ ∀ c ∈ rest, isWordChar c = true := by
  rw [isProperName]
  cases name.toList with
  | nil => simp
  | cons first rest =>
    rw [Bool.and_eq_true, List.all_eq_true]
    constructor
    · exact fun proper => ⟨first, rest, rfl, proper⟩
    · rintro ⟨_, _, same, proper⟩
      obtain ⟨rfl, rfl⟩ := List.cons.inj same
      exact proper

theorem kebabChar_eq {c : Char} (word : isWordChar c = true) :
    kebabChar c = if c.isUpper then ['-', c.toLower] else [c] := by
  have ascii := ascii_of_isWordChar word
  rw [kebabChar, isUppercase_eq_isUpper ascii, toLowercase_eq_toLower ascii]

/-- Every hyphen stands for one capital. -/
theorem unkebabTail_flatMap {name : List Char} (words : ∀ c ∈ name, isWordChar c = true) :
    unkebabTail (name.flatMap kebabChar) = name := by
  induction name with
  | nil => rfl
  | cons c rest ih =>
    obtain ⟨word, later⟩ := List.forall_mem_cons.mp words
    rw [List.flatMap_cons, kebabChar_eq word]
    split
    next capital =>
      rw [List.cons_append, List.singleton_append, unkebabTail, toUpper_toLower capital, ih later]
    next =>
      -- A hyphen of the name itself would be taken for the mark of a capital.
      have noHyphen : c ≠ '-' := by
        rintro rfl
        exact absurd word (by decide)
      rw [List.singleton_append, unkebabTail, ih later]
      exact fun _ _ isHyphen => absurd isHyphen noHyphen

/-- A proper name is read back from its kebab case. -/
theorem unkebab_kebab {name : String} (proper : isProperName name = true) :
    unkebab (kebab name) = name := by
  obtain ⟨first, rest, chars, capital, words⟩ := isProperName_iff.mp proper
  have spelled : (kebab name).toList = first.toLower :: rest.flatMap kebabChar := by
    rw [kebab, String.toList_ofList, chars, kebabChars,
      toLowercase_eq_toLower (ascii_of_isUpper capital), List.singleton_append]
  rw [unkebab, spelled]
  dsimp only
  rw [toUpper_toLower capital, unkebabTail_flatMap words, ← chars, String.ofList_toList]

/-- The kebab case of a proper name has no slash. -/
theorem slash_not_mem_kebab {name : String} (proper : isProperName name = true) :
    '/' ∉ (kebab name).toList := by
  have lowered : ∀ {c : Char}, isWordChar c = true → c.toLower ≠ '/' ∧ c ≠ '/' := fun word =>
    forall_ascii (fun c => isWordChar c = true → c.toLower ≠ '/' ∧ c ≠ '/') (by decide)
      (ascii_of_isWordChar word) word
  obtain ⟨first, rest, chars, capital, words⟩ := isProperName_iff.mp proper
  rw [kebab, String.toList_ofList, chars, kebabChars,
    toLowercase_eq_toLower (ascii_of_isUpper capital), List.singleton_append, List.mem_cons,
    List.mem_flatMap, not_or]
  refine ⟨(lowered (isWordChar_of_isUpper capital)).1.symm, ?_⟩
  rintro ⟨c, listed, inside⟩
  rw [kebabChar_eq (words c listed)] at inside
  split at inside
  · rcases List.mem_cons.mp inside with hyphen | inside
    · exact absurd hyphen (by decide)
    · exact (lowered (words c listed)).1 (List.mem_singleton.mp inside).symm
  · exact (lowered (words c listed)).2 (List.mem_singleton.mp inside).symm

theorem toList_lowerFirst {name : String} {first : Char} {rest : List Char}
    (chars : name.toList = first :: rest) (capital : first.isUpper = true) :
    (lowerFirst name).toList = first.toLower :: rest := by
  rw [lowerFirst, String.toList_ofList, chars, lowerFirstChars,
    toLowercase_eq_toLower (ascii_of_isUpper capital), List.singleton_append]

/-- Names that start with capitals stay apart when their first letters are lowered. -/
theorem lowerFirst_inj {name other : String} (capital : name.toList.head?.any Char.isUpper = true)
    (otherCapital : other.toList.head?.any Char.isUpper = true) :
    lowerFirst name = lowerFirst other ↔ name = other := by
  refine ⟨fun same => ?_, congrArg lowerFirst⟩
  rw [Option.any_eq_true] at capital otherCapital
  obtain ⟨first, starts, upper⟩ := capital
  obtain ⟨second, otherStarts, otherUpper⟩ := otherCapital
  obtain ⟨rest, chars⟩ := List.head?_eq_some_iff.mp starts
  obtain ⟨otherRest, otherChars⟩ := List.head?_eq_some_iff.mp otherStarts
  rw [← String.toList_inj, toList_lowerFirst chars upper, toList_lowerFirst otherChars otherUpper,
    List.cons.injEq] at same
  have firsts : first = second := by
    rw [← toUpper_toLower upper, same.1, toUpper_toLower otherUpper]
  rw [← String.toList_inj, chars, otherChars, firsts, same.2]

end Typescribe.Text
