import Typescribe.Manifest.Validation
import Typescribe.Proofs.Text.CodeLines
import Typescribe.Proofs.Text.Span
import Typescribe.Proofs.Traversal

/-!
# What the validation of manifests accepts and reports

The places that errors point at are said without the search for them: a value between two quotes of
one kind, and a key that nothing but blanks stand in front of in its line. The search finds the
first of these places, if there is one. Validation accepts exactly the values that follow its
rules, and an error names the first entry that does not.
-/

namespace Typescribe

open Text

namespace Source

variable {source : Source} {value key : String} {quote : Char} {span first : Span}

/-- A span is a value between two quotes of one kind. -/
def QuotedBy (source : Source) (quote : Char) (value : String) (span : Span) : Prop :=
  ∃ before after : String,
    span.Covers source.text (before.push quote) value (String.singleton quote ++ after)

/-- A span is a value between two quotes. -/
def QuotedAt (source : Source) (value : String) (span : Span) : Prop :=
  source.QuotedBy '"' value span ∨ source.QuotedBy '\x27' value span

/-- A text of blanks within one line. -/
def IsGap (text : String) : Prop :=
  ∀ c ∈ text.toList, isBlank c = true ∧ c ≠ '\n'

/-- A span is a key that its line gives a value to. -/
def KeyAt (source : Source) (key : String) (span : Span) : Prop :=
  ∃ before margin gap after : String,
    span.Covers source.text (before ++ margin) key (gap ++ "=" ++ after) ∧
      EndsLine before.toList ∧ IsGap margin ∧ IsGap gap

section Values

theorem quotedBy_iff :
    source.QuotedBy quote value span ↔
      ∃ offset, OccursAt ([quote] ++ value.toList ++ [quote]) source.text.toList 0 offset ∧
        span = ⟨offset + quote.utf8Size, byteLength value.toList⟩ := by
  constructor
  · rintro ⟨before, after, covers⟩
    obtain ⟨split, rfl⟩ := Span.covers_iff.mp covers
    exact ⟨_, ⟨before.toList, after.toList, by simpa using split, rfl⟩, by simp⟩
  · rintro ⟨_, ⟨before, after, split, rfl⟩, rfl⟩
    refine ⟨String.ofList before, String.ofList after, Span.covers_iff.mpr ⟨?_, ?_⟩⟩
    · simpa using split
    · simp

theorem quotedBy_of_mem (found : span ∈ source.quotedSpans value.toList quote) :
    source.QuotedBy quote value span := by
  rw [quotedSpans, List.mem_map] at found
  obtain ⟨offset, found, rfl⟩ := found
  exact quotedBy_iff.mpr ⟨offset, occursAt_of_mem found, rfl⟩

theorem exists_mem_quotedSpans (placed : source.QuotedBy quote value span) :
    ∃ first ∈ source.quotedSpans value.toList quote, first.offset ≤ span.offset := by
  obtain ⟨_, ⟨before, after, split, rfl⟩, rfl⟩ := quotedBy_iff.mp placed
  have nonempty : [quote] ++ value.toList ++ [quote] ≠ [] := by simp
  obtain ⟨offset, found, earlier⟩ := exists_mem_occurrencesFrom nonempty (Nat.zero_le before.length)
  rw [← split] at found
  exact ⟨_, List.mem_map_of_mem found, Nat.add_le_add_right earlier _⟩

theorem quotedSpans_ne_nil (placed : source.QuotedBy quote value span) :
    source.quotedSpans value.toList quote ≠ [] := by
  obtain ⟨first, found, -⟩ := exists_mem_quotedSpans placed
  exact List.ne_nil_of_mem found

theorem pairwise_quotedSpans (source : Source) (value : List Char) (quote : Char) :
    (source.quotedSpans value quote).Pairwise fun left right => left.offset < right.offset := by
  rw [quotedSpans, List.pairwise_map]
  exact (pairwise_occurrencesFrom _ _ _ _).imp fun less => Nat.add_lt_add_right less _

/-- If there is one quoted value that is found, every other overlaps it. -/
theorem lt_of_quotedSpans_eq_singleton
    (single : source.quotedSpans value.toList quote = [first])
    (placed : source.QuotedBy quote value span) :
    span.offset < first.offset + first.length + 2 * quote.utf8Size := by
  obtain ⟨_, ⟨before, after, split, rfl⟩, rfl⟩ := quotedBy_iff.mp placed
  rw [quotedSpans, List.map_eq_singleton_iff] at single
  obtain ⟨offset, single, rfl⟩ := single
  rw [occurrences, split] at single
  have overlap := lt_of_occurrencesFrom_eq_singleton (by simp) (Nat.zero_le _) single
  simp only [byteLength_append, byteLength_cons, byteLength_nil] at overlap
  simp only
  omega

/-- Quotes of two kinds do not stand at one place. -/
theorem QuotedBy.quote_eq {other : Char} {otherValue : String} {otherSpan : Span}
    (placed : source.QuotedBy quote value span)
    (otherPlaced : source.QuotedBy other otherValue otherSpan)
    (same : span.offset = otherSpan.offset) : quote = other := by
  obtain ⟨before, after, covers⟩ := placed
  obtain ⟨otherBefore, otherAfter, otherCovers⟩ := otherPlaced
  obtain ⟨split, rfl⟩ := Span.covers_iff.mp covers
  obtain ⟨otherSplit, rfl⟩ := Span.covers_iff.mp otherCovers
  rw [List.append_assoc] at split otherSplit
  have equal := eq_of_isPrefix_of_byteLength ⟨_, split.symm⟩ ⟨_, otherSplit.symm⟩ same
  simpa using congrArg List.getLast? equal

theorem mem_valueSpans_iff :
    span ∈ source.valueSpans value ↔
      span ∈ source.quotedSpans value.toList '"' ∨
        span ∈ source.quotedSpans value.toList '\x27' := by
  rw [valueSpans, (List.mergeSort_perm _ _).mem_iff, List.mem_append]

theorem quotedAt_of_mem (found : span ∈ source.valueSpans value) :
    source.QuotedAt value span :=
  (mem_valueSpans_iff.mp found).imp quotedBy_of_mem quotedBy_of_mem

theorem exists_mem_valueSpans (placed : source.QuotedAt value span) :
    ∃ first ∈ source.valueSpans value, first.offset ≤ span.offset := by
  rcases placed with placed | placed
  · obtain ⟨first, found, earlier⟩ := exists_mem_quotedSpans placed
    exact ⟨first, mem_valueSpans_iff.mpr (.inl found), earlier⟩
  · obtain ⟨first, found, earlier⟩ := exists_mem_quotedSpans placed
    exact ⟨first, mem_valueSpans_iff.mpr (.inr found), earlier⟩

theorem pairwise_valueSpans (source : Source) (value : String) :
    (source.valueSpans value).Pairwise fun left right => left.offset < right.offset := by
  -- Within one kind of quotes the search goes from left to right, and one place cannot have quotes
  -- of both kinds in front of it; so sorting leaves no two spans at one offset.
  have distinct : (source.valueSpans value).Pairwise fun left right =>
      left.offset ≠ right.offset := by
    rw [valueSpans, (List.mergeSort_perm _ _).pairwise_iff Ne.symm, List.pairwise_append]
    refine ⟨(pairwise_quotedSpans _ _ _).imp Nat.ne_of_lt,
      (pairwise_quotedSpans _ _ _).imp Nat.ne_of_lt, ?_⟩
    intro left inLeft right inRight same
    exact absurd ((quotedBy_of_mem inLeft).quote_eq (quotedBy_of_mem inRight) same) (by decide)
  have sorted : (source.valueSpans value).Pairwise fun left right =>
      left.offset ≤ right.offset := by
    refine (List.pairwise_mergeSort ?_ ?_ _).imp of_decide_eq_true
    · intro left middle right
      simpa using Nat.le_trans
    · intro left right
      simpa using Nat.le_total left.offset right.offset
  exact (sorted.and distinct).imp fun both => Nat.lt_of_le_of_ne both.1 both.2

theorem isFirst_valueSpans (source : Source) (value : String) :
    Span.IsFirst (source.QuotedAt value) (source.valueSpans value).head? := by
  have sorted := pairwise_valueSpans source value
  refine Span.isFirst_of (fun _ isHead => quotedAt_of_mem (List.mem_of_head? isHead)) ?_
  intro span placed
  obtain ⟨other, listed, earlier⟩ := exists_mem_valueSpans placed
  cases found : source.valueSpans value with
  | nil =>
    rw [found] at listed
    exact absurd listed List.not_mem_nil
  | cons first rest =>
    rw [found] at listed sorted
    refine ⟨first, rfl, ?_⟩
    rcases List.mem_cons.mp listed with rfl | behind
    · exact earlier
    · exact Nat.le_trans (Nat.le_of_lt (List.rel_of_pairwise_cons sorted behind)) earlier

/-- If there is one value that is found, every other overlaps it. -/
theorem le_of_valueSpans_eq_singleton (single : source.valueSpans value = [first])
    (placed : source.QuotedAt value span) : span.offset ≤ first.offset + first.length + 1 := by
  have perm := List.mergeSort_perm
    (source.quotedSpans value.toList '"' ++ source.quotedSpans value.toList '\x27')
    fun left right => decide (left.offset ≤ right.offset)
  rw [← valueSpans, single, List.singleton_perm, eq_comm, List.append_eq_singleton_iff] at perm
  rcases placed with placed | placed
  · rcases perm with ⟨none, -⟩ | ⟨single, -⟩
    · exact absurd none (quotedSpans_ne_nil placed)
    · exact Nat.le_of_lt_succ (lt_of_quotedSpans_eq_singleton single placed)
  · rcases perm with ⟨-, single⟩ | ⟨-, none⟩
    · exact Nat.le_of_lt_succ (lt_of_quotedSpans_eq_singleton single placed)
    · exact absurd none (quotedSpans_ne_nil placed)

end Values

section Keys

theorem exists_of_assigns {key line : List Char} (assigned : assigns key (trimStart line) = true) :
    ∃ margin gap after, trimStart line = key ++ (gap ++ '=' :: after) ∧
      line = margin ++ trimStart line ∧
      (∀ c ∈ margin, isBlank c = true) ∧ ∀ c ∈ gap, isBlank c = true := by
  rw [assigns, Bool.and_eq_true, List.isPrefixOf_iff_prefix] at assigned
  obtain ⟨⟨rest, split⟩, equals⟩ := assigned
  rw [← split, List.drop_left, beq_iff_eq, List.head?_eq_some_iff] at equals
  obtain ⟨after, equals⟩ := equals
  refine ⟨line.takeWhile isBlank, rest.takeWhile isBlank, after, ?_, ?_, ?_, ?_⟩
  · rw [← split, ← equals, trimStart, List.takeWhile_append_dropWhile]
  · rw [trimStart, List.takeWhile_append_dropWhile]
  · exact List.all_eq_true.mp List.all_takeWhile
  · exact List.all_eq_true.mp List.all_takeWhile

/-- A key is a word: it has a character, and no blank. -/
structure IsWord (key : List Char) : Prop where
  nonempty : key ≠ []
  solid : ∀ c ∈ key, isBlank c = false

theorem IsWord.assigns {key margin gap : List Char} (word : IsWord key)
    (blankMargin : ∀ c ∈ margin, isBlank c = true) (blankGap : ∀ c ∈ gap, isBlank c = true)
    (after : List Char) :
    trimStart (margin ++ (key ++ (gap ++ '=' :: after))) = key ++ (gap ++ '=' :: after) ∧
      assigns key (key ++ (gap ++ '=' :: after)) = true := by
  obtain ⟨nonempty, solid⟩ := word
  obtain ⟨c, rest, rfl⟩ := List.exists_cons_of_ne_nil nonempty
  refine ⟨trimStart_append blankMargin (solid c List.mem_cons_self), ?_⟩
  rw [Source.assigns, List.drop_left, trimStart_append blankGap (by decide), Bool.and_eq_true]
  exact ⟨List.isPrefixOf_iff_prefix.mpr ⟨_, rfl⟩, rfl⟩

theorem exists_of_keySpanFrom {key : List Char} {start : Nat} {lines : List (List Char)}
    (found : keySpanFrom key start lines = some span) :
    ∃ earlier line later, lines = earlier ++ line :: later ∧
      assigns key (trimStart line) = true ∧
      span = ⟨start + byteLength earlier.flatten +
        (byteLength line - byteLength (trimStart line)), byteLength key⟩ := by
  induction lines generalizing start with
  | nil => exact absurd found (by simp [keySpanFrom])
  | cons line rest ih =>
    rw [keySpanFrom] at found
    split at found
    next assigned =>
      exact ⟨[], line, rest, rfl, assigned, (Option.some.inj found).symm⟩
    next =>
      obtain ⟨earlier, inner, later, rfl, assigned, rfl⟩ := ih found
      exact ⟨line :: earlier, inner, later, rfl, assigned, by simp [Nat.add_assoc]⟩

theorem exists_keySpanFrom {key line : List Char} (assigned : assigns key (trimStart line) = true)
    (start : Nat) (earlier later : List (List Char)) :
    ∃ first, keySpanFrom key start (earlier ++ line :: later) = some first ∧
      first.offset ≤ start + byteLength earlier.flatten +
        (byteLength line - byteLength (trimStart line)) := by
  induction earlier generalizing start with
  | nil => exact ⟨_, if_pos assigned, Nat.le_refl _⟩
  | cons before earlier ih =>
    rw [List.cons_append, keySpanFrom, List.flatten_cons, byteLength_append, ← Nat.add_assoc]
    split
    next => exact ⟨_, rfl, by simp only; omega⟩
    next => exact ih _

theorem keyAt_of_keySpan (found : source.keySpan key = some span) : source.KeyAt key span := by
  obtain ⟨earlier, line, later, split, assigned, rfl⟩ := exists_of_keySpanFrom found
  obtain ⟨margin, gap, after, trimmed, whole, blankMargin, blankGap⟩ := exists_of_assigns assigned
  have text : source.text.toList = earlier.flatten ++ (line ++ later.flatten) := by
    rw [← flatten_pieces source.text.toList, split, List.flatten_append, List.flatten_cons]
  have listed : margin ++ (key.toList ++ gap) ++ '=' :: after ∈ pieces source.text.toList := by
    have same : line = margin ++ (key.toList ++ gap) ++ '=' :: after := by
      rw [whole, trimmed]
      simp
    rw [split, ← same]
    exact List.mem_append_right _ List.mem_cons_self
  -- Blanks include the line feed, but a line feed ends its line, and here the equals sign follows.
  have oneLine := lineFeed_not_mem_of_mem_pieces listed
  rw [List.mem_append, List.mem_append, not_or, not_or] at oneLine
  refine ⟨String.ofList earlier.flatten, String.ofList margin, String.ofList gap,
    String.ofList (after ++ later.flatten), Span.covers_iff.mpr ⟨?_, ?_⟩, ?_, ?_, ?_⟩
  · rw [text, whole, trimmed]
    simp
  · nth_rewrite 1 [whole]
    simp
  · rw [String.toList_ofList]
    exact endsLine_flatten split
  · intro c inside
    rw [String.toList_ofList] at inside
    exact ⟨blankMargin c inside, fun same => oneLine.1 (same ▸ inside)⟩
  · intro c inside
    rw [String.toList_ofList] at inside
    exact ⟨blankGap c inside, fun same => oneLine.2.2 (same ▸ inside)⟩

theorem exists_keySpan (word : IsWord key.toList) (placed : source.KeyAt key span) :
    ∃ first, source.keySpan key = some first ∧ first.offset ≤ span.offset := by
  obtain ⟨before, margin, gap, after, covers, ends, inMargin, inGap⟩ := placed
  obtain ⟨split, rfl⟩ := Span.covers_iff.mp covers
  -- Up to the equals sign all is in one line, which is therefore a line of the text.
  have oneLine : '\n' ∉ margin.toList ++ (key.toList ++ (gap.toList ++ ['='])) := by
    simp only [List.mem_append, List.mem_singleton, not_or]
    refine ⟨fun inside => (inMargin _ inside).2 rfl, fun inside => ?_,
      fun inside => (inGap _ inside).2 rfl, by decide⟩
    exact absurd (word.solid _ inside) (by decide)
  obtain ⟨ending, later, found⟩ := exists_pieces_append oneLine (by simp) after.toList
  obtain ⟨trimmed, assigned⟩ := word.assigns (fun c inside => (inMargin c inside).1)
    (fun c inside => (inGap c inside).1) ending
  have lines : pieces source.text.toList = pieces before.toList ++
      (margin.toList ++ (key.toList ++ (gap.toList ++ '=' :: ending))) :: later := by
    simp only [List.append_assoc, List.cons_append, List.nil_append] at found
    rw [split, ← found, ← ends.pieces_append]
    simp
  rw [← trimmed] at assigned
  obtain ⟨first, found, earlier⟩ := exists_keySpanFrom assigned 0 (pieces before.toList) later
  rw [← lines] at found
  refine ⟨first, found, ?_⟩
  rw [trimmed, flatten_pieces] at earlier
  simpa using earlier

theorem isFirst_keySpan (source : Source) (word : IsWord key.toList) :
    Span.IsFirst (source.KeyAt key) (source.keySpan key) :=
  Span.isFirst_of (fun _ => keyAt_of_keySpan) fun _ => exists_keySpan word

end Keys

end Source

namespace Manifest

open Source

/-- An entry is blank or equal to an earlier one. -/
def FaultAt (files : List String) (index : Nat) : Prop :=
  ∃ file, files[index]? = some file ∧ (allBlank file = true ∨ file ∈ files.take index)

/-- An entry is the first that is blank or equal to an earlier one. -/
structure FirstFault (files : List String) (index : Nat) (file : String) : Prop where
  entry : files[index]? = some file
  fault : FaultAt files index
  least : ∀ earlier < index, ¬ FaultAt files earlier

/-- The values that are accepted. -/
structure Valid (dir : String) (files : List String) : Prop where
  dir : allBlank dir = false
  nonempty : files ≠ []
  entries : ∀ file ∈ files, allBlank file = false
  distinct : files.Nodup

/-- The errors that are reported, and what they say. -/
inductive Reported (source : Source) (dir : String) (files : List String) : ManifestError → Prop
  /-- The place of the directory, or else that of its key. -/
  | blankDir {quoted named : Option Span}
      (blank : allBlank dir = true)
      (isQuoted : Span.IsFirst (source.QuotedAt dir) quoted)
      (isNamed : Span.IsFirst (source.KeyAt "dir") named) :
      Reported source dir files (.invalid source.name .blankOutputDir (quoted.or named))
  | noFiles {named : Option Span}
      (sound : allBlank dir = false)
      (empty : files = [])
      (isNamed : Span.IsFirst (source.KeyAt "files") named) :
      Reported source dir files (.invalid source.name .noSchemaFiles named)
  | blankFile {index : Nat} {file : String} {quoted : Option Span}
      (sound : allBlank dir = false)
      (first : FirstFault files index file)
      (blank : allBlank file = true)
      (isQuoted : Span.IsFirst (source.QuotedAt file) quoted) :
      Reported source dir files (.invalid source.name .blankSchemaFile quoted)
  /-- A file of which no second place is found: other places overlap the first. -/
  | repeatedFile {index : Nat} {file : String} {quoted : Option Span}
      (sound : allBlank dir = false)
      (first : FirstFault files index file)
      (solid : allBlank file = false)
      (isQuoted : Span.IsFirst (source.QuotedAt file) quoted)
      (overlap : ∀ place ∈ quoted, ∀ other, source.QuotedAt file other →
        other.offset ≤ place.offset + place.length + 1) :
      Reported source dir files (.invalid source.name (.repeatedSchemaFile file) quoted)
  | listedTwice {index : Nat} {file : String} {place other : Span}
      (sound : allBlank dir = false)
      (first : FirstFault files index file)
      (solid : allBlank file = false)
      (isFirst : Span.IsFirst (source.QuotedAt file) (some place))
      (isQuoted : source.QuotedAt file other)
      (later : place.offset < other.offset) :
      Reported source dir files (.listedTwice source.name file place other)

variable {source : Source} {dir file : String} {files earlier passed : List String}
  {error : ManifestError}

theorem checkDir_eq_ok_iff : checkDir source dir = .ok () ↔ allBlank dir = false := by
  rw [checkDir]
  split <;> simp_all

theorem checkEntries_eq_ok_iff :
    checkEntries source earlier files = .ok () ↔
      (∀ file ∈ files, allBlank file = false) ∧ files.Nodup ∧ ∀ file ∈ files, file ∉ earlier := by
  induction files generalizing earlier with
  | nil => simp [checkEntries]
  | cons file rest ih =>
    rw [checkEntries]
    split
    next blank => simp [blank]
    next solid =>
      split
      next listed => simp [listed]
      next fresh =>
        simp only [ih, List.nodup_cons, List.mem_cons, not_or]
        grind

/-- What is reported is about an entry that is blank or listed before, behind entries that are
accepted. -/
theorem exists_of_checkEntries_eq_error (failed : checkEntries source earlier files = .error error) :
    ∃ passed file later, files = passed ++ file :: later ∧
      checkEntries source earlier passed = .ok () ∧
      ((allBlank file = true ∧
          error = .invalid source.name .blankSchemaFile (source.valueSpans file).head?) ∨
        allBlank file = false ∧ (file ∈ passed ∨ file ∈ earlier) ∧
          error = repeatedFile source file) := by
  induction files generalizing earlier with
  | nil => cases failed
  | cons file rest ih =>
    rw [checkEntries] at failed
    split at failed
    next blank => exact ⟨[], file, rest, rfl, rfl, .inl ⟨blank, (Except.error.inj failed).symm⟩⟩
    next solid =>
      split at failed
      next listed =>
        exact ⟨[], file, rest, rfl, rfl,
          .inr ⟨Bool.eq_false_iff.mpr solid, .inr listed, (Except.error.inj failed).symm⟩⟩
      next fresh =>
        obtain ⟨passed, other, later, rfl, accepted, report⟩ := ih failed
        refine ⟨file :: passed, other, later, rfl, ?_, ?_⟩
        · rw [checkEntries, if_neg solid, if_neg fresh, accepted]
        · rw [List.mem_cons, or_assoc, or_left_comm]
          rwa [List.mem_cons] at report

/-- Behind entries that are accepted, an entry that is blank or equal to one of them is the first
fault. -/
theorem firstFault_length {later : List String} (entries : ∀ file ∈ passed, allBlank file = false)
    (distinct : passed.Nodup) (fault : allBlank file = true ∨ file ∈ passed) :
    FirstFault (passed ++ file :: later) passed.length file where
  entry := by simp
  fault := ⟨file, by simp, by simpa using fault⟩
  least := by
    rintro index inside ⟨other, entry, fault⟩
    rw [List.getElem?_append_left inside, List.getElem?_eq_some_iff] at entry
    obtain ⟨bound, rfl⟩ := entry
    rcases fault with blank | listed
    · rw [entries _ (List.getElem_mem bound)] at blank
      exact Bool.false_ne_true blank
    · rw [List.take_append_of_le_length (Nat.le_of_lt inside), List.mem_take_iff_getElem] at listed
      obtain ⟨before, less, same⟩ := listed
      exact List.pairwise_iff_getElem.mp distinct before index _ bound (by omega) same

theorem reported_repeatedFile {index : Nat} (sound : allBlank dir = false)
    (first : FirstFault files index file) (solid : allBlank file = false) :
    Reported source dir files (repeatedFile source file) := by
  have isFirst := isFirst_valueSpans source file
  have sorted := pairwise_valueSpans source file
  cases found : source.valueSpans file with
  | nil =>
    rw [repeatedFile, found]
    rw [found] at isFirst
    exact .repeatedFile sound first solid isFirst fun place none => by cases none
  | cons place rest =>
    rw [repeatedFile, found]
    rw [found] at isFirst sorted
    cases rest with
    | nil =>
      refine .repeatedFile sound first solid isFirst fun single isSingle other placed => ?_
      obtain rfl := Option.some.inj isSingle
      exact le_of_valueSpans_eq_singleton found placed
    | cons other rest =>
      have listed : other ∈ source.valueSpans file := by simp [found]
      exact .listedTwice sound first solid isFirst (quotedAt_of_mem listed)
        (List.rel_of_pairwise_cons sorted List.mem_cons_self)

theorem checkFiles_eq_ok_iff :
    checkFiles source files = .ok () ↔
      files ≠ [] ∧ (∀ file ∈ files, allBlank file = false) ∧ files.Nodup := by
  rw [checkFiles]
  cases files with
  | nil => simp
  | cons file rest => simp [checkEntries_eq_ok_iff]

theorem reported_of_checkDir (failed : checkDir source dir = .error error) :
    Reported source dir files error := by
  rw [checkDir] at failed
  split at failed
  next blank =>
    obtain rfl := Except.error.inj failed
    exact .blankDir blank (isFirst_valueSpans source dir)
      (isFirst_keySpan source ⟨by simp, by simp; decide⟩)
  next => cases failed

theorem reported_of_checkFiles (sound : allBlank dir = false)
    (failed : checkFiles source files = .error error) : Reported source dir files error := by
  rw [checkFiles] at failed
  split at failed
  next empty =>
    obtain rfl := Except.error.inj failed
    exact .noFiles sound (List.isEmpty_iff.mp empty)
      (isFirst_keySpan source ⟨by simp, by simp; decide⟩)
  next =>
    obtain ⟨passed, file, later, rfl, accepted, report⟩ := exists_of_checkEntries_eq_error failed
    obtain ⟨entries, distinct, -⟩ := checkEntries_eq_ok_iff.mp accepted
    rcases report with ⟨blank, rfl⟩ | ⟨solid, listed | impossible, rfl⟩
    · exact .blankFile sound (firstFault_length entries distinct (.inl blank)) blank
        (isFirst_valueSpans source file)
    · exact reported_repeatedFile sound (firstFault_length entries distinct (.inr listed)) solid
    · exact absurd impossible List.not_mem_nil

/-- Validation accepts exactly the values that follow its rules. On failure it reports what is
wrong with the first of them at fault, and points at the first place of the text that fits. -/
theorem checked_iff_valid_and_reported (source : Source) (dir : String) (files : List String) :
    ((do checkDir source dir; checkFiles source files) = .ok () ↔ Valid dir files) ∧
      ∀ error, (do checkDir source dir; checkFiles source files) = .error error →
        Reported source dir files error := by
  constructor
  · rw [bind_eq_ok]
    constructor
    · rintro ⟨⟨⟩, dirOk, filesOk⟩
      obtain ⟨nonempty, entries, distinct⟩ := checkFiles_eq_ok_iff.mp filesOk
      exact ⟨checkDir_eq_ok_iff.mp dirOk, nonempty, entries, distinct⟩
    · rintro ⟨sound, nonempty, entries, distinct⟩
      exact ⟨(), checkDir_eq_ok_iff.mpr sound,
        checkFiles_eq_ok_iff.mpr ⟨nonempty, entries, distinct⟩⟩
  · intro error failed
    rcases bind_eq_error.mp failed with failed | ⟨⟨⟩, dirOk, failed⟩
    · exact reported_of_checkDir failed
    · exact reported_of_checkFiles (checkDir_eq_ok_iff.mp dirOk) failed

/-- Two quotes of different kinds around a file that is listed twice. -/
def doubledSource : Source where
  name := "kitchen.toml"
  text := "dir = 'out'\nfiles = [\"é.json\", \"a.json\", 'é.json']"

theorem doubled_file_reported :
    (do checkDir doubledSource "out"; checkFiles doubledSource ["é.json", "a.json", "é.json"]) =
        .error (.listedTwice "kitchen.toml" "é.json" ⟨22, 7⟩ ⟨43, 7⟩) ∧
      Reported doubledSource "out" ["é.json", "a.json", "é.json"]
        (.listedTwice "kitchen.toml" "é.json" ⟨22, 7⟩ ⟨43, 7⟩) := by
  have double : doubledSource.quotedSpans "é.json".toList '"' = [⟨22, 7⟩] := by decide
  have single : doubledSource.quotedSpans "é.json".toList '\x27' = [⟨43, 7⟩] := by decide
  have spans : doubledSource.valueSpans "é.json" = [⟨22, 7⟩, ⟨43, 7⟩] := by
    rw [valueSpans, double, single]
    exact List.mergeSort_of_pairwise (by decide)
  have report : repeatedFile doubledSource "é.json" =
      .listedTwice "kitchen.toml" "é.json" ⟨22, 7⟩ ⟨43, 7⟩ := by
    rw [repeatedFile, spans]
    rfl
  have failed :
      (do checkDir doubledSource "out"; checkFiles doubledSource ["é.json", "a.json", "é.json"]) =
        .error (.listedTwice "kitchen.toml" "é.json" ⟨22, 7⟩ ⟨43, 7⟩) := by
    rw [← report]
    rfl
  exact ⟨failed, (checked_iff_valid_and_reported _ _ _).2 _ failed⟩

end Manifest

end Typescribe
