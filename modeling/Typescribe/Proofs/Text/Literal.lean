import Typescribe.Proofs.Text.Occurrence
import Typescribe.Text.Literal

/-!
# Literals are read back

A literal is read from behind its opening quote up to the first quote that is not escaped. Texts
that are not quoted yet are read back from their literals, so that different ones have different
literals, and what is a literal stays as it is.
-/

namespace Typescribe.Text

/-- At least two characters with the same quote at both ends. -/
def Quoted (text : List Char) : Prop :=
  2 ≤ text.length ∧ text.head? ∈ [some '"', some '\''] ∧ text.getLast? = text.head?

instance (text : List Char) : Decidable (Quoted text) :=
  inferInstanceAs (Decidable (_ ∧ _))

/-- Reads a literal from behind its opening quote: its value, and what stands behind the first quote
that is not escaped. A backslash takes the next character as it is. There is no literal where this
quote is missing or stands behind a character that is not allowed. -/
def readLiteral? (allowed : Char → Bool) : List Char → Option (List Char × List Char)
  | [] => none
  | '"' :: rest => some ([], rest)
  | ['\\'] => none
  | '\\' :: c :: rest =>
    if allowed c then (readLiteral? allowed rest).map fun read => (c :: read.1, read.2) else none
  | c :: rest =>
    if allowed c then (readLiteral? allowed rest).map fun read => (c :: read.1, read.2) else none

theorem enclosedBy_iff {quote : Char} {text : List Char} :
    enclosedBy quote text = true ↔
      2 ≤ text.length ∧ text.head? = some quote ∧ text.getLast? = some quote := by
  cases text with
  | nil => simp [enclosedBy]
  | cons first rest =>
    cases rest with
    | nil => simp [enclosedBy]
    | cons second rest => simp [enclosedBy]

theorem isQuoted_iff {text : List Char} : isQuoted text = true ↔ Quoted text := by
  rw [isQuoted, Bool.or_eq_true, enclosedBy_iff, enclosedBy_iff, ← and_or_left, Quoted]
  refine and_congr_right fun _ => ?_
  constructor
  · rintro (⟨starts, ends⟩ | ⟨starts, ends⟩) <;> simp [starts, ends]
  · rintro ⟨starts, same⟩
    rw [same]
    simpa using starts

/-- Replacing a single character goes character by character. -/
theorem replaceAll_singleton (target : Char) (replacement text : List Char) :
    replaceAll [target] replacement text =
      text.flatMap fun c => if c = target then replacement else [c] := by
  induction text with
  | nil => exact replaceAll_nil
  | cons c rest ih =>
    rw [List.flatMap_cons]
    split
    next same =>
      rw [same, ← ih]
      exact replaceAll_occurrence (List.cons_ne_nil _ _) rest
    next different =>
      rw [replaceAll_cons, ih, List.singleton_append]
      simpa using Ne.symm different

/-- Escaping is two replacements, of backslashes and then of quotes. -/
theorem flatMap_escapeChar (text : List Char) :
    text.flatMap escapeChar =
      replaceAll ['"'] ['\\', '"'] (replaceAll ['\\'] ['\\', '\\'] text) := by
  rw [replaceAll_singleton, replaceAll_singleton, List.flatMap_assoc]
  congr 1
  funext c
  rw [escapeChar]
  split
  · simp
  · rw [List.flatMap_singleton]

section

variable {allowed : Char → Bool}

/-- A character that has no meaning of its own in a literal is part of its value. -/
theorem readLiteral?_cons {c : Char} (noBackslash : c ≠ '\\') (noQuote : c ≠ '"')
    (rest : List Char) :
    readLiteral? allowed (c :: rest) =
      if allowed c then (readLiteral? allowed rest).map fun read => (c :: read.1, read.2)
      else none := by
  rw [readLiteral?]
  · exact fun isQuote => absurd isQuote noQuote
  · exact fun isBackslash => absurd isBackslash noBackslash
  · exact fun _ _ isBackslash => absurd isBackslash noBackslash

/-- Behind the escapes of a text, the first quote that is not escaped is the one that closes it. -/
theorem readLiteral?_escape (backslash : allowed '\\' = true) (quote : allowed '"' = true)
    (text behind : List Char) :
    readLiteral? allowed (text.flatMap escapeChar ++ '"' :: behind) =
      if text.all allowed then some (text, behind) else none := by
  induction text with
  | nil => simp [readLiteral?]
  | cons c rest ih =>
    by_cases isBackslash : c = '\\'
    · simp [isBackslash, escapeChar, readLiteral?, ih, backslash]
    by_cases isQuote : c = '"'
    · simp [isQuote, escapeChar, readLiteral?, ih, quote]
    have kept : escapeChar c = [c] := by rw [escapeChar, if_neg isBackslash, if_neg isQuote]
    rw [List.flatMap_cons, kept, List.singleton_append, List.cons_append,
      readLiteral?_cons isBackslash isQuote, ih]
    by_cases isAllowed : allowed c = true
    · simp [isAllowed]
    · simp [isAllowed]

end

/-- The literal of a text that is not quoted yet. -/
theorem toList_quote {text : String} (unquoted : ¬ Quoted text.toList) :
    (quote text).toList = '"' :: (text.toList.flatMap escapeChar ++ ['"']) := by
  rw [quote, String.toList_ofList, quoteChars, if_neg (mt isQuoted_iff.mp unquoted)]
  rfl

theorem quote_eq_self {text : String} (quoted : Quoted text.toList) : quote text = text := by
  rw [quote, quoteChars, if_pos (isQuoted_iff.mpr quoted), String.ofList_toList]

theorem quoted_quote (text : String) : Quoted (quote text).toList := by
  by_cases quoted : Quoted text.toList
  · rwa [quote_eq_self quoted]
  · rw [toList_quote quoted]
    refine ⟨by simp, by simp, ?_⟩
    rw [← List.cons_append, List.getLast?_concat]
    rfl

/-- Quoting is reversible. -/
theorem quote_reversible :
    (∀ text : String, ¬ Quoted text.toList →
      ∃ rest, (quote text).toList = '"' :: rest ∧
        rest = replaceAll ['"'] ['\\', '"'] (replaceAll ['\\'] ['\\', '\\'] text.toList) ++ ['"'] ∧
        readLiteral? (fun _ => true) rest = some (text.toList, [])) ∧
    (∀ first second : String, ¬ Quoted first.toList → ¬ Quoted second.toList →
      quote first = quote second → first = second) ∧
    ∀ text : String,
      (Quoted text.toList → quote text = text) ∧ quote (quote text) = quote text := by
  have readBack {text : String} (unquoted : ¬ Quoted text.toList) :
      readLiteral? (fun _ => true) (quote text).toList.tail = some (text.toList, []) := by
    rw [toList_quote unquoted, List.tail_cons, readLiteral?_escape rfl rfl,
      if_pos (List.all_eq_true.mpr fun _ _ => rfl)]
  refine ⟨?_, ?_, ?_⟩
  · intro text unquoted
    refine ⟨_, toList_quote unquoted, by rw [flatMap_escapeChar], ?_⟩
    have read := readBack unquoted
    rwa [toList_quote unquoted] at read
  · intro first second unquoted othersUnquoted same
    have read := readBack unquoted
    rw [same, readBack othersUnquoted, Option.some.injEq, Prod.mk.injEq, String.toList_inj] at read
    exact read.1.symm
  · exact fun text => ⟨quote_eq_self, quote_eq_self (quoted_quote text)⟩

/-- A backslash before a quote, at the end of a text that starts with none. -/
theorem scrawl_reversible : ¬ Quoted "say \\\"".toList ∧
    (quote "say \\\"").toList = "\"say \\\\\\\"\"".toList ∧
    ∃ rest, (quote "say \\\"").toList = '"' :: rest ∧
      readLiteral? (fun _ => true) rest = some ("say \\\"".toList, []) := by
  have unquoted : ¬ Quoted "say \\\"".toList := by decide
  obtain ⟨rest, starts, -, read⟩ := quote_reversible.1 _ unquoted
  exact ⟨unquoted, by decide, rest, starts, read⟩

end Typescribe.Text
