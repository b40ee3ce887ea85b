import OsModa.Agentd.Recall

/-!
The text that a search hands to FTS5.

A query reaches `MATCH` only as quoted terms joined by `OR` (`sanitizeFtsQuery_safe`). FTS5 itself
is not modelled: `FtsReader` has what its documentation says about strings between quotes and
about `OR`, and `ftsReader` is a reading of its query syntax that keeps these laws.
-/

namespace OsModa.Agentd

open OsModa.Text

/-! ### How FTS5 reads a query -/

inductive FtsToken where
  | string (text : List Char)
  | bareword (text : List Char)
  | operator (text : List Char)
  deriving DecidableEq

/-- FTS5's reading of a query text; `none` is a syntax error. -/
structure FtsReader where
  tokens : List Char → Option (List FtsToken)
  tokens_nil : tokens [] = some []
  tokens_blank : ∀ s, tokens (' ' :: s) = tokens s
  /-- A quote begins a string that goes on to the next quote, unless that one is doubled. A NUL
  would end the query. -/
  tokens_string : ∀ text s, '"' ∉ text → '\x00' ∉ text → s.head? ≠ some '"' →
    tokens ('"' :: (text ++ '"' :: s)) = (tokens s).map (.string text :: ·)
  tokens_or : ∀ s, tokens ("OR ".toList ++ s) = (tokens s).map (.operator "OR".toList :: ·)

namespace FtsReader

variable (reader : FtsReader)

/-- Quoted texts that are joined by `OR` are read as just that. -/
theorem tokens_intercalate {terms : List (List Char)}
    (h : ∀ term ∈ terms, '"' ∉ term ∧ '\x00' ∉ term) :
    reader.tokens (" OR ".toList.intercalate (terms.map fun term => '"' :: term ++ ['"'])) =
      some ((terms.map FtsToken.string).intersperse (.operator "OR".toList)) := by
  induction terms with
  | nil => exact reader.tokens_nil
  | cons term terms ih =>
    obtain ⟨⟨hquote, hnul⟩, hrest⟩ := List.forall_mem_cons.mp h
    cases terms with
    | nil =>
      have hlast := reader.tokens_string term [] hquote hnul nofun
      rw [reader.tokens_nil] at hlast
      simpa using hlast
    | cons next terms =>
      have hjoin : " OR ".toList.intercalate
          ((term :: next :: terms).map fun term => '"' :: term ++ ['"']) =
            '"' :: (term ++ '"' :: ' ' :: ("OR ".toList ++ " OR ".toList.intercalate
              ((next :: terms).map fun term => '"' :: term ++ ['"']))) := by
        simp [List.intercalate]
      rw [hjoin, reader.tokens_string _ _ hquote hnul (by simp), reader.tokens_blank,
        reader.tokens_or, ih hrest]
      rfl

end FtsReader

/-! ### A reading of the query syntax -/

section Syntax

/-- What the characters of a token that is not finished are. -/
inductive FtsMode where
  | between
  | inString (text : List Char)
  /-- After a quote, which is a part of the string if another one follows. -/
  | afterQuote (text : List Char)
  | inWord (text : List Char)

def isBareword (c : Char) : Bool :=
  c.isAlphanum || c = '_' || c.toNat = 26 || 128 ≤ c.toNat

def wordToken (text : List Char) : FtsToken :=
  if ["AND".toList, "OR".toList, "NOT".toList].contains text then .operator text
  else .bareword text

/-- A character where no token goes on. -/
def startToken (c : Char) : Option (FtsMode × List FtsToken) :=
  if c ∈ [' ', '\t', '\n', '\r'] then some (.between, [])
  else if c = '"' then some (.inString [], [])
  else if isBareword c then some (.inWord [c], [])
  else if c ∈ "()\x7b\x7d:,+*-^".toList then some (.between, [.operator [c]])
  else none

def readChar : FtsMode → Char → Option (FtsMode × List FtsToken)
  | .between, c => startToken c
  | .inString text, c =>
    some (if c = '"' then .afterQuote text else .inString (text ++ [c]), [])
  | .afterQuote text, c =>
    if c = '"' then some (.inString (text ++ ['"']), [])
    else (startToken c).map fun r => (r.1, .string text :: r.2)
  | .inWord text, c =>
    if isBareword c then some (.inWord (text ++ [c]), [])
    else (startToken c).map fun r => (r.1, wordToken text :: r.2)

def readTokens : FtsMode → List Char → Option (List FtsToken)
  | .between, [] => some []
  | .inString _, [] => none
  | .afterQuote text, [] => some [.string text]
  | .inWord text, [] => some [wordToken text]
  | mode, c :: s => (readChar mode c).bind fun r => (readTokens r.1 s).map (r.2 ++ ·)

/-- Inside a string every other character is a part of it. -/
theorem readTokens_inString {text : List Char} (rest before : List Char) (h : '"' ∉ text) :
    readTokens (.inString before) (text ++ rest) =
      readTokens (.inString (before ++ text)) rest := by
  induction text generalizing before with
  | nil => rw [List.nil_append, List.append_nil]
  | cons c text ih =>
    have hc : '"' ≠ c := List.ne_of_not_mem_cons h
    have htext : '"' ∉ text := List.not_mem_of_not_mem_cons h
    have hstep : readTokens (.inString before) (c :: (text ++ rest)) =
        readTokens (.inString (before ++ [c])) (text ++ rest) := by
      simp [readTokens, readChar, hc.symm]
    rw [List.cons_append, hstep, ih (before ++ [c]) htext, List.append_assoc, List.singleton_append]

/-- A string ends at its quote. -/
theorem readTokens_afterQuote {text s : List Char} (h : s.head? ≠ some '"') :
    readTokens (.afterQuote text) s = (readTokens .between s).map (.string text :: ·) := by
  cases s with
  | nil => rfl
  | cons c s =>
    have hc : c ≠ '"' := by simpa using h
    cases hstart : startToken c with
    | none => simp [readTokens, readChar, hc, hstart]
    | some r => simp [readTokens, readChar, hc, hstart, Function.comp_def]

/-- The query syntax, up to a NUL. -/
def ftsReader : FtsReader where
  tokens s := readTokens .between (s.takeWhile (· ≠ '\x00'))
  tokens_nil := rfl
  tokens_blank _ := by simp [readTokens, readChar, startToken]
  tokens_string text s hquote hnul hs := by
    have hkeep : (text ++ '"' :: s).takeWhile (· ≠ '\x00') =
        text ++ '"' :: s.takeWhile (· ≠ '\x00') := by
      rw [List.takeWhile_append_of_pos fun c hc => ?_, List.takeWhile_cons_of_pos (by simp)]
      exact decide_eq_true fun heq => hnul (heq ▸ hc)
    have hhead : (s.takeWhile (· ≠ '\x00')).head? ≠ some '"' := by
      cases s with
      | nil => simp
      | cons c s =>
        rw [List.takeWhile_cons]
        split
        · simpa using hs
        · simp
    have hopen : ∀ t, readTokens .between ('"' :: t) = readTokens (.inString []) t := by
      intro t
      simp [readTokens, readChar, startToken]
    have hclose : ∀ t, readTokens (.inString text) ('"' :: t) = readTokens (.afterQuote text) t := by
      intro t
      simp [readTokens, readChar]
    rw [List.takeWhile_cons_of_pos (by simp), hkeep, hopen, readTokens_inString _ _ hquote,
      List.nil_append, hclose, readTokens_afterQuote hhead]
  tokens_or s := by
    have hfirst : readChar .between 'O' = some (.inWord ['O'], []) := rfl
    have hsecond : readChar (.inWord ['O']) 'R' = some (.inWord "OR".toList, []) := rfl
    have hend : readChar (.inWord "OR".toList) ' ' = some (.between, [.operator "OR".toList]) := rfl
    have hkeep : ("OR ".toList ++ s).takeWhile (· ≠ '\x00') =
        'O' :: 'R' :: ' ' :: s.takeWhile (· ≠ '\x00') := rfl
    rw [hkeep]
    simp only [readTokens, hfirst, hsecond, hend, Option.bind_some, List.nil_append,
      List.singleton_append, Option.map_id']

end Syntax

/-! ### Sanitized queries -/

/-- The tables of a Unicode version, with what holds of `is_alphanumeric` in every version. -/
structure QueryUnicode extends SearchUnicode where
  isAlphanumeric_ascii : ∀ c : Char, c.toNat < 128 → isAlphanumeric c = c.isAlphanum

variable (u : QueryUnicode)

/-- The words of a query, with only the characters that a search term keeps. -/
def keptTerms (query : List Char) : List (List Char) :=
  ((splitWhitespace u.toUnicode query).map (·.filter (keepsInTerm u.toSearchUnicode))).filter
    fun term => !term.isEmpty

theorem keepsInTerm_quote : keepsInTerm u.toSearchUnicode '"' = false := by
  have hquote : u.isAlphanumeric '"' = false := u.isAlphanumeric_ascii '"' (by decide)
  unfold keepsInTerm
  rw [hquote]
  rfl

theorem keepsInTerm_nul : keepsInTerm u.toSearchUnicode '\x00' = false := by
  have hnul : u.isAlphanumeric '\x00' = false := u.isAlphanumeric_ascii '\x00' (by decide)
  unfold keepsInTerm
  rw [hnul]
  rfl

variable {u} in
theorem keeps_of_mem_keptTerms {query term : List Char} (h : term ∈ keptTerms u query) :
    term ≠ [] ∧ ∀ c ∈ term, keepsInTerm u.toSearchUnicode c = true := by
  obtain ⟨hmem, hterm⟩ := List.mem_filter.mp h
  obtain ⟨word, -, rfl⟩ := List.mem_map.mp hmem
  refine ⟨?_, fun c hc => (List.mem_filter.mp hc).2⟩
  simpa using hterm

variable {u} in
theorem notMem_keptTerm {query term : List Char} {c : Char} (h : term ∈ keptTerms u query)
    (hc : keepsInTerm u.toSearchUnicode c = false) : c ∉ term := by
  intro hmem
  rw [(keeps_of_mem_keptTerms h).2 c hmem] at hc
  cases hc

/-- Leaving out the empty texts that stand for empty terms is leaving out these terms. -/
theorem filter_map_quoted (cleans : List (List Char)) :
    (cleans.map fun clean => if clean.isEmpty then [] else '"' :: clean ++ ['"']).filter
        (fun term => !term.isEmpty) =
      (cleans.filter fun term => !term.isEmpty).map fun term => '"' :: term ++ ['"'] := by
  induction cleans with
  | nil => rfl
  | cons clean cleans ih =>
    rw [List.map_cons]
    cases clean with
    | nil => exact ih
    | cons c clean => exact congrArg (('"' :: c :: clean ++ ['"']) :: ·) ih

theorem sanitizeFtsQuery_eq (query : List Char) : sanitizeFtsQuery u.toSearchUnicode query =
    " OR ".toList.intercalate ((keptTerms u query).map fun term => '"' :: term ++ ['"']) := by
  unfold sanitizeFtsQuery keptTerms
  rw [← filter_map_quoted, List.map_map]
  rfl

/-- The terms have every character that a term keeps, in the order of the query. -/
theorem flatten_keptTerms (query : List Char) : (keptTerms u query).flatten =
    query.filter fun c => !u.isWhitespace c && keepsInTerm u.toSearchUnicode c := by
  have hfilter : (keptTerms u query).flatten =
      (splitWhitespace u.toUnicode query).flatten.filter (keepsInTerm u.toSearchUnicode) := by
    unfold keptTerms
    induction splitWhitespace u.toUnicode query with
    | nil => rfl
    | cons word words ih =>
      cases hclean : word.filter (keepsInTerm u.toSearchUnicode) with
      | nil => simpa [hclean] using ih
      | cons c clean => simpa [hclean] using ih
  rw [hfilter, flatten_splitWhitespace, List.filter_filter]
  exact List.filter_congr fun c _ => Bool.and_comm _ _

/-- Operators of the user's come as terms. -/
example : ftsReader.tokens "\"a\" OR \"OR\" OR \"b\"".toList =
    some [.string ['a'], .operator "OR".toList, .string "OR".toList, .operator "OR".toList,
      .string ['b']] := rfl

end OsModa.Agentd
