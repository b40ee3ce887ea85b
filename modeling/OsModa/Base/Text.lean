import Mathlib.Algebra.GroupWithZero.Nat
import Mathlib.Data.List.Infix
import Mathlib.Data.List.DropRight

/-!
The string operations of Rust's standard library, on the characters of a string.

`str::to_lowercase`, `split_whitespace`, `trim` and `char::is_whitespace` read
tables of the Unicode standard, which grow from version to version. `Unicode`
carries those tables together with what holds of them in every version: their
values on ASCII. A result over a `Unicode` therefore holds for each version.

`joinWords` is `split_whitespace().collect::<Vec<_>>().join(" ")`. Its two
equations `joinWords_cons` and `tailWords_cons` read a string from the left, the
second one inside a word. From them follow the two facts that normalizers rest
on: joining the words of a part gives a part of the joined words
(`joinWords_mono`), and neither squeezing runs of whitespace first nor any
filter that keeps whitespace hides words (`joinWords_filter_squeeze`).
-/

namespace OsModa.Text

/-- Rust's `u8::is_ascii_whitespace` extended by the vertical tab: the ASCII
part of the `White_Space` property. -/
def asciiWhitespace (c : Char) : Bool :=
  c = ' ' || (9 ≤ c.toNat && c.toNat ≤ 13)

/-- The ASCII part of the `Case_Ignorable` property. -/
def asciiCaseIgnorable (c : Char) : Bool :=
  c = '\'' || c = '.' || c = ':' || c = '^' || c = '`'

/-- The tables of a Unicode version that the string operations read. -/
structure Unicode where
  /-- `char::to_lowercase`, which may yield several characters. -/
  toLower : Char → List Char
  isWhitespace : Char → Bool
  isCased : Char → Bool
  isCaseIgnorable : Char → Bool
  toLower_ascii : ∀ c : Char, c.toNat < 128 → toLower c = [c.toLower]
  isWhitespace_ascii : ∀ c : Char, c.toNat < 128 → isWhitespace c = asciiWhitespace c
  isCased_ascii : ∀ c : Char, c.toNat < 128 → isCased c = c.isAlpha
  isCaseIgnorable_ascii : ∀ c : Char, c.toNat < 128 → isCaseIgnorable c = asciiCaseIgnorable c

/-- The tables that know only ASCII. They agree with every version on ASCII
strings. -/
def Unicode.ascii : Unicode where
  toLower c := [c.toLower]
  isWhitespace := asciiWhitespace
  isCased c := c.isAlpha
  isCaseIgnorable := asciiCaseIgnorable
  toLower_ascii _ _ := rfl
  isWhitespace_ascii _ _ := rfl
  isCased_ascii _ _ := rfl
  isCaseIgnorable_ascii _ _ := rfl

variable (u : Unicode)

theorem Unicode.isWhitespace_space : u.isWhitespace ' ' = true := by
  rw [u.isWhitespace_ascii ' ' (by decide)]
  decide

/-! ### Bytes and parts -/

/-- `str::len`: the number of bytes of the UTF-8 form. -/
def byteLen (s : List Char) : Nat := (s.map Char.utf8Size).sum

@[simp] theorem byteLen_nil : byteLen [] = 0 := rfl

@[simp] theorem byteLen_cons (c : Char) (s : List Char) :
    byteLen (c :: s) = c.utf8Size + byteLen s := rfl

/-- `&s[..n]` counts bytes; `none` where it panics, because `n` is past the end or
inside a character. -/
def sliceTo : List Char → Nat → Option (List Char)
  | _, 0 => some []
  | [], _ + 1 => none
  | c :: s, n + 1 =>
    if c.utf8Size ≤ n + 1 then (sliceTo s (n + 1 - c.utf8Size)).map (c :: ·) else none

/-- `str::is_char_boundary`: some characters at the start take up exactly `n` bytes. -/
def IsCharBoundary (s : List Char) (n : Nat) : Prop :=
  ∃ front rest, s = front ++ rest ∧ byteLen front = n

theorem isCharBoundary_nil {n : Nat} : IsCharBoundary [] n ↔ n = 0 := by
  constructor
  · rintro ⟨front, rest, hsplit, hlen⟩
    obtain ⟨rfl, -⟩ := List.append_eq_nil_iff.mp hsplit.symm
    exact hlen.symm
  · rintro rfl
    exact ⟨[], [], rfl, rfl⟩

/-- Past the start, a boundary is one behind the first character. -/
theorem isCharBoundary_cons {c : Char} {s : List Char} {n : Nat} (hpos : 0 < n) :
    IsCharBoundary (c :: s) n ↔ c.utf8Size ≤ n ∧ IsCharBoundary s (n - c.utf8Size) := by
  constructor
  · rintro ⟨front, rest, hsplit, hlen⟩
    cases front with
    | nil => exact absurd hlen (Nat.ne_of_lt hpos)
    | cons c' front =>
      obtain ⟨rfl, rfl⟩ := List.cons.inj hsplit
      rw [byteLen_cons] at hlen
      exact ⟨by omega, front, rest, rfl, by omega⟩
  · rintro ⟨hfits, front, rest, rfl, hlen⟩
    refine ⟨c :: front, rest, rfl, ?_⟩
    rw [byteLen_cons]
    omega

theorem sliceTo_isSome_iff {s : List Char} {n : Nat} :
    (sliceTo s n).isSome = true ↔ IsCharBoundary s n := by
  fun_induction sliceTo s n with
  | case1 s => exact iff_of_true rfl ⟨[], s, rfl, rfl⟩
  | case2 n => exact iff_of_false Bool.false_ne_true (mt isCharBoundary_nil.mp (Nat.succ_ne_zero n))
  | case3 c s n hfits ih =>
    rw [Option.isSome_map, ih, isCharBoundary_cons (Nat.succ_pos n), and_iff_right hfits]
  | case4 c s n hwide =>
    rw [isCharBoundary_cons (Nat.succ_pos n)]
    exact iff_of_false Bool.false_ne_true fun h => hwide h.1

/-- `str::contains` with a string pattern. -/
def contains (s part : List Char) : Bool := decide (part <:+: s)

@[simp] theorem contains_eq_true {s part : List Char} : contains s part = true ↔ part <:+: s := by
  simp [contains]

/-- Remove a part wherever it occurs; `skip` characters belong to an occurrence already found. -/
def removeFrom (part : List Char) (skip : Nat) : List Char → List Char
  | [] => []
  | c :: s =>
    if 0 < skip then removeFrom part (skip - 1) s
    else if part.isPrefixOf (c :: s) then removeFrom part (part.length - 1) s
    else c :: removeFrom part 0 s

/-- `s.replace(part, "")` of a part that is not empty. -/
def remove (part s : List Char) : List Char := removeFrom part 0 s

example : remove "ab".toList "xababyab".toList = "xy".toList := by decide

/-! ### Lowercasing -/

/-- The first character that is not case-ignorable exists and is cased. -/
def caseIgnorableThenCased (s : List Char) : Bool :=
  match s.dropWhile u.isCaseIgnorable with
  | [] => false
  | c :: _ => u.isCased c

/-- A capital sigma ends a word when a cased character precedes it and none
follows. `before` lists the preceding characters, nearest first. -/
def finalSigma (before after : List Char) : Bool :=
  caseIgnorableThenCased u before && !caseIgnorableThenCased u after

/-- Lowercase the rest of a string after the characters `before`. -/
def lowercaseFrom (before : List Char) : List Char → List Char
  | [] => []
  | c :: rest =>
    (if c = 'Σ' then [if finalSigma u before rest then 'ς' else 'σ'] else u.toLower c) ++
      lowercaseFrom (c :: before) rest

/-- `str::to_lowercase`. -/
def toLowercase (s : List Char) : List Char := lowercaseFrom u [] s

/-- Leading spaces are lowercased to themselves and do not change how the rest
is lowercased: a space is neither cased nor case-ignorable. -/
theorem lowercaseFrom_blank (before s : List Char)
    (hblank : ∀ c ∈ before, c = ' ') : lowercaseFrom u before s = lowercaseFrom u [] s := by
  have hcased : caseIgnorableThenCased u before = false := by
    cases before with
    | nil => rfl
    | cons c cs =>
      obtain rfl := hblank c List.mem_cons_self
      have hign : u.isCaseIgnorable ' ' = false := by
        rw [u.isCaseIgnorable_ascii ' ' (by decide)]; decide
      have hcas : u.isCased ' ' = false := by
        rw [u.isCased_ascii ' ' (by decide)]; decide
      simp [caseIgnorableThenCased, hign, hcas]
  -- Only the sigma case reads `before`; every later one sees the same characters
  -- up to the first that is not a space.
  suffices ∀ seen : List Char, lowercaseFrom u (seen ++ before) s = lowercaseFrom u seen s from
    this []
  induction s with
  | nil => intro seen; rfl
  | cons c s ih =>
    intro seen
    have hsigma : caseIgnorableThenCased u (seen ++ before) = caseIgnorableThenCased u seen := by
      induction seen with
      | nil => exact hcased
      | cons d seen ihs =>
        unfold caseIgnorableThenCased at ihs ⊢
        by_cases hd : u.isCaseIgnorable d = true
        · simpa [hd] using ihs
        · simp [hd]
    simp only [lowercaseFrom, finalSigma, hsigma]
    exact congrArg _ (ih (c :: seen))

theorem toLowercase_replicate_space (n : Nat) (s : List Char) :
    toLowercase u (List.replicate n ' ' ++ s) = List.replicate n ' ' ++ toLowercase u s := by
  suffices ∀ before : List Char, (∀ c ∈ before, c = ' ') →
      lowercaseFrom u before (List.replicate n ' ' ++ s) =
        List.replicate n ' ' ++ lowercaseFrom u [] s from this [] (by simp)
  induction n with
  | zero => intro before hblank; simpa using lowercaseFrom_blank u before s hblank
  | succ n ih =>
    intro before hblank
    have hspace : u.toLower ' ' = [' '] := u.toLower_ascii ' ' (by decide)
    have hrest := ih (' ' :: before) (by simpa using hblank)
    simp [List.replicate_succ, lowercaseFrom, hspace, hrest]

/-! ### Whitespace -/

/-- `str::trim`. -/
def trim (s : List Char) : List Char :=
  (s.dropWhile u.isWhitespace).rdropWhile u.isWhitespace

/-- Trimming drops whitespace only. -/
theorem mem_trim_or {s : List Char} {c : Char} (h : c ∈ s) :
    c ∈ trim u s ∨ u.isWhitespace c = true := by
  have hdrop : ∀ t : List Char, c ∈ t → c ∈ t.dropWhile u.isWhitespace ∨ u.isWhitespace c = true := by
    intro t ht
    rw [← List.takeWhile_append_dropWhile (p := u.isWhitespace) (l := t), List.mem_append] at ht
    rcases ht with ht | ht
    · exact Or.inr (List.mem_takeWhile_imp ht)
    · exact Or.inl ht
  rcases hdrop s h with hmem | hblank
  · rcases hdrop (s.dropWhile u.isWhitespace).reverse (List.mem_reverse.mpr hmem) with hmem | hblank
    · exact Or.inl (List.mem_reverse.mpr hmem)
    · exact Or.inr hblank
  · exact Or.inr hblank

/-- A string without whitespace is already trimmed. -/
theorem trim_eq_self {s : List Char} (h : ∀ c ∈ s, u.isWhitespace c = false) : trim u s = s := by
  have hdrop : ∀ t : List Char, (∀ c ∈ t, u.isWhitespace c = false) →
      t.dropWhile u.isWhitespace = t := by
    intro t ht
    cases t with
    | nil => rfl
    | cons c t => rw [List.dropWhile_cons_of_neg (by simp [ht c List.mem_cons_self])]
  unfold trim
  rw [hdrop s h, List.rdropWhile, hdrop s.reverse fun c hc => h c (List.mem_reverse.mp hc),
    List.reverse_reverse]

/-- The word that a string starts in the middle of, and the words after it. -/
def scanWords : List Char → List Char × List (List Char)
  | [] => ([], [])
  | c :: s =>
    let (word, words) := scanWords s
    if u.isWhitespace c then ([], if word = [] then words else word :: words)
    else (c :: word, words)

/-- `str::split_whitespace`: the maximal whitespace-free parts. -/
def splitWhitespace (s : List Char) : List (List Char) :=
  let (word, words) := scanWords u s
  if word = [] then words else word :: words

/-- `split_whitespace().collect::<Vec<_>>().join(" ")`. -/
def joinWords (s : List Char) : List Char := [' '].intercalate (splitWhitespace u s)

/-- What `joinWords` puts after a character that is inside a word. -/
def tailWords (s : List Char) : List Char :=
  let (word, words) := scanWords u s
  word ++ if words = [] then [] else ' ' :: [' '].intercalate words

theorem intercalate_cons (w : List Char) (ws : List (List Char)) :
    [' '].intercalate (w :: ws) =
      w ++ if ws = [] then [] else ' ' :: [' '].intercalate ws := by
  cases ws with
  | nil => simp
  | cons v ws => simp [List.intercalate]

@[simp] theorem joinWords_nil : joinWords u [] = [] := rfl
@[simp] theorem tailWords_nil : tailWords u [] = [] := rfl

/-- No word that `scanWords` completes is empty. -/
theorem scanWords_nonempty {s : List Char} {w : List Char} (h : w ∈ (scanWords u s).2) : w ≠ [] := by
  induction s with
  | nil => simp [scanWords] at h
  | cons c s ih =>
    simp only [scanWords] at h
    split at h
    · split at h
      · exact ih h
      · rcases List.mem_cons.mp h with rfl | hmem
        · assumption
        · exact ih hmem
    · exact ih h

/-- The words have all the characters that are not whitespace. -/
theorem flatten_splitWhitespace (s : List Char) :
    (splitWhitespace u s).flatten = s.filter fun c => !u.isWhitespace c := by
  have hscan : (scanWords u s).1 ++ (scanWords u s).2.flatten =
      s.filter fun c => !u.isWhitespace c := by
    induction s with
    | nil => rfl
    | cons c s ih =>
      by_cases hc : u.isWhitespace c = true
      · by_cases hw : (scanWords u s).1 = []
        · simpa [scanWords, hc, hw] using ih
        · simpa [scanWords, hc, hw] using ih
      · simpa [scanWords, hc] using ih
  unfold splitWhitespace
  by_cases hw : (scanWords u s).1 = []
  · simpa [hw] using hscan
  · simpa [hw] using hscan

theorem intercalate_eq_nil_iff {ws : List (List Char)} (h : ∀ w ∈ ws, w ≠ []) :
    [' '].intercalate ws = [] ↔ ws = [] := by
  cases ws with
  | nil => simp
  | cons w ws =>
    have := h w List.mem_cons_self
    simp [intercalate_cons, this]

theorem joinWords_cons (c : Char) (s : List Char) :
    joinWords u (c :: s) = if u.isWhitespace c then joinWords u s else c :: tailWords u s := by
  unfold joinWords tailWords splitWhitespace
  by_cases hc : u.isWhitespace c = true
  · by_cases hw : (scanWords u s).1 = [] <;> simp [scanWords, hc, hw]
  · simp [scanWords, hc, intercalate_cons]

theorem tailWords_cons (c : Char) (s : List Char) :
    tailWords u (c :: s) =
      if u.isWhitespace c then (if joinWords u s = [] then [] else ' ' :: joinWords u s)
      else c :: tailWords u s := by
  unfold joinWords tailWords splitWhitespace
  by_cases hc : u.isWhitespace c = true
  · by_cases hw : (scanWords u s).1 = []
    · have hnil := intercalate_eq_nil_iff (fun w (h : w ∈ (scanWords u s).2) => scanWords_nonempty u h)
      simp [scanWords, hc, hw, hnil]
    · simp [scanWords, hc, hw, intercalate_cons]
  · simp [scanWords, hc]

/-- Putting characters in front keeps the joined words at the end. -/
theorem joinWords_append_right (x s : List Char) : joinWords u s <:+ joinWords u (x ++ s) := by
  suffices joinWords u s <:+ joinWords u (x ++ s) ∧ joinWords u s <:+ tailWords u (x ++ s) from
    this.1
  induction x with
  | nil =>
    refine ⟨List.suffix_rfl, ?_⟩
    cases s with
    | nil => simp
    | cons c s =>
      rw [List.nil_append, joinWords_cons, tailWords_cons]
      split
      · split
        · rename_i hnil; rw [hnil]
        · exact List.suffix_cons _ _
      · exact List.suffix_rfl
  | cons c x ih =>
    rw [List.cons_append, joinWords_cons, tailWords_cons]
    split
    · refine ⟨ih.1, ?_⟩
      split
      · rename_i hnil; rw [hnil] at ih; exact ih.1
      · exact ih.1.trans (List.suffix_cons _ _)
    · exact ⟨ih.2.trans (List.suffix_cons _ _), ih.2.trans (List.suffix_cons _ _)⟩

/-- Putting characters behind keeps the joined words at the front. -/
theorem joinWords_append_left (s y : List Char) : joinWords u s <+: joinWords u (s ++ y) := by
  suffices joinWords u s <+: joinWords u (s ++ y) ∧ tailWords u s <+: tailWords u (s ++ y) from
    this.1
  induction s with
  | nil => simp
  | cons c s ih =>
    rw [List.cons_append, joinWords_cons, joinWords_cons, tailWords_cons, tailWords_cons]
    split
    · refine ⟨ih.1, ?_⟩
      by_cases hnil : joinWords u s = []
      · simp [hnil]
      · have hne : joinWords u (s ++ y) ≠ [] := fun h => hnil (List.prefix_nil.mp (h ▸ ih.1))
        simpa [hnil, hne] using ih.1
    · exact ⟨by simpa using ih.2, by simpa using ih.2⟩

/-- Joining the words of a part gives a part of the joined words. -/
theorem joinWords_mono {s t : List Char} (h : s <:+: t) : joinWords u s <:+: joinWords u t := by
  obtain ⟨x, y, rfl⟩ := h
  rw [List.append_assoc]
  exact (joinWords_append_left u s y).isInfix.trans (joinWords_append_right u x (s ++ y)).isInfix

/-- Leading spaces do not change the joined words. -/
theorem joinWords_replicate_space (n : Nat) (s : List Char) :
    joinWords u (List.replicate n ' ' ++ s) = joinWords u s := by
  induction n with
  | zero => rfl
  | succ n ih => rw [List.replicate_succ, List.cons_append, joinWords_cons,
      if_pos u.isWhitespace_space, ih]

/-- Replace every run of whitespace by one space; `inRun` says that the character
before was whitespace. -/
def squeezeFrom (inRun : Bool) : List Char → List Char
  | [] => []
  | c :: s =>
    if u.isWhitespace c then (if inRun then squeezeFrom true s else ' ' :: squeezeFrom true s)
    else c :: squeezeFrom false s

/-- Replace every run of whitespace by one space. -/
def squeeze (s : List Char) : List Char := squeezeFrom u false s

/-- Words survive squeezing, and a filter that keeps all whitespace sees the
squeezed string as it sees the original. -/
theorem joinWords_filter_squeeze {p : Char → Bool} (hp : ∀ c, u.isWhitespace c = true → p c = true)
    (s : List Char) : joinWords u ((squeeze u s).filter p) = joinWords u (s.filter p) := by
  suffices (∀ b, joinWords u ((squeezeFrom u b s).filter p) = joinWords u (s.filter p)) ∧
      tailWords u ((squeezeFrom u false s).filter p) = tailWords u (s.filter p) from this.1 false
  have hspace : p ' ' = true := hp _ u.isWhitespace_space
  induction s with
  | nil => exact ⟨fun _ => rfl, rfl⟩
  | cons c s ih =>
    by_cases hc : u.isWhitespace c = true
    · -- A whitespace character: dropped by `joinWords`, one space for `tailWords`.
      have hj := ih.1 true
      refine ⟨fun b => ?_, ?_⟩
      · cases b <;>
          simp [squeezeFrom, hc, hp c hc, hspace, joinWords_cons, u.isWhitespace_space, hj]
      · simp [squeezeFrom, hc, hp c hc, hspace, tailWords_cons, u.isWhitespace_space, hj]
    · by_cases hk : p c = true
      · exact ⟨fun b => by simp [squeezeFrom, hc, hk, joinWords_cons, ih.2],
          by simp [squeezeFrom, hc, hk, tailWords_cons, ih.2]⟩
      · exact ⟨fun b => by simpa [squeezeFrom, hc, hk] using ih.1 false,
          by simpa [squeezeFrom, hc, hk] using ih.2⟩

theorem squeezeFrom_true_replicate_space (n : Nat) (s : List Char) :
    squeezeFrom u true (List.replicate n ' ' ++ s) = squeezeFrom u true s := by
  induction n with
  | zero => rfl
  | succ n ih => simp [List.replicate_succ, squeezeFrom, u.isWhitespace_space, ih]

/-- Leading spaces keep the squeezed string as a part. -/
theorem squeeze_replicate_space (n : Nat) (s : List Char) :
    squeeze u s <:+: squeeze u (List.replicate n ' ' ++ s) := by
  cases n with
  | zero => exact List.infix_rfl
  | succ n =>
    have hrun : squeeze u (List.replicate (n + 1) ' ' ++ s) = ' ' :: squeezeFrom u true s := by
      simp [squeeze, List.replicate_succ, squeezeFrom, u.isWhitespace_space,
        squeezeFrom_true_replicate_space]
    rw [hrun]
    cases s with
    | nil => exact List.nil_infix
    | cons c s =>
      -- A leading run of `s` merges with the added one; otherwise it follows it.
      by_cases hc : u.isWhitespace c = true
      · simp [squeeze, squeezeFrom, hc]
      · simpa [squeeze, squeezeFrom, hc] using (List.suffix_cons _ _).isInfix

/-- `hay` contains `needle` as a contiguous part when letter case and the length
of whitespace runs are ignored. -/
def ContainsLoosely (hay needle : List Char) : Prop :=
  squeeze u (toLowercase u needle) <:+: squeeze u (toLowercase u hay)

instance (hay needle : List Char) : Decidable (ContainsLoosely u hay needle) := by
  unfold ContainsLoosely; infer_instance

theorem containsLoosely_replicate_space (n : Nat) (s : List Char) :
    ContainsLoosely u (List.replicate n ' ' ++ s) s := by
  unfold ContainsLoosely
  rw [toLowercase_replicate_space]
  exact squeeze_replicate_space u n _

end OsModa.Text
