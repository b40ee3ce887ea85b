import OsModa.Base.Encoding

/-!
JavaScript strings and values, as the gateway and the bridge use them.

A string is a sequence of UTF-16 code units. It need not be well formed: a surrogate
may stand alone, and then the string has no UTF-8 form (`decode?` is `none`).

`String.prototype.toLowerCase` and `toUpperCase` read tables of the Unicode standard.
`CaseTables` carries the two functions with what holds of them in every version: their
values on ASCII.
-/

namespace OsModa.Js

open OsModa.Encoding

/-! ### Strings -/

abbrev JsString := List UInt16

/-- The UTF-16 form of a character. -/
def utf16Char (c : Char) : JsString :=
  if c.toNat < 0x10000 then [UInt16.ofNat c.toNat]
  else [UInt16.ofNat (0xD800 + (c.toNat - 0x10000) / 0x400),
    UInt16.ofNat (0xDC00 + (c.toNat - 0x10000) % 0x400)]

/-- The UTF-16 form of a string. -/
def utf16 (s : String) : JsString := s.toList.flatMap utf16Char

def isHighSurrogate (a : UInt16) : Bool := 0xD800 ≤ a && a ≤ 0xDBFF
def isLowSurrogate (a : UInt16) : Bool := 0xDC00 ≤ a && a ≤ 0xDFFF

/-- The characters of a string; `none` when a surrogate stands alone. -/
def decode? : JsString → Option (List Char)
  | [] => some []
  | [a] => if isHighSurrogate a || isLowSurrogate a then none else some [Char.ofNat a.toNat]
  | a :: b :: rest =>
    if isHighSurrogate a then
      if isLowSurrogate b then
        (decode? rest).map
          (Char.ofNat (0x10000 + (a.toNat - 0xD800) * 0x400 + (b.toNat - 0xDC00)) :: ·)
      else none
    else if isLowSurrogate a then none
    else (decode? (b :: rest)).map (Char.ofNat a.toNat :: ·)

theorem toNat_bounds (c : Char) : c.toNat < 0xD800 ∨ (0xDFFF < c.toNat ∧ c.toNat < 0x110000) :=
  c.valid

theorem isHighSurrogate_ofNat {n : Nat} (h : n < 0x10000) :
    isHighSurrogate (UInt16.ofNat n) = true ↔ 0xD800 ≤ n ∧ n ≤ 0xDBFF := by
  have hn : (UInt16.ofNat n).toNat = n := UInt16.toNat_ofNat_of_lt' h
  simp [isHighSurrogate, UInt16.le_iff_toNat_le, hn]

theorem isLowSurrogate_ofNat {n : Nat} (h : n < 0x10000) :
    isLowSurrogate (UInt16.ofNat n) = true ↔ 0xDC00 ≤ n ∧ n ≤ 0xDFFF := by
  have hn : (UInt16.ofNat n).toNat = n := UInt16.toNat_ofNat_of_lt' h
  simp [isLowSurrogate, UInt16.le_iff_toNat_le, hn]

/-- A character is decoded from its own units, whatever follows. -/
theorem decode?_utf16Char_append (c : Char) (rest : JsString) :
    decode? (utf16Char c ++ rest) = (decode? rest).map (c :: ·) := by
  have hvalid := toNat_bounds c
  unfold utf16Char
  split
  · rename_i hlt
    have hn : (UInt16.ofNat c.toNat).toNat = c.toNat := UInt16.toNat_ofNat_of_lt' hlt
    have hhigh : ¬ isHighSurrogate (UInt16.ofNat c.toNat) = true := by
      rw [isHighSurrogate_ofNat hlt]
      omega
    have hlow : ¬ isLowSurrogate (UInt16.ofNat c.toNat) = true := by
      rw [isLowSurrogate_ofNat hlt]
      omega
    cases rest <;> simp [decode?, hhigh, hlow, hn, Char.ofNat_toNat]
  · rename_i hge
    have hh : 0xD800 + (c.toNat - 0x10000) / 0x400 < 0x10000 := by omega
    have hl : 0xDC00 + (c.toNat - 0x10000) % 0x400 < 0x10000 := by omega
    have hhigh : isHighSurrogate (UInt16.ofNat (0xD800 + (c.toNat - 0x10000) / 0x400)) = true := by
      rw [isHighSurrogate_ofNat hh]
      omega
    have hlow : isLowSurrogate (UInt16.ofNat (0xDC00 + (c.toNat - 0x10000) % 0x400)) = true := by
      rw [isLowSurrogate_ofNat hl]
      omega
    have hsum : 0x10000 + (0xD800 + (c.toNat - 0x10000) / 0x400 - 0xD800) * 0x400 +
        (0xDC00 + (c.toNat - 0x10000) % 0x400 - 0xDC00) = c.toNat := by
      omega
    simp only [List.cons_append, List.nil_append, decode?, hhigh, hlow, if_true]
    rw [UInt16.toNat_ofNat_of_lt' hh, UInt16.toNat_ofNat_of_lt' hl, hsum, Char.ofNat_toNat]

/-- A string of characters is read back from its UTF-16 form. -/
@[simp] theorem decode?_utf16 (s : String) : decode? (utf16 s) = some s.toList := by
  unfold utf16
  induction s.toList with
  | nil => rfl
  | cons c cs ih => rw [List.flatMap_cons, decode?_utf16Char_append, ih, Option.map_some]

theorem utf16_ne_nil {s : String} (h : s ≠ "") : utf16 s ≠ [] := by
  intro hnil
  have hdecode := decode?_utf16 s
  rw [hnil] at hdecode
  exact h (String.toList_eq_nil_iff.mp (Option.some.inj hdecode).symm)

/-- A unit below the surrogates is a character of its own. -/
theorem decode?_cons {a : UInt16} (h : a.toNat < 0xD800) (s : JsString) :
    decode? (a :: s) = (decode? s).map (Char.ofNat a.toNat :: ·) := by
  have hhigh : isHighSurrogate a = false := by
    simp only [isHighSurrogate, UInt16.le_iff_toNat_le, UInt16.reduceToNat, Bool.and_eq_false_iff,
      decide_eq_false_iff_not]
    omega
  have hlow : isLowSurrogate a = false := by
    simp only [isLowSurrogate, UInt16.le_iff_toNat_le, UInt16.reduceToNat, Bool.and_eq_false_iff,
      decide_eq_false_iff_not]
    omega
  cases s with
  | nil => simp [decode?, hhigh, hlow]
  | cons b s => simp [decode?, hhigh, hlow]

/-- What starts with such a unit is decoded alone, wherever it stands. -/
theorem decode?_append_cons {a : UInt16} (h : a.toNat < 0xD800) (rest : JsString) :
    ∀ (x : JsString) (s : List Char), decode? (x ++ a :: rest) = some s →
      ∃ s₁ s₂, s = s₁ ++ s₂ ∧ decode? (a :: rest) = some s₂
  | [], s, hs => ⟨[], s, rfl, hs⟩
  | [p], s, hs => by
    have hlow : isLowSurrogate a = false := by
      simp only [isLowSurrogate, UInt16.le_iff_toNat_le, UInt16.reduceToNat,
        Bool.and_eq_false_iff, decide_eq_false_iff_not]
      omega
    rw [List.singleton_append, decode?, hlow] at hs
    split at hs
    · cases hs
    · split at hs
      · cases hs
      · obtain ⟨s₂, hs₂, rfl⟩ := Option.map_eq_some_iff.mp hs
        exact ⟨[_], s₂, rfl, hs₂⟩
  | p :: q :: x, s, hs => by
    rw [List.cons_append, List.cons_append, decode?] at hs
    split at hs
    · split at hs
      · obtain ⟨s', hs', rfl⟩ := Option.map_eq_some_iff.mp hs
        obtain ⟨s₁, s₂, rfl, hs₂⟩ := decode?_append_cons h rest x s' hs'
        exact ⟨_ :: s₁, s₂, rfl, hs₂⟩
      · cases hs
    · split at hs
      · cases hs
      · obtain ⟨s', hs', rfl⟩ := Option.map_eq_some_iff.mp hs
        obtain ⟨s₁, s₂, rfl, hs₂⟩ := decode?_append_cons h rest (q :: x) s' hs'
        exact ⟨_ :: s₁, s₂, rfl, hs₂⟩

theorem decode?_append {t : JsString} (ht : ∀ a ∈ t, a.toNat < 0xD800) {y : JsString}
    {s : List Char} (hs : decode? (t ++ y) = some s) :
    ∃ s₂, s = t.map (fun a => Char.ofNat a.toNat) ++ s₂ := by
  induction t generalizing s with
  | nil => exact ⟨s, rfl⟩
  | cons a t ih =>
    obtain ⟨ha, ht⟩ := List.forall_mem_cons.mp ht
    rw [List.cons_append, decode?_cons ha, Option.map_eq_some_iff] at hs
    obtain ⟨s', hs', rfl⟩ := hs
    obtain ⟨s₂, rfl⟩ := ih ht hs'
    exact ⟨s₂, rfl⟩

/-- The characters of a part whose units are all below the surrogates. -/
theorem decode?_part {t : JsString} (ht : ∀ a ∈ t, a.toNat < 0xD800) {x y : JsString}
    {s : List Char} (hs : decode? (x ++ (t ++ y)) = some s) :
    ∃ s₁ s₂, s = s₁ ++ (t.map (fun a => Char.ofNat a.toNat) ++ s₂) := by
  cases t with
  | nil => exact ⟨s, [], by simp⟩
  | cons a t =>
    obtain ⟨s₁, s', rfl, hs'⟩ := decode?_append_cons (ht a List.mem_cons_self) (t ++ y) x s hs
    obtain ⟨s₂, rfl⟩ := decode?_append ht hs'
    exact ⟨s₁, s₂, rfl⟩

example : decode? [0x72, 0xD83D] = none := by decide

/-- The bytes between the quotes of `JSON.stringify(s)`; a surrogate that stands alone
becomes an escape of six characters. -/
def quotedLength : JsString → Nat
  | [] => 0
  | [a] =>
    if isHighSurrogate a || isLowSurrogate a then 6
    else (utf8 (jsonEscape (Char.ofNat a.toNat))).length
  | a :: b :: rest =>
    if isHighSurrogate a then
      if isLowSurrogate b then 4 + quotedLength rest else 6 + quotedLength (b :: rest)
    else if isLowSurrogate a then 6 + quotedLength (b :: rest)
    else (utf8 (jsonEscape (Char.ofNat a.toNat))).length + quotedLength (b :: rest)

/-- `Buffer.byteLength(JSON.stringify(s))`. -/
def stringifyLength (s : JsString) : Nat := quotedLength s + 2

/-- `WhiteSpace` and `LineTerminator`: what `\s` matches and `trim` removes. -/
def isSpace (a : UInt16) : Bool :=
  (9 ≤ a && a ≤ 13) || a = 32 || a = 0xA0 || a = 0x1680 || (0x2000 ≤ a && a ≤ 0x200A) ||
    a = 0x2028 || a = 0x2029 || a = 0x202F || a = 0x205F || a = 0x3000 || a = 0xFEFF

/-- `String.prototype.trim`. -/
def trim (s : JsString) : JsString :=
  ((s.dropWhile isSpace).reverse.dropWhile isSpace).reverse

/-- `replace(/\s+/g, " ")`; `inRun` says that the unit before was a space. -/
def squeezeFrom (inRun : Bool) : JsString → JsString
  | [] => []
  | a :: s =>
    if isSpace a then (if inRun then squeezeFrom true s else 32 :: squeezeFrom true s)
    else a :: squeezeFrom false s

def squeeze (s : JsString) : JsString := squeezeFrom false s

/-- `String.prototype.includes`. -/
def includes (s part : JsString) : Bool := decide (part <:+: s)

/-- `split("\n")`: the lines, the last one possibly empty. -/
def lines : JsString → List JsString
  | [] => [[]]
  | a :: s =>
    match lines s with
    | [] => [[a]]
    | line :: rest => if a = 10 then [] :: line :: rest else (a :: line) :: rest

theorem lines_cons (a : UInt16) (s : JsString) : ∃ line rest, lines s = line :: rest ∧
    lines (a :: s) = if a = 10 then [] :: line :: rest else (a :: line) :: rest := by
  cases h : lines s with
  | nil => cases s with
    | nil => cases h
    | cons b s =>
      unfold lines at h
      split at h
      · cases h
      · split at h <;> cases h
  | cons line rest => exact ⟨line, rest, rfl, by rw [lines, h]⟩

/-- A line has no newline. -/
theorem newline_notMem_line {s line : JsString} (h : line ∈ lines s) : 10 ∉ line := by
  induction s generalizing line with
  | nil =>
    rw [List.mem_singleton.mp h]
    exact List.not_mem_nil
  | cons a s ih =>
    obtain ⟨first, rest, hs, hcons⟩ := lines_cons a s
    rw [hcons] at h
    rw [hs] at ih
    split at h
    · rcases List.mem_cons.mp h with rfl | hmem
      · exact List.not_mem_nil
      · exact ih hmem
    · rename_i ha
      rcases List.mem_cons.mp h with rfl | hmem
      · intro hnewline
        rcases List.mem_cons.mp hnewline with heq | hmem
        · exact ha heq.symm
        · exact ih List.mem_cons_self hmem
      · exact ih (List.mem_cons_of_mem _ hmem)

theorem lines_of_notMem {s : JsString} (h : 10 ∉ s) : lines s = [s] := by
  induction s with
  | nil => rfl
  | cons a s ih =>
    have ha : a ≠ 10 := (List.ne_of_not_mem_cons h).symm
    rw [lines, ih (List.not_mem_of_not_mem_cons h)]
    exact if_neg ha

theorem lines_ne_nil (s : JsString) : lines s ≠ [] := by
  cases s with
  | nil => exact List.cons_ne_nil [] []
  | cons a s =>
    obtain ⟨line, rest, -, hcons⟩ := lines_cons a s
    rw [hcons]
    split <;> exact List.cons_ne_nil _ _

/-- What follows goes on with the last line. -/
theorem lines_append (s t : JsString) :
    lines (s ++ t) = (lines s).dropLast ++ lines ((lines s).getLastD [] ++ t) := by
  induction s with
  | nil => rfl
  | cons a s ih =>
    obtain ⟨line, rest, hs, hcons⟩ := lines_cons a s
    obtain ⟨line', rest', hst, hconst⟩ := lines_cons a (s ++ t)
    rw [List.cons_append, hconst, hcons]
    rw [hs, hst] at ih
    split
    · rw [ih]
      rfl
    · rename_i ha
      cases rest with
      | nil =>
        -- The line that goes on is the first.
        have hline : lines (line ++ t) = line' :: rest' := ih.symm
        change _ = lines (a :: (line ++ t))
        rw [lines, hline]
        exact (if_neg ha).symm
      | cons next rest =>
        obtain ⟨rfl, hrest⟩ := List.cons.inj ih
        rw [hrest]
        rfl

theorem lines_concat_newline (s : JsString) : lines (s ++ [10]) = lines s ++ [[]] := by
  induction s with
  | nil => rfl
  | cons a s ih =>
    obtain ⟨line, rest, hs, hcons⟩ := lines_cons a s
    rw [List.cons_append, lines, ih, hcons, hs]
    dsimp only [List.cons_append]
    split <;> rfl

/-- The lines hold the units of the string but its newlines. -/
theorem count_flatten_lines {a : UInt16} (ha : a ≠ 10) (s : JsString) :
    (lines s).flatten.count a = s.count a := by
  induction s with
  | nil => rfl
  | cons b s ih =>
    obtain ⟨line, rest, hs, hcons⟩ := lines_cons b s
    rw [hs] at ih
    rw [hcons]
    split
    · rename_i hb
      rw [List.flatten_cons, List.nil_append, ih, List.count_cons_of_ne (hb.trans_ne ha.symm)]
    · rw [List.flatten_cons, List.cons_append, List.count_cons, List.count_cons, ← ih,
        List.flatten_cons]

def lowerUnit (a : UInt16) : UInt16 := if 65 ≤ a ∧ a ≤ 90 then a + 32 else a
def upperUnit (a : UInt16) : UInt16 := if 97 ≤ a ∧ a ≤ 122 then a - 32 else a

/-- The case conversions of a Unicode version. -/
structure CaseTables where
  toLowerCase : JsString → JsString
  toUpperCase : JsString → JsString
  toLowerCase_ascii : ∀ s : JsString, (∀ a ∈ s, a < 128) → toLowerCase s = s.map lowerUnit
  toUpperCase_ascii : ∀ s : JsString, (∀ a ∈ s, a < 128) → toUpperCase s = s.map upperUnit

/-- The conversions that know only ASCII. -/
def CaseTables.ascii : CaseTables where
  toLowerCase s := s.map lowerUnit
  toUpperCase s := s.map upperUnit
  toLowerCase_ascii _ _ := rfl
  toUpperCase_ascii _ _ := rfl

/-! ### Values -/

/-- The values of JSON; of its numbers the model has the integers. -/
inductive Json where
  | null
  | bool (b : Bool)
  | num (n : Int)
  | str (s : String)
  | arr (items : List Json)
  | obj (fields : List (String × Json))

namespace Json

/-- `v[name]`; `none` stands for `undefined`. -/
def get? : Json → String → Option Json
  | obj fields, name => fields.lookup name
  | _, _ => none

/-- What an `if` takes a value for; `undefined` is false. -/
def truthy : Option Json → Bool
  | some (bool b) => b
  | some (num n) => n ≠ 0
  | some (str s) => s ≠ ""
  | some (arr _) | some (obj _) => true
  | some null => false
  | none => false

end Json

end OsModa.Js
