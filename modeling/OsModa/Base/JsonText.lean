import OsModa.Base.Encoding

/-!
Reading back the JSON texts that a compact printer writes.

A reader takes a value off the front of a text and hands on what follows it, so that each reader
is proved against its printer with any text behind it, and an object of known members is read by
one reader after the other.
-/

namespace OsModa.JsonText

open OsModa.Encoding

/-! ### Strings -/

/-- The character that a letter behind a backslash stands for. -/
def unescape (letter : Char) : Option Char :=
  if letter = '"' then some '"'
  else if letter = '\\' then some '\\'
  else if letter = 'n' then some '\n'
  else if letter = 'r' then some '\r'
  else if letter = 't' then some '\t'
  else if letter = 'b' then some (Char.ofNat 8)
  else if letter = 'f' then some (Char.ofNat 12)
  else none

/-- A string up to the quote that ends it. Of the escapes by number, those of control characters
are read. -/
def readChars : List Char → Option (List Char × List Char)
  | [] => none
  | '"' :: rest => some ([], rest)
  | '\\' :: 'u' :: '0' :: '0' :: high :: low :: rest =>
    (hexDecode? [high, low]).bind fun bytes =>
      (readChars rest).map fun (s, rest) => (bytes.map (fun b => Char.ofNat b.toNat) ++ s, rest)
  | '\\' :: letter :: rest =>
    (unescape letter).bind fun c => (readChars rest).map fun (s, rest) => (c :: s, rest)
  | c :: rest => (readChars rest).map fun (s, rest) => (c :: s, rest)

def readString : List Char → Option (List Char × List Char)
  | '"' :: rest => readChars rest
  | _ => none

theorem readChars_plain {c : Char} (hquote : c ≠ '"') (hslash : c ≠ '\\') (rest : List Char) :
    readChars (c :: rest) = (readChars rest).map fun (s, rest) => (c :: s, rest) := by
  rw [readChars.eq_def]
  split
  · rename_i h
    cases h
  · rename_i h
    exact absurd (List.cons.inj h).1 hquote
  · rename_i h
    exact absurd (List.cons.inj h).1 hslash
  · rename_i h
    exact absurd (List.cons.inj h).1 hslash
  · rename_i h
    obtain ⟨rfl, rfl⟩ := List.cons.inj h
    rfl

theorem readChars_escape {letter c : Char} (hletter : unescape letter = some c) (rest : List Char) :
    readChars ('\\' :: letter :: rest) = (readChars rest).map fun (s, rest) => (c :: s, rest) := by
  rw [readChars.eq_def]
  split
  · rename_i h
    cases h
  · rename_i h
    exact absurd (List.cons.inj h).1 (by decide)
  · rename_i h
    -- No letter of the table is `u`.
    obtain ⟨rfl, -⟩ := List.cons.inj (List.cons.inj h).2
    cases hletter
  · rename_i h
    obtain ⟨rfl, rfl⟩ := List.cons.inj (List.cons.inj h).2
    rw [hletter, Option.bind_some]
  · rename_i hnone h
    obtain ⟨rfl, rfl⟩ := List.cons.inj h
    exact absurd rfl (hnone letter rest rfl)

theorem hexDecode_control : ∀ n < 32,
    (hexDecode? (hexByte (UInt8.ofNat n))).map (List.map UInt8.toNat) = some [n] := by
  decide

theorem readChars_control {c : Char} (hc : c.toNat < 32) (rest : List Char) :
    readChars (['\\', 'u', '0', '0'] ++ hexByte (UInt8.ofNat c.toNat) ++ rest) =
      (readChars rest).map fun (s, rest) => (c :: s, rest) := by
  obtain ⟨bytes, hbytes, hvalue⟩ := Option.map_eq_some_iff.mp (hexDecode_control c.toNat hc)
  have hchars : bytes.map (fun b => Char.ofNat b.toNat) = [c] := by
    have hmap := congrArg (List.map Char.ofNat) hvalue
    rw [List.map_map, List.map_singleton, Char.ofNat_toNat] at hmap
    exact hmap
  rw [hexByte] at hbytes ⊢
  simp only [List.cons_append, List.nil_append, readChars, hbytes, Option.bind_some, hchars]

/-- An escaped character is read as the character, whatever follows it. -/
theorem readChars_jsonEscape (c : Char) (rest : List Char) :
    readChars (jsonEscape c ++ rest) = (readChars rest).map fun (s, rest) => (c :: s, rest) := by
  have hnumber : ∀ n : Nat, c.toNat = n → c = Char.ofNat n := fun n h => by
    rw [← h, Char.ofNat_toNat]
  unfold jsonEscape
  split
  · subst c
    exact readChars_escape rfl rest
  split
  · subst c
    exact readChars_escape rfl rest
  split
  · subst c
    exact readChars_escape rfl rest
  split
  · subst c
    exact readChars_escape rfl rest
  split
  · subst c
    exact readChars_escape rfl rest
  split
  · rename_i h
    rw [hnumber 8 h]
    exact readChars_escape rfl rest
  split
  · rename_i h
    rw [hnumber 12 h]
    exact readChars_escape rfl rest
  split
  · rename_i h
    exact readChars_control h rest
  · exact readChars_plain ‹_› ‹_› rest

/-- A string is read back from its JSON, whatever follows it. -/
theorem readString_jsonString (s rest : List Char) :
    readString (jsonString s ++ rest) = some (s, rest) := by
  change readChars (s.flatMap jsonEscape ++ ['"'] ++ rest) = some (s, rest)
  induction s with
  | nil => rfl
  | cons c s ih =>
    rw [List.flatMap_cons, List.append_assoc, List.append_assoc, readChars_jsonEscape]
    rw [← List.append_assoc, ih]
    rfl

/-! ### Punctuation and numbers -/

/-- A text that must stand there. -/
def readLiteral (lit : String) (text : List Char) : Option (List Char) :=
  if lit.toList.isPrefixOf text then some (text.drop lit.toList.length) else none

theorem readLiteral_append (lit : String) (rest : List Char) :
    readLiteral lit (lit.toList ++ rest) = some rest := by
  rw [readLiteral, if_pos (List.isPrefixOf_iff_prefix.mpr (List.prefix_append _ _)), List.drop_left]

def readDecimal (text : List Char) : Option (Nat × List Char) :=
  (parseDigits (text.takeWhile Char.isDigit)).map fun n => (n, text.dropWhile Char.isDigit)

/-- A number is read back from its digits, if no digit follows them. -/
theorem readDecimal_decimal (n : Nat) {c : Char} (hc : c.isDigit = false) (rest : List Char) :
    readDecimal (decimal n ++ c :: rest) = some (n, c :: rest) := by
  have hdigits : ∀ d ∈ decimal n, d.isDigit = true := fun d hd => isDigit_of_mem_decimal hd
  rw [readDecimal, List.takeWhile_append_of_pos hdigits, List.dropWhile_append_of_pos hdigits,
    List.takeWhile_cons_of_neg (by simp [hc]), List.dropWhile_cons_of_neg (by simp [hc]),
    List.append_nil, parseDigits_decimal, Option.map_some]

end OsModa.JsonText
