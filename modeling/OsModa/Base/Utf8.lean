import OsModa.Base.Encoding

/-!
Bytes read as UTF-8, with U+FFFD in the place of what is none.

The decoder reads one byte at a time, as web platforms do: a byte that cannot go on with the
character that has begun ends it, and is read again as a first byte. It reads a text back
(`decodeLossy_utf8`). Where the bytes of a text are decoded piece by piece, that takes every piece
to be a text itself (`decodePieces_eq_iff`); what goes wrong otherwise shows in the number of
U+FFFD (`count_replacement_lt`).
-/

namespace OsModa.Encoding

/-! ### The decoder -/

def replacement : Char := '\uFFFD'

/-- A byte that goes on with a character. -/
def IsContinuation (b : UInt8) : Prop := 0x80 ≤ b.toNat ∧ b.toNat ≤ 0xBF

/-- A character that has begun, with the bounds of its next byte. -/
structure Begun where
  codePoint : Nat
  /-- The bytes that are missing. -/
  needed : Nat
  lower : Nat
  upper : Nat
  bounds : 0x80 ≤ lower ∧ upper ≤ 0xBF

/-- The first byte of a character: what is read by then, and what has begun. -/
def firstByte (b : UInt8) : List Char × Option Begun :=
  if b.toNat < 0x80 then ([Char.ofNat b.toNat], none)
  else if 0xC2 ≤ b.toNat ∧ b.toNat ≤ 0xDF then
    ([], some ⟨b.toNat - 0xC0, 1, 0x80, 0xBF, ⟨Nat.le_refl _, Nat.le_refl _⟩⟩)
  else if 0xE0 ≤ b.toNat ∧ b.toNat ≤ 0xEF then
    -- No longer forms, and no surrogates.
    ([], some ⟨b.toNat - 0xE0, 2, if b.toNat = 0xE0 then 0xA0 else 0x80,
      if b.toNat = 0xED then 0x9F else 0xBF, by constructor <;> split <;> omega⟩)
  else if 0xF0 ≤ b.toNat ∧ b.toNat ≤ 0xF4 then
    ([], some ⟨b.toNat - 0xF0, 3, if b.toNat = 0xF0 then 0x90 else 0x80,
      if b.toNat = 0xF4 then 0x8F else 0xBF, by constructor <;> split <;> omega⟩)
  else ([replacement], none)

def nextByte (state : Option Begun) (b : UInt8) : List Char × Option Begun :=
  match state with
  | none => firstByte b
  | some begun =>
    if begun.lower ≤ b.toNat ∧ b.toNat ≤ begun.upper then
      let codePoint := begun.codePoint * 64 + (b.toNat - 0x80)
      if begun.needed = 1 then ([Char.ofNat codePoint], none)
      else ([], some ⟨codePoint, begun.needed - 1, 0x80, 0xBF, ⟨Nat.le_refl _, Nat.le_refl _⟩⟩)
    else (replacement :: (firstByte b).1, (firstByte b).2)

def decodeFrom : Option Begun → List UInt8 → List Char
  | none, [] => []
  | some _, [] => [replacement]
  | state, b :: bytes => (nextByte state b).1 ++ decodeFrom (nextByte state b).2 bytes

/-- The characters of a string of bytes. -/
def decodeLossy (bytes : List UInt8) : List Char := decodeFrom none bytes

theorem decodeFrom_cons (state : Option Begun) (b : UInt8) (bytes : List UInt8) :
    decodeFrom state (b :: bytes) =
      (nextByte state b).1 ++ decodeFrom (nextByte state b).2 bytes := by
  cases state <;> rfl

/-! ### A character -/

/-- The bytes are what is left of a character. -/
inductive Completes (c : Char) : Option Begun → List UInt8 → Prop where
  | last {state : Option Begun} {b : UInt8} (hread : nextByte state b = ([c], none)) :
      Completes c state [b]
  | more {state : Option Begun} {b : UInt8} {begun : Begun} {bytes : List UInt8}
      (hread : nextByte state b = ([], some begun)) (hrest : Completes c (some begun) bytes) :
      Completes c state (b :: bytes)

theorem nextByte_goes_on {begun : Begun} {b : UInt8}
    (hb : begun.lower ≤ b.toNat ∧ b.toNat ≤ begun.upper) (hneeded : begun.needed ≠ 1) :
    nextByte (some begun) b = ([], some ⟨begun.codePoint * 64 + (b.toNat - 0x80),
      begun.needed - 1, 0x80, 0xBF, ⟨Nat.le_refl _, Nat.le_refl _⟩⟩) := by
  rw [nextByte]
  dsimp only
  rw [if_pos hb, if_neg hneeded]

namespace Completes

variable {c : Char} {begun : Begun} {b₁ b₂ b₃ : UInt8}

/-- One byte is missing. -/
theorem one (hneeded : begun.needed = 1) (h₁ : begun.lower ≤ b₁.toNat ∧ b₁.toNat ≤ begun.upper)
    (hc : begun.codePoint * 64 + (b₁.toNat - 0x80) = c.toNat) :
    Completes c (some begun) [b₁] := by
  refine .last ?_
  rw [nextByte]
  dsimp only
  rw [if_pos h₁, if_pos hneeded, hc, Char.ofNat_toNat]

/-- Two bytes are missing. -/
theorem two (hneeded : begun.needed = 2) (h₁ : begun.lower ≤ b₁.toNat ∧ b₁.toNat ≤ begun.upper)
    (h₂ : IsContinuation b₂)
    (hc : (begun.codePoint * 64 + (b₁.toNat - 0x80)) * 64 + (b₂.toNat - 0x80) = c.toNat) :
    Completes c (some begun) [b₁, b₂] := by
  refine .more (nextByte_goes_on h₁ (by omega)) (one ?_ h₂ hc)
  exact congrArg (· - 1) hneeded

/-- Three bytes are missing. -/
theorem three (hneeded : begun.needed = 3) (h₁ : begun.lower ≤ b₁.toNat ∧ b₁.toNat ≤ begun.upper)
    (h₂ : IsContinuation b₂) (h₃ : IsContinuation b₃)
    (hc : ((begun.codePoint * 64 + (b₁.toNat - 0x80)) * 64 + (b₂.toNat - 0x80)) * 64 +
      (b₃.toNat - 0x80) = c.toNat) :
    Completes c (some begun) [b₁, b₂, b₃] := by
  refine .more (nextByte_goes_on h₁ (by omega)) (two ?_ h₂ h₃ hc)
  exact congrArg (· - 1) hneeded

end Completes

theorem toNat_ofNat_of_lt {n : Nat} (h : n < 256) : (UInt8.ofNat n).toNat = n := by
  rw [UInt8.toNat_ofNat']
  exact Nat.mod_eq_of_lt h

/-- The first of two, three or four bytes. -/
theorem firstByte_begins (b : UInt8) (bits : Nat) {needed lower upper : Nat}
    (h : needed = 1 ∧ b.toNat = 0xC0 + bits ∧ 2 ≤ bits ∧ bits < 32 ∧ lower = 0x80 ∧ upper = 0xBF ∨
      needed = 2 ∧ b.toNat = 0xE0 + bits ∧ bits < 16 ∧
        lower = (if bits = 0 then 0xA0 else 0x80) ∧ upper = (if bits = 13 then 0x9F else 0xBF) ∨
      needed = 3 ∧ b.toNat = 0xF0 + bits ∧ bits < 5 ∧
        lower = (if bits = 0 then 0x90 else 0x80) ∧ upper = (if bits = 4 then 0x8F else 0xBF)) :
    ∃ begun, firstByte b = ([], some begun) ∧ begun.codePoint = bits ∧ begun.needed = needed ∧
      begun.lower = lower ∧ begun.upper = upper := by
  rw [firstByte]
  obtain ⟨rfl, hb, hmin, hmax, rfl, rfl⟩ | ⟨rfl, hb, hmax, rfl, rfl⟩ |
    ⟨rfl, hb, hmax, rfl, rfl⟩ := h
  · rw [if_neg (by omega), if_pos (by omega)]
    exact ⟨_, rfl, Nat.sub_eq_of_eq_add' hb, rfl, rfl, rfl⟩
  · rw [if_neg (by omega), if_neg (by omega), if_pos (by omega)]
    refine ⟨_, rfl, Nat.sub_eq_of_eq_add' hb, rfl, ?_, ?_⟩
    · exact if_congr (by omega) rfl rfl
    · exact if_congr (by omega) rfl rfl
  · rw [if_neg (by omega), if_neg (by omega), if_neg (by omega), if_pos (by omega)]
    refine ⟨_, rfl, Nat.sub_eq_of_eq_add' hb, rfl, ?_, ?_⟩
    · exact if_congr (by omega) rfl rfl
    · exact if_congr (by omega) rfl rfl

/-- The bytes of a character, by the size of its code point. -/
theorem utf8EncodeChar_eq (c : Char) : String.utf8EncodeChar c =
    if c.toNat ≤ 0x7F then [UInt8.ofNat c.toNat]
    else if c.toNat ≤ 0x7FF then
      [UInt8.ofNat (c.toNat / 64 % 32 + 0xC0), UInt8.ofNat (c.toNat % 64 + 0x80)]
    else if c.toNat ≤ 0xFFFF then
      [UInt8.ofNat (c.toNat / 4096 % 16 + 0xE0), UInt8.ofNat (c.toNat / 64 % 64 + 0x80),
        UInt8.ofNat (c.toNat % 64 + 0x80)]
    else
      [UInt8.ofNat (c.toNat / 262144 % 8 + 0xF0), UInt8.ofNat (c.toNat / 4096 % 64 + 0x80),
        UInt8.ofNat (c.toNat / 64 % 64 + 0x80), UInt8.ofNat (c.toNat % 64 + 0x80)] := rfl

theorem completes_utf8EncodeChar (c : Char) : Completes c none (String.utf8EncodeChar c) := by
  have hvalid : c.toNat < 0xD800 ∨ 0xDFFF < c.toNat ∧ c.toNat < 0x110000 := c.valid
  have hbyte : ∀ n : Nat, (UInt8.ofNat (n % 64 + 0x80)).toNat = n % 64 + 0x80 := by
    intro n
    exact toNat_ofNat_of_lt (by omega)
  have hlast := hbyte c.toNat
  have hsecondLast := hbyte (c.toNat / 64)
  have hthirdLast := hbyte (c.toNat / 4096)
  rw [utf8EncodeChar_eq]
  split
  · have hb := toNat_ofNat_of_lt (n := c.toNat) (by omega)
    refine .last ?_
    rw [nextByte, firstByte, if_pos (by omega), hb, Char.ofNat_toNat]
  split
  · have hb := toNat_ofNat_of_lt (n := c.toNat / 64 % 32 + 0xC0) (by omega)
    obtain ⟨begun, hread, hcode, hneeded, hlower, hupper⟩ :=
      firstByte_begins (UInt8.ofNat (c.toNat / 64 % 32 + 0xC0)) (c.toNat / 64)
        (.inl ⟨rfl, by omega, by omega, by omega, rfl, rfl⟩)
    exact .more hread (.one hneeded (by omega) (by omega))
  split
  · have hb := toNat_ofNat_of_lt (n := c.toNat / 4096 % 16 + 0xE0) (by omega)
    obtain ⟨begun, hread, hcode, hneeded, hlower, hupper⟩ :=
      firstByte_begins (UInt8.ofNat (c.toNat / 4096 % 16 + 0xE0)) (c.toNat / 4096)
        (.inr (.inl ⟨rfl, by omega, by omega, rfl, rfl⟩))
    -- The second byte is in its bounds: the form is the shortest, and no surrogate.
    have hsecond : begun.lower ≤ c.toNat / 64 % 64 + 0x80 ∧
        c.toNat / 64 % 64 + 0x80 ≤ begun.upper := by
      rw [hlower, hupper]
      constructor <;> split <;> omega
    refine .more hread (.two hneeded ?_ ?_ ?_)
    · rw [hsecondLast]
      exact hsecond
    · exact ⟨by omega, by omega⟩
    · rw [hcode, hlast, hsecondLast]
      omega
  · have hb := toNat_ofNat_of_lt (n := c.toNat / 262144 % 8 + 0xF0) (by omega)
    obtain ⟨begun, hread, hcode, hneeded, hlower, hupper⟩ :=
      firstByte_begins (UInt8.ofNat (c.toNat / 262144 % 8 + 0xF0)) (c.toNat / 262144)
        (.inr (.inr ⟨rfl, by omega, by omega, rfl, rfl⟩))
    -- The second byte is in its bounds: the form is the shortest, and no code point is larger.
    have hsecond : begun.lower ≤ c.toNat / 4096 % 64 + 0x80 ∧
        c.toNat / 4096 % 64 + 0x80 ≤ begun.upper := by
      rw [hlower, hupper]
      constructor <;> split <;> omega
    refine .more hread (.three hneeded ?_ ?_ ?_ ?_)
    · rw [hthirdLast]
      exact hsecond
    · exact ⟨by omega, by omega⟩
    · exact ⟨by omega, by omega⟩
    · rw [hcode, hlast, hsecondLast, hthirdLast]
      omega

/-- All bytes of a character but the first go on with it. -/
theorem isContinuation_of_mem_tail {c : Char} {b : UInt8}
    (h : b ∈ (String.utf8EncodeChar c).tail) : IsContinuation b := by
  have hbyte : ∀ n : Nat, IsContinuation (UInt8.ofNat (n % 64 + 0x80)) := by
    intro n
    rw [IsContinuation, toNat_ofNat_of_lt (by omega)]
    omega
  rw [utf8EncodeChar_eq] at h
  split at h
  · cases h
  split at h
  · rw [List.mem_singleton.mp h]
    exact hbyte _
  split at h
  · obtain rfl | h := List.mem_cons.mp h
    · exact hbyte _
    · rw [List.mem_singleton.mp h]
      exact hbyte _
  · obtain rfl | h := List.mem_cons.mp h
    · exact hbyte _
    obtain rfl | h := List.mem_cons.mp h
    · exact hbyte _
    · rw [List.mem_singleton.mp h]
      exact hbyte _

namespace Completes

variable {c : Char} {state : Option Begun} {bytes : List UInt8}

theorem decodeFrom (h : Completes c state bytes) (rest : List UInt8) :
    decodeFrom state (bytes ++ rest) = c :: decodeLossy rest := by
  induction h with
  | last hread =>
    rw [List.singleton_append, decodeFrom_cons, hread]
    rfl
  | more hread hrest ih =>
    rw [List.cons_append, decodeFrom_cons, hread]
    exact ih

/-- A character of which some bytes are missing. -/
theorem decodeFrom_torn (h : Completes c state bytes) {begun missing : List UInt8}
    (hsplit : bytes = begun ++ missing) (hbegun : begun ≠ []) (hmissing : missing ≠ []) :
    Encoding.decodeFrom state begun = [replacement] := by
  induction h generalizing begun with
  | last hread =>
    cases begun with
    | nil => exact absurd rfl hbegun
    | cons b begun =>
      obtain ⟨-, hnil⟩ := List.cons.inj hsplit
      exact absurd (List.append_eq_nil_iff.mp hnil.symm).2 hmissing
  | @more state b pending bytes hread hrest ih =>
    cases begun with
    | nil => exact absurd rfl hbegun
    | cons b' begun =>
      obtain ⟨rfl, htail⟩ := List.cons.inj hsplit
      rw [decodeFrom_cons, hread, List.nil_append]
      by_cases hmore : begun = []
      · rw [hmore]
        rfl
      · exact ih htail hmore

end Completes

/-! ### Texts -/

/-- What follows a text does not change how it is read. -/
theorem decodeLossy_utf8_append (s : List Char) (bytes : List UInt8) :
    decodeLossy (utf8 s ++ bytes) = s ++ decodeLossy bytes := by
  induction s with
  | nil => rfl
  | cons c s ih =>
    rw [utf8_cons, List.append_assoc, decodeLossy, (completes_utf8EncodeChar c).decodeFrom, ih]
    rfl

/-- A text is read back. -/
theorem decodeLossy_utf8 (s : List Char) : decodeLossy (utf8 s) = s := by
  have h := decodeLossy_utf8_append s []
  rw [List.append_nil] at h
  rw [h]
  exact List.append_nil s

/-- Bytes that go on with no character. -/
theorem decodeLossy_continuations {stray : List UInt8} (h : ∀ b ∈ stray, IsContinuation b)
    (bytes : List UInt8) :
    decodeLossy (stray ++ bytes) =
      List.replicate stray.length replacement ++ decodeLossy bytes := by
  induction stray with
  | nil => rfl
  | cons b stray ih =>
    obtain ⟨hlower, hupper⟩ := h b List.mem_cons_self
    have hread : nextByte none b = ([replacement], none) := by
      rw [nextByte, firstByte, if_neg (by omega), if_neg (by omega), if_neg (by omega),
        if_neg (by omega)]
    rw [List.cons_append, decodeLossy, decodeFrom_cons, hread]
    exact congrArg (replacement :: ·) (ih fun b' hb' => h b' (List.mem_cons_of_mem b hb'))

/-- A byte that begins a character ends what is before it. -/
theorem decodeFrom_append {b : UInt8} (hb : ¬ IsContinuation b) (state : Option Begun)
    (before after : List UInt8) :
    decodeFrom state (before ++ b :: after) =
      decodeFrom state before ++ decodeLossy (b :: after) := by
  induction before generalizing state with
  | nil =>
    rw [List.nil_append, decodeFrom_cons]
    cases state with
    | none => rfl
    | some begun =>
      have hnot : ¬ (begun.lower ≤ b.toNat ∧ b.toNat ≤ begun.upper) := by
        rintro ⟨hlower, hupper⟩
        exact hb ⟨begun.bounds.1.trans hlower, hupper.trans begun.bounds.2⟩
      rw [nextByte]
      dsimp only
      rw [if_neg hnot]
      rfl
  | cons b' before ih =>
    rw [List.cons_append, decodeFrom_cons, decodeFrom_cons, ih, List.append_assoc]

/-! ### Texts in pieces -/

/-- The bytes are those of a text. -/
def IsText (bytes : List UInt8) : Prop := ∃ s, bytes = utf8 s

/-- A text is cut between two characters or inside one. -/
theorem utf8_eq_append {s : List Char} {before after : List UInt8} (h : utf8 s = before ++ after) :
    (∃ t u, s = t ++ u ∧ before = utf8 t ∧ after = utf8 u) ∨
      ∃ t c u begun missing, s = t ++ c :: u ∧ before = utf8 t ++ begun ∧
        after = missing ++ utf8 u ∧ String.utf8EncodeChar c = begun ++ missing ∧ begun ≠ [] ∧
        missing ≠ [] := by
  induction s generalizing before with
  | nil =>
    obtain ⟨hbefore, hafter⟩ := List.append_eq_nil_iff.mp h.symm
    exact .inl ⟨[], [], rfl, hbefore, hafter⟩
  | cons c s ih =>
    rw [utf8_cons] at h
    obtain ⟨more, hbefore, hrest⟩ | ⟨missing, hchar, hafter⟩ := List.append_eq_append_iff.mp h
    · obtain ⟨t, u, rfl, hmore, hafter⟩ | ⟨t, d, u, begun, missing, rfl, hmore, hafter, hd, hne⟩ :=
        ih hrest
      · exact .inl ⟨c :: t, u, rfl, by rw [hbefore, hmore, utf8_cons], hafter⟩
      · exact .inr ⟨c :: t, d, u, begun, missing, rfl,
          by rw [hbefore, hmore, utf8_cons, List.append_assoc], hafter, hd, hne⟩
    · by_cases hnone : before = []
      · rw [hnone, List.nil_append] at h
        exact .inl ⟨[], c :: s, rfl, hnone, h.symm⟩
      by_cases hall : missing = []
      · rw [hall, List.append_nil] at hchar
        rw [hall, List.nil_append] at hafter
        exact .inl ⟨[c], s, rfl, by rw [← hchar, utf8_cons]; exact (List.append_nil _).symm, hafter⟩
      · exact .inr ⟨[], c, s, before, missing, rfl, rfl, hafter, hchar, hnone, hall⟩

/-- The bytes that are missing of a character that has begun. -/
theorem isContinuation_of_missing {c : Char} {begun missing : List UInt8}
    (h : String.utf8EncodeChar c = begun ++ missing) (hbegun : begun ≠ []) :
    ∀ b ∈ missing, IsContinuation b := by
  intro b hb
  cases begun with
  | nil => exact absurd rfl hbegun
  | cons first begun =>
    apply isContinuation_of_mem_tail (c := c)
    rw [h]
    exact List.mem_append_right begun hb

/-- A character of a text that is torn counts once for the bytes before, and the missing bytes make
up for what it counts itself. -/
theorem count_torn (t u : List Char) {c : Char} {begun missing : List UInt8}
    (hc : String.utf8EncodeChar c = begun ++ missing) (hbegun : begun ≠ [])
    (hmissing : missing ≠ []) :
    (t ++ c :: u).count replacement <
      (decodeLossy (utf8 t ++ begun)).count replacement +
        (missing.length + u.count replacement) := by
  have htorn : decodeLossy begun = [replacement] :=
    (completes_utf8EncodeChar c).decodeFrom_torn hc hbegun hmissing
  have hlength := List.length_pos_iff.mpr hmissing
  have hone : [c].count replacement ≤ 1 := List.count_le_length
  have hsplit : (t ++ c :: u).count replacement =
      t.count replacement + ([c].count replacement + u.count replacement) := by
    rw [← List.count_append, ← List.count_append]
    rfl
  rw [hsplit, decodeLossy_utf8_append, htorn, List.count_append, List.count_singleton_self]
  omega

/-- Bytes that go on with no character count one each, whatever the pieces. -/
theorem le_count_replacement {pieces : List (List UInt8)} {stray : List UInt8} {s : List Char}
    (hpieces : pieces.flatten = stray ++ utf8 s) (hstray : ∀ b ∈ stray, IsContinuation b) :
    stray.length + s.count replacement ≤ (pieces.flatMap decodeLossy).count replacement := by
  induction pieces generalizing stray s with
  | nil =>
    obtain ⟨rfl, hs⟩ := List.append_eq_nil_iff.mp hpieces.symm
    obtain rfl : s = [] := utf8_injective hs
    exact Nat.le_refl 0
  | cons piece pieces ih =>
    rw [List.flatten_cons] at hpieces
    rw [List.flatMap_cons, List.count_append]
    obtain ⟨more, rfl, hrest⟩ | ⟨before, rfl, hs⟩ := List.append_eq_append_iff.mp hpieces
    · have hmore := ih hrest fun b hb => hstray b (List.mem_append_right piece hb)
      have hpiece := decodeLossy_continuations
        (fun b hb => hstray b (List.mem_append_left more hb)) []
      rw [List.append_nil] at hpiece
      rw [hpiece, List.count_append, List.count_replicate_self, List.length_append]
      omega
    · rw [decodeLossy_continuations hstray, List.count_append, List.count_replicate_self]
      obtain ⟨t, u, rfl, rfl, hrest⟩ |
        ⟨t, c, u, begun, missing, rfl, rfl, hrest, hc, hbegun, hne⟩ := utf8_eq_append hs
      · have hmore := @ih [] u hrest fun _ h => nomatch h
        rw [decodeLossy_utf8, List.count_append]
        rw [List.length_nil] at hmore
        omega
      · have hmore := ih hrest (isContinuation_of_missing hc hbegun)
        have htorn := count_torn t u hc hbegun hne
        omega

/-- Where a piece is no text, there are more U+FFFD than in the whole. -/
theorem count_replacement_lt {pieces : List (List UInt8)} {s : List Char}
    (hpieces : pieces.flatten = utf8 s) (h : ¬ ∀ piece ∈ pieces, IsText piece) :
    s.count replacement < (pieces.flatMap decodeLossy).count replacement := by
  induction pieces generalizing s with
  | nil => exact absurd (fun _ hmem => nomatch hmem) h
  | cons piece pieces ih =>
    rw [List.flatten_cons] at hpieces
    rw [List.flatMap_cons, List.count_append]
    obtain ⟨t, u, rfl, rfl, hrest⟩ | ⟨t, c, u, begun, missing, rfl, rfl, hrest, hc, hbegun, hne⟩ :=
      utf8_eq_append hpieces.symm
    · have hlater : ¬ ∀ piece ∈ pieces, IsText piece := by
        intro hall
        exact h (List.forall_mem_cons.mpr ⟨⟨t, rfl⟩, hall⟩)
      rw [decodeLossy_utf8, List.count_append]
      exact Nat.add_lt_add_left (ih hrest hlater) _
    · have hmore := le_count_replacement hrest (isContinuation_of_missing hc hbegun)
      exact (count_torn t u hc hbegun hne).trans_le (Nat.add_le_add_left hmore _)

/-- The last byte of the pieces is read by itself, if it goes on with no character. -/
theorem decodePieces_concat {b : UInt8} (hb : ¬ IsContinuation b) {pieces : List (List UInt8)}
    {bytes : List UInt8} (hpieces : pieces.flatten = bytes ++ [b]) :
    ∃ s, pieces.flatMap decodeLossy = s ++ decodeLossy [b] := by
  induction pieces using List.reverseRecOn generalizing bytes with
  | nil => exact absurd (List.append_eq_nil_iff.mp hpieces.symm).2 (List.cons_ne_nil b [])
  | append_singleton pieces piece ih =>
    rw [List.flatten_append, List.flatten_singleton] at hpieces
    rw [List.flatMap_append, List.flatMap_singleton]
    obtain rfl | ⟨before, last, rfl⟩ := List.eq_nil_or_concat' piece
    · rw [List.append_nil] at hpieces
      obtain ⟨s, hs⟩ := ih hpieces
      exact ⟨s, by rw [hs]; exact List.append_nil _⟩
    · rw [← List.append_assoc] at hpieces
      obtain ⟨-, hlast⟩ := List.append_inj' hpieces rfl
      obtain rfl := List.singleton_inj.mp hlast
      refine ⟨pieces.flatMap decodeLossy ++ decodeLossy before, ?_⟩
      rw [decodeLossy, decodeFrom_append hb, List.append_assoc]
      rfl

/-- Pieces that are texts are read as the whole. -/
theorem decodePieces_eq {pieces : List (List UInt8)} (h : ∀ piece ∈ pieces, IsText piece) :
    pieces.flatMap decodeLossy = decodeLossy pieces.flatten := by
  induction pieces with
  | nil => rfl
  | cons piece pieces ih =>
    obtain ⟨⟨t, rfl⟩, hlater⟩ := List.forall_mem_cons.mp h
    rw [List.flatMap_cons, List.flatten_cons, decodeLossy_utf8_append, decodeLossy_utf8, ih hlater]

/-- The pieces of a text are read as the whole exactly when they are texts. -/
theorem decodePieces_eq_iff {pieces : List (List UInt8)} {s : List Char}
    (hpieces : pieces.flatten = utf8 s) :
    pieces.flatMap decodeLossy = s ↔ ∀ piece ∈ pieces, IsText piece := by
  constructor
  · intro heq
    by_contra h
    have hlt := count_replacement_lt hpieces h
    rw [heq] at hlt
    exact Nat.lt_irrefl _ hlt
  · intro h
    rw [decodePieces_eq h, hpieces, decodeLossy_utf8]

end OsModa.Encoding
