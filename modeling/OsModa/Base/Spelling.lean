import OsModa.Base.Text

/-!
A text spelled in other letter cases and with other blanks.

Lowercasing reads what stands around a character only for a capital sigma, so an ASCII part of
a text is lowercased as it would be alone (`map_toLower_infix`). And joining words sees neither
the case of letters, once they are lowercased, nor how many blanks stand between two words
(`Spelled.joinWords_eq`).
-/

namespace OsModa.Text

variable (u : Unicode)

/-! ### Lowercasing a part -/

theorem lowercaseFrom_append (before s t : List Char) :
    ∃ front, lowercaseFrom u before (s ++ t) =
      front ++ lowercaseFrom u (s.reverse ++ before) t := by
  induction s generalizing before with
  | nil => exact ⟨[], rfl⟩
  | cons c s ih =>
    obtain ⟨front, hfront⟩ := ih (c :: before)
    rw [List.cons_append, lowercaseFrom, hfront, List.reverse_cons, List.append_assoc,
      List.singleton_append, ← List.append_assoc]
    exact ⟨_, rfl⟩

theorem lowercaseFrom_ascii {t : List Char} (h : ∀ c ∈ t, c.toNat < 128) (before rest : List Char) :
    lowercaseFrom u before (t ++ rest) =
      t.map Char.toLower ++ lowercaseFrom u (t.reverse ++ before) rest := by
  induction t generalizing before with
  | nil => rfl
  | cons c t ih =>
    obtain ⟨hc, ht⟩ := List.forall_mem_cons.mp h
    have hsigma : c ≠ 'Σ' := by
      rintro rfl
      revert hc
      decide
    rw [List.cons_append, lowercaseFrom, if_neg hsigma, u.toLower_ascii c hc, ih ht,
      List.map_cons, List.reverse_cons, List.append_assoc, List.singleton_append,
      List.singleton_append, List.cons_append]

/-- An ASCII part of a text is lowercased letter by letter. -/
theorem map_toLower_infix {t : List Char} (h : ∀ c ∈ t, c.toNat < 128) (x y : List Char) :
    t.map Char.toLower <:+: toLowercase u (x ++ (t ++ y)) := by
  obtain ⟨front, hfront⟩ := lowercaseFrom_append u [] x (t ++ y)
  rw [toLowercase, hfront, lowercaseFrom_ascii u h, ← List.append_assoc]
  exact ⟨front, _, rfl⟩

/-! ### Spellings -/

/-- `t` spells the pattern: its letters in any case, and at least one blank for each space. -/
inductive Spelled : List Char → List Char → Prop where
  | nil : Spelled [] []
  | char {a : Char} {p t : List Char} (ascii : a.toNat < 128) (rest : Spelled p t) :
      Spelled (a.toLower :: p) (a :: t)
  | blanks {b p t : List Char} (nonempty : b ≠ []) (blank : ∀ c ∈ b, asciiWhitespace c = true)
      (rest : Spelled p t) : Spelled (' ' :: p) (b ++ t)

theorem toNat_lt_of_asciiWhitespace {c : Char} (h : asciiWhitespace c = true) : c.toNat < 128 := by
  unfold asciiWhitespace at h
  rw [Bool.or_eq_true, decide_eq_true_eq, Bool.and_eq_true, decide_eq_true_eq,
    decide_eq_true_eq] at h
  rcases h with rfl | h
  · decide
  · omega

theorem toLower_of_asciiWhitespace {c : Char} (h : asciiWhitespace c = true) : c.toLower = c := by
  unfold Char.toLower
  rw [dif_neg]
  intro hupper
  have hrange : 65 ≤ c.toNat := hupper.1
  unfold asciiWhitespace at h
  rw [Bool.or_eq_true, decide_eq_true_eq, Bool.and_eq_true, decide_eq_true_eq,
    decide_eq_true_eq] at h
  rcases h with rfl | h
  · revert hrange
    decide
  · omega

namespace Spelled

variable {u} {p q t s : List Char}

theorem append (h : Spelled p t) (h' : Spelled q s) : Spelled (p ++ q) (t ++ s) := by
  induction h with
  | nil => exact h'
  | char ascii _ ih => exact .char ascii ih
  | blanks nonempty blank _ ih =>
    rw [List.append_assoc]
    exact .blanks nonempty blank ih

theorem ascii (h : Spelled p t) : ∀ c ∈ t, c.toNat < 128 := by
  induction h with
  | nil => exact fun _ hc => absurd hc List.not_mem_nil
  | char ascii _ ih => exact List.forall_mem_cons.mpr ⟨ascii, ih⟩
  | blanks _ blank _ ih =>
    intro c hc
    rcases List.mem_append.mp hc with hc | hc
    · exact toNat_lt_of_asciiWhitespace (blank c hc)
    · exact ih c hc

/-- A spelling has no characters but those of the pattern, in lower case, and blanks. -/
theorem mem_or_blank (h : Spelled p t) :
    ∀ c ∈ t.map Char.toLower, c ∈ p ∨ asciiWhitespace c = true := by
  induction h with
  | nil => exact fun _ hc => absurd hc List.not_mem_nil
  | char _ _ ih =>
    rw [List.map_cons, List.forall_mem_cons]
    exact ⟨.inl List.mem_cons_self, fun c hc => (ih c hc).imp_left (List.mem_cons_of_mem _)⟩
  | blanks _ blank _ ih =>
    rw [List.map_append, List.forall_mem_append]
    refine ⟨fun c hc => ?_, fun c hc => (ih c hc).imp_left (List.mem_cons_of_mem _)⟩
    obtain ⟨a, ha, rfl⟩ := List.mem_map.mp hc
    rw [toLower_of_asciiWhitespace (blank a ha)]
    exact .inr (blank a ha)

theorem joinWords_blanks {b : List Char} (hb : ∀ c ∈ b, asciiWhitespace c = true) :
    joinWords u (b.map Char.toLower ++ s) = joinWords u s := by
  induction b with
  | nil => rfl
  | cons c b ih =>
    obtain ⟨hc, hb⟩ := List.forall_mem_cons.mp hb
    have hblank : u.isWhitespace c = true := by
      rw [u.isWhitespace_ascii c (toNat_lt_of_asciiWhitespace hc), hc]
    rw [List.map_cons, toLower_of_asciiWhitespace hc, List.cons_append, joinWords_cons,
      if_pos hblank, ih hb]

theorem words (h : Spelled p t) : joinWords u (t.map Char.toLower) = joinWords u p ∧
    tailWords u (t.map Char.toLower) = tailWords u p := by
  induction h with
  | nil => exact ⟨rfl, rfl⟩
  | char _ _ ih => simp only [List.map_cons, joinWords_cons, tailWords_cons, ih, and_self]
  | @blanks b p t nonempty blank _ ih =>
    obtain ⟨c, b, rfl⟩ := List.exists_cons_of_ne_nil nonempty
    obtain ⟨hc, hb⟩ := List.forall_mem_cons.mp blank
    have hblank : u.isWhitespace c = true := by
      rw [u.isWhitespace_ascii c (toNat_lt_of_asciiWhitespace hc), hc]
    rw [List.map_append, joinWords_blanks blank, List.map_cons, toLower_of_asciiWhitespace hc,
      List.cons_append, tailWords_cons, joinWords_blanks hb, joinWords_cons, tailWords_cons,
      if_pos hblank, if_pos u.isWhitespace_space, if_pos u.isWhitespace_space, ih.1]
    exact ⟨rfl, rfl⟩

/-- A spelling has the words of the pattern. -/
theorem joinWords_eq (h : Spelled p t) : joinWords u (t.map Char.toLower) = joinWords u p :=
  h.words.1

end Spelled

/-- The words of an ASCII text are the same in every Unicode version. -/
theorem words_ascii {s : List Char} (h : ∀ c ∈ s, c.toNat < 128) :
    joinWords u s = joinWords Unicode.ascii s ∧ tailWords u s = tailWords Unicode.ascii s := by
  induction s with
  | nil => exact ⟨rfl, rfl⟩
  | cons c s ih =>
    obtain ⟨hc, hs⟩ := List.forall_mem_cons.mp h
    simp only [joinWords_cons, tailWords_cons, u.isWhitespace_ascii c hc,
      Unicode.ascii.isWhitespace_ascii c hc, ih hs, and_self]

end OsModa.Text
