import Mathlib.Data.List.Forall2

/-!
Regular expressions over an alphabet, as JavaScript tests them: classes, repetition of
a class, sequence, alternatives, word boundaries and the end of the input.

A position in the input is the symbol before it and what follows it. `ends` lists the
positions at which a match that starts at a given position can end; `test` asks for a
match that starts anywhere. `Matches` says the same of the text that is matched, and of what
stands before and after it (`mem_ends_iff`, `test_iff`).
-/

namespace OsModa

inductive Regex (α : Type) where
  | empty
  | one (p : α → Bool)
  | many (p : α → Bool)
  | seq (r s : Regex α)
  | alt (r s : Regex α)
  | boundary
  | atEnd

namespace Regex

variable {α : Type}

abbrev Position (α : Type) := Option α × List α

/-- `r+` of a class. -/
def plus (p : α → Bool) : Regex α := seq (one p) (many p)

/-- `r?`. -/
def opt (r : Regex α) : Regex α := alt r empty

def all : List (Regex α) → Regex α
  | [] => empty
  | [r] => r
  | r :: rs => seq r (all rs)

/-- `(r|s|…)`. -/
def any : List (Regex α) → Regex α
  | [] => one fun _ => false
  | [r] => r
  | r :: rs => alt r (any rs)

/-- Every part of the input in the class may be taken. -/
def endsMany (p : α → Bool) (before : Option α) : List α → List (Position α)
  | [] => [(before, [])]
  | a :: s => (before, a :: s) :: if p a then endsMany p (some a) s else []

/-- Where a match that starts at a position can end; `word` is the class `\w`. -/
def ends (word : α → Bool) : Regex α → Position α → List (Position α)
  | empty, pos => [pos]
  | one _, (_, []) => []
  | one p, (_, a :: s) => if p a then [(some a, s)] else []
  | many p, (before, s) => endsMany p before s
  | seq r s, pos => (ends word r pos).flatMap (ends word s)
  | alt r s, pos => ends word r pos ++ ends word s pos
  | boundary, (before, s) => if before.any word ≠ s.head?.any word then [(before, s)] else []
  | atEnd, (before, s) => if s.isEmpty then [(before, s)] else []

def testFrom (word : α → Bool) (r : Regex α) (before : Option α) : List α → Bool
  | [] => !(ends word r (before, [])).isEmpty
  | a :: s => !(ends word r (before, a :: s)).isEmpty || testFrom word r (some a) s

/-- `RegExp.prototype.test`. -/
def test (word : α → Bool) (r : Regex α) (s : List α) : Bool := testFrom word r none s

/-- The test of `^r`. -/
def testStart (word : α → Bool) (r : Regex α) (s : List α) : Bool :=
  !(ends word r (none, s)).isEmpty

/-! ### Matched texts -/

section Matches

variable {word p : α → Bool} {r : Regex α} {before : Option α} {m rest s : List α}
  {pos : Position α}

/-- The last symbol of a text, or the one before it where the text is empty. -/
def lastOf (before : Option α) (m : List α) : Option α := m.foldl (fun _ a => some a) before

@[simp] theorem lastOf_nil : lastOf before [] = before := rfl

@[simp] theorem lastOf_cons (a : α) : lastOf before (a :: m) = lastOf (some a) m := rfl

theorem lastOf_append (m₁ m₂ : List α) :
    lastOf before (m₁ ++ m₂) = lastOf (lastOf before m₁) m₂ :=
  List.foldl_append

/-- The expression matches the text `m` between `before` and `rest`. -/
def Matches (word : α → Bool) : Regex α → Option α → List α → List α → Prop
  | empty, _, m, _ => m = []
  | one p, _, m, _ => ∃ a, p a = true ∧ m = [a]
  | many p, _, m, _ => ∀ a ∈ m, p a = true
  | seq r s, before, m, rest => ∃ m₁ m₂, m = m₁ ++ m₂ ∧
      Matches word r before m₁ (m₂ ++ rest) ∧ Matches word s (lastOf before m₁) m₂ rest
  | alt r s, before, m, rest => Matches word r before m rest ∨ Matches word s before m rest
  | boundary, before, m, rest => m = [] ∧ before.any word ≠ rest.head?.any word
  | atEnd, _, m, rest => m = [] ∧ rest = []

theorem mem_endsMany : pos ∈ endsMany p before s ↔
    ∃ m rest, s = m ++ rest ∧ pos = (lastOf before m, rest) ∧ ∀ a ∈ m, p a = true := by
  induction s generalizing before with
  | nil =>
    rw [endsMany, List.mem_singleton]
    constructor
    · rintro rfl
      exact ⟨[], [], rfl, rfl, by simp⟩
    · rintro ⟨m, rest, hsplit, rfl, -⟩
      obtain ⟨rfl, rfl⟩ := List.append_eq_nil_iff.mp hsplit.symm
      rfl
  | cons a s ih =>
    rw [endsMany, List.mem_cons]
    constructor
    · rintro (rfl | hmore)
      · exact ⟨[], a :: s, rfl, rfl, by simp⟩
      · split at hmore
        · rename_i ha
          obtain ⟨m, rest, rfl, rfl, hm⟩ := ih.mp hmore
          exact ⟨a :: m, rest, rfl, rfl, List.forall_mem_cons.mpr ⟨ha, hm⟩⟩
        · cases hmore
    · rintro ⟨m, rest, hsplit, rfl, hm⟩
      cases m with
      | nil => exact .inl (by rw [hsplit]; rfl)
      | cons b m =>
        obtain ⟨rfl, rfl⟩ := List.cons.inj hsplit
        obtain ⟨hb, hm⟩ := List.forall_mem_cons.mp hm
        rw [if_pos hb]
        exact .inr (ih.mpr ⟨m, rest, rfl, rfl, hm⟩)

theorem mem_ends_iff : pos ∈ ends word r (before, s) ↔
    ∃ m rest, s = m ++ rest ∧ pos = (lastOf before m, rest) ∧ Matches word r before m rest := by
  induction r generalizing before s pos with
  | empty =>
    rw [ends, List.mem_singleton]
    constructor
    · rintro rfl
      exact ⟨[], s, rfl, rfl, rfl⟩
    · rintro ⟨_, rest, rfl, rfl, rfl⟩
      rfl
  | one p =>
    cases s with
    | nil =>
      rw [ends]
      refine iff_of_false List.not_mem_nil ?_
      rintro ⟨_, rest, hsplit, -, a, -, rfl⟩
      cases hsplit
    | cons a s =>
      rw [ends]
      constructor
      · intro h
        split at h
        · rename_i ha
          obtain rfl := List.mem_singleton.mp h
          exact ⟨[a], s, rfl, rfl, a, ha, rfl⟩
        · cases h
      · rintro ⟨_, rest, hsplit, rfl, b, hb, rfl⟩
        obtain ⟨rfl, rfl⟩ := List.cons.inj hsplit
        rw [if_pos hb]
        exact List.mem_singleton.mpr rfl
  | many p => exact mem_endsMany
  | seq r t ihr iht =>
    rw [ends, List.mem_flatMap]
    constructor
    · rintro ⟨mid, hmid, hpos⟩
      obtain ⟨m₁, rest₁, rfl, rfl, h₁⟩ := ihr.mp hmid
      obtain ⟨m₂, rest, rfl, rfl, h₂⟩ := iht.mp hpos
      exact ⟨m₁ ++ m₂, rest, (List.append_assoc ..).symm, by rw [lastOf_append],
        m₁, m₂, rfl, h₁, h₂⟩
    · rintro ⟨_, rest, rfl, rfl, m₁, m₂, rfl, h₁, h₂⟩
      refine ⟨_, ihr.mpr ⟨m₁, m₂ ++ rest, List.append_assoc .., rfl, h₁⟩, ?_⟩
      exact iht.mpr ⟨m₂, rest, rfl, by rw [lastOf_append], h₂⟩
  | alt r t ihr iht =>
    simp only [ends, List.mem_append, ihr, iht, Matches, ← exists_or, ← and_or_left]
  | boundary =>
    rw [ends]
    constructor
    · intro h
      split at h
      · rename_i hb
        obtain rfl := List.mem_singleton.mp h
        exact ⟨[], s, rfl, rfl, rfl, hb⟩
      · cases h
    · rintro ⟨_, rest, rfl, rfl, rfl, hb⟩
      rw [List.nil_append, if_pos hb]
      exact List.mem_singleton.mpr rfl
  | atEnd =>
    rw [ends]
    constructor
    · intro h
      split at h
      · rename_i hs
        obtain rfl := List.mem_singleton.mp h
        exact ⟨[], s, rfl, rfl, rfl, List.isEmpty_iff.mp hs⟩
      · cases h
    · rintro ⟨_, _, rfl, rfl, rfl, rfl⟩
      exact List.mem_singleton.mpr rfl

theorem ends_ne_nil_iff : (!(ends word r (before, s)).isEmpty) = true ↔
    ∃ m rest, s = m ++ rest ∧ Matches word r before m rest := by
  rw [Bool.not_eq_true', ← Bool.not_eq_true, List.isEmpty_iff]
  constructor
  · intro hne
    obtain ⟨pos, hpos⟩ := List.exists_mem_of_ne_nil _ hne
    obtain ⟨m, rest, hsplit, -, hm⟩ := mem_ends_iff.mp hpos
    exact ⟨m, rest, hsplit, hm⟩
  · rintro ⟨m, rest, hsplit, hm⟩
    exact List.ne_nil_of_mem (mem_ends_iff.mpr ⟨m, rest, hsplit, rfl, hm⟩)

theorem testFrom_iff : testFrom word r before s = true ↔
    ∃ x m y, s = x ++ (m ++ y) ∧ Matches word r (lastOf before x) m y := by
  induction s generalizing before with
  | nil =>
    rw [testFrom, ends_ne_nil_iff]
    constructor
    · rintro ⟨m, y, hsplit, hm⟩
      exact ⟨[], m, y, hsplit, hm⟩
    · rintro ⟨x, m, y, hsplit, hm⟩
      obtain ⟨rfl, -⟩ := List.append_eq_nil_iff.mp hsplit.symm
      exact ⟨m, y, hsplit, hm⟩
  | cons a s ih =>
    rw [testFrom, Bool.or_eq_true, ends_ne_nil_iff, ih]
    constructor
    · rintro (⟨m, y, hsplit, hm⟩ | ⟨x, m, y, rfl, hm⟩)
      · exact ⟨[], m, y, hsplit, hm⟩
      · exact ⟨a :: x, m, y, rfl, hm⟩
    · rintro ⟨x, m, y, hsplit, hm⟩
      cases x with
      | nil => exact .inl ⟨m, y, hsplit, hm⟩
      | cons b x =>
        obtain ⟨rfl, rfl⟩ := List.cons.inj hsplit
        exact .inr ⟨x, m, y, rfl, hm⟩

/-- The test finds a matched text anywhere. -/
theorem test_iff : test word r s = true ↔
    ∃ x m y, s = x ++ (m ++ y) ∧ Matches word r (lastOf none x) m y :=
  testFrom_iff

theorem testStart_iff : testStart word r s = true ↔
    ∃ m y, s = m ++ y ∧ Matches word r none m y :=
  ends_ne_nil_iff

theorem matches_all_cons {rs : List (Regex α)} : Matches word (all (r :: rs)) before m rest ↔
    ∃ m₁ m₂, m = m₁ ++ m₂ ∧ Matches word r before m₁ (m₂ ++ rest) ∧
      Matches word (all rs) (lastOf before m₁) m₂ rest := by
  cases rs with
  | cons s rs => rfl
  | nil =>
    constructor
    · intro h
      exact ⟨m, [], (List.append_nil m).symm, h, rfl⟩
    · rintro ⟨m₁, _, rfl, h, rfl⟩
      rwa [List.append_nil]

/-- A sequence of symbols, each in a class of its own. -/
theorem matches_all_one {β : Type} {q : β → α → Bool} {bs : List β} :
    Matches word (all (bs.map fun b => one (q b))) before m rest ↔
      List.Forall₂ (fun b a => q b a = true) bs m := by
  induction bs generalizing before m with
  | nil => exact List.forall₂_nil_left_iff.symm
  | cons b bs ih =>
    rw [List.map_cons, matches_all_cons, List.forall₂_cons_left_iff]
    constructor
    · rintro ⟨_, m, rfl, ⟨a, ha, rfl⟩, hm⟩
      exact ⟨a, m, ha, ih.mp hm, rfl⟩
    · rintro ⟨a, m, ha, hm, rfl⟩
      exact ⟨[a], m, rfl, ⟨a, ha, rfl⟩, ih.mpr hm⟩

/-- Whatever the one expression matches, the other matches there too. -/
def Within (word : α → Bool) (r r' : Regex α) : Prop :=
  ∀ before m rest, Matches word r before m rest → Matches word r' before m rest

theorem Within.refl (r : Regex α) : Within word r r := fun _ _ _ h => h

theorem Within.seq {r r' t t' : Regex α} (hr : Within word r r') (ht : Within word t t') :
    Within word (seq r t) (seq r' t') := by
  rintro before _ rest ⟨m₁, m₂, rfl, h₁, h₂⟩
  exact ⟨m₁, m₂, rfl, hr _ _ _ h₁, ht _ _ _ h₂⟩

theorem Within.alt {r t r' : Regex α} (hr : Within word r r') (ht : Within word t r') :
    Within word (alt r t) r' := by
  rintro before m rest (h | h)
  · exact hr _ _ _ h
  · exact ht _ _ _ h

theorem Within.all {rs rs' : List (Regex α)} (h : List.Forall₂ (Within word) rs rs') :
    Within word (all rs) (all rs') := by
  induction h with
  | nil => exact Within.refl _
  | cons hr _ ih =>
    intro before m rest hm
    obtain ⟨m₁, m₂, hsplit, h₁, h₂⟩ := matches_all_cons.mp hm
    exact matches_all_cons.mpr ⟨m₁, m₂, hsplit, hr _ _ _ h₁, ih _ _ _ h₂⟩

theorem Within.test {r r' : Regex α} (h : Within word r r') (hs : test word r s = true) :
    test word r' s = true := by
  obtain ⟨x, m, y, hsplit, hm⟩ := test_iff.mp hs
  exact test_iff.mpr ⟨x, m, y, hsplit, h _ _ _ hm⟩

theorem matches_all_append {rs ts : List (Regex α)} :
    Matches word (all (rs ++ ts)) before m rest ↔ ∃ m₁ m₂, m = m₁ ++ m₂ ∧
      Matches word (all rs) before m₁ (m₂ ++ rest) ∧
      Matches word (all ts) (lastOf before m₁) m₂ rest := by
  induction rs generalizing before m with
  | nil =>
    constructor
    · intro h
      exact ⟨[], m, rfl, rfl, h⟩
    · rintro ⟨_, m, rfl, rfl, h⟩
      exact h
  | cons r rs ih =>
    rw [List.cons_append, matches_all_cons]
    constructor
    · rintro ⟨m₁, _, rfl, h₁, h⟩
      obtain ⟨m₂, m₃, rfl, h₂, h₃⟩ := ih.mp h
      rw [List.append_assoc] at h₁
      exact ⟨m₁ ++ m₂, m₃, (List.append_assoc ..).symm,
        matches_all_cons.mpr ⟨m₁, m₂, rfl, h₁, h₂⟩, by rwa [lastOf_append]⟩
    · rintro ⟨_, m₃, rfl, h, h₃⟩
      obtain ⟨m₁, m₂, rfl, h₁, h₂⟩ := matches_all_cons.mp h
      rw [← List.append_assoc] at h₁
      rw [lastOf_append] at h₃
      exact ⟨m₁, m₂ ++ m₃, List.append_assoc .., h₁, ih.mpr ⟨m₂, m₃, rfl, h₂, h₃⟩⟩

theorem matches_any {rs : List (Regex α)} :
    Matches word (any rs) before m rest ↔ ∃ r ∈ rs, Matches word r before m rest := by
  induction rs with
  | nil => simp [any, Matches]
  | cons r rs ih =>
    cases rs with
    | nil => simp [any]
    | cons s rs =>
      rw [List.exists_mem_cons_iff, ← ih]
      rfl

theorem matches_plus :
    Matches word (plus p) before m rest ↔ m ≠ [] ∧ ∀ a ∈ m, p a = true := by
  constructor
  · rintro ⟨_, m, rfl, ⟨a, ha, rfl⟩, hm⟩
    exact ⟨List.cons_ne_nil a m, List.forall_mem_cons.mpr ⟨ha, hm⟩⟩
  · rintro ⟨hne, hm⟩
    obtain ⟨a, m, rfl⟩ := List.exists_cons_of_ne_nil hne
    obtain ⟨ha, hm⟩ := List.forall_mem_cons.mp hm
    exact ⟨[a], m, rfl, ⟨a, ha, rfl⟩, hm⟩

theorem matches_opt :
    Matches word (opt r) before m rest ↔ Matches word r before m rest ∨ m = [] :=
  Iff.rfl

end Matches

end Regex

end OsModa
