import Mathlib.Data.List.Basic

/-!
Absolute paths, and what a list of mounts shows of a file system.

A path is the list of its names, so that a location lies at or under another when the
other's names are a prefix of its own. `atOrUnder_iff` relates this to the comparison of
texts that programs make. `shows_iff` says what the mounts of a sandbox make visible.
-/

namespace OsModa.Path

/-! ### Canonical paths -/

/-- What is left of an absolute path when links, `.`, `..` and empty names are resolved. -/
structure CanonicalPath where
  names : List (List Char)
  valid : ∀ name ∈ names, name ≠ [] ∧ name ≠ ['.'] ∧ name ≠ ['.', '.'] ∧ '/' ∉ name

/-- A separator before every name. -/
def joinNames (names : List (List Char)) : List Char := names.flatMap ('/' :: ·)

def CanonicalPath.chars (c : CanonicalPath) : List Char :=
  if c.names = [] then ['/'] else joinNames c.names

def CanonicalPath.text (c : CanonicalPath) : String := String.ofList c.chars

/-- The names between the separators of a text. -/
def components (s : List Char) : List (List Char) := (s.splitOn '/').filter (· ≠ [])

@[simp] theorem joinNames_nil : joinNames [] = [] := rfl

@[simp] theorem joinNames_cons (name : List Char) (names : List (List Char)) :
    joinNames (name :: names) = '/' :: (name ++ joinNames names) := by
  simp [joinNames]

@[simp] theorem components_cons_separator (s : List Char) :
    components ('/' :: s) = components s := by
  simp [components, List.splitOn_cons_eq_if_modifyHead]

theorem components_joinNames {names : List (List Char)}
    (hvalid : ∀ name ∈ names, name ≠ [] ∧ '/' ∉ name) : components (joinNames names) = names := by
  induction names with
  | nil => rfl
  | cons name names ih =>
    obtain ⟨hne, hno⟩ := hvalid name List.mem_cons_self
    have hrest := ih fun n hn => hvalid n (List.mem_cons_of_mem name hn)
    rw [joinNames_cons, components_cons_separator]
    cases names with
    | nil => simp [components, List.splitOn_eq_singleton hno, hne]
    | cons next names =>
      rw [joinNames_cons, components_cons_separator] at hrest
      rw [joinNames_cons]
      unfold components at hrest ⊢
      rw [List.splitOn_append_cons_self_of_not_mem hno,
        List.filter_cons_of_pos (by simpa using hne), hrest]

@[simp] theorem CanonicalPath.components_chars (c : CanonicalPath) :
    components c.chars = c.names := by
  unfold chars
  split
  · rename_i hroot
    rw [hroot]
    rfl
  · refine components_joinNames ?_
    intro name hname
    obtain ⟨hne, -, -, hno⟩ := c.valid name hname
    exact ⟨hne, hno⟩

@[simp] theorem CanonicalPath.components_text (c : CanonicalPath) :
    components c.text.toList = c.names := by
  rw [text, String.toList_ofList, components_chars]

/-! ### One text under another -/

/-- What may follow a name: nothing, or a separator. -/
def EndsName (s : List Char) : Prop := s = [] ∨ ∃ t, s = '/' :: t

theorem endsName_joinNames (names : List (List Char)) : EndsName (joinNames names) := by
  cases names with
  | nil => exact Or.inl rfl
  | cons name names => exact Or.inr ⟨_, joinNames_cons name names⟩

theorem takeWhile_name {name s : List Char} (hname : '/' ∉ name) (hs : EndsName s) :
    (name ++ s).takeWhile (· ≠ '/') = name := by
  have hall : ∀ c ∈ name, decide (c ≠ '/') = true := by
    intro c hc
    exact decide_eq_true fun h => hname (h ▸ hc)
  rw [List.takeWhile_append_of_pos hall]
  obtain rfl | ⟨t, rfl⟩ := hs
  · simp
  · simp

/-- A name ends where the separator or the text ends. -/
theorem name_append_inj {name name' s s' : List Char} (hname : '/' ∉ name) (hname' : '/' ∉ name')
    (hs : EndsName s) (hs' : EndsName s') (h : name ++ s = name' ++ s') :
    name = name' ∧ s = s' := by
  obtain rfl : name = name' := by
    rw [← takeWhile_name hname hs, h, takeWhile_name hname' hs']
  exact ⟨rfl, List.append_cancel_left h⟩

/-- A joined path continues another one at a separator when its names continue the other's. -/
theorem exists_joinNames_append_iff {above names : List (List Char)}
    (habove : ∀ name ∈ above, '/' ∉ name) (hnames : ∀ name ∈ names, '/' ∉ name) :
    (∃ s, EndsName s ∧ joinNames names = joinNames above ++ s) ↔ above <+: names := by
  induction above generalizing names with
  | nil => exact iff_of_true ⟨_, endsName_joinNames names, rfl⟩ (List.nil_prefix)
  | cons name above ih =>
    cases names with
    | nil => simp
    | cons name' names =>
      have hstep : (∃ s, EndsName s ∧ joinNames (name' :: names) = joinNames (name :: above) ++ s) ↔
          name = name' ∧ ∃ s, EndsName s ∧ joinNames names = joinNames above ++ s := by
        constructor
        · rintro ⟨s, hs, hjoin⟩
          rw [joinNames_cons, joinNames_cons, List.cons_append, List.append_assoc] at hjoin
          have hend : EndsName (joinNames above ++ s) := by
            obtain habove' | ⟨t, ht⟩ := endsName_joinNames above
            · rwa [habove', List.nil_append]
            · exact Or.inr ⟨t ++ s, by rw [ht, List.cons_append]⟩
          obtain ⟨hname, hrest⟩ := name_append_inj (hnames name' List.mem_cons_self)
            (habove name List.mem_cons_self) (endsName_joinNames names) hend
            (List.cons.inj hjoin).2
          exact ⟨hname.symm, s, hs, hrest⟩
        · rintro ⟨rfl, s, hs, hjoin⟩
          exact ⟨s, hs, by rw [joinNames_cons, hjoin, joinNames_cons, List.cons_append,
            List.append_assoc]⟩
      rw [hstep, List.cons_prefix_cons, ih (fun n hn => habove n (List.mem_cons_of_mem name hn))
        fun n hn => hnames n (List.mem_cons_of_mem name' hn)]

/-- Past the first separator, a path other than the root has a name. -/
theorem CanonicalPath.two_le_length {c : CanonicalPath} (hroot : c.names ≠ []) :
    2 ≤ (joinNames c.names).length := by
  obtain ⟨name, names, hnames⟩ := List.exists_cons_of_ne_nil hroot
  have hname := (c.valid name (hnames ▸ List.mem_cons_self)).1
  have hpos := List.length_pos_iff.mpr hname
  rw [hnames, joinNames_cons, List.length_cons, List.length_append]
  omega

/-- A text that equals another one, or starts with it and a separator, is a location at or
under the other. The root is no such other text: it ends with a separator itself. -/
theorem atOrUnder_iff {c above : CanonicalPath} (hroot : above.names ≠ []) :
    (c.chars = above.chars ∨ above.chars ++ ['/'] <+: c.chars) ↔ above.names <+: c.names := by
  have hno : ∀ p : CanonicalPath, ∀ name ∈ p.names, '/' ∉ name := fun p name hname =>
    (p.valid name hname).2.2.2
  have hlong := above.two_le_length hroot
  rw [← exists_joinNames_append_iff (hno above) (hno c)]
  unfold CanonicalPath.chars
  rw [if_neg hroot]
  split
  · rename_i hnames
    refine iff_of_false ?_ ?_
    · rintro (h | ⟨s, h⟩)
      · have hlen := congrArg List.length h
        simp only [List.length_cons, List.length_nil] at hlen
        omega
      · have hlen := congrArg List.length h
        simp only [List.length_append, List.length_cons, List.length_nil] at hlen
        omega
    · rintro ⟨s, -, h⟩
      have hlen := congrArg List.length h
      rw [hnames, joinNames_nil, List.length_append, List.length_nil] at hlen
      omega
  · constructor
    · rintro (h | ⟨t, h⟩)
      · exact ⟨[], Or.inl rfl, by rw [h, List.append_nil]⟩
      · exact ⟨'/' :: t, Or.inr ⟨t, rfl⟩, by rw [← h, List.append_assoc]; rfl⟩
    · rintro ⟨s, rfl | ⟨t, rfl⟩, h⟩
      · exact Or.inl (by rw [h, List.append_nil])
      · exact Or.inr ⟨t, by rw [h, List.append_assoc]; rfl⟩

/-! ### Mounts -/

section Mounts

variable {α : Type} [DecidableEq α]

/-- The tree at `source` is seen at `target`. -/
structure Mount (α : Type) where
  source : List α
  target : List α
  deriving DecidableEq

/-- The mount that a path is looked up in: the last of those that cover it. -/
def effective (mounts : List (Mount α)) (path : List α) : Option (Mount α) :=
  (mounts.filter fun m => m.target.isPrefixOf path).getLast?

/-- The location that is seen at a path. -/
def seenAt (mounts : List (Mount α)) (path : List α) : Option (List α) :=
  (effective mounts path).map fun m => m.source ++ path.drop m.target.length

/-- Some path shows the location or a part of it. -/
def Shows (mounts : List (Mount α)) (location : List α) : Prop :=
  ∃ path seen, seenAt mounts path = some seen ∧ location <+: seen

theorem mem_of_effective {mounts : List (Mount α)} {path : List α} {m : Mount α}
    (h : effective mounts path = some m) : m ∈ mounts ∧ m.target <+: path := by
  have hmem := List.mem_filter.mp (List.mem_of_getLast? h)
  exact ⟨hmem.1, List.isPrefixOf_iff_prefix.mp hmem.2⟩

theorem exists_effective {mounts : List (Mount α)} {path : List α} {m : Mount α} (hm : m ∈ mounts)
    (hcovers : m.target <+: path) : ∃ m', effective mounts path = some m' := by
  refine Option.isSome_iff_exists.mp ?_
  rw [effective, List.getLast?_isSome]
  exact List.ne_nil_of_mem (List.mem_filter.mpr ⟨hm, List.isPrefixOf_iff_prefix.mpr hcovers⟩)

/-- Mounts that keep their places show just what lies under a source, and what holds one. -/
theorem shows_iff {mounts : List (Mount α)} (hself : ∀ m ∈ mounts, m.target = m.source)
    {location : List α} :
    Shows mounts location ↔
      ∃ m ∈ mounts, location <+: m.source ∨ m.source <+: location := by
  have hseen : ∀ path m, effective mounts path = some m → seenAt mounts path = some path := by
    intro path m h
    obtain ⟨hmem, hcovers⟩ := mem_of_effective h
    rw [seenAt, h, Option.map_some, ← hself m hmem, List.prefix_iff_eq_append.mp hcovers]
  constructor
  · rintro ⟨path, seen, h, hlocation⟩
    obtain ⟨m, hm, -⟩ := Option.map_eq_some_iff.mp h
    rw [hseen path m hm] at h
    obtain rfl := Option.some.inj h
    obtain ⟨hmem, hcovers⟩ := mem_of_effective hm
    rw [hself m hmem] at hcovers
    exact ⟨m, hmem, List.prefix_or_prefix_of_prefix hlocation hcovers⟩
  · rintro ⟨m, hmem, h | h⟩
    · obtain ⟨m', hm'⟩ := exists_effective hmem (List.prefix_refl m.target)
      rw [hself m hmem] at hm'
      exact ⟨m.source, m.source, hseen _ m' hm', h⟩
    · obtain ⟨m', hm'⟩ := exists_effective hmem (hself m hmem ▸ h)
      exact ⟨location, location, hseen _ m' hm', List.prefix_refl location⟩

end Mounts

end OsModa.Path
