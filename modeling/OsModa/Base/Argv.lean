/-!
Argument vectors, as the GNU conventions read them.

An argument that starts with a dash, and is more than a dash, is an option; some options take
the next argument as their value, whatever it is. `--` ends the options. Anything else is an
operand, also between options.
-/

namespace OsModa.Argv

/-- What a program documents about its options: which of them take the next argument as their
value, and of which a value is the name of a file to read. -/
structure Program where
  takesValue : String → Bool
  namesFile : String → String → Bool

inductive Reading where
  | option
  | value (option : String)
  | endOfOptions
  | operand
  deriving DecidableEq

/-- Starts with a dash, and is not a dash alone. -/
def isDashed (arg : String) : Bool := arg.toList.head? = some '-' && arg ≠ "-"

namespace Program

variable (p : Program)

/-- What each argument is read as, after an option that waits for its value or none. -/
def readFrom : Option String → List String → List Reading
  | _, [] => []
  | some opt, _ :: args => .value opt :: readFrom none args
  | none, arg :: args =>
    if arg = "--" then .endOfOptions :: args.map fun _ => .operand
    else if isDashed arg then
      .option :: readFrom (if p.takesValue arg then some arg else none) args
    else .operand :: readFrom none args

/-- What each argument is read as. -/
def readings (args : List String) : List Reading := p.readFrom none args

/-- The text stands at this place, and stands for itself there: it is an operand, or the value
of an option that does not read a file in its place. -/
def TakesAsText (args : List String) (i : Nat) (text : String) : Prop :=
  args[i]? = some text ∧
    ((p.readings args)[i]? = some .operand ∨
      ∃ opt, (p.readings args)[i]? = some (.value opt) ∧ p.namesFile opt text = false)

/-! ### Reading on after some arguments -/

section Readings

variable {p} {arg opt : String} {pre args : List String}

theorem readings_operand (h : isDashed arg = false) :
    p.readings (arg :: args) = .operand :: p.readings args := by
  have hend : arg ≠ "--" := by
    rintro rfl
    exact absurd h (by decide)
  simp [readings, readFrom, hend, h]

theorem readings_flag (hend : arg ≠ "--") (h : isDashed arg = true)
    (hflag : p.takesValue arg = false) :
    p.readings (arg :: args) = .option :: p.readings args := by
  simp [readings, readFrom, hend, h, hflag]

theorem readings_value (hend : opt ≠ "--") (h : isDashed opt = true)
    (htakes : p.takesValue opt = true) :
    p.readings (opt :: arg :: args) = .option :: .value opt :: p.readings args := by
  simp [readings, readFrom, hend, h, htakes]

/-- A dashed argument is not an operand, and no value. -/
theorem head_readings_dashed (h : isDashed arg = true) :
    (p.readings (arg :: args)).head? = some .option ∨
      (p.readings (arg :: args)).head? = some .endOfOptions := by
  rw [readings, readFrom]
  split
  · exact .inr rfl
  · exact .inl rfl

theorem length_readFrom (waiting : Option String) (args : List String) :
    (p.readFrom waiting args).length = args.length := by
  induction args generalizing waiting with
  | nil => cases waiting <;> rfl
  | cons arg args ih =>
    cases waiting with
    | some opt => simp [readFrom, ih]
    | none =>
      rw [readFrom]
      split
      · simp
      · split <;> simp [ih]

theorem length_readings (args : List String) : (p.readings args).length = args.length :=
  length_readFrom none args

variable (p) in
/-- What follows these arguments is read as if it stood alone. -/
def Complete (pre : List String) : Prop :=
  ∀ args, p.readings (pre ++ args) = p.readings pre ++ p.readings args

theorem complete_nil : p.Complete [] := fun _ => rfl

theorem complete_operand (h : isDashed arg = false) (hpre : p.Complete pre) :
    p.Complete (arg :: pre) := by
  intro args
  rw [List.cons_append, readings_operand h, hpre, readings_operand h, List.cons_append]

theorem complete_flag (hend : arg ≠ "--") (h : isDashed arg = true)
    (hflag : p.takesValue arg = false) (hpre : p.Complete pre) : p.Complete (arg :: pre) := by
  intro args
  rw [List.cons_append, readings_flag hend h hflag, hpre, readings_flag hend h hflag,
    List.cons_append]

theorem complete_value (hend : opt ≠ "--") (h : isDashed opt = true)
    (htakes : p.takesValue opt = true) (hpre : p.Complete pre) :
    p.Complete (opt :: arg :: pre) := by
  intro args
  rw [List.cons_append, List.cons_append, readings_value hend h htakes, hpre,
    readings_value hend h htakes, List.cons_append, List.cons_append]

theorem getElem?_readings (hpre : p.Complete pre) (i : Nat) :
    (p.readings (pre ++ args))[pre.length + i]? = (p.readings args)[i]? := by
  rw [hpre, List.getElem?_append_right (by rw [length_readings]; omega), length_readings,
    Nat.add_sub_cancel_left]

/-- Where an operand is expected, a text stands for itself if and only if it is not dashed. -/
theorem takesAsText_operand_iff (args : List String) (hpre : p.Complete pre) :
    p.TakesAsText (pre ++ arg :: args) pre.length arg ↔ isDashed arg = false := by
  have hread : (p.readings (pre ++ arg :: args))[pre.length]? =
      (p.readings (arg :: args)).head? := by
    rw [List.head?_eq_getElem?]
    exact getElem?_readings hpre 0
  unfold TakesAsText
  rw [hread]
  constructor
  · rintro ⟨-, htext⟩
    rw [← Bool.not_eq_true]
    intro hdash
    have hhead : (p.readings (arg :: args)).head? = some .option ∨
        (p.readings (arg :: args)).head? = some .endOfOptions := head_readings_dashed hdash
    rcases hhead with h | h <;> simp [h] at htext
  · intro hdash
    refine ⟨by simp, .inl ?_⟩
    rw [readings_operand hdash, List.head?_cons]

/-- The value of an option stands for itself if and only if it names no file. -/
theorem takesAsText_value_iff (args : List String) (hpre : p.Complete pre) (hend : opt ≠ "--")
    (h : isDashed opt = true) (htakes : p.takesValue opt = true) :
    p.TakesAsText (pre ++ opt :: arg :: args) (pre.length + 1) arg ↔
      p.namesFile opt arg = false := by
  unfold TakesAsText
  rw [getElem?_readings hpre 1, readings_value hend h htakes]
  simp

end Readings

end Program

end OsModa.Argv
