import OsModa.Base.Encoding

/-!
Readers of bytes: a reader takes a value off the front and hands on the bytes after it.
-/

namespace OsModa.Reader

variable {α : Type}

/-- The first `n` bytes, if there are as many. -/
def takeExactly (n : Nat) (bytes : List UInt8) : Option (List UInt8 × List UInt8) :=
  if n ≤ bytes.length then some (bytes.take n, bytes.drop n) else none

theorem takeExactly_append (a rest : List UInt8) :
    takeExactly a.length (a ++ rest) = some (a, rest) := by
  rw [takeExactly, if_pos (by simp), List.take_left, List.drop_left]

theorem takeExactly_eq_some {n : Nat} {bytes a rest : List UInt8}
    (h : takeExactly n bytes = some (a, rest)) : bytes = a ++ rest ∧ a.length = n := by
  unfold takeExactly at h
  split at h
  · rename_i hle
    obtain ⟨rfl, rfl⟩ := Prod.mk.inj (Option.some.inj h)
    exact ⟨(List.take_append_drop n bytes).symm, List.length_take_of_le hle⟩
  · cases h

def readByte : List UInt8 → Option (UInt8 × List UInt8)
  | [] => none
  | b :: rest => some (b, rest)

/-- Read `n` values one after the other. -/
def readMany (read : List UInt8 → Option (α × List UInt8)) :
    Nat → List UInt8 → Option (List α × List UInt8)
  | 0, bytes => some ([], bytes)
  | n + 1, bytes =>
    (read bytes).bind fun (a, rest) =>
      (readMany read n rest).map fun (as, rest) => (a :: as, rest)

/-- Values that each read back are read back from their joined encodings. -/
theorem readMany_flatMap {read : List UInt8 → Option (α × List UInt8)} {write : α → List UInt8}
    (h : ∀ a rest, read (write a ++ rest) = some (a, rest)) (as : List α) (rest : List UInt8) :
    readMany read as.length (as.flatMap write ++ rest) = some (as, rest) := by
  induction as with
  | nil => rfl
  | cons a as ih =>
    rw [List.flatMap_cons, List.append_assoc, List.length_cons, readMany, h, Option.bind_some]
    dsimp only
    rw [ih, Option.map_some]

theorem readMany_readByte (data rest : List UInt8) :
    readMany readByte data.length (data ++ rest) = some (data, rest) := by
  have h := @readMany_flatMap UInt8 readByte (fun b => [b]) (fun _ _ => rfl) data rest
  rwa [List.flatMap_singleton'] at h

end OsModa.Reader
