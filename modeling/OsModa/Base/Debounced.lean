import Mathlib.Tactic.Common

/-!
A store in memory whose file is written some time after it changed.

A change sets a timer, unless one is set; when it fires, the file gets what is in memory. So
without a timer the file is what is in memory (`Synced`), and what holds of every value that was in
memory holds of the file.
-/

namespace OsModa

universe u

/-- The value in memory, and what the file of it reads back as. -/
structure Debounced (α : Type u) where
  memory : α
  file : α
  /-- A save is scheduled. -/
  timer : Bool

namespace Debounced

variable {α : Type u} (d : Debounced α)

/-- A store that has just been loaded. -/
def loaded (a : α) : Debounced α := ⟨a, a, false⟩

/-- A change, which schedules a save or does not. -/
def change (schedules : Bool) (a : α) : Debounced α :=
  { d with memory := a, timer := d.timer || schedules }

/-- The timer fires; a write that fails is given up. -/
def save (written : Bool) : Debounced α :=
  { d with file := if written then d.memory else d.file, timer := false }

/-- A new process loads the file. -/
def reload : Debounced α := loaded d.file

/-- What is not scheduled to be saved is saved. -/
def Synced : Prop := d.timer = false → d.file = d.memory

@[simp] theorem change_memory (schedules : Bool) (a : α) : (d.change schedules a).memory = a := rfl
@[simp] theorem change_file (schedules : Bool) (a : α) : (d.change schedules a).file = d.file := rfl
@[simp] theorem save_memory (written : Bool) : (d.save written).memory = d.memory := rfl
@[simp] theorem reload_memory : d.reload.memory = d.file := rfl
@[simp] theorem reload_file : d.reload.file = d.file := rfl

variable {d}

theorem synced_loaded (a : α) : (loaded a).Synced := fun _ => rfl

/-- A change that schedules no save must change nothing. -/
theorem Synced.change (h : d.Synced) {schedules : Bool} {a : α}
    (ha : schedules = false → a = d.memory) : (d.change schedules a).Synced := by
  intro htimer
  obtain ⟨hbefore, hquiet⟩ := Bool.or_eq_false_iff.mp htimer
  exact (h hbefore).trans (ha hquiet).symm

theorem synced_save : (d.save true).Synced := fun _ => rfl

/-- What the value in memory and the file have both. -/
def Both (P : α → Prop) (d : Debounced α) : Prop := P d.memory ∧ P d.file

theorem Both.change {P : α → Prop} (h : d.Both P) {schedules : Bool} {a : α} (ha : P a) :
    (d.change schedules a).Both P :=
  ⟨ha, h.2⟩

theorem Both.save {P : α → Prop} (h : d.Both P) (written : Bool) : (d.save written).Both P := by
  cases written with
  | true => exact ⟨h.1, h.1⟩
  | false => exact h

theorem Both.reload {P : α → Prop} (h : d.Both P) : d.reload.Both P := ⟨h.2, h.2⟩

end Debounced

end OsModa
