import Mathlib.Data.List.Flatten
import Mathlib.Data.List.Perm.Subperm

/-!
Working off a list of items that lead to further ones.

Any item of the list may be the next, and what it leads to is put on the list, or some of it.
Whatever the order, no more is worked off than what can be reached from the items at the start,
each counted as often as it can be reached (`Worked.subperm`).
-/

namespace OsModa.Worklist

universe u

variable {ε : Type u} (next : ε → List ε)

/-- An item with all that it leads to, in less than so many steps. -/
def reach : Nat → ε → List ε
  | 0, _ => []
  | n + 1, e => e :: (next e).flatMap (reach n)

/-- Some items are worked off and others are left. -/
inductive Worked (start : List ε) : List ε → List ε → Prop where
  | start : Worked start [] start
  | work {done before after left : List ε} {e : ε} :
      Worked start done (before ++ e :: after) → left.Sublist (next e) →
        Worked start (done ++ [e]) (before ++ after ++ left)

variable {next}

theorem reach_sublist_succ (n : Nat) (e : ε) : (reach next n e).Sublist (reach next (n + 1) e) := by
  induction n generalizing e with
  | zero => exact List.nil_sublist _
  | succ n ih => exact (List.Sublist.flatMap_right _ fun e' _ => ih e').cons_cons e

theorem flatMap_reach_zero (es : List ε) : es.flatMap (reach next 0) = [] :=
  List.flatMap_eq_nil_iff.mpr fun _ _ => rfl

/-- The items themselves come first, then what they lead to. -/
theorem flatMap_reach_succ (n : Nat) (es : List ε) :
    (es.flatMap (reach next (n + 1))).Perm (es ++ (es.flatMap next).flatMap (reach next n)) := by
  induction es with
  | nil => exact List.Perm.refl _
  | cons e es ih =>
    rw [List.flatMap_cons, List.flatMap_cons, List.flatMap_append, reach, List.cons_append,
      List.cons_append]
    refine .cons e ((ih.append_left _).trans ?_)
    exact List.perm_append_comm_assoc ..

/-- What is worked off, and what the rest still leads to, can be reached from the start. -/
theorem Worked.subperm_reach {start done pending : List ε} (h : Worked next start done pending)
    (n : Nat) : ∃ m, (done ++ pending.flatMap (reach next n)).Subperm
      (start.flatMap (reach next m)) := by
  induction h generalizing n with
  | start => exact ⟨n, List.Subperm.refl _⟩
  | @work done before after left e _ hleft ih =>
    obtain ⟨m, hm⟩ := ih (n + 1)
    refine ⟨m, List.Subperm.trans ?_ hm⟩
    have hperm : (done ++ [e] ++ (before ++ after ++ left).flatMap (reach next n)).Perm
        (done ++ (before.flatMap (reach next n) ++
          ((e :: left.flatMap (reach next n)) ++ after.flatMap (reach next n)))) := by
      rw [List.append_assoc, List.singleton_append, List.flatMap_append, List.flatMap_append,
        List.cons_append]
      refine .append_left done (.trans (.cons e ?_) List.perm_middle.symm)
      rw [List.append_assoc]
      exact List.perm_append_comm.append_left _
    refine hperm.subperm.trans (List.Sublist.subperm ?_)
    rw [List.flatMap_append, List.flatMap_cons]
    have hmono : ∀ es : List ε,
        (es.flatMap (reach next n)).Sublist (es.flatMap (reach next (n + 1))) := fun es =>
      .flatMap_right es fun e' _ => reach_sublist_succ n e'
    have hitem := (hleft.flatMap (reach next n)).cons_cons e
    exact (List.Sublist.refl _).append ((hmono before).append (hitem.append (hmono after)))

theorem Worked.subperm {start done pending : List ε} (h : Worked next start done pending) :
    ∃ m, done.Subperm (start.flatMap (reach next m)) := by
  obtain ⟨m, hm⟩ := h.subperm_reach 0
  exact ⟨m, (List.sublist_append_left ..).subperm.trans hm⟩

end OsModa.Worklist
