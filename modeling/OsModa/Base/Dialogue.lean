import Mathlib.Logic.Relation
import Mathlib.Order.GameAdd
import OsModa.Base.Session

/-!
Two parties on a faithful channel, step by step.

What a party sends goes to the end of a queue, and what it waits for is taken from the front
of the other one as soon as there is enough of it. The parties take their steps in any order.
The order does not matter (`Moves.diamond`), and no run goes on for ever (`moves_wf`). So if
one run brings both parties to an end, every run does, and to the same end
(`concludes_of_reaches`).
-/

namespace OsModa.Session

open Relation Party

variable {α β γ : Type}

/-- Two parties, and what is on its way to each of them. -/
structure Dialogue (α β : Type) where
  left : Party α
  right : Party β
  toLeft : List UInt8
  toRight : List UInt8

namespace Dialogue

/-- One party takes a step. -/
inductive Moves : Dialogue α β → Dialogue α β → Prop where
  | sendLeft {p : Party α} {q : Party β} {inP inQ : List UInt8} (bytes : List UInt8) :
      Moves ⟨.send bytes p, q, inP, inQ⟩ ⟨p, q, inP, inQ ++ bytes⟩
  | recvLeft {next : List UInt8 → Party α} {q : Party β} {inP inQ : List UInt8} {n : Nat}
      (hlen : n ≤ inP.length) :
      Moves ⟨.recv n next, q, inP, inQ⟩ ⟨next (inP.take n), q, inP.drop n, inQ⟩
  | sendRight {p : Party α} {q : Party β} {inP inQ : List UInt8} (bytes : List UInt8) :
      Moves ⟨p, .send bytes q, inP, inQ⟩ ⟨p, q, inP ++ bytes, inQ⟩
  | recvRight {p : Party α} {next : List UInt8 → Party β} {inP inQ : List UInt8} {n : Nat}
      (hlen : n ≤ inQ.length) :
      Moves ⟨p, .recv n next, inP, inQ⟩ ⟨p, next (inQ.take n), inP, inQ.drop n⟩

abbrev Reaches : Dialogue α β → Dialogue α β → Prop := ReflTransGen Moves

/-- Two parties that have not said anything. -/
def start (p : Party α) (q : Party β) : Dialogue α β := ⟨p, q, [], []⟩

/-- No party can take a step. -/
def Stuck (d : Dialogue α β) : Prop := ∀ e, ¬ Moves d e

/-- Steps of different parties can be taken in either order. -/
theorem Moves.diamond {d e f : Dialogue α β} (he : Moves d e) (hf : Moves d f) :
    e = f ∨ ∃ g, Moves e g ∧ Moves f g := by
  have hfront : ∀ (more : List UInt8) {bytes : List UInt8} {n : Nat}, n ≤ bytes.length →
      n ≤ (bytes ++ more).length ∧ (bytes ++ more).take n = bytes.take n ∧
        (bytes ++ more).drop n = bytes.drop n ++ more := by
    intro more bytes n hlen
    exact ⟨by rw [List.length_append]; omega, List.take_append_of_le_length hlen,
      List.drop_append_of_le_length hlen⟩
  cases he with
  | sendLeft bytes =>
    cases hf with
    | sendLeft => exact .inl rfl
    | sendRight bytes' => exact .inr ⟨_, .sendRight bytes', .sendLeft bytes⟩
    | recvRight hlen =>
      obtain ⟨hlen', htake, hdrop⟩ := hfront bytes hlen
      refine .inr ⟨_, .recvRight hlen', ?_⟩
      rw [htake, hdrop]
      exact .sendLeft bytes
  | recvLeft hlen =>
    cases hf with
    | recvLeft => exact .inl rfl
    | sendRight bytes =>
      obtain ⟨hlen', htake, hdrop⟩ := hfront bytes hlen
      refine .inr ⟨_, .sendRight bytes, ?_⟩
      rw [← htake, ← hdrop]
      exact .recvLeft hlen'
    | recvRight hlen' => exact .inr ⟨_, .recvRight hlen', .recvLeft hlen⟩
  | sendRight bytes =>
    cases hf with
    | sendRight => exact .inl rfl
    | sendLeft bytes' => exact .inr ⟨_, .sendLeft bytes', .sendRight bytes⟩
    | recvLeft hlen =>
      obtain ⟨hlen', htake, hdrop⟩ := hfront bytes hlen
      refine .inr ⟨_, .recvLeft hlen', ?_⟩
      rw [htake, hdrop]
      exact .sendRight bytes
  | recvRight hlen =>
    cases hf with
    | recvRight => exact .inl rfl
    | sendLeft bytes =>
      obtain ⟨hlen', htake, hdrop⟩ := hfront bytes hlen
      refine .inr ⟨_, .sendLeft bytes, ?_⟩
      rw [← htake, ← hdrop]
      exact .recvRight hlen'
    | recvLeft hlen' => exact .inr ⟨_, .recvLeft hlen', .recvRight hlen⟩

/-- What is left of a party after a step. -/
inductive Rest : Party α → Party α → Prop where
  | send (bytes : List UInt8) (p : Party α) : Rest p (.send bytes p)
  | recv (n : Nat) (next : List UInt8 → Party α) (bytes : List UInt8) :
      Rest (next bytes) (.recv n next)

theorem rest_acc (p : Party α) : Acc Rest p := by
  induction p with
  | done result => exact ⟨_, nofun⟩
  | send bytes p ih =>
    refine ⟨_, fun q hq => ?_⟩
    cases hq
    exact ih
  | recv n next ih =>
    refine ⟨_, fun q hq => ?_⟩
    cases hq with
    | recv _ _ bytes => exact ih bytes

/-- No run goes on for ever: a step leaves less of one party, and of the other one as much. -/
theorem moves_wf : WellFounded fun e d : Dialogue α β => Moves d e := by
  refine Subrelation.wf (fun {e d} h => ?_) (InvImage.wf (fun d : Dialogue α β => (d.left, d.right))
    (WellFounded.prod_gameAdd ⟨rest_acc⟩ ⟨rest_acc⟩))
  cases h with
  | sendLeft bytes => exact .fst (.send bytes _)
  | recvLeft => exact .fst (.recv _ _ _)
  | sendRight bytes => exact .snd (.send bytes _)
  | recvRight => exact .snd (.recv _ _ _)

/-- If a run comes to an end, every run can be continued to that end. -/
theorem reaches_of_stuck {d e f : Dialogue α β} (he : Reaches d e) (hstuck : Stuck e)
    (hf : Reaches d f) : Reaches f e := by
  have hdiamond : ∀ a b c : Dialogue α β, Moves a b → Moves a c →
      ∃ d, ReflGen Moves b d ∧ ReflTransGen Moves c d := by
    intro a b c hb hc
    rcases hb.diamond hc with rfl | ⟨d, hd, hd'⟩
    · exact ⟨b, .refl, .refl⟩
    · exact ⟨d, .single hd, .single hd'⟩
  obtain ⟨g, heg, hfg⟩ := church_rosser hdiamond he hf
  rcases ReflTransGen.cases_head heg with rfl | ⟨e', he', -⟩
  · exact hfg
  · exact absurd he' (hstuck e')

/-- Every run of two parties comes to an end, at which both have ended well. -/
structure Concludes (p : Party α) (q : Party β) (a : α) (b : β) : Prop where
  terminates : Acc (fun e d => Moves d e) (start p q)
  ends : ∀ d, Reaches (start p q) d → Stuck d →
    d.left = .done (.ok a) ∧ d.right = .done (.ok b)

/-- It is enough that one run does. -/
theorem concludes_of_reaches {p : Party α} {q : Party β} {a : α} {b : β}
    {inP inQ : List UInt8}
    (h : Reaches (start p q) ⟨.done (.ok a), .done (.ok b), inP, inQ⟩) : Concludes p q a b where
  terminates := moves_wf.apply _
  ends d hd hstuck := by
    have hend : Stuck (⟨.done (.ok a), .done (.ok b), inP, inQ⟩ : Dialogue α β) :=
      fun e he => nomatch he
    have hrest := reaches_of_stuck h hend hd
    rcases ReflTransGen.cases_head hrest with rfl | ⟨e, he, -⟩
    · exact ⟨rfl, rfl⟩
    · exact absurd he (hstuck e)

/-! ### Messages in step -/

section Step

variable {p : Party α} {q : Party β}

/-- The right party receives what is on its way to it, if it waits for as much. -/
theorem reaches_toRight {bytes : List UInt8} {n : Nat} (hn : bytes.length = n)
    (next : List UInt8 → Party β) (inP rest : List UInt8) :
    Reaches ⟨p, .recv n next, inP, bytes ++ rest⟩ ⟨p, next bytes, inP, rest⟩ := by
  subst hn
  have hrecv : Moves ⟨p, .recv bytes.length next, inP, bytes ++ rest⟩
      ⟨p, next ((bytes ++ rest).take bytes.length), inP, (bytes ++ rest).drop bytes.length⟩ :=
    .recvRight (by simp)
  rw [List.take_left, List.drop_left] at hrecv
  exact .single hrecv

theorem reaches_toLeft {bytes : List UInt8} {n : Nat} (hn : bytes.length = n)
    (next : List UInt8 → Party α) (inQ rest : List UInt8) :
    Reaches ⟨.recv n next, q, bytes ++ rest, inQ⟩ ⟨next bytes, q, rest, inQ⟩ := by
  subst hn
  have hrecv : Moves ⟨.recv bytes.length next, q, bytes ++ rest, inQ⟩
      ⟨next ((bytes ++ rest).take bytes.length), q, (bytes ++ rest).drop bytes.length, inQ⟩ :=
    .recvLeft (by simp)
  rw [List.take_left, List.drop_left] at hrecv
  exact .single hrecv

end Step

end Dialogue

end OsModa.Session
