import Mathlib.Data.List.Infix
import OsModa.Base.Outcome

/-!
Parties that talk over a byte stream, and two parties linked by one.

A party sends bytes, waits for a number of bytes, and ends with a result. `run`
gives it the bytes that arrive, whoever wrote them. Two parties are `Linked` when
each receives what the other sent, as far as it has arrived; then a message that one
sends while the other waits for it is received as it was sent (`Linked.transfer`),
and two linked parties can be followed in step.
-/

namespace OsModa.Session

inductive Party (α : Type) where
  | done (result : Except String α)
  | send (bytes : List UInt8) (next : Party α)
  | recv (n : Nat) (next : List UInt8 → Party α)

variable {α β γ : Type}

/-- What a party did: its result, what it sent, and the input that it left unread. -/
structure Ran (α : Type) where
  result : Except String α
  sent : List UInt8
  unread : List UInt8

namespace Party

/-- Run a party on the bytes that arrive. Waiting for more than there are fails. -/
def run : Party α → List UInt8 → Ran α
  | done result, incoming => ⟨result, [], incoming⟩
  | send bytes next, incoming =>
    let r := run next incoming
    { r with sent := bytes ++ r.sent }
  | recv n next, incoming =>
    if incoming.length < n then ⟨.error "early eof", [], incoming⟩
    else run (next (incoming.take n)) (incoming.drop n)

/-- The operator `?`: continue with a value, or end with an error. -/
def orFail (x : Except String γ) (next : γ → Party α) : Party α :=
  match x with
  | .error e => done (.error e)
  | .ok c => next c

@[simp] theorem orFail_ok (c : γ) (next : γ → Party α) : orFail (.ok c) next = next c := rfl

@[simp] theorem run_done (result : Except String α) (incoming : List UInt8) :
    (done result).run incoming = ⟨result, [], incoming⟩ := rfl

@[simp] theorem run_send (bytes : List UInt8) (next : Party α) (incoming : List UInt8) :
    (send bytes next).run incoming =
      { next.run incoming with sent := bytes ++ (next.run incoming).sent } := rfl

/-- A party that ends well had the value of each fallible step. -/
theorem run_orFail_ok {x : Except String γ} {next : γ → Party α} {incoming : List UInt8} {a : α}
    (h : ((orFail x next).run incoming).result = .ok a) :
    ∃ c, x = .ok c ∧ ((next c).run incoming).result = .ok a := by
  cases x with
  | error e => cases h
  | ok c => exact ⟨c, rfl, h⟩

/-- A party that ends well received what it waited for. -/
theorem run_recv_ok {n : Nat} {next : List UInt8 → Party α} {incoming : List UInt8} {a : α}
    (h : ((recv n next).run incoming).result = .ok a) :
    n ≤ incoming.length ∧
      (recv n next).run incoming = (next (incoming.take n)).run (incoming.drop n) := by
  unfold run at h
  split at h
  · cases h
  · rename_i hlen
    refine ⟨not_lt.mp hlen, ?_⟩
    rw [run, if_neg hlen]

/-- Go on as the party that a result leads to. -/
def bind : Party α → (α → Party β) → Party β
  | done (.error e), _ => done (.error e)
  | done (.ok a), f => f a
  | send bytes next, f => send bytes (next.bind f)
  | recv n next, f => recv n fun bytes => (next bytes).bind f

@[simp] theorem done_bind (a : α) (f : α → Party β) : (done (.ok a)).bind f = f a := rfl

@[simp] theorem failed_bind (e : String) (f : α → Party β) :
    (done (.error e)).bind f = done (.error e) := rfl

@[simp] theorem send_bind (bytes : List UInt8) (next : Party α) (f : α → Party β) :
    (send bytes next).bind f = send bytes (next.bind f) := rfl

@[simp] theorem recv_bind (n : Nat) (next : List UInt8 → Party α) (f : α → Party β) :
    (recv n next).bind f = recv n fun bytes => (next bytes).bind f := rfl

@[simp] theorem orFail_bind (x : Except String γ) (next : γ → Party α) (f : α → Party β) :
    (orFail x next).bind f = orFail x fun c => (next c).bind f := by
  cases x <;> rfl

/-- A sequence that ends well passed through a result of its first part. -/
theorem run_bind_ok {p : Party α} {f : α → Party β} {incoming : List UInt8} {b : β}
    (h : ((p.bind f).run incoming).result = .ok b) :
    ∃ a, (p.run incoming).result = .ok a ∧ ((f a).run (p.run incoming).unread).result = .ok b := by
  induction p generalizing incoming with
  | done result =>
    cases result with
    | error e => cases h
    | ok a => exact ⟨a, rfl, h⟩
  | send bytes next ih => exact ih h
  | recv n next ih =>
    rw [recv_bind] at h
    obtain ⟨hlen, hrun⟩ := run_recv_ok h
    rw [hrun] at h
    have hprun : (recv n next).run incoming = (next (incoming.take n)).run (incoming.drop n) := by
      rw [run, if_neg (not_lt.mpr hlen)]
    rw [hprun]
    exact ih _ h

end Party

/-! ### Linked parties -/

open Party

/-- Both parties end well, and what each received is a first part of what the other sent. -/
def Linked (p : Party α) (q : Party β) (a : α) (b : β) : Prop :=
  ∃ inP inQ, (p.run inP).result = .ok a ∧ (q.run inQ).result = .ok b ∧
    inP <+: (q.run inQ).sent ∧ inQ <+: (p.run inP).sent

namespace Linked

variable {p : Party α} {q : Party β} {a : α} {b : β}

theorem symm (h : Linked p q a b) : Linked q p b a := by
  obtain ⟨inP, inQ, hp, hq, hinP, hinQ⟩ := h
  exact ⟨inQ, inP, hq, hp, hinQ, hinP⟩

/-- Linked parties had the value of each fallible step. -/
theorem orFail {x : Except String γ} {next : γ → Party α}
    (h : Linked (Party.orFail x next) q a b) : ∃ c, x = .ok c ∧ Linked (next c) q a b := by
  obtain ⟨inP, inQ, hp, hq, hinP, hinQ⟩ := h
  obtain ⟨c, rfl, hp'⟩ := run_orFail_ok hp
  exact ⟨c, rfl, inP, inQ, hp', hq, hinP, hinQ⟩

/-- No linked party ends with an error. -/
theorem not_failed {e : String} : ¬ Linked p (.done (.error e) : Party β) a b := by
  rintro ⟨inP, inQ, -, hq, -, -⟩
  cases hq

theorem done {a' : α} {b' : β} (h : Linked (.done (.ok a')) (.done (.ok b')) a b) :
    a = a' ∧ b = b' := by
  obtain ⟨inP, inQ, hp, hq, -, -⟩ := h
  exact ⟨(Except.ok.inj hp).symm, (Except.ok.inj hq).symm⟩

/-- **A message in step.** What one party sends first is what the other receives first. -/
theorem transfer {bytes rest : List UInt8} {n : Nat} {next : List UInt8 → Party β}
    (hn : bytes.length = n) (h : Linked (.send (bytes ++ rest) p) (.recv n next) a b) :
    Linked (.send rest p) (next bytes) a b := by
  subst hn
  obtain ⟨inP, inQ, hp, hq, hinP, hinQ⟩ := h
  obtain ⟨hlen, hrun⟩ := run_recv_ok hq
  rw [hrun] at hq hinP
  rw [run_send, List.append_assoc] at hinQ
  obtain ⟨tail, htail⟩ := hinQ
  -- The receiver waits for as many bytes as the sender put in front.
  have hsplit : inQ.take bytes.length ++ (inQ.drop bytes.length ++ tail) =
      bytes ++ (rest ++ (p.run inP).sent) := by
    rw [← List.append_assoc, List.take_append_drop, htail]
  obtain ⟨hfirst, hrest⟩ := List.append_inj hsplit (List.length_take_of_le hlen)
  rw [hfirst] at hq hinP
  exact ⟨inP, inQ.drop bytes.length, hp, hq, hinP, tail, hrest⟩

/-- Nothing is left of a message that has been received. -/
theorem sent_nil (h : Linked (.send [] p) q a b) : Linked p q a b := by
  obtain ⟨inP, inQ, hp, hq, hinP, hinQ⟩ := h
  exact ⟨inP, inQ, hp, hq, hinP, hinQ⟩

end Linked

end OsModa.Session
