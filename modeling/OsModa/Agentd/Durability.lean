import OsModa.Base.Machine
import OsModa.Agentd.Ledger

/-!
Runs of `append` in which any SQL statement may fail.

An append is atomic, and it extends a valid chain whenever it has read the last
hash. The one statement whose failure it does not report is that reading: the query
then counts as an empty table, and the row that is committed after it follows the
genesis hash. `appends_durable_iff` says that this is the only way to break a chain.
-/

namespace OsModa.Agentd

open Ledger

abbrev AppendStep := Machine.Step Ledger AppendCall (Outcome Event)

section

variable (sha256 : List UInt8 → List UInt8)

/-- The steps of a sequence of appends. -/
def appendRun (calls : List AppendCall) (l : Ledger) : List AppendStep :=
  Machine.trace (append sha256) calls l

/-- The append fails and changes no row, or returns the one row it adds; and the
chain is valid afterwards. -/
structure Durable (t : AppendStep) : Prop where
  atomic : (∃ message, t.output = .err message ∧ t.after.events = t.before.events) ∨
    ∃ e, t.output = .ok e ∧ t.after.events.rows = t.before.events.rows ++ [e]
  valid : verify sha256 t.after.events = true

/-- The append does not commit a row after it failed to read a last hash other than
the genesis hash. -/
def ReadsLastHash (t : AppendStep) : Prop :=
  t.input.faults.readLastHash = true →
    lastHashConn false t.before.events = genesisPrevHash ∨ Aborts t.input t.before

instance (call : AppendCall) (l : Ledger) : Decidable (Aborts call l) := by
  unfold Aborts
  infer_instance

instance (t : AppendStep) : Decidable (ReadsLastHash t) := by
  unfold ReadsLastHash
  infer_instance

theorem lastHashConn_false (t : Events) :
    lastHashConn false t = HashChain.lastDigest (chain sha256) genesisPrevHash t.rows := rfl

/-- A failed reading goes unnoticed exactly when the last hash is the genesis hash. -/
theorem lastHashConn_eq_iff (readFails : Bool) (t : Events) :
    lastHashConn readFails t = lastHashConn false t ↔
      (readFails = true → lastHashConn false t = genesisPrevHash) := by
  cases readFails with
  | false => simp
  | true =>
    have hread : lastHashConn true t = genesisPrevHash := rfl
    rw [hread, eq_comm]
    simp only [forall_const]

/-- **One append.** On a valid chain, an append is durable exactly when it does not
commit after a failed reading. -/
theorem append_durable_iff (call : AppendCall) {l : Ledger}
    (hvalid : verify sha256 l.events = true) :
    Durable sha256 (Machine.stepOf (append sha256) call l) ↔
      ReadsLastHash (Machine.stepOf (append sha256) call l) := by
  unfold ReadsLastHash
  simp only [Machine.stepOf_input, Machine.stepOf_before]
  rcases append_cases sha256 call l with ⟨haborts, message, hout⟩ | ⟨hcommits, e, hok, hrows, hprev, hhash⟩
  · refine ⟨fun _ _ => Or.inr haborts, fun _ => ⟨Or.inl ⟨message, ?_, ?_⟩, ?_⟩⟩
    · rw [Machine.stepOf_output, hout]
    · rw [Machine.stepOf_after, hout, Machine.stepOf_before]
    · rw [Machine.stepOf_after, hout]
      exact hvalid
  · have hlink : verify sha256 (append sha256 call l).2.events = true ↔
        lastHashConn call.faults.readLastHash l.events = lastHashConn false l.events := by
      rw [verify_iff, hrows, HashChain.valid_concat, ← verify_iff, ← lastHashConn_false]
      constructor
      · rintro ⟨-, hfollows, -⟩
        exact hprev.symm.trans hfollows
      · intro hsame
        exact ⟨hvalid, hprev.trans hsame, hhash⟩
    rw [lastHashConn_eq_iff] at hlink
    constructor
    · intro hdurable hfails
      exact Or.inl (hlink.mp hdurable.valid hfails)
    · intro hreads
      refine ⟨Or.inr ⟨e, hok, hrows⟩, hlink.mpr fun hfails => ?_⟩
      exact (hreads hfails).resolve_right hcommits

/-- **Appends under failing storage.** A sequence of appends to a valid chain is
durable at every step exactly when none of them commits after a failed reading of
the last hash. -/
theorem appends_durable_iff (calls : List AppendCall) {l : Ledger}
    (hvalid : verify sha256 l.events = true) :
    (∀ t ∈ appendRun sha256 calls l, Durable sha256 t) ↔
      ∀ t ∈ appendRun sha256 calls l, ReadsLastHash t :=
  Machine.all_good_iff (fun call _ h => append_durable_iff sha256 call h)
    (fun _ _ _ hgood => hgood.valid) calls hvalid

end

/-! ### A lost last hash -/

/-- SHA-256 on the two texts that the runs below hash. -/
def sha256OfBoots : List UInt8 → List UInt8 :=
  knownDigests
    [(Encoding.utf8 (hashInput 1 "t" "boot" "agent" "p" genesisPrevHash),
      [0x20, 0x47, 0x24, 0x4e, 0x91, 0x7b, 0xe4, 0xbf, 0x5f, 0x41, 0xce, 0x2e, 0xdb, 0x3c, 0x5c,
       0x6c, 0x3a, 0x9f, 0x8a, 0xeb, 0x0e, 0xd9, 0x94, 0x03, 0xd8, 0x4e, 0x5a, 0x2c, 0x5b, 0x98,
       0xfa, 0xd4]),
     (Encoding.utf8 (hashInput 2 "t" "boot" "agent" "p" genesisPrevHash),
      [0xd7, 0x0d, 0x07, 0xed, 0x57, 0x90, 0x36, 0x5e, 0xfd, 0xc5, 0x28, 0x23, 0x85, 0xbb, 0xfd,
       0x5a, 0x0b, 0xe3, 0xf8, 0x85, 0x37, 0x8b, 0xc8, 0x68, 0x86, 0xb7, 0xe6, 0x0f, 0x92, 0x60,
       0x44, 0x51])]

/-- An append of the same event under the given faults. -/
def bootEvent (faults : Faults) : AppendCall := ⟨"boot", "agent", "p", "t", faults⟩

/-- The second append of a new ledger cannot read the hash of the first, and commits
a row that follows the genesis hash. -/
theorem lostLastHash_not_durable :
    verify sha256OfBoots Ledger.new.events = true ∧
      ¬ ∀ t ∈ appendRun sha256OfBoots [bootEvent {}, bootEvent { readLastHash := true }] Ledger.new,
        Durable sha256OfBoots t := by
  refine ⟨rfl, fun h => ?_⟩
  have hvalid := (h _ (List.mem_cons_of_mem _ List.mem_cons_self)).valid
  revert hvalid
  decide +kernel

/-- Failures of every other statement leave the chain as it was. -/
theorem appends_durable_without_lost_hash :
    verify sha256OfBoots Ledger.new.events = true ∧
      ∀ t ∈ appendRun sha256OfBoots [bootEvent {}, bootEvent { insert := true },
        bootEvent { index := true, readLastHash := true }, bootEvent { commit := true }] Ledger.new,
        Durable sha256OfBoots t :=
  ⟨rfl, (appends_durable_iff sha256OfBoots _ rfl).mpr (by decide +kernel)⟩

end OsModa.Agentd
