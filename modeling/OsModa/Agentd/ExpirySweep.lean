import OsModa.Base.TimeText
import OsModa.Agentd.Lifecycle

/-!
Which approvals a sweep expires.

`expire_stale` compares texts. In the years 0 to 9999 their order is that of the times, and a
request may ask for an expiry after these years, whose text begins with a sign and is smaller
than every text of the present. A sweep is exact if and only if the years of the expiries of
the pending rows have texts in order with the year of the sweep (`expireStale_exact_iff`).
-/

namespace OsModa.Agentd

open OsModa.Text

section Sweep

variable (u : Unicode) {run : List ApprovalStep} {g : ApprovalGate} {now : DateTime}

/-- A request of the run stored the row of an identifier, to expire at a time. -/
def Requested (run : List ApprovalStep) (id : String) (deadline : DateTime) : Prop :=
  ∃ t ∈ run, ∃ row, t.output = .requested (.ok row) ∧ row.id = id ∧ expiry t.input = some deadline

/-- The sweep moves to expired the pending rows that were to expire before its time, and leaves
the others as they are. -/
def SweepExact (run : List ApprovalStep) (g : ApprovalGate) (now : DateTime) : Prop :=
  ∀ id row deadline, g.rows.find? id = some row → Requested run id deadline →
    (g.expireStale now).2.rows.find? id = some (if row.status = .pending ∧ deadline < now then
      ApprovalGate.expireRow row else row)

/-- The rows are those of the requests, with the texts of their expiries. -/
structure Recorded (run : List ApprovalStep) (g : ApprovalGate) : Prop where
  requested : ∀ {id row}, g.rows.find? id = some row → ∃ deadline, Requested run id deadline
  stored : ∀ {id deadline}, Requested run id deadline →
    ∃ row, g.rows.find? id = some row ∧ row.expiresAt = deadline.toRfc3339

theorem requested_append {t : ApprovalStep} {id : String} {deadline : DateTime} :
    Requested (run ++ [t]) id deadline ↔ Requested run id deadline ∨
      ∃ row, t.output = .requested (.ok row) ∧ row.id = id ∧ expiry t.input = some deadline := by
  unfold Requested
  constructor
  · rintro ⟨s, hs, hrow⟩
    rcases List.mem_append.mp hs with hs | hs
    · exact .inl ⟨s, hs, hrow⟩
    · exact .inr (List.mem_singleton.mp hs ▸ hrow)
  · rintro (⟨s, hs, hrow⟩ | hrow)
    · exact ⟨s, List.mem_append_left _ hs, hrow⟩
    · exact ⟨t, List.mem_append_right _ (List.mem_singleton_self t), hrow⟩

/-- What a request that succeeds stores. -/
theorem expiry_of_requested {call : ApprovalCall} {row : PendingApproval}
    (h : (g.apply u call).1 = .requested (.ok row)) :
    g.rows.find? row.id = none ∧ ∃ deadline, expiry call = some deadline ∧
      row.expiresAt = deadline.toRfc3339 := by
  unfold ApprovalGate.apply at h
  cases hop : call.op with
  | requestApproval id command actor reason ttlSecs =>
    simp only [hop, reply_fst, ApprovalReply.requested.injEq] at h
    obtain ⟨-, hnew, hfree, -, -⟩ := ApprovalGate.requestApproval_of_ok h
    obtain ⟨deadline, hdeadline, rfl⟩ := Option.map_eq_some_iff.mp hnew
    refine ⟨hfree, deadline, ?_, rfl⟩
    unfold expiry
    rw [hop]
    exact hdeadline
  | _ => simp [hop] at h

/-- One call keeps the record. -/
theorem recorded_step (call : ApprovalCall) (run : List ApprovalStep) (g : ApprovalGate)
    (h : Recorded run g) :
    Recorded (run ++ [Machine.stepOf (ApprovalGate.apply u) call g]) (g.apply u call).2 where
  requested {id row} hrow := by
    simp only [requested_append]
    cases hfind : g.rows.find? id with
    | some old =>
      obtain ⟨deadline, hdeadline⟩ := h.requested hfind
      exact ⟨deadline, .inl hdeadline⟩
    | none =>
      have hreq := find?_apply_of_none u hfind hrow
      obtain ⟨-, deadline, hdeadline, -⟩ := expiry_of_requested u hreq
      exact ⟨deadline, .inr ⟨row, hreq, Table.key_of_find? hrow, hdeadline⟩⟩
  stored {id deadline} hreq := by
    rcases requested_append.mp hreq with hreq | ⟨row, hok, rfl, hdeadline⟩
    · obtain ⟨row, hrow, htext⟩ := h.stored hreq
      refine ⟨_, find?_apply_of_some u hrow, ?_⟩
      split
      · rw [settle_expiresAt, htext]
      · exact htext
    · obtain ⟨-, deadline', hdeadline', htext⟩ := expiry_of_requested u hok
      obtain ⟨-, -, -, hrow⟩ := apply_requested u hok
      obtain rfl := Option.some.inj (hdeadline'.symm.trans hdeadline)
      exact ⟨row, hrow, htext⟩

theorem recorded_final (extraPatterns : List String) (calls : List ApprovalCall) :
    Recorded (approvalRun u extraPatterns calls)
      (Machine.final (ApprovalGate.apply u) calls (.new extraPatterns)) := by
  refine Machine.history_invariant (recorded_step u) calls (h := []) ⟨?_, ?_⟩
  · intro id row hrow
    cases hrow
  · rintro id deadline ⟨t, ht, -⟩
    cases ht

/-- A sweep of recorded rows. -/
theorem sweepExact_iff (h : Recorded run g) (hp : g.poisoned = false) :
    SweepExact run g now ↔ ∀ id row deadline, g.rows.find? id = some row →
      row.status = .pending → Requested run id deadline →
        DateTime.TextsInOrder deadline now := by
  unfold SweepExact
  refine forall_congr' fun id => forall_congr' fun row => forall_congr' fun deadline =>
    forall_congr' fun hrow => ?_
  rw [forall_comm]
  refine forall_congr' fun hreq => ?_
  obtain ⟨stored, hstored, htext⟩ := h.stored hreq
  obtain rfl := Option.some.inj (hstored.symm.trans hrow)
  rw [ApprovalGate.find?_expireStale hp, hrow, Option.map_some, Option.some_inj,
    ← DateTime.toRfc3339_lt_iff_lt, ApprovalGate.isStale, htext]
  by_cases hpend : stored.status = .pending
  · have hmoved : ApprovalGate.expireRow stored ≠ stored := by
      intro heq
      have hstatus := congrArg PendingApproval.status heq
      rw [hpend] at hstatus
      cases hstatus
    by_cases htexts : deadline.toRfc3339 < now.toRfc3339 <;>
      by_cases htimes : deadline < now <;> simp [hpend, htexts, htimes, hmoved, hmoved.symm]
  · simp [hpend]

/-- **Sweeps are exact as far as the texts are in order.** After any run whose requests all had
a time to live that was accepted, every row has the expiry it was requested with, and a sweep
takes exactly the pending rows that were to expire before it if and only if each pending row's
expiry and the sweep are in one year, or in years with texts in the order of the years. For a
sweep in the years 0 to 9999 that is no expiry after the year 9999. -/
theorem expireStale_exact_iff (extraPatterns : List String) (calls : List ApprovalCall)
    (now : DateTime) (accepted : calls.any poisons = false) :
    let g := Machine.final (ApprovalGate.apply u) calls (.new extraPatterns)
    let run := approvalRun u extraPatterns calls
    (∀ id row, g.rows.find? id = some row → ∃ deadline, Requested run id deadline) ∧
      (SweepExact run g now ↔ ∀ id row deadline, g.rows.find? id = some row →
        row.status = .pending → Requested run id deadline →
          DateTime.TextsInOrder deadline now) ∧
      (now.isReadable = true →
        (SweepExact run g now ↔ ∀ id row deadline, g.rows.find? id = some row →
          row.status = .pending → Requested run id deadline → deadline.year ≤ 9999)) := by
  intro g run
  have hrecorded : Recorded run g := recorded_final u extraPatterns calls
  have hpoisoned : g.poisoned = false := by
    rw [final_poisoned, accepted]
    rfl
  refine ⟨fun id row hrow => hrecorded.requested hrow, sweepExact_iff hrecorded hpoisoned, ?_⟩
  intro hreadable
  rw [sweepExact_iff hrecorded hpoisoned]
  simp only [DateTime.textsInOrder_iff hreadable]

end Sweep

/-- An approval that is asked for on 1 January 2026, with a time to live or without. -/
def newYearRequest (ttlSecs : Option Int64) : ApprovalCall :=
  ⟨⟨1767225600 * 1000000000, by decide⟩, .requestApproval "a" "reboot" "agent" "update" ttlSecs⟩

/-- The second after that request. -/
def nextSecond : DateTime := ⟨1767225601 * 1000000000, by decide⟩

/-- Ten minutes end in the same year. -/
theorem newYearRequest_sweepExact :
    SweepExact (approvalRun Unicode.ascii [] [newYearRequest none])
      (Machine.final (ApprovalGate.apply Unicode.ascii) [newYearRequest none] (.new []))
      nextSecond := by
  have haccepted : [newYearRequest none].any poisons = false := by decide
  have hreadable : nextSecond.isReadable = true := by decide
  refine ((expireStale_exact_iff Unicode.ascii [] _ nextSecond haccepted).2.2 hreadable).mpr ?_
  rintro id row deadline - - ⟨t, ht, -, -, -, hdeadline⟩
  obtain rfl := List.mem_singleton.mp ht
  have hexpiry : expiry (newYearRequest none) = some ⟨1767226200 * 1000000000, by decide⟩ := by
    decide
  obtain rfl := Option.some.inj (hexpiry.symm.trans hdeadline)
  decide

/-- The row of a request for 8000 years. -/
def longRow : PendingApproval where
  id := "a"
  command := "reboot"
  actor := "agent"
  reason := "update"
  createdAt := "2026-01-01T00:00:00+00:00"
  expiresAt := "+10026-01-01T00:00:00+00:00"
  status := .pending
  decidedAt := none
  decidedBy := none

/-- An approval for 8000 years is expired by a sweep a second later. -/
theorem longRequest_not_sweepExact :
    ¬ ∀ (u : Unicode) (extraPatterns : List String) (calls : List ApprovalCall) (now : DateTime),
      calls.any poisons = false →
        SweepExact (approvalRun u extraPatterns calls)
          (Machine.final (ApprovalGate.apply u) calls (.new extraPatterns)) now := by
  intro h
  have haccepted : [newYearRequest (some 252455616000)].any poisons = false := by decide
  have hrow : (Machine.final (ApprovalGate.apply Unicode.ascii)
      [newYearRequest (some 252455616000)] (.new [])).rows.find? "a" = some longRow := by decide
  have hsweep := h Unicode.ascii [] _ nextSecond haccepted "a" longRow
    ⟨254222841600 * 1000000000, by decide⟩ hrow ⟨_, List.mem_singleton_self _, longRow, by decide⟩
  revert hsweep
  decide

end OsModa.Agentd
