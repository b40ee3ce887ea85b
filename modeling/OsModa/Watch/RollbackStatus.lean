import OsModa.Watch.Switch

/-!
Whether the status of a session tells what became of its rollback.

The two ways to roll a session back, a request and the loop, log the error of the commands and
then set the same status as if they had succeeded. So the status is true exactly as long as no
rollback fails (`rollback_truthful_iff`); where one fails, the session is over, and the system
is still on the generation that was to be left.
-/

namespace OsModa.Watch

open OsModa.Text OsModa.Machine

/-- GET /switch/status/{id} — check the status of a switch session. -/
def WatchState.switchStatusHandler (st : WatchState) (id : String) : Except Nat SwitchSession :=
  match st.switches.find? id with
  | none => .error 404
  | some s => .ok s

theorem switchStatusHandler_eq_ok {st : WatchState} {id : String} {s : SwitchSession} :
    st.switchStatusHandler id = .ok s ↔ st.switches.find? id = some s := by
  unfold WatchState.switchStatusHandler
  cases st.switches.find? id with
  | none => simp
  | some s' => simp

/-- A step tells the truth about the rollbacks that it runs. -/
structure TellsTruth (u : Unicode) (t : SwitchStep) : Prop where
  /-- A session becomes rolled back only by a rollback that succeeded, -/
  recorded : ∀ id s, t.after.switchStatusHandler id = .ok s → s.status.isRolledBack = true →
    t.before.switchStatusHandler id = .ok s ∨ ∃ g, (id, .ok g) ∈ rollbackRuns t.output
  /-- and a reply says so only then. -/
  replied : ∀ s, .reply (.ok s) ∈ t.output → s.status.isRolledBack = true →
    ∃ g, (s.id, .ok g) ∈ rollbackRuns t.output
  /-- A request whose rollback failed is not told that all is well, -/
  refused : ∀ id e, (id, .error e) ∈ rollbackRuns t.output → ∀ s, .reply (.ok s) ∉ t.output
  /-- and the session can be rolled back again. -/
  again : ∀ id e, (id, .error e) ∈ rollbackRuns t.output → ∀ commands now,
    (t.after.rolledBackBy u (.rollback id commands now)).isSome = true

/-- If the step rolls a session back, the commands run and there is a generation to return to. -/
def RollbackSucceeds (u : Unicode) (t : SwitchStep) : Prop :=
  ∀ s commands, t.before.rolledBackBy u t.input = some (s, commands) →
    commands.Run ∧ ∃ n m, t.before.profile.current = some n ∧ t.before.profile.IsBelow n m

theorem rollbackGeneration_isOk {nix : NixEnv} {c : RollbackCommands} {p : Profile} :
    (∃ g, (rollbackGeneration nix c p).1 = .ok g) ↔
      c.Run ∧ ∃ n m, p.current = some n ∧ p.IsBelow n m := by
  constructor
  · rintro ⟨g, hok⟩
    obtain ⟨hrun, n, m, hcurrent, hbelow, -⟩ := rollbackGeneration_eq_ok.mp hok
    exact ⟨hrun, n, m, hcurrent, hbelow⟩
  · rintro ⟨hrun, n, m, hcurrent, hbelow⟩
    exact ⟨_, rollbackGeneration_eq_ok.mpr ⟨hrun, n, m, hcurrent, hbelow, rfl⟩⟩

section Step

variable {u : Unicode} {nix : NixEnv} {op : SwitchOp} {st : WatchState}

/-- A session that is begun is in probation, whatever had its id before. -/
theorem begin_not_rolledBack {id : String} {body : BeginSwitchRequest} {seen : Profile}
    {now : DateTime} {s : SwitchSession}
    (hfind : (st.switchBeginHandler u id body seen now).2.switches.find? id = some s)
    (hrolled : s.status.isRolledBack = true) : st.switches.find? id = some s := by
  unfold WatchState.switchBeginHandler at hfind
  split at hfind
  · exact hfind
  · obtain rfl := Option.some.inj ((Table.find?_put_self _ _).symm.trans hfind)
    exact absurd hrolled Bool.false_ne_true

/-- When a session has ended, one that is found is it, or was there before. -/
theorem find?_ended_cases {t : Table SwitchSession.id} {s s' : SwitchSession}
    {status : SwitchStatus} {id : String}
    (hfind : (t.put { s' with status := status }).find? id = some s) :
    (s'.id = id ∧ s = { s' with status := status }) ∨ t.find? id = some s := by
  by_cases hid : s'.id = id
  · subst hid
    exact .inl ⟨rfl, Option.some.inj (hfind.symm.trans (Table.find?_put_self _ _))⟩
  · rw [find?_ended_other hid] at hfind
    exact .inr hfind

/-- Only a rollback that is run for a session makes it rolled back. -/
theorem becomes_rolledBack {id : String} {s : SwitchSession}
    (hfind : (switchNext u nix op st).2.switches.find? id = some s)
    (hrolled : s.status.isRolledBack = true) :
    st.switches.find? id = some s ∨ ∃ r, (id, r) ∈ rollbackRuns (switchNext u nix op st).1 := by
  obtain ⟨-, -, hsame⟩ | ⟨-, -, -, -, hends⟩ | ⟨-, hruns, -, -, hends, -⟩ :=
    switchNext_shape u nix st op
  · left
    by_cases hspares : op.Spares id
    · rw [← hsame id hspares]
      exact hfind
    · cases op with
      | begin id' body seen now =>
        obtain rfl := not_not.mp hspares
        exact begin_not_rolledBack hfind hrolled
      | _ => exact absurd trivial hspares
  · rw [hends] at hfind
    obtain ⟨-, rfl⟩ | hbefore := find?_ended_cases hfind
    · exact absurd hrolled Bool.false_ne_true
    · exact .inl hbefore
  · rw [hends] at hfind
    obtain ⟨rfl, -⟩ | hbefore := find?_ended_cases hfind
    · exact .inr ⟨_, by rw [hruns]; exact List.mem_singleton_self _⟩
    · exact .inl hbefore

/-- Only the request that has run the rollback of a session replies that it is rolled back. -/
theorem replies_rolledBack {s : SwitchSession} (hreply : .reply (.ok s) ∈ (switchNext u nix op st).1)
    (hrolled : s.status.isRolledBack = true) :
    ∃ r, (s.id, r) ∈ rollbackRuns (switchNext u nix op st).1 := by
  cases op with
  | begin id body seen now =>
    simp only [switchNext, WatchState.switchBeginHandler] at hreply
    split at hreply
    · simp at hreply
    · simp only [List.mem_singleton, SwitchEffect.reply.injEq, Except.ok.injEq] at hreply
      subst hreply
      exact absurd hrolled Bool.false_ne_true
  | commit id now =>
    simp only [switchNext, WatchState.switchCommitHandler] at hreply
    split at hreply
    · simp at hreply
    · split at hreply
      · simp at hreply
      · simp only [List.mem_singleton, SwitchEffect.reply.injEq, Except.ok.injEq] at hreply
        subst hreply
        exact absurd hrolled Bool.false_ne_true
  | rollback id commands now =>
    simp only [switchNext, WatchState.switchRollbackHandler] at hreply ⊢
    split at hreply
    · simp at hreply
    · rename_i s' hfind
      split at hreply
      · simp at hreply
      · rename_i hactive
        simp only [List.mem_cons, List.not_mem_nil, or_false, reduceCtorEq, false_or,
          SwitchEffect.reply.injEq, Except.ok.injEq] at hreply
        subst hreply
        rw [if_neg hactive]
        exact ⟨_, by rw [Table.key_of_find? hfind]; exact List.mem_singleton_self _⟩
  | probe id p =>
    exfalso
    simp only [switchNext, WatchState.probeSession, WatchState.autoRollback] at hreply
    repeat' split at hreply
    all_goals simp at hreply
  | profileChanges p => simp [switchNext] at hreply

theorem rollbackRuns_of_succeeds (h : RollbackSucceeds u (stepOf (switchNext u nix) op st))
    {id : String} {r : Except String String}
    (hmem : (id, r) ∈ rollbackRuns (switchNext u nix op st).1) : ∃ g, r = .ok g := by
  obtain ⟨-, hruns, -⟩ | ⟨-, hruns, -⟩ | ⟨hrolls, hruns, -⟩ := switchNext_shape u nix st op
  · rw [hruns] at hmem
    exact absurd hmem List.not_mem_nil
  · rw [hruns] at hmem
    exact absurd hmem List.not_mem_nil
  · rw [hruns] at hmem
    obtain ⟨rfl, rfl⟩ := Prod.mk.inj (List.mem_singleton.mp hmem)
    exact rollbackGeneration_isOk.mpr (h _ _ hrolls)

/-- **A step is truthful** about rollbacks exactly when the one that it runs, if any, succeeds. -/
theorem tellsTruth_step_iff (op : SwitchOp) (st : WatchState) :
    TellsTruth u (stepOf (switchNext u nix) op st) ↔
      RollbackSucceeds u (stepOf (switchNext u nix) op st) := by
  constructor
  · intro htruth s commands hrolls
    obtain ⟨hquiet, -⟩ | ⟨hquiet, -⟩ | ⟨hrolls', hruns, hfound, -, hends, -⟩ :=
      switchNext_shape u nix st op
    · exact absurd (hquiet.symm.trans hrolls) (by simp)
    · exact absurd (hquiet.symm.trans hrolls) (by simp)
    · rename_i s' commands' reason at'
      obtain ⟨rfl, rfl⟩ := Prod.mk.inj (Option.some.inj (hrolls'.symm.trans hrolls))
      have hok : ∃ g, (rollbackGeneration nix commands' st.profile).1 = .ok g := by
        cases hresult : (rollbackGeneration nix commands' st.profile).1 with
        | ok g => exact ⟨g, rfl⟩
        | error e =>
          -- The session is rolled back then, and no request finds it in probation.
          have hagain := htruth.again s'.id e
            (by rw [stepOf_output, hruns, hresult]; exact List.mem_singleton_self _)
            ⟨none, none⟩ s'.startedAt
          rw [stepOf_after, WatchState.rolledBackBy, hends, Table.find?_put_self] at hagain
          exact absurd hagain Bool.false_ne_true
      exact rollbackGeneration_isOk.mp hok
  · intro hsucceeds
    have hfails : ∀ id e, (id, .error e) ∉ rollbackRuns (switchNext u nix op st).1 := by
      intro id e hmem
      obtain ⟨g, hg⟩ := rollbackRuns_of_succeeds hsucceeds hmem
      cases hg
    refine ⟨fun id s hfind hrolled => ?_, fun s hreply hrolled => ?_,
      fun id e hmem => absurd hmem (hfails id e), fun id e hmem => absurd hmem (hfails id e)⟩
    · rw [stepOf_before, switchStatusHandler_eq_ok]
      rw [stepOf_after, switchStatusHandler_eq_ok] at hfind
      obtain hbefore | ⟨r, hmem⟩ := becomes_rolledBack hfind hrolled
      · exact .inl hbefore
      · obtain ⟨g, rfl⟩ := rollbackRuns_of_succeeds hsucceeds hmem
        exact .inr ⟨g, hmem⟩
    · obtain ⟨r, hmem⟩ := replies_rolledBack hreply hrolled
      obtain ⟨g, rfl⟩ := rollbackRuns_of_succeeds hsucceeds hmem
      exact ⟨g, hmem⟩

end Step

/-- In every run, the rollbacks are told as they went if and only if every one of them runs its
commands and finds a generation below the active one. -/
theorem rollback_truthful_iff (u : Unicode) (nix : NixEnv) (ops : List SwitchOp) (p : Profile) :
    (∀ t ∈ trace (switchNext u nix) ops (.new p), TellsTruth u t) ↔
      ∀ t ∈ trace (switchNext u nix) ops (.new p), RollbackSucceeds u t :=
  all_good_iff (I := fun _ => True) (fun op st _ => tellsTruth_step_iff op st)
    (fun _ _ _ _ => trivial) ops trivial

/-! A system with one generation: there is none to return to. -/

def firstSwitch : List SwitchOp :=
  [.begin "a" ⟨"upgrade nginx", 600, []⟩ (generationsUpTo 1) midnight]

/-- The request is told that the session is rolled back, which nothing can do any more. -/
theorem rollbackFirst_not_truthful :
    ¬ ∀ u nix ops p, ∀ t ∈ trace (switchNext u nix) ops (.new p), TellsTruth u t := by
  intro h
  have hlast : stepOf (switchNext .ascii plainNix) rollbackFirst
      (final (switchNext .ascii plainNix) firstSwitch (.new (generationsUpTo 1))) ∈
      trace (switchNext .ascii plainNix) (firstSwitch ++ [rollbackFirst])
        (.new (generationsUpTo 1)) := by
    rw [trace_append]
    exact List.mem_append_right _ (List.mem_singleton_self _)
  have houtput : (switchNext .ascii plainNix rollbackFirst
      (final (switchNext .ascii plainNix) firstSwitch (.new (generationsUpTo 1)))).1 =
      [.rollbackRun "a" (.error "rollback failed: no generation older than the current exists"),
        .reply (.ok ⟨"a", "upgrade nginx", 600, [], midnight, generationLink 1,
          .rolledBack "manual rollback" midnight⟩)] := rfl
  have hrefused := (h _ _ _ _ _ hlast).refused
  rw [stepOf_output, houtput] at hrefused
  exact hrefused _ _ (List.mem_singleton_self _) _ (List.mem_cons_of_mem _ List.mem_cons_self)

end OsModa.Watch
