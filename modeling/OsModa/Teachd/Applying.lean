import Mathlib.Logic.Function.Basic
import OsModa.Teachd.Optimizations

/-!
Requests to apply an optimization, in any interleaving.

A request reads under the lock that the optimization is approved, runs the action without the
lock, and then stores how it ended. A second request may read the same approval in between, and
both run the action (`overlapping_executed_twice`). Where no request reads an approval while
another one is on its way with the same optimization, and none is lost after it has run the
action, every approval leads to one execution at most (`executed_at_most_once`).
-/

namespace OsModa.Teachd

open OsModa.Text OsModa.Machine

/-! ### Executions and approvals -/

def ApplyEffect.isExecute : ApplyEffect → Bool
  | execute _ _ => true
  | _ => false

/-- What a run has come to: how often each optimization has been approved, the approval that
each request goes back to, and the executions, each as its optimization and that approval. -/
structure Account where
  approvals : String → Nat
  reads : Nat → Nat
  executions : List (String × Nat)

def Account.start : Account := ⟨fun _ => 0, fun _ => 0, []⟩

def Account.after (a : Account) (t : KnowledgeStep) : Account :=
  match t.input, t.output with
  | .approve id _, .optimization _ =>
    { a with approvals := Function.update a.approvals id (a.approvals id + 1) }
  | .applyRead id _, .reading request =>
    { a with reads := Function.update a.reads request (a.approvals id) }
  | .applyExecute _ _ _, .effects request optId effects =>
    { a with executions := a.executions ++
        (effects.filter (·.isExecute)).map fun _ => (optId, a.reads request) }
  | _, _ => a

def accountOf (run : List KnowledgeStep) : Account := run.foldl Account.after .start

/-- The executions of a run, each with the approval that its request has read. -/
def executionsOf (run : List KnowledgeStep) : List (String × Nat) := (accountOf run).executions

/-- No request reads that an optimization is approved while another one is on its way with it,
and none is lost between the action and the update. -/
def AppliesAlone (t : KnowledgeStep) : Prop :=
  (∀ id now, t.input = .applyRead id now →
    ∀ o ∈ t.before.db.optimizations.find? id, o.status = .approved →
      ∀ r ∈ t.before.requests.rows, r.opt.id ≠ id) ∧
  ∀ request, t.input = .hangUp request →
    ∀ r ∈ t.before.requests.find? request, r.stage = .read

theorem accountOf_concat (run : List KnowledgeStep) (t : KnowledgeStep) :
    accountOf (run ++ [t]) = (accountOf run).after t := by
  rw [accountOf, List.foldl_append]
  rfl

/-- The action is run once, if the switch is begun. -/
theorem executes_executeAndApply (o : Optimization) (switch : Option String) (succeeds : Bool) :
    (executeAndApply o switch succeeds).1.filter (·.isExecute) =
      if switch.isSome then [.execute o.action o.action.command] else [] := by
  cases switch with
  | none => rfl
  | some switchId =>
    simp only [executeAndApply]
    split <;> rfl

/-! ### The invariant -/

/-- The requests on their way are for different optimizations, one that has not acted has an
approval that was not used, and where the approval of an optimization that is still approved was
used, the request that used it is on its way to update it. -/
structure Accounted (a : Account) (s : TeachdState) : Prop where
  once : a.executions.Nodup
  given : ∀ id n, (id, n) ∈ a.executions → n ≤ a.approvals id
  numbered : ∀ r ∈ s.requests.rows, r.request < s.nextRequest
  alone : ∀ r ∈ s.requests.rows, ∀ r' ∈ s.requests.rows, r.opt.id = r'.opt.id → r = r'
  waiting : ∀ r ∈ s.requests.rows, r.stage = .read →
    a.reads r.request ≤ a.approvals r.opt.id ∧ (r.opt.id, a.reads r.request) ∉ a.executions
  held : ∀ o ∈ s.db.optimizations.rows, o.status = .approved →
    (o.id, a.approvals o.id) ∈ a.executions →
      ∃ r ∈ s.requests.rows, r.opt.id = o.id ∧ r.stage ≠ .read

section

variable {a : Account} {s : TeachdState} {u : Unicode}

theorem accounted_start (db : KnowledgeDb) : Accounted .start (.start db) where
  once := List.nodup_nil
  given _ _ h := nomatch h
  numbered _ h := nomatch h
  alone _ h := nomatch h
  waiting _ h := nomatch h
  held _ _ _ h := nomatch h

namespace Accounted

/-- Storing anything that does not approve an optimization. -/
theorem stored (h : Accounted a s) {db : KnowledgeDb}
    (hdb : ∀ o ∈ db.optimizations.rows, o.status = .approved → o ∈ s.db.optimizations.rows) :
    Accounted a { s with db := db } where
  once := h.once
  given := h.given
  numbered := h.numbered
  alone := h.alone
  waiting := h.waiting
  held o ho happroved := h.held o (hdb o ho happroved) happroved

theorem approved (h : Accounted a s) (id : String) :
    Accounted { a with approvals := Function.update a.approvals id (a.approvals id + 1) }
      { s with db := updateOptimizationStatus id .approved none s.db } := by
  have hle : ∀ id', a.approvals id' ≤ Function.update a.approvals id (a.approvals id + 1) id' := by
    intro id'
    rw [Function.update_apply]
    split
    · rename_i heq
      rw [heq]
      exact Nat.le_succ _
    · exact le_rfl
  refine ⟨h.once, fun id' n hn => (h.given id' n hn).trans (hle id'), h.numbered, h.alone,
    fun r hr hread => ⟨(h.waiting r hr hread).1.trans (hle _), (h.waiting r hr hread).2⟩, ?_⟩
  intro o ho happroved hused
  obtain ⟨old, hold, -, -, ⟨hid, -⟩ | ⟨hid, rfl⟩⟩ := mem_updateOptimizationStatus ho
  · -- The new approval has not been used.
    have hgiven := h.given _ _ hused
    dsimp only at hgiven
    rw [hid, Function.update_self] at hgiven
    exact absurd hgiven (Nat.not_succ_le_self _)
  · dsimp only at hused
    rw [Function.update_of_ne hid] at hused
    exact h.held o hold happroved hused

theorem started (h : Accounted a s) {o old : Optimization}
    (hold : s.db.optimizations.find? o.id = some old) (happroved : old.status = .approved)
    (halone : ∀ r ∈ s.requests.rows, r.opt.id ≠ o.id) :
    Accounted { a with reads := Function.update a.reads s.nextRequest (a.approvals o.id) }
      { s with
        requests := s.requests.put ⟨s.nextRequest, o, .read⟩
        nextRequest := s.nextRequest + 1 } := by
  have hunused : (o.id, a.approvals o.id) ∉ a.executions := by
    intro hused
    have hid : old.id = o.id := Table.key_of_find? hold
    rw [← hid] at hused
    obtain ⟨r, hr, hopt, -⟩ := h.held old (List.mem_of_find?_eq_some hold) happroved hused
    exact halone r hr (hopt.trans hid)
  have hreads : ∀ r ∈ s.requests.rows,
      Function.update a.reads s.nextRequest (a.approvals o.id) r.request = a.reads r.request :=
    fun r hr => Function.update_of_ne (h.numbered r hr).ne _ _
  refine ⟨h.once, h.given, ?_, ?_, ?_, ?_⟩
  · intro r hr
    rcases Table.mem_rows_put.mp hr with rfl | ⟨hr, -⟩
    · exact Nat.lt_succ_self _
    · exact (h.numbered r hr).trans (Nat.lt_succ_self _)
  · intro r hr r' hr' hopt
    rcases Table.mem_rows_put.mp hr with rfl | ⟨hr, -⟩
    · rcases Table.mem_rows_put.mp hr' with rfl | ⟨hr', -⟩
      · rfl
      · exact absurd hopt.symm (halone r' hr')
    · rcases Table.mem_rows_put.mp hr' with rfl | ⟨hr', -⟩
      · exact absurd hopt (halone r hr)
      · exact h.alone r hr r' hr' hopt
  · intro r hr hread
    rcases Table.mem_rows_put.mp hr with rfl | ⟨hr, -⟩
    · dsimp only
      rw [Function.update_self]
      exact ⟨le_rfl, hunused⟩
    · dsimp only
      rw [hreads r hr]
      exact h.waiting r hr hread
  · intro o' ho' happroved' hused
    obtain ⟨r, hr, hopt, hstage⟩ := h.held o' ho' happroved' hused
    exact ⟨r, Table.mem_rows_put.mpr (.inr ⟨hr, (h.numbered r hr).ne⟩), hopt, hstage⟩

/-- A request acts, once or not at all. -/
theorem executed (h : Accounted a s) {request : Nat} {o : Optimization}
    (hfind : s.requests.find? request = some ⟨request, o, .read⟩) (result : Option String)
    {done : List (String × Nat)} (hdone : done = [] ∨ done = [(o.id, a.reads request)]) :
    Accounted { a with executions := a.executions ++ done }
      { s with requests := s.requests.put ⟨request, o, .executed result⟩ } := by
  have hmem : ⟨request, o, .read⟩ ∈ s.requests.rows := List.mem_of_find?_eq_some hfind
  obtain ⟨hread, hunused⟩ := h.waiting _ hmem rfl
  have hpairs : ∀ pair ∈ done, pair = (o.id, a.reads request) := by
    rcases hdone with rfl | rfl
    · exact fun pair hpair => nomatch hpair
    · exact fun pair hpair => List.mem_singleton.mp hpair
  refine ⟨?_, ?_, ?_, ?_, ?_, ?_⟩
  · rcases hdone with rfl | rfl
    · rw [List.append_nil]
      exact h.once
    · rw [← List.concat_eq_append]
      exact h.once.concat hunused
  · intro id n hn
    rcases List.mem_append.mp hn with hn | hn
    · exact h.given id n hn
    · obtain ⟨rfl, rfl⟩ := Prod.mk.inj (hpairs _ hn)
      exact hread
  · intro r hr
    rcases Table.mem_rows_put.mp hr with rfl | ⟨hr, -⟩
    · exact h.numbered ⟨request, o, .read⟩ hmem
    · exact h.numbered r hr
  · intro r hr r' hr' hopt
    rcases Table.mem_rows_put.mp hr with rfl | ⟨hr, hne⟩
    · rcases Table.mem_rows_put.mp hr' with rfl | ⟨hr', hne'⟩
      · rfl
      · exact absurd (congrArg ApplyRequest.request (h.alone ⟨request, o, .read⟩ hmem r' hr' hopt)).symm hne'
    · rcases Table.mem_rows_put.mp hr' with rfl | ⟨hr', -⟩
      · have hsame : r = ⟨request, o, .read⟩ := h.alone r hr _ hmem hopt
        exact absurd (congrArg ApplyRequest.request hsame) hne
      · exact h.alone r hr r' hr' hopt
  · intro r hr hstage
    rcases Table.mem_rows_put.mp hr with rfl | ⟨hr, hne⟩
    · cases hstage
    · refine ⟨(h.waiting r hr hstage).1, fun hused => ?_⟩
      rcases List.mem_append.mp hused with hold | hnew
      · exact (h.waiting r hr hstage).2 hold
      · have hopt : r.opt.id = o.id := (Prod.mk.inj (hpairs _ hnew)).1
        have hsame : r = ⟨request, o, .read⟩ := h.alone r hr _ hmem hopt
        exact absurd (congrArg ApplyRequest.request hsame) hne
  · intro o' ho' happroved hused
    have hnew : ⟨request, o, .executed result⟩ ∈ (s.requests.put ⟨request, o, .executed result⟩).rows :=
      Table.mem_rows_put.mpr (.inl rfl)
    rcases List.mem_append.mp hused with hold | hnow
    · obtain ⟨r, hr, hopt, hstage⟩ := h.held o' ho' happroved hold
      by_cases hsame : r.request = request
      · have heq : r = ⟨request, o, .read⟩ := Table.eq_of_key hr hmem hsame
        rw [heq] at hopt
        exact ⟨_, hnew, hopt, ApplyStage.noConfusion⟩
      · exact ⟨r, Table.mem_rows_put.mpr (.inr ⟨hr, hsame⟩), hopt, hstage⟩
    · exact ⟨_, hnew, (Prod.mk.inj (hpairs _ hnow)).1.symm, ApplyStage.noConfusion⟩

/-- A request leaves, if the approval that it may have used is not there any more. -/
theorem left (h : Accounted a s) {request : Nat} {db : KnowledgeDb}
    (hdb : ∀ o ∈ db.optimizations.rows, o.status = .approved → o ∈ s.db.optimizations.rows ∧
      ∀ r ∈ s.requests.find? request, r.stage ≠ .read → r.opt.id ≠ o.id) :
    Accounted a { s with db := db, requests := s.requests.erase request } where
  once := h.once
  given := h.given
  numbered r hr := h.numbered r (Table.mem_rows_erase.mp hr).1
  alone r hr r' hr' := h.alone r (Table.mem_rows_erase.mp hr).1 r' (Table.mem_rows_erase.mp hr').1
  waiting r hr := h.waiting r (Table.mem_rows_erase.mp hr).1
  held o ho happroved hused := by
    obtain ⟨hold, hother⟩ := hdb o ho happroved
    obtain ⟨r, hr, hopt, hstage⟩ := h.held o hold happroved hused
    refine ⟨r, Table.mem_rows_erase.mpr ⟨hr, fun hrequest => ?_⟩, hopt, hstage⟩
    exact hother r (hrequest ▸ Table.mem_rows_iff.mp hr) hstage hopt

end Accounted

theorem accounted_step (h : Accounted a s) (e : KnowledgeEvent)
    (halone : AppliesAlone (stepOf (knowledgeNext u) e s)) :
    Accounted (a.after (stepOf (knowledgeNext u) e s)) (knowledgeNext u e s).2 := by
  cases e with
  | suggest sug =>
    refine h.stored ?_
    intro o ho happroved
    rcases Table.mem_rows_foldl_put ho with hnew | hold
    · rw [(mem_suggestions hnew).2.1] at happroved
      cases happroved
    · exact hold
  | approve id now =>
    simp only [stepOf, knowledgeNext, TeachdState.locked]
    rcases approve_cases id now s.db with ⟨status, message, hsame⟩ | ⟨o, old, -, -, hstored⟩
    · rw [hsame]
      exact h
    · rw [hstored]
      exact h.approved id
  | applyRead id now =>
    have hothers := halone.1 id now rfl
    simp only [stepOf, knowledgeNext]
    rcases applyRead_cases id now s with ⟨status, message, hsame⟩ | ⟨o, old, hold, happroved, rfl, hstored⟩
    · rw [hsame]
      exact h
    · rw [hstored]
      exact h.started hold happroved (hothers old hold happroved)
  | applyExecute request switch succeeds =>
    simp only [stepOf, knowledgeNext]
    rcases applyExecute_cases request switch succeeds s with hsame | ⟨o, hfind, hstored⟩
    · rw [hsame]
      exact h
    · rw [hstored]
      refine h.executed hfind _ ?_
      rw [executes_executeAndApply]
      cases switch with
      | none => exact .inl rfl
      | some switchId => exact .inr rfl
  | applyFinish request =>
    simp only [stepOf, knowledgeNext]
    rcases applyFinish_cases request s with hsame | ⟨o, result, status, reply, hfind, hended, hstored⟩
    · rw [hsame]
      exact h
    · rw [hstored]
      refine h.left ?_
      intro o' ho' happroved
      obtain ⟨old, hold, -, -, ⟨-, hstatus⟩ | ⟨hid, rfl⟩⟩ := mem_updateOptimizationStatus ho'
      · rw [← hstatus, happroved] at hended
        rcases hended with hended | hended
        · cases hended
        · cases hended
      · refine ⟨hold, fun r hr _ hopt => hid ?_⟩
        rw [← hopt, Option.mem_unique hr hfind]
  | hangUp request =>
    refine h.left fun o ho _ => ⟨ho, fun r hr hstage => ?_⟩
    exact absurd (halone.2 request rfl r hr) hstage
  | learn l =>
    have hsame := optimizations_of_not_stores (u := u) (s := s) (e := .learn l) rfl
    exact h.stored fun o ho _ => hsame ▸ ho
  | update id now body =>
    have hsame := optimizations_of_not_stores (u := u) (s := s) (e := .update id now body) rfl
    exact h.stored fun o ho _ => hsame ▸ ho
  | observe | prune | create => exact h.stored fun _ ho _ => ho

end

/-- **One execution for each approval.** In a run of teachd over any database, with any number of
requests in any interleaving, every approval of an optimization leads to one execution of its
action at most, as long as no request reads an approval while another one is on its way with the
same optimization, and none is lost after it has run the action. -/
theorem executed_at_most_once (u : Unicode) (db : KnowledgeDb) (events : List KnowledgeEvent)
    (h : ∀ t ∈ trace (knowledgeNext u) events (.start db), AppliesAlone t) :
    (executionsOf (trace (knowledgeNext u) events (.start db))).Nodup := by
  have haccounted : Accounted (accountOf ([] ++ trace (knowledgeNext u) events (.start db)))
      (final (knowledgeNext u) events (.start db)) :=
    history_invariant_of (R := fun past s => Accounted (accountOf past) s)
      (C := fun _ t => AppliesAlone t)
      (fun e past s hs halone => by
        rw [accountOf_concat]
        exact accounted_step hs e halone)
      events (accounted_start db) fun past t future hsplit =>
        h t (by rw [hsplit]; exact List.mem_append_right _ List.mem_cons_self)
  exact haccounted.once

/-! ### Requests that overlap -/

/-- A request that has read an approval acts on it, whatever has become of the optimization. -/
theorem account_applyExecute (u : Unicode) (a : Account) {s : TeachdState} {request : Nat}
    {o : Optimization} (hfind : s.requests.find? request = some ⟨request, o, .read⟩)
    (switchId : String) (succeeds : Bool) :
    (a.after (stepOf (knowledgeNext u) (.applyExecute request (some switchId) succeeds) s)) =
      { a with executions := a.executions ++ [(o.id, a.reads request)] } := by
  rcases applyExecute_cases request (some switchId) succeeds s with hsame | ⟨o', hfind', hstored⟩
  · simp only [applyExecute, hfind] at hsame
    cases hsame
  · obtain rfl : o' = o := by
      rw [hfind] at hfind'
      exact (congrArg ApplyRequest.opt (Option.some.inj hfind')).symm
    simp only [stepOf, knowledgeNext, hstored, Account.after, executes_executeAndApply]
    rfl

/-- Two requests that have read one approval can both act on it. -/
theorem overlapping_executed_twice (u : Unicode) (a : Account) {s : TeachdState} {r r' : Nat}
    {o o' : Optimization} (hr : s.requests.find? r = some ⟨r, o, .read⟩)
    (hr' : s.requests.find? r' = some ⟨r', o', .read⟩) (hne : r ≠ r') (hid : o.id = o'.id)
    (hsame : a.reads r = a.reads r') (switchId : String) (succeeds : Bool) :
    ¬ ((trace (knowledgeNext u) [.applyExecute r (some switchId) succeeds,
        .applyExecute r' (some switchId) succeeds] s).foldl Account.after a).executions.Nodup := by
  have hstill : (knowledgeNext u (.applyExecute r (some switchId) succeeds) s).2.requests.find? r' =
      some ⟨r', o', .read⟩ := by
    rw [knowledgeNext]
    rcases applyExecute_cases r (some switchId) succeeds s with hidle | ⟨o'', -, hstored⟩
    · rwa [hidle]
    · rw [hstored]
      exact (Table.find?_put_other hne).trans hr'
  simp only [trace_cons, trace_nil, List.foldl_cons, List.foldl_nil, account_applyExecute u _ hr,
    account_applyExecute u _ hstill, hid, hsame]
  intro hnodup
  rw [List.append_assoc] at hnodup
  have hpair := (List.nodup_append.mp hnodup).2.1
  exact (List.nodup_cons.mp hpair).1 (List.mem_singleton.mpr rfl)

def restartNginx : Optimization where
  id := "opt-kd-1"
  knowledgeDocId := "kd-1"
  description := "Restart nginx.service to recover from recurring failures"
  action := .serviceRestart "nginx.service"
  status := .suggested
  switchId := none
  createdAt := firstLook

def restartSuggested : KnowledgeDb := ⟨.empty, .empty, .empty, Table.empty.put restartNginx⟩

/-- The restart is approved and applied by one request. -/
def oneRequest : List KnowledgeStep :=
  trace (knowledgeNext Unicode.ascii)
    [.approve "opt-kd-1" firstLook, .applyRead "opt-kd-1" firstLook,
      .applyExecute 0 (some "switch-1") true, .applyFinish 0] (.start restartSuggested)

/-- A second request reads that the restart is approved before the first has acted. -/
def twoRequests : List KnowledgeStep :=
  trace (knowledgeNext Unicode.ascii)
    [.approve "opt-kd-1" firstLook, .applyRead "opt-kd-1" firstLook,
      .applyRead "opt-kd-1" firstLook, .applyExecute 0 (some "switch-1") true, .applyFinish 0,
      .applyExecute 1 (some "switch-2") true, .applyFinish 1] (.start restartSuggested)

theorem oneRequest_executed_once : (executionsOf oneRequest).Nodup := by
  refine executed_at_most_once Unicode.ascii restartSuggested _ ?_
  intro t ht
  simp only [trace_cons, trace_nil, List.mem_cons, List.not_mem_nil, or_false] at ht
  rcases ht with rfl | rfl | rfl | rfl
  · exact ⟨fun _ _ h => KnowledgeEvent.noConfusion h, fun _ h => KnowledgeEvent.noConfusion h⟩
  · exact ⟨fun _ _ _ _ _ _ _ hr => absurd hr List.not_mem_nil, fun _ h => KnowledgeEvent.noConfusion h⟩
  · exact ⟨fun _ _ h => KnowledgeEvent.noConfusion h, fun _ h => KnowledgeEvent.noConfusion h⟩
  · exact ⟨fun _ _ h => KnowledgeEvent.noConfusion h, fun _ h => KnowledgeEvent.noConfusion h⟩

theorem twoRequests_execute_twice : ¬ (executionsOf twoRequests).Nodup := by
  decide +kernel

end OsModa.Teachd
