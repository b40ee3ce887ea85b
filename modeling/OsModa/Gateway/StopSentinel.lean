import Mathlib.Data.List.DropRight
import OsModa.Gateway.LoopBound

/-!
The stop sentinel of a loop: the line that its agent is to reply with when the goal is achieved.

A loop keeps the trimmed sentinel in upper case, and its prompts ask for that line. A turn ends
the loop when a line of the answer is the sentinel up to case and the blanks around it. A blank
sentinel is met by every blank line and a sentinel of several lines by no line at all; every
other one is met by the answers that it should be (`stopSentinel_exact_iff`).
-/

namespace OsModa.Gateway

open OsModa.Js OsModa.Machine LoopManager

/-- Case conversions, with what holds of upper case in every version of Unicode. -/
structure SentinelTables extends CaseTables where
  toUpperCase_toUpperCase : ∀ s, toUpperCase (toUpperCase s) = toUpperCase s
  trim_toUpperCase : ∀ s, trim (toUpperCase (trim s)) = toUpperCase (trim s)
  newline_mem_toUpperCase : ∀ s, 10 ∈ toUpperCase s ↔ 10 ∈ s
  toUpperCase_eq_nil : ∀ s, toUpperCase s = [] → s = []

/-- A small letter is moved, and nothing else. -/
theorem toNat_upperUnit (a : UInt16) :
    (97 ≤ a.toNat ∧ a.toNat ≤ 122 ∧ (upperUnit a).toNat = a.toNat - 32) ∨
      (a.toNat < 97 ∨ 122 < a.toNat) ∧ upperUnit a = a := by
  unfold upperUnit
  simp only [UInt16.le_iff_toNat_le, UInt16.reduceToNat]
  split
  · rename_i h
    have hle : (32 : UInt16) ≤ a := UInt16.le_iff_toNat_le.mpr (Nat.le_trans (by decide) h.1)
    exact .inl ⟨h.1, h.2, UInt16.toNat_sub_of_le a 32 hle⟩
  · exact .inr ⟨by omega, rfl⟩

theorem upperUnit_upperUnit (a : UInt16) : upperUnit (upperUnit a) = upperUnit a := by
  rcases toNat_upperUnit (upperUnit a) with ⟨hlo, hhi, -⟩ | ⟨-, hsame⟩
  · rcases toNat_upperUnit a with ⟨_, _, h⟩ | ⟨_, h⟩
    · omega
    · rw [h] at hlo hhi
      omega
  · exact hsame

theorem isSpace_eq_false {a : UInt16} (h : 65 ≤ a.toNat ∧ a.toNat ≤ 122) : isSpace a = false := by
  unfold isSpace
  simp only [Bool.or_eq_false_iff, Bool.and_eq_false_iff, decide_eq_false_iff_not,
    UInt16.le_iff_toNat_le, ← UInt16.toNat_inj, UInt16.reduceToNat]
  omega

theorem isSpace_upperUnit (a : UInt16) : isSpace (upperUnit a) = isSpace a := by
  rcases toNat_upperUnit a with ⟨hlo, hhi, h⟩ | ⟨-, h⟩
  · rw [isSpace_eq_false (by omega), isSpace_eq_false (by omega)]
  · rw [h]

theorem trim_trim (s : JsString) : trim (trim s) = trim s := by
  have hfront : (trim s).dropWhile isSpace = trim s := by
    have hprefix : trim s <+: s.dropWhile isSpace := List.rdropWhile_prefix isSpace _
    cases htrim : trim s with
    | nil => rfl
    | cons a t =>
      rw [htrim] at hprefix
      obtain ⟨rest, hrest⟩ := hprefix
      have ha : isSpace a = false := by
        have hhead := List.head?_dropWhile_not isSpace s
        rw [← hrest] at hhead
        simpa using hhead
      rw [List.dropWhile_cons_of_neg (by simp [ha])]
  have hback : (trim s).rdropWhile isSpace = trim s := List.rdropWhile_idempotent isSpace _
  change ((trim s).dropWhile isSpace).rdropWhile isSpace = trim s
  rw [hfront, hback]

theorem mem_of_mem_trim {s : JsString} {a : UInt16} (h : a ∈ trim s) : a ∈ s :=
  (List.dropWhile_sublist isSpace).subset ((List.rdropWhile_prefix isSpace _).subset h)

/-- What keeps the blanks is trimmed like the text itself. -/
theorem trim_map {f : UInt16 → UInt16} (hf : ∀ a, isSpace (f a) = isSpace a) (s : JsString) :
    trim (s.map f) = (trim s).map f := by
  have hspace : isSpace ∘ f = isSpace := funext hf
  unfold trim
  rw [List.dropWhile_map, hspace, ← List.map_reverse, List.dropWhile_map, hspace,
    ← List.map_reverse]

/-- The conversions that know only ASCII. -/
def SentinelTables.ascii : SentinelTables where
  toCaseTables := .ascii
  toUpperCase_toUpperCase s := by
    change (s.map upperUnit).map upperUnit = s.map upperUnit
    rw [List.map_map]
    exact List.map_congr_left fun a _ => upperUnit_upperUnit a
  trim_toUpperCase s := by
    change trim ((trim s).map upperUnit) = (trim s).map upperUnit
    rw [trim_map isSpace_upperUnit, trim_trim]
  newline_mem_toUpperCase s := by
    change 10 ∈ s.map upperUnit ↔ 10 ∈ s
    rw [List.mem_map]
    constructor
    · rintro ⟨a, ha, h⟩
      rcases toNat_upperUnit a with ⟨hlo, hhi, hmoved⟩ | ⟨-, hsame⟩
      · rw [h] at hmoved
        have hten : (10 : UInt16).toNat = 10 := rfl
        omega
      · rw [hsame] at h
        exact h ▸ ha
    · intro h
      exact ⟨10, h, rfl⟩
  toUpperCase_eq_nil s h := List.map_eq_nil_iff.mp h

/-! ### What is asked for -/

/-- The sentinel that a request stands for. -/
def requestedSentinel (requested : Option JsString) : JsString :=
  (requested.filter (· ≠ [])).getD (utf16 "GOAL_COMPLETE")

/-- The line that the prompts of the loop ask for. -/
def askedLine (tables : CaseTables) (requested : Option JsString) : JsString :=
  tables.toUpperCase (trim (requestedSentinel requested))

/-- The texts are equal up to the blanks around them and the case of letters. -/
def SameLine (tables : CaseTables) (s t : JsString) : Prop :=
  tables.toUpperCase (trim s) = tables.toUpperCase (trim t)

namespace LoopManager

/-- The loop has ended with its goal met. -/
def GoalMet (m : LoopManager) (id : String) : Prop :=
  ∃ loop, m.loops.find? id = some loop ∧ loop.status = .completed ∧
    loop.finishedReason = some "goal_met"

variable {m : LoopManager} {loop : Loop} {id : String} {w : World} {tables : CaseTables}

theorem goalMet_iff_of_find? (loop : Loop) (h : m.loops.find? id = some loop) :
    m.GoalMet id ↔ loop.status = .completed ∧ loop.finishedReason = some "goal_met" := by
  unfold GoalMet
  rw [h]
  exact ⟨fun ⟨_, heq, hmet⟩ => Option.some.inj heq ▸ hmet, fun hmet => ⟨loop, rfl, hmet⟩⟩

/-- A turn ends a running loop with its goal met if it does not fail and a line of its answer
is the sentinel. -/
theorem goalMet_afterTurn (hrunning : loop.status = .running) (agent : AgentProfile)
    (result : TurnResult) : (m.afterTurn tables loop agent result w).2.GoalMet loop.id ↔
      ¬ result.Failed ∧ sentinelHit tables result.text loop.stopSentinel = true := by
  have hout := afterTurn_outcome m loop w tables agent result
  generalize m.afterTurn tables loop agent result w = out at hout ⊢
  cases hout with
  | gaveUp hfailed herrors =>
    refine iff_of_false ?_ fun h => h.1 hfailed
    rw [pause_failedLoop, goalMet_iff_of_find? (pausedLoop (failedLoop loop result w) _ w)]
    · exact fun h => by cases h.1
    · rw [withdraw_loops, setLoop_loops, find?_put_put _ _ _ (pausedLoop_id ..), failedLoop_id,
        if_pos rfl]
  | failed hfailed herrors =>
    refine iff_of_false ?_ fun h => h.1 hfailed
    rw [goalMet_iff_of_find? (failedLoop loop result w), failedLoop_status, hrunning]
    · exact fun h => by cases h.1
    · rw [reschedule_loops, persist_loops, setLoop_loops, Table.find?_put, failedLoop_id, if_pos rfl]
  | goalMet hok hhit =>
    refine iff_of_true ?_ ⟨hok, hhit⟩
    rw [goalMet_iff_of_find? (finishedLoop (advancedLoop loop result w) "goal_met" w)]
    · simp only [finishedLoop, Loop.pushHistory, and_self]
    · rw [finish_loops, setLoop_loops, find?_put_put _ _ _ (finishedLoop_id ..), advancedLoop_id,
        if_pos rfl]
  | exhausted hok hmiss hmax =>
    refine iff_of_false ?_ fun h => Bool.false_ne_true (hmiss.symm.trans h.2)
    rw [goalMet_iff_of_find? (finishedLoop (advancedLoop loop result w) "max_iterations" w)]
    · simp [finishedLoop, Loop.pushHistory]
    · rw [finish_loops, setLoop_loops, find?_put_put _ _ _ (finishedLoop_id ..), advancedLoop_id,
        if_pos rfl]
  | advanced hok hmiss hmore =>
    refine iff_of_false ?_ fun h => Bool.false_ne_true (hmiss.symm.trans h.2)
    rw [goalMet_iff_of_find? (advancedLoop loop result w), advancedLoop_status, hrunning]
    · exact fun h => by cases h.1
    · rw [reschedule_loops, persist_loops, setLoop_loops, Table.find?_put, advancedLoop_id,
        if_pos rfl]

/-! ### Where sentinels come from -/

/-- The sentinels of the loops, in memory and in the file. -/
structure SentinelsAre (p : JsString → Prop) (m : LoopManager) : Prop where
  loops : ∀ {k loop}, m.loops.find? k = some loop → p loop.stopSentinel
  file : ∀ {k loop}, m.file.find? k = some loop → p loop.stopSentinel

variable {p : JsString → Prop} {m' : LoopManager}

theorem SentinelsAre.of_eq (h : m.SentinelsAre p) (hloops : m'.loops = m.loops)
    (hfile : m'.file = m.file) : m'.SentinelsAre p where
  loops hfind := h.loops (hloops ▸ hfind)
  file hfind := h.file (hfile ▸ hfind)

theorem SentinelsAre.setLoop (h : m.SentinelsAre p) (hloop : p loop.stopSentinel) :
    (m.setLoop loop).SentinelsAre p where
  loops hfind := by
    rw [setLoop_loops, Table.find?_put] at hfind
    split at hfind
    · exact Option.some.inj hfind ▸ hloop
    · exact h.loops hfind
  file hfind := h.file hfind

theorem SentinelsAre.persist (h : m.SentinelsAre p) : (m.persist w).SentinelsAre p where
  loops hfind := h.loops (persist_loops m w ▸ hfind)
  file hfind := by
    rw [persist_file] at hfind
    split at hfind
    · exact h.loops hfind
    · exact h.file hfind

theorem SentinelsAre.clearTimer (h : m.SentinelsAre p) : (m.clearTimer id).SentinelsAre p :=
  h.of_eq (clearTimer_loops m id) (clearTimer_file m id)

theorem SentinelsAre.reschedule (h : m.SentinelsAre p) : (m.reschedule id).SentinelsAre p :=
  h.of_eq (reschedule_loops m id) (reschedule_file m id)

theorem SentinelsAre.withdraw (h : m.SentinelsAre p) (hloop : p loop.stopSentinel) :
    (m.withdraw loop w).2.SentinelsAre p :=
  (h.clearTimer.setLoop hloop).persist

theorem finishedLoop_stopSentinel (reason : String) :
    (finishedLoop loop reason w).stopSentinel = loop.stopSentinel := by
  simp only [finishedLoop, Loop.pushHistory]

theorem skippedLoop_stopSentinel (deps : TickDeps) :
    (skippedLoop loop deps w).stopSentinel = loop.stopSentinel := by
  simp only [skippedLoop, Loop.pushHistory]

theorem failedLoop_stopSentinel (result : TurnResult) :
    (failedLoop loop result w).stopSentinel = loop.stopSentinel := by
  simp only [failedLoop, Loop.pushHistory]

theorem advancedLoop_stopSentinel (result : TurnResult) :
    (advancedLoop loop result w).stopSentinel = loop.stopSentinel := by
  simp only [advancedLoop, Loop.pushHistory]

theorem SentinelsAre.finish (h : m.SentinelsAre p) (hloop : p loop.stopSentinel) (reason : String) :
    (m.finish loop reason w).SentinelsAre p := by
  rw [finish_eq]
  refine (h.clearTimer.setLoop ?_).persist
  rwa [finishedLoop_stopSentinel]

theorem SentinelsAre.pause (h : m.SentinelsAre p) (reason : String) :
    (m.pause id reason w).2.SentinelsAre p := by
  rcases m.pause_cases id w reason with hpause | ⟨loop, -, hfind, hpause⟩ <;> rw [hpause]
  · exact h
  · have hloop := h.loops hfind
    exact h.withdraw hloop

theorem SentinelsAre.tick (h : m.SentinelsAre p) (deps : TickDeps) :
    (m.tick id deps w).2.SentinelsAre p := by
  have hstarted : (m.tickStarted id).SentinelsAre p := h.of_eq rfl rfl
  have hout := tick_outcome m id w deps
  generalize m.tick id deps w = out at hout ⊢
  cases hout with
  | idle hidle => exact h
  | exhausted loop hfind hrunning hmax => exact hstarted.finish (h.loops hfind) _
  | withdrawn loop hfind hrunning reason => exact hstarted.pause reason
  | skipped loop hfind hrunning =>
    refine (hstarted.setLoop ?_).persist.reschedule
    rw [skippedLoop_stopSentinel]
    exact h.loops hfind
  | launched loop hfind hrunning hiteration agent hagent hallowed hcredential hdriver =>
    have hloop := h.loops hfind
    have hlaunched : (m.tickStarted id |>.setLoop { loop with blocked := none }).SentinelsAre p :=
      hstarted.setLoop hloop
    exact hlaunched.of_eq rfl rfl

theorem SentinelsAre.afterTurn (h : m.SentinelsAre p) (hloop : p loop.stopSentinel)
    (agent : AgentProfile) (result : TurnResult) :
    (m.afterTurn tables loop agent result w).2.SentinelsAre p := by
  have hfailed' : (m.setLoop (failedLoop loop result w)).SentinelsAre p := by
    refine h.setLoop ?_
    rwa [failedLoop_stopSentinel]
  have hnext : p (advancedLoop loop result w).stopSentinel := by
    rwa [advancedLoop_stopSentinel]
  have hadvanced := h.setLoop hnext
  have hout := afterTurn_outcome m loop w tables agent result
  generalize m.afterTurn tables loop agent result w = out at hout ⊢
  cases hout with
  | gaveUp hfailed herrors => exact hfailed'.pause _
  | failed hfailed herrors => exact hfailed'.persist.reschedule
  | goalMet hok hhit => exact hadvanced.finish hnext _
  | exhausted hok hmiss hmax => exact hadvanced.finish hnext _
  | advanced hok hmiss hmore => exact hadvanced.persist.reschedule

/-- A step stores sentinels that are there already, or that of the loop that it creates. -/
theorem SentinelsAre.step (h : m.SentinelsAre p) (maxLoops : Nat) (op : LoopOp)
    (hcreate : ∀ input agent w, op = .create input agent w →
      p (askedLine tables input.stopSentinel)) :
    (loopStep tables maxLoops op m).2.SentinelsAre p := by
  cases op with
  | create input agent w =>
    have hout := create_outcome m w tables maxLoops input agent
    change (m.create tables maxLoops input agent w).2.SentinelsAre p
    generalize m.create tables maxLoops input agent w = out at hout ⊢
    cases hout with
    | rejected message => exact h
    | created agent interval maxIter hroom hmaxIter =>
      have hcounted : { m with seq := m.seq + 1 }.SentinelsAre p := h.of_eq rfl rfl
      have hnew : p (newLoop tables (mkId (m.seq + 1) w.now) input interval maxIter w).stopSentinel :=
        hcreate input _ w rfl
      exact (hcounted.setLoop hnew).persist.of_eq rfl rfl
  | stop id w =>
    change (m.stop id w).2.SentinelsAre p
    rcases m.stop_cases id w with hstop | ⟨loop, -, hfind, hstop⟩ <;> rw [hstop]
    · exact h
    · have hloop := h.loops hfind
      exact h.withdraw hloop
  | pause id w => exact h.pause "paused"
  | resume id w =>
    change (m.resume id w).2.SentinelsAre p
    rcases m.resume_cases id w with hresume | ⟨loop, -, hfind, -, hresume⟩ <;> rw [hresume]
    · exact h
    · have hloop := h.loops hfind
      have hresumed : (m.setLoop (resumedLoop loop w)).SentinelsAre p := h.setLoop hloop
      exact hresumed.persist.reschedule
  | resumeAll => exact h.of_eq (resumeAll_loops m) (resumeAll_file m)
  | fire handle deps w =>
    change (m.fire handle deps w).2.SentinelsAre p
    rcases m.fire_cases handle deps w with hfire | ⟨timer, -, -, hfire⟩ <;> rw [hfire]
    · exact h
    · have hfired : { m with pending := m.pending.filter (·.handle ≠ handle) }.SentinelsAre p :=
        h.of_eq rfl rfl
      exact hfired.tick deps
  | turnEnds controller stream w =>
    have hout := turnEnds_outcome m w tables controller stream
    change (m.turnEnds tables controller stream w).2.SentinelsAre p
    generalize m.turnEnds tables controller stream w = out at hout ⊢
    cases hout with
    | unknown hnone => exact h
    | orphaned flight hflight hclosed => exact h.of_eq rfl rfl
    | ended flight hflight loop hid hfind hrunning =>
      have hlanded : (m.landed flight).SentinelsAre p := h.of_eq rfl rfl
      exact hlanded.afterTurn (h.loops hfind) _ _
  | restart =>
    change m.restart.SentinelsAre p
    refine ⟨fun hfind => ?_, fun hfind => h.file (restart_file m ▸ hfind)⟩
    rw [find?_restart] at hfind
    obtain ⟨loop, hloop, rfl⟩ := Option.map_eq_some_iff.mp hfind
    have hkept := h.file hloop
    exact hkept

end LoopManager

/-! ### Answers -/

section Answers

variable {tables : SentinelTables} {requested : Option JsString} {text line : JsString}

theorem askedLine_eq_nil_iff :
    askedLine tables.toCaseTables requested = [] ↔ trim (requestedSentinel requested) = [] := by
  refine ⟨tables.toUpperCase_eq_nil _, fun h => ?_⟩
  rw [askedLine, h, tables.toUpperCase_ascii [] (by simp)]
  rfl

theorem newline_mem_askedLine_iff : 10 ∈ askedLine tables.toCaseTables requested ↔
    10 ∈ trim (requestedSentinel requested) :=
  tables.newline_mem_toUpperCase _

/-- The answer has a line that is the sentinel. -/
theorem sentinelHit_iff : sentinelHit tables.toCaseTables text
      (askedLine tables.toCaseTables requested) = true ↔
    ∃ line ∈ lines text, SameLine tables.toCaseTables line (requestedSentinel requested) := by
  unfold sentinelHit SameLine askedLine
  rw [List.any_eq_true]
  simp only [decide_eq_true_eq]

/-- No blank line is a sentinel that is not blank. -/
theorem not_sameLine_of_blank (hblank : trim line = [])
    (hne : trim (requestedSentinel requested) ≠ []) :
    ¬ SameLine tables.toCaseTables line (requestedSentinel requested) := by
  intro h
  have hasked : askedLine tables.toCaseTables requested = [] → _ := askedLine_eq_nil_iff.mp
  refine hne (hasked ?_)
  rw [askedLine, ← h, hblank, tables.toUpperCase_ascii [] (by simp)]
  rfl

/-- A sentinel of one line is met by the answer that repeats it. -/
theorem sameLine_askedLine : SameLine tables.toCaseTables (askedLine tables.toCaseTables requested)
    (requestedSentinel requested) := by
  unfold SameLine askedLine
  rw [tables.trim_toUpperCase, tables.toUpperCase_toUpperCase]

theorem mem_lines_askedLine (h : 10 ∉ trim (requestedSentinel requested)) :
    askedLine tables.toCaseTables requested ∈ lines (askedLine tables.toCaseTables requested) := by
  rw [lines_of_notMem (mt newline_mem_askedLine_iff.mp h)]
  exact List.mem_singleton_self _

/-- No line is a sentinel of several lines. -/
theorem not_sameLine_of_newline (hline : line ∈ lines text)
    (h : 10 ∈ trim (requestedSentinel requested)) :
    ¬ SameLine tables.toCaseTables line (requestedSentinel requested) := by
  intro hsame
  refine newline_notMem_line hline ?_
  have hnewline : 10 ∈ tables.toUpperCase (trim line) :=
    hsame ▸ newline_mem_askedLine_iff.mpr h
  exact mem_of_mem_trim ((tables.newline_mem_toUpperCase _).mp hnewline)

/-- Text is output. -/
theorem absorb_text (r : TurnResult) (e : AgentEvent) (h : r.hadOutput = false → r.text = []) :
    (r.absorb e).hadOutput = false → (r.absorb e).text = [] := by
  cases e with
  | text t =>
    by_cases ht : t = []
    · simpa [TurnResult.absorb, ht] using h
    · simp [TurnResult.absorb, ht]
  | textBulk t =>
    by_cases ht : t = []
    · simpa [TurnResult.absorb, ht] using h
    · simp [TurnResult.absorb, ht]
  | session s =>
    by_cases hs : s = []
    · simpa [TurnResult.absorb, hs] using h
    · simpa [TurnResult.absorb, hs] using h
  | interimText t => simp [TurnResult.absorb]
  | toolUse name input id => simp [TurnResult.absorb]
  | _ => exact h

/-- A failed turn has no answer. -/
theorem text_of_failed {sessionId : Option JsString} {stream : DriverStream}
    (h : (runAgentTurn sessionId stream).Failed) : (runAgentTurn sessionId stream).text = [] := by
  have hfold : ∀ (events : List AgentEvent) (r : TurnResult),
      (r.hadOutput = false → r.text = []) →
        (events.foldl TurnResult.absorb r).hadOutput = false →
          (events.foldl TurnResult.absorb r).text = [] := by
    intro events
    induction events with
    | nil => exact fun r hr => hr
    | cons e events ih => exact fun r hr => ih (r.absorb e) (absorb_text r e hr)
  exact hfold stream.events (.start sessionId) (fun _ => rfl) h.2

end Answers

/-! ### Runs -/

/-- The manager after a run from nothing. -/
def loopsAfter (tables : CaseTables) (maxLoops : Nat) (ops : List LoopOp) : LoopManager :=
  final (loopStep tables maxLoops) ops (.boot .empty)

/-- Whenever the turn of a running loop with that sentinel ends: the loop ends with its goal met
if and only if a line of the answer is the requested sentinel up to blanks around it and case;
it does if the answer is the line that was asked for, and does not if every line is blank. -/
def SentinelExact (tables : CaseTables) (requested : Option JsString) : Prop :=
  ∀ (maxLoops : Nat) (ops : List LoopOp) (controller : Nat) (flight : Flight) (loop : Loop)
    (stream : DriverStream) (w : World),
    let m := loopsAfter tables maxLoops ops
    let answer := (runAgentTurn flight.sessionId stream).text
    let after := (loopStep tables maxLoops (.turnEnds controller stream w) m).2
    m.flights.find? (·.controller = controller) = some flight →
      m.loops.find? flight.loopId = some loop → loop.status = .running →
        loop.stopSentinel = askedLine tables requested →
          (after.GoalMet loop.id ↔
              ∃ line ∈ lines answer, SameLine tables line (requestedSentinel requested)) ∧
            (answer = askedLine tables requested → after.GoalMet loop.id) ∧
            ((∀ line ∈ lines answer, trim line = []) → ¬ after.GoalMet loop.id)

namespace LoopManager

variable {tables : CaseTables} {m : LoopManager} {loop : Loop} {controller : Nat} {flight : Flight}

/-- How the turn of a running loop ends. -/
theorem goalMet_turnEnds (hflight : m.flights.find? (·.controller = controller) = some flight)
    (hfind : m.loops.find? flight.loopId = some loop) (hrunning : loop.status = .running)
    (maxLoops : Nat) (stream : DriverStream) (w : World) :
    (loopStep tables maxLoops (.turnEnds controller stream w) m).2.GoalMet loop.id ↔
      ¬ (runAgentTurn flight.sessionId stream).Failed ∧
        sentinelHit tables (runAgentTurn flight.sessionId stream).text loop.stopSentinel = true := by
  have hout := turnEnds_outcome m w tables controller stream
  change (m.turnEnds tables controller stream w).2.GoalMet loop.id ↔ _
  generalize m.turnEnds tables controller stream w = out at hout ⊢
  cases hout with
  | unknown hnone =>
    rw [hflight] at hnone
    cases hnone
  | orphaned flight' hflight' hclosed =>
    obtain rfl := Option.some.inj (hflight.symm.trans hflight')
    exact absurd hrunning (hclosed loop hfind)
  | ended flight' hflight' loop' hid hfind' hrunning' =>
    obtain rfl := Option.some.inj (hflight.symm.trans hflight')
    rw [hid] at hfind'
    obtain rfl := Option.some.inj (hfind.symm.trans hfind')
    exact goalMet_afterTurn hrunning _ _

end LoopManager

section Runs

variable {tables : SentinelTables} {requested : Option JsString}

/-- Every loop has the sentinel of a request that created one. -/
theorem stopSentinel_created (tables : CaseTables) (maxLoops : Nat) (ops : List LoopOp) {k : String}
    {loop : Loop} (hfind : (loopsAfter tables maxLoops ops).loops.find? k = some loop) :
    ∃ input agent w, .create input agent w ∈ ops ∧
      loop.stopSentinel = askedLine tables input.stopSentinel := by
  have hsentinels : (loopsAfter tables maxLoops ops).SentinelsAre fun s =>
      ∃ input agent w, .create input agent w ∈ ops ∧ s = askedLine tables input.stopSentinel := by
    refine final_invariant_of (C := fun step => step.input ∈ ops) (fun op m h hop => ?_)
      ⟨fun h => ?_, fun h => ?_⟩ fun step hstep => ?_
    · exact h.step maxLoops op fun input agent w hcreate => ⟨input, agent, w, hcreate ▸ hop, rfl⟩
    · cases h
    · cases h
    · rw [← trace_map_input (loopStep tables maxLoops) ops (.boot .empty)]
      exact List.mem_map_of_mem hstep
  exact hsentinels.loops hfind

theorem sentinelExact_of (hne : trim (requestedSentinel requested) ≠ [])
    (hline : 10 ∉ trim (requestedSentinel requested)) :
    SentinelExact tables.toCaseTables requested := by
  intro maxLoops ops controller flight loop stream w m answer after hflight hfind hrunning hsentinel
  have hmet : after.GoalMet loop.id ↔
      ∃ line ∈ lines answer, SameLine tables.toCaseTables line (requestedSentinel requested) := by
    rw [LoopManager.goalMet_turnEnds hflight hfind hrunning, hsentinel, sentinelHit_iff]
    refine and_iff_right_of_imp fun ⟨line, hmem, hsame⟩ hfailed => ?_
    rw [text_of_failed hfailed] at hmem
    obtain rfl := List.mem_singleton.mp hmem
    exact not_sameLine_of_blank rfl hne hsame
  refine ⟨hmet, fun hanswer => ?_, fun hblank => ?_⟩
  · rw [hmet, hanswer]
    exact ⟨_, mem_lines_askedLine hline, sameLine_askedLine⟩
  · rw [hmet]
    rintro ⟨line, hmem, hsame⟩
    exact not_sameLine_of_blank (hblank line hmem) hne hsame

/-- A loop is created with that sentinel, and its first turn is started. -/
def firstTurn (requested : Option JsString) : List LoopOp :=
  [.create { tidyUp with stopSentinel := requested } (some assistant) epoch, .fire 0 ready epoch]

theorem firstTurn_running (tables : CaseTables) (requested : Option JsString) :
    ∃ flight loop, (loopsAfter tables defaultMaxLoops (firstTurn requested)).flights.find?
        (·.controller = 0) = some flight ∧
      (loopsAfter tables defaultMaxLoops (firstTurn requested)).loops.find? flight.loopId =
        some loop ∧
      loop.status = .running ∧ loop.stopSentinel = askedLine tables requested :=
  ⟨_, _, rfl, rfl, rfl, rfl⟩

/-- A turn that only gives an answer. -/
def answerStream (text : JsString) : DriverStream :=
  ⟨if text = [] then [] else [.textBulk text], none⟩

theorem runAgentTurn_answerStream (sessionId : Option JsString) (text : JsString) :
    (runAgentTurn sessionId (answerStream text)).text = text ∧
      ¬ (runAgentTurn sessionId (answerStream text)).Failed := by
  unfold answerStream
  split
  · rename_i h
    exact ⟨h.symm, fun hfailed => by obtain ⟨⟨_, herror, -⟩, -⟩ := hfailed; cases herror⟩
  · rename_i h
    simp [runAgentTurn, TurnResult.absorb, TurnResult.Failed, h, TurnResult.start]

/-- What exactness says of the first turn of a new loop, whatever its answer is. -/
theorem goalMet_firstTurn (h : SentinelExact tables.toCaseTables requested) (answer : JsString) :
    ((∃ line ∈ lines answer, SameLine tables.toCaseTables line (requestedSentinel requested)) →
        ¬ ∀ line ∈ lines answer, trim line = []) ∧
      (answer = askedLine tables.toCaseTables requested →
        ∃ line ∈ lines answer, SameLine tables.toCaseTables line (requestedSentinel requested)) := by
  obtain ⟨flight, loop, hflight, hfind, hrunning, hsentinel⟩ :=
    firstTurn_running tables.toCaseTables requested
  obtain ⟨hmet, hasked, hblank⟩ := h defaultMaxLoops (firstTurn requested) 0 flight loop
    (answerStream answer) epoch hflight hfind hrunning hsentinel
  rw [(runAgentTurn_answerStream flight.sessionId answer).1] at hmet hasked hblank
  exact ⟨fun hsame hall => hblank hall (hmet.mpr hsame), fun heq => hmet.mp (hasked heq)⟩

end Runs

end OsModa.Gateway
