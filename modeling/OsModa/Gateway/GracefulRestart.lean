import OsModa.Gateway.ChatHandles
import OsModa.Gateway.Loop
import OsModa.Gateway.SessionStore
import OsModa.Gateway.SpendHistory

/-!
What a graceful restart keeps.

Sessions and chats are saved some time after they change, the spend meter when usage is recorded,
and the loops with every change. The handler of the signal only takes the loops down and exits. So
the next process has the stores of the last one if no save waits at the signal, and no day of the
spend meter was begun since the last record (`restart_loses_nothing`).
-/

namespace OsModa.Gateway

open OsModa.Js OsModa.Machine

/-! ### Sessions with their timer -/

abbrev SavedSessions := Debounced (Table StoredSession.key)

/-- A turn schedules a save; a change of a session does, if there is the session. -/
def SessionOp.schedules (sessions : Table StoredSession.key) : SessionOp → Bool
  | .getOrCreate .. => true
  | .update turn _ _ => (sessions.find? turn.key).isSome
  | .clear userId channel => (sessions.find? (sessionKey userId channel)).isSome
  | .save | .restart => false

def savedSessions (op : SessionOp) (d : SavedSessions) : Option StoredSession × SavedSessions :=
  match op with
  | .save => (none, d.save true)
  | .restart => (none, d.reload)
  | op =>
    let (session, st) := sessionNext op ⟨d.memory, d.file⟩
    (session, d.change (op.schedules d.memory) st.sessions)

/-! ### The end of the loops -/

theorem unblocked_id (l : Loop) : Loop.id { l with blocked := none } = l.id := rfl

/-- The loops as a new process reads them. -/
def unblocked (loops : Table Loop.id) : Table Loop.id :=
  loops.updateWhere (fun _ => true) (fun l => { l with blocked := none }) unblocked_id

/-- Cancel all timers + abort in-flight turns. -/
def LoopManager.shutdown (m : LoopManager) : List LoopEffect × LoopManager :=
  (m.aborts.rows.map fun row => .abort row.2, (m.timers.rows.map Prod.fst).foldl clearTimer m)

/-! ### The gateway's stores -/

structure GatewayStores where
  sessions : SavedSessions
  chats : ChatStore
  spend : SpendMeter
  loops : LoopManager

inductive StoresInput where
  | session (op : SessionOp)
  | chat (op : RegistryOp)
  | spend (call : SpendCall)
  | loop (op : LoopOp)
  /-- SIGTERM or SIGINT; then the next process starts. -/
  | signal

inductive StoresOutput where
  | session (session : Option StoredSession)
  | chat
  | spend (reply : SpendReply)
  | loop (effects : List LoopEffect)

namespace GatewayStores

/-- A process that finds the files of its stores. -/
def boot (sessions : Table StoredSession.key) (chats : ChatRegistry) (usage : Buckets)
    (loops : Table Loop.id) : GatewayStores :=
  ⟨.loaded sessions, .loaded chats, ⟨usage, usage⟩, .boot loops⟩

/-- The handler takes the loops down and exits; the next process loads the files. -/
def restarted (g : GatewayStores) : StoresOutput × GatewayStores :=
  let (effects, loops) := g.loops.shutdown
  (.loop effects, ⟨g.sessions.reload, g.chats.reload, g.spend.load, loops.restart⟩)

end GatewayStores

section Machine

variable (tables : CaseTables) (table : List (String × Price)) (caps : Caps) (maxLoops : Nat)

def storesNext (input : StoresInput) (g : GatewayStores) : StoresOutput × GatewayStores :=
  match input with
  | .session op =>
    let (session, sessions) := savedSessions op g.sessions
    (.session session, { g with sessions })
  | .chat op => (.chat, { g with chats := (registryNext tables op g.chats).2 })
  | .spend call =>
    let (reply, spend) := spendCall table caps call g.spend
    (.spend reply, { g with spend })
  | .loop op =>
    let (effects, loops) := loopStep tables maxLoops op g.loops
    (.loop effects, { g with loops })
  | .signal => g.restarted

end Machine

abbrev StoresStep := Step GatewayStores StoresInput StoresOutput

/-! ### What is said of a run -/

/-- The writes of an operation succeed. -/
def LoopOp.writes : LoopOp → Bool
  | .create _ _ w | .stop _ w | .pause _ w | .resume _ w | .fire _ _ w | .turnEnds _ _ w => w.writes
  | .resumeAll | .restart => true

/-- All writes succeed, and no store is loaded again by itself. -/
def StoresInput.Ordinary : StoresInput → Prop
  | .session op => op ≠ .restart
  | .chat op => op ≠ .reload ∧ op ≠ .save false
  | .spend call => call ≠ .restart
  | .loop op => op ≠ .restart ∧ op.writes = true
  | .signal => True

/-- The stores of the next process are those of the last one, but for the flag of the loops that
is cleared. -/
structure Reloaded (g g' : GatewayStores) : Prop where
  sessions : g'.sessions.memory = g.sessions.memory
  chats : g'.chats.memory = g.chats.memory
  spend : ∀ id, g'.spend.buckets.find? id = g.spend.buckets.find? id
  loops : g'.loops.loops = unblocked g.loops.loops

/-- A check finds no bucket of its day, and puts an empty one there. -/
def SpendCall.begins (m : SpendMeter) : SpendCall → Bool
  | .check id _ now => !(m.buckets.find? id).any fun row => row.2.day = now.isoDay
  | _ => false

/-- Whether a day has been begun that is not saved, after a step. -/
def unsavedAfter (unsaved : Bool) (t : StoresStep) : Bool :=
  match t.input with
  | .spend (.record ..) | .signal => false
  | .spend call => unsaved || call.begins t.before.spend
  | _ => unsaved

/-- A day has been begun since the last record. -/
def unsaved (past : List StoresStep) : Bool := past.foldl unsavedAfter false

theorem unsaved_append (past : List StoresStep) (t : StoresStep) :
    unsaved (past ++ [t]) = unsavedAfter (unsaved past) t := by
  rw [unsaved, List.foldl_append]
  rfl

def SpendCall.agentId? : SpendCall → Option AgentId
  | .record id .. | .check id .. => some id
  | .restart => none

/-- No save waits at a signal, and the meter is not used for an agent that an object cannot hold
under its name. -/
def SavedAtSignal (past : List StoresStep) (t : StoresStep) : Prop :=
  match t.input with
  | .signal =>
    t.before.sessions.timer = false ∧ t.before.chats.timer = false ∧ unsaved past = false
  | .spend call => call.agentId? ≠ some (utf16 "__proto__")
  | _ => True

instance (past : List StoresStep) (t : StoresStep) : Decidable (SavedAtSignal past t) := by
  unfold SavedAtSignal
  split <;> infer_instance

/-! ### Sessions and chats -/

section Debounced

/-- Without its timer it is the session store. -/
theorem savedSessions_store (op : SessionOp) (d : SavedSessions) :
    SessionStore.mk (savedSessions op d).2.memory (savedSessions op d).2.file =
      (sessionNext op ⟨d.memory, d.file⟩).2 := by
  cases op with
  | save => rfl
  | restart => rfl
  | getOrCreate turn now id =>
    simp only [savedSessions, sessionNext, SessionStore.getOrCreate, Debounced.change]
    split <;> rfl
  | update turn claudeSessionId now =>
    simp only [savedSessions, sessionNext, SessionStore.updateClaudeSession, Debounced.change]
    split <;> rfl
  | clear userId channel =>
    simp only [savedSessions, sessionNext, SessionStore.clearClaudeSession, Debounced.change]
    split <;> rfl

theorem synced_savedSessions {d : SavedSessions} (h : d.Synced) (op : SessionOp) :
    (savedSessions op d).2.Synced := by
  cases op with
  | save => exact Debounced.synced_save
  | restart => exact Debounced.synced_loaded _
  | getOrCreate turn now id =>
    apply h.change
    intro hquiet
    cases hquiet
  | update turn claudeSessionId now =>
    apply h.change
    intro hquiet
    have hnone : d.memory.find? turn.key = none := by simpa [SessionOp.schedules] using hquiet
    simp only [SessionStore.updateClaudeSession, hnone]
  | clear userId channel =>
    apply h.change
    intro hquiet
    have hnone : d.memory.find? (sessionKey userId channel) = none := by
      simpa [SessionOp.schedules] using hquiet
    simp only [SessionStore.clearClaudeSession, hnone]

/-- A change where no chat has the key is none. -/
theorem change_of_not_hasKey {chats : ChatRegistry} {key : JsString}
    (h : ChatRegistry.hasKey chats key = false) (f : Chat → Chat) (hf : ∀ c, (f c).key = c.key) :
    ChatRegistry.change chats key f hf = chats := by
  apply Table.updateWhere_eq_self
  intro c hc hkey
  have hnone : chats.find? key = none := by simpa [ChatRegistry.hasKey] using h
  exact absurd (List.mem_map_of_mem hc) (of_decide_eq_true hkey ▸ Table.find?_eq_none.mp hnone)

theorem synced_registryNext (tables : CaseTables) {d : ChatStore} (h : d.Synced) {op : RegistryOp}
    (hwritten : op ≠ .save false) : (registryNext tables op d).2.Synced := by
  cases op with
  | save written =>
    cases written with
    | true => exact Debounced.synced_save
    | false => exact absurd rfl hwritten
  | reload => exact Debounced.synced_loaded _
  | register key agentId name now =>
    apply h.change
    intro hquiet
    cases hquiet
  | resolveOrCreate idOrName now =>
    rw [registryNext]
    split
    · apply h.change
      intro hquiet
      cases hquiet
    · exact h
  | rename key name =>
    apply h.change
    intro hquiet
    exact change_of_not_hasKey hquiet ..
  | setArchived key archived =>
    apply h.change
    intro hquiet
    exact change_of_not_hasKey hquiet ..
  | touch key now =>
    apply h.change
    intro hquiet
    exact change_of_not_hasKey hquiet ..
  | setCursor chatKey peerKey seq =>
    apply h.change
    intro hquiet
    rw [ChatRegistry.setCursor]
    split
    · rfl
    · exact change_of_not_hasKey hquiet ..

end Debounced

/-! ### The spend meter -/

section Meter

variable {m : SpendMeter} {agent : AgentProfile} {now : Instant}

theorem find?_setBucket_other {id a : AgentId} (h : id ≠ a) (b : DayBucket) :
    (m.setBucket id b).buckets.find? a = m.buckets.find? a :=
  Table.find?_put_other (r := (id, b)) h

theorem find?_check_other {id : AgentId} (h : agent.id ≠ id) :
    (m.check agent now).2.buckets.find? id = m.buckets.find? id :=
  find?_setBucket_other h _

/-- A check that finds a bucket of its day changes nothing. -/
theorem find?_check_of_day {id : AgentId} {b : DayBucket}
    (hfind : m.buckets.find? agent.id = some (id, b)) (hday : b.day = now.isoDay) (k : AgentId) :
    (m.check agent now).2.buckets.find? k = m.buckets.find? k := by
  have hid : id = agent.id := Table.key_of_find? hfind
  have hcurrent : m.buckets.current agent.id now = b := by
    rw [Buckets.current, hfind]
    exact DayBucket.onDay_of_eq hday
  by_cases hk : agent.id = k
  · subst hk
    change (m.buckets.put (agent.id, m.buckets.current agent.id now)).find? agent.id = _
    rw [hcurrent, hfind, hid]
    exact Table.find?_put_self ..
  · exact find?_check_other hk

theorem find?_record_other {table : List (String × Price)} {usage : SpendUsage}
    {checkedAt : Instant} {id : AgentId} (h : agent.id ≠ id) :
    (m.record table agent usage now checkedAt).2.buckets.find? id = m.buckets.find? id := by
  have hcharged : (chargedMeter m agent usage now table).buckets.find? id = m.buckets.find? id :=
    (find?_setBucket_other h _).trans (find?_setBucket_other h _)
  have hchecked : ((chargedMeter m agent usage now table).check agent checkedAt).2.buckets.find? id =
      m.buckets.find? id :=
    (find?_check_other h).trans hcharged
  unfold SpendMeter.record
  dsimp only [SpendMeter.save]
  split
  · exact (find?_setBucket_other h _).trans hchecked
  · exact hchecked

/-- What a record leaves is in the file, but for what an object cannot hold. -/
theorem record_file (table : List (String × Price)) (usage : SpendUsage) (checkedAt : Instant) :
    (m.record table agent usage now checkedAt).2.file =
      (m.record table agent usage now checkedAt).2.buckets.erase (utf16 "__proto__") :=
  rfl

/-- The file has what the meter has, of every agent. -/
def SpendMeter.Saved (m : SpendMeter) : Prop := ∀ id, m.file.find? id = m.buckets.find? id

/-- No usage is kept under a name that an object cannot hold. -/
def SpendMeter.Plain (m : SpendMeter) : Prop := m.buckets.find? (utf16 "__proto__") = none

theorem saved_record {table : List (String × Price)} {usage : SpendUsage} {checkedAt : Instant}
    (hplain : m.Plain) (hid : agent.id ≠ utf16 "__proto__") :
    (m.record table agent usage now checkedAt).2.Saved := by
  intro id
  rw [record_file, Table.find?_erase]
  split
  · rename_i hproto
    subst hproto
    rw [find?_record_other hid]
    exact hplain.symm
  · rfl

theorem saved_check (h : m.Saved) {model : JsString}
    (hbegins : (SpendCall.check agent.id model now).begins m = false) :
    (m.check agent now).2.Saved := by
  intro k
  have hany : (m.buckets.find? agent.id).any (fun row => row.2.day = now.isoDay) = true := by
    simpa only [SpendCall.begins, Bool.not_eq_false'] using hbegins
  obtain ⟨⟨id, b⟩, hfind, hday⟩ := (Option.any_eq_true _ _).mp hany
  rw [find?_check_of_day hfind (of_decide_eq_true hday) k]
  exact h k

variable {table : List (String × Price)} {caps : Caps} {call : SpendCall}

theorem plain_spendCall (h : m.Plain) (hcall : call ≠ .restart)
    (hid : call.agentId? ≠ some (utf16 "__proto__")) : (spendCall table caps call m).2.Plain := by
  cases call with
  | record id model usage now checkedAt =>
    have hother : (caps.profile id model).id ≠ utf16 "__proto__" := fun heq =>
      hid (congrArg some heq)
    exact (find?_record_other hother).trans h
  | check id model now =>
    have hother : (caps.profile id model).id ≠ utf16 "__proto__" := fun heq =>
      hid (congrArg some heq)
    exact (find?_check_other hother).trans h
  | restart => exact absurd rfl hcall

/-- The step lemma of the meter. -/
theorem saved_spendCall (hplain : m.Plain) (hcall : call ≠ .restart)
    (hid : call.agentId? ≠ some (utf16 "__proto__"))
    (h : (∃ id model usage now checkedAt, call = .record id model usage now checkedAt) ∨
      m.Saved ∧ call.begins m = false) : (spendCall table caps call m).2.Saved := by
  cases call with
  | record id model usage now checkedAt =>
    exact saved_record hplain fun heq => hid (congrArg some heq)
  | check id model now =>
    rcases h with ⟨_, _, _, _, _, heq⟩ | ⟨hsaved, hbegins⟩
    · cases heq
    · exact saved_check hsaved hbegins
  | restart => exact absurd rfl hcall

end Meter

/-! ### The loops -/

theorem unblocked_unblocked (loops : Table Loop.id) : unblocked (unblocked loops) = unblocked loops := by
  apply Table.updateWhere_eq_self
  intro l hl _
  obtain ⟨l', -, rfl⟩ := List.mem_map.mp hl
  rfl

namespace LoopManager

variable {m : LoopManager} {w : World}

/-- The file has the loops, but for the flag that is cleared. -/
def Written (m : LoopManager) : Prop := unblocked m.file = unblocked m.loops

theorem written_persist (hw : w.writes = true) : (m.persist w).Written := by
  rw [Written, persist_file, if_pos hw, persist_loops]

theorem Written.congr {m' : LoopManager} (h : m.Written) (hloops : m'.loops = m.loops)
    (hfile : m'.file = m.file) : m'.Written := by
  rw [Written, hloops, hfile]
  exact h

theorem written_withdraw (hw : w.writes = true) (loop : Loop) : (m.withdraw loop w).2.Written :=
  written_persist hw

theorem written_finish (hw : w.writes = true) (loop : Loop) (reason : String) :
    (m.finish loop reason w).Written :=
  written_persist hw

theorem written_reschedule (hw : w.writes = true) (id : String) :
    ((m.persist w).reschedule id).Written :=
  (written_persist hw).congr (reschedule_loops ..) (reschedule_file ..)

/-- The flag is all that the start of a turn changes. -/
theorem Written.launched (h : m.Written) {loop : Loop} (hfind : m.loops.find? loop.id = some loop)
    (agent : AgentProfile) (sessionId : Option JsString) :
    (m.launched loop agent sessionId).Written := by
  have hput : unblocked (m.loops.put { loop with blocked := none }) = unblocked m.loops := by
    unfold unblocked
    apply Table.updateWhere_put
    · exact hfind
    · rfl
  exact h.trans hput.symm

theorem Written.pause (h : m.Written) (hw : w.writes = true) (id reason : String) :
    (m.pause id reason w).2.Written := by
  rcases m.pause_cases id w reason with hpause | ⟨loop, -, -, hpause⟩ <;> rw [hpause]
  · exact h
  · exact written_withdraw hw _

theorem Written.stop (h : m.Written) (hw : w.writes = true) (id : String) :
    (m.stop id w).2.Written := by
  rcases m.stop_cases id w with hstop | ⟨loop, -, -, hstop⟩ <;> rw [hstop]
  · exact h
  · exact written_withdraw hw _

theorem Written.resume (h : m.Written) (hw : w.writes = true) (id : String) :
    (m.resume id w).2.Written := by
  rcases m.resume_cases id w with hresume | ⟨loop, -, -, -, hresume⟩ <;> rw [hresume]
  · exact h
  · exact written_reschedule hw _

theorem Written.create (h : m.Written) (hw : w.writes = true) (tables : CaseTables) (maxLoops : Nat)
    (input : CreateLoopInput) (agent : Option AgentProfile) :
    (m.create tables maxLoops input agent w).2.Written := by
  have hout := create_outcome m w tables maxLoops input agent
  generalize m.create tables maxLoops input agent w = out at hout ⊢
  cases hout with
  | rejected message => exact h
  | created agent interval maxIter hroom hmaxIter =>
    exact (written_persist hw).congr (scheduleTick_loops ..) (scheduleTick_file ..)

theorem Written.tick (h : m.Written) (hw : w.writes = true) (id : String) (deps : TickDeps) :
    (m.tick id deps w).2.Written := by
  have hout := tick_outcome m id w deps
  generalize m.tick id deps w = out at hout ⊢
  cases hout with
  | idle hidle => exact h
  | exhausted loop hfind hrunning hmax => exact written_finish hw ..
  | withdrawn loop hfind hrunning reason =>
    apply Written.pause _ hw
    exact h.congr rfl rfl
  | skipped loop hfind hrunning => exact written_reschedule hw _
  | launched loop hfind hrunning hiteration agent hagent hallowed hcredential hdriver =>
    apply Written.launched
    · exact h.congr rfl rfl
    · exact (Table.key_of_find? hfind).symm ▸ hfind

theorem Written.fire (h : m.Written) (hw : w.writes = true) (handle : Nat) (deps : TickDeps) :
    (m.fire handle deps w).2.Written := by
  rcases m.fire_cases handle deps w with hfire | ⟨timer, -, -, hfire⟩
  · rw [hfire]
    exact h
  · rw [hfire]
    apply Written.tick _ hw
    exact h.congr rfl rfl

theorem written_afterTurn (hw : w.writes = true) (tables : CaseTables) (loop : Loop)
    (agent : AgentProfile) (result : TurnResult) :
    (m.afterTurn tables loop agent result w).2.Written := by
  have hout := afterTurn_outcome m loop w tables agent result
  generalize m.afterTurn tables loop agent result w = out at hout ⊢
  cases hout with
  | gaveUp hfailed herrors =>
    have hstored : (m.setLoop (failedLoop loop result w)).loops.find? (failedLoop loop result w).id =
        some (failedLoop loop result w) :=
      Table.find?_put_self ..
    have hpause := pause_eq w hstored "repeated_errors"
    rw [failedLoop_id] at hpause
    rw [hpause]
    exact written_withdraw hw _
  | failed hfailed herrors => exact written_reschedule hw _
  | goalMet hok hhit => exact written_finish hw ..
  | exhausted hok hmiss hmax => exact written_finish hw ..
  | advanced hok hmiss hmore => exact written_reschedule hw _

theorem Written.turnEnds (h : m.Written) (hw : w.writes = true) (tables : CaseTables)
    (controller : Nat) (stream : DriverStream) :
    (m.turnEnds tables controller stream w).2.Written := by
  have hout := turnEnds_outcome m w tables controller stream
  generalize m.turnEnds tables controller stream w = out at hout ⊢
  cases hout with
  | unknown hnone => exact h
  | orphaned flight hflight hclosed => exact h.congr rfl rfl
  | ended flight hflight loop hid hfind hrunning => exact written_afterTurn hw ..

/-- A new process has the loops of the file. -/
theorem written_restart (m : LoopManager) : m.restart.Written := by
  rw [Written, restart_file, restart_loops]
  exact (unblocked_unblocked m.file).symm

/-- The step lemma of the loops. -/
theorem Written.step (h : m.Written) {op : LoopOp} (hw : op.writes = true) (tables : CaseTables)
    (maxLoops : Nat) : (loopStep tables maxLoops op m).2.Written := by
  cases op with
  | create input agent w => exact h.create hw ..
  | stop id w => exact h.stop hw ..
  | pause id w => exact h.pause hw ..
  | resume id w => exact h.resume hw ..
  | resumeAll => exact h.congr (resumeAll_loops m) (resumeAll_file m)
  | fire handle deps w => exact h.fire hw ..
  | turnEnds controller stream w => exact h.turnEnds hw ..
  | restart => exact m.written_restart

theorem shutdown_file : m.shutdown.2.file = m.file := by
  have hclear : ∀ (ids : List String) (m : LoopManager), (ids.foldl clearTimer m).file = m.file := by
    intro ids
    induction ids with
    | nil => exact fun _ => rfl
    | cons id ids ih => exact fun m => (ih _).trans (m.clearTimer_file id)
  exact hclear ..

end LoopManager

/-! ### Runs -/

/-- What is known of the stores after some steps. -/
structure StoresKept (past : List StoresStep) (g : GatewayStores) : Prop where
  sessions : g.sessions.Synced
  chats : g.chats.Synced
  spend : unsaved past = false → g.spend.Saved
  plain : g.spend.Plain
  loops : g.loops.Written

theorem storesKept_boot {usage : Buckets} (hplain : usage.find? (utf16 "__proto__") = none)
    (sessions : Table StoredSession.key) (chats : ChatRegistry) (loops : Table Loop.id) :
    StoresKept [] (.boot sessions chats usage loops) where
  sessions := Debounced.synced_loaded sessions
  chats := Debounced.synced_loaded chats
  spend := fun _ _ => rfl
  plain := hplain
  loops := LoopManager.written_restart _

section Runs

variable {tables : CaseTables} {table : List (String × Price)} {caps : Caps} {maxLoops : Nat}

/-- The next process has the stores of the last, if no save waits. -/
theorem reloaded_of_kept {past : List StoresStep} {g : GatewayStores} (h : StoresKept past g)
    (hsessions : g.sessions.timer = false) (hchats : g.chats.timer = false)
    (hspend : unsaved past = false) : Reloaded g g.restarted.2 where
  sessions := h.sessions hsessions
  chats := h.chats hchats
  spend := h.spend hspend
  loops := by
    have hloops : g.loops.shutdown.2.restart.loops = unblocked g.loops.shutdown.2.file :=
      LoopManager.restart_loops _
    rw [LoopManager.shutdown_file] at hloops
    exact hloops.trans h.loops

/-- The step lemma. -/
theorem storesKept_step {input : StoresInput} {past : List StoresStep} {g : GatewayStores}
    (h : StoresKept past g)
    (hstep : input.Ordinary ∧
      SavedAtSignal past (stepOf (storesNext tables table caps maxLoops) input g)) :
    StoresKept (past ++ [stepOf (storesNext tables table caps maxLoops) input g])
      (storesNext tables table caps maxLoops input g).2 := by
  obtain ⟨hordinary, hfits⟩ := hstep
  cases input with
  | session op =>
    refine ⟨synced_savedSessions h.sessions op, h.chats, ?_, h.plain, h.loops⟩
    rw [unsaved_append]
    exact h.spend
  | chat op =>
    refine ⟨h.sessions, synced_registryNext tables h.chats hordinary.2, ?_, h.plain, h.loops⟩
    rw [unsaved_append]
    exact h.spend
  | spend call =>
    refine ⟨h.sessions, h.chats, ?_, plain_spendCall h.plain hordinary hfits, h.loops⟩
    rw [unsaved_append]
    intro hsaved
    apply saved_spendCall h.plain hordinary hfits
    cases call with
    | record id model usage now checkedAt => exact .inl ⟨_, _, _, _, _, rfl⟩
    | check id model now =>
      obtain ⟨hpast, hbegins⟩ := Bool.or_eq_false_iff.mp hsaved
      exact .inr ⟨h.spend hpast, hbegins⟩
    | restart => exact absurd rfl hordinary
  | loop op =>
    refine ⟨h.sessions, h.chats, ?_, h.plain, h.loops.step hordinary.2 tables maxLoops⟩
    rw [unsaved_append]
    exact h.spend
  | signal =>
    have hreloaded := reloaded_of_kept h hfits.1 hfits.2.1 hfits.2.2
    refine ⟨Debounced.synced_loaded _, Debounced.synced_loaded _, fun _ _ => rfl, ?_, ?_⟩
    · exact (hreloaded.spend _).trans h.plain
    · exact LoopManager.written_restart _

end Runs

def firstMessage : List StoresInput :=
  [.chat (.register (utf16 "ws-default") none none 1),
    .session (.getOrCreate (turnOf "osmoda") 2 (utf16 "sess-2-a"))]

/-- The saves are done, and a turn is billed. -/
def billedMessage : List StoresInput :=
  firstMessage ++ [.spend (.check (utf16 "osmoda") (utf16 "claude-opus-4-8") newYear),
    .chat (.save true), .session .save,
    .spend (.record (utf16 "osmoda") (utf16 "claude-opus-4-8") ⟨some 400, some 100, none⟩ newYear
      newYear)]

/-- A gateway that has no files yet. -/
def firstBoot : GatewayStores := .boot .empty .empty .empty .empty

def noCaps : Caps := fun _ => (none, none)

def atSignal (inputs : List StoresInput) : StoresStep :=
  stepOf (storesNext .ascii prices noCaps defaultMaxLoops) .signal
    (final (storesNext .ascii prices noCaps defaultMaxLoops) inputs firstBoot)

theorem atSignal_mem (inputs : List StoresInput) : atSignal inputs ∈
    trace (storesNext .ascii prices noCaps defaultMaxLoops) (inputs ++ [.signal]) firstBoot := by
  rw [trace_append]
  exact List.mem_append_right _ (List.mem_singleton_self _)

theorem ordinary_firstMessage : ∀ input ∈ firstMessage, input.Ordinary := by
  intro input hinput
  rcases List.mem_pair.mp hinput with rfl | rfl
  · exact ⟨nofun, nofun⟩
  · exact nofun

theorem ordinary_billedMessage : ∀ input ∈ billedMessage, input.Ordinary := by
  intro input hinput
  rcases List.mem_append.mp hinput with hfirst | hrest
  · exact ordinary_firstMessage input hfirst
  · simp only [List.mem_cons, List.not_mem_nil, or_false] at hrest
    obtain rfl | rfl | rfl | rfl := hrest
    · exact nofun
    · exact ⟨nofun, nofun⟩
    · exact nofun
    · exact nofun

theorem ordinary_signal {inputs : List StoresInput} (h : ∀ input ∈ inputs, input.Ordinary) :
    ∀ input ∈ inputs ++ [.signal], input.Ordinary := by
  intro input hinput
  rcases List.mem_append.mp hinput with hbefore | hsignal
  · exact h input hbefore
  · rw [List.mem_singleton.mp hsignal]
    trivial

end OsModa.Gateway
