import OsModa.Base.Js
import OsModa.Base.JsMap
import OsModa.Base.Machine

/-!
The session store of the gateway: which native session of a runtime a user's next turn resumes.

Sessions go by channel and user. A swap of the runtime drops the native session, and that a
session outlives evictions and restarts does not change whose it is; but a turn of another agent
finds it as it is (`never_resumed_by_stranger`).
-/

namespace OsModa.Gateway

open OsModa.Js OsModa.Machine

structure StoredSession where
  id : JsString
  agentId : JsString
  /-- Runtime that minted `claudeSessionId`. -/
  runtime : Option JsString
  claudeSessionId : Option JsString
  lastActivity : Nat
  userId : JsString
  channel : JsString

/-- `${channel}:${userId}` -/
def sessionKey (userId channel : JsString) : JsString := channel ++ 58 :: userId

def StoredSession.key (s : StoredSession) : JsString := sessionKey s.userId s.channel

/-- The string is there and not empty. -/
def isGiven (s : Option JsString) : Bool := s.any (· ≠ [])

/-- Who a turn is of. -/
structure SessionTurn where
  userId : JsString
  channel : JsString
  agentId : JsString
  runtime : Option JsString

def SessionTurn.key (turn : SessionTurn) : JsString := sessionKey turn.userId turn.channel

def maxSessions : Nat := 1000

/-- The sessions, and what the file of them holds. -/
structure SessionStore where
  sessions : Table StoredSession.key
  file : Table StoredSession.key

namespace SessionStore

variable (st : SessionStore)

def fresh : SessionStore := ⟨.empty, .empty⟩

/-- The session is of another runtime than the turn. -/
def isSwap (turn : SessionTurn) (existing : StoredSession) : Bool :=
  isGiven turn.runtime && isGiven existing.runtime && existing.runtime ≠ turn.runtime &&
    isGiven existing.claudeSessionId

/-- The session that is there, as a turn finds it. -/
def found (turn : SessionTurn) (now : Nat) (existing : StoredSession) : StoredSession :=
  let existing := { existing with lastActivity := now, agentId := turn.agentId }
  -- Wipe it so the new driver starts a clean conversation.
  if isSwap turn existing then { existing with claudeSessionId := none, runtime := turn.runtime }
  else if isGiven turn.runtime && !isGiven existing.runtime then
    { existing with runtime := turn.runtime }
  else existing

theorem found_key (turn : SessionTurn) (now : Nat) (existing : StoredSession) :
    (found turn now existing).key = existing.key := by
  rw [found]
  split
  · rfl
  · split <;> rfl

/-- The sessions that are over the maximum go, the one used longest ago first. -/
def evictIfOver (sessions : Table StoredSession.key) : Table StoredSession.key :=
  let sorted := sessions.rows.mergeSort fun a b => a.lastActivity ≤ b.lastActivity
  let removed := sorted.take (sessions.rows.length - maxSessions)
  sessions.filter fun s => s.key ∉ removed.map StoredSession.key

def getOrCreate (turn : SessionTurn) (now : Nat) (id : JsString) : StoredSession × SessionStore :=
  match st.sessions.find? turn.key with
  | some existing =>
    let session := found turn now existing
    (session, { st with sessions := st.sessions.put session })
  | none =>
    let session : StoredSession :=
      ⟨id, turn.agentId, turn.runtime, none, now, turn.userId, turn.channel⟩
    (session, { st with sessions := evictIfOver (st.sessions.put session) })

/-- A turn reports the native session that it runs in. -/
def updateClaudeSession (turn : SessionTurn) (claudeSessionId : JsString) (now : Nat) :
    SessionStore :=
  match st.sessions.find? turn.key with
  | none => st
  | some session =>
    let session := { session with
      claudeSessionId := some claudeSessionId
      runtime := if isGiven turn.runtime then turn.runtime else session.runtime
      lastActivity := now }
    { st with sessions := st.sessions.put session }

/-- Forget the claude session id (e.g. user asks to start over). -/
def clearClaudeSession (userId channel : JsString) : SessionStore :=
  match st.sessions.find? (sessionKey userId channel) with
  | none => st
  | some session =>
    { st with sessions := st.sessions.put { session with claudeSessionId := none } }

end SessionStore

inductive SessionOp where
  | getOrCreate (turn : SessionTurn) (now : Nat) (id : JsString)
  | update (turn : SessionTurn) (claudeSessionId : JsString) (now : Nat)
  | clear (userId channel : JsString)
  /-- The file is written. -/
  | save
  | restart

/-- One step, with the session that a turn gets. -/
def sessionNext (op : SessionOp) (st : SessionStore) : Option StoredSession × SessionStore :=
  match op with
  | .getOrCreate turn now id =>
    let (session, st) := st.getOrCreate turn now id
    (some session, st)
  | .update turn claudeSessionId now => (none, st.updateClaudeSession turn claudeSessionId now)
  | .clear userId channel => (none, st.clearClaudeSession userId channel)
  | .save => (none, { st with file := st.sessions })
  | .restart => (none, { st with sessions := st.file })

abbrev SessionStep := Step SessionStore SessionOp (Option StoredSession)

/-! ### Whose a native session is -/

/-- A turn binds a native session. -/
def Binds (turn : SessionTurn) (claudeSessionId : JsString) (t : SessionStep) : Prop :=
  (∃ now, t.input = .update turn claudeSessionId now) ∧ t.before.sessions.find? turn.key ≠ none

/-- A turn gets a native session only if one of the same user, channel, agent and runtime has
bound it. -/
def OwnSession (past : List SessionStep) (t : SessionStep) : Prop :=
  ∀ turn now id session claudeSessionId, t.input = .getOrCreate turn now id →
    t.output = some session → session.claudeSessionId = some claudeSessionId →
    claudeSessionId ≠ [] → ∃ v ∈ past, Binds turn claudeSessionId v

/-- Where a turn finds a native session under its key, not of another runtime, all turns that have
bound it there are of its user, channel and agent, and name a runtime as it does, or the same. -/
def BoundByOwn (past : List SessionStep) (t : SessionStep) : Prop :=
  ∀ turn now id existing claudeSessionId, t.input = .getOrCreate turn now id →
    t.before.sessions.find? turn.key = some existing →
    existing.claudeSessionId = some claudeSessionId → claudeSessionId ≠ [] →
    SessionStore.isSwap turn existing = false →
    ∀ v ∈ past, ∀ binder, Binds binder claudeSessionId v → binder.key = turn.key →
      binder.userId = turn.userId ∧ binder.channel = turn.channel ∧
        binder.agentId = turn.agentId ∧
        (isGiven binder.runtime = true ∧ isGiven turn.runtime = true ∨
          binder.runtime = turn.runtime)

/-- What the steps of a run know of a session: a turn has bound its native session under its key,
and if that named a runtime, it is the session's. -/
def Known (past : List SessionStep) (s : StoredSession) : Prop :=
  ∀ claudeSessionId, s.claudeSessionId = some claudeSessionId → claudeSessionId ≠ [] →
    ∃ v ∈ past, ∃ binder, Binds binder claudeSessionId v ∧ binder.key = s.key ∧
      (isGiven binder.runtime = true → s.runtime = binder.runtime)

/-- All sessions in memory and in the file are known. -/
def AllKnown (past : List SessionStep) (st : SessionStore) : Prop :=
  (∀ s ∈ st.sessions.rows, Known past s) ∧ ∀ s ∈ st.file.rows, Known past s

namespace Known

variable {past : List SessionStep} {s : StoredSession}

theorem mono (h : Known past s) (t : SessionStep) : Known (past ++ [t]) s := by
  intro claudeSessionId hid hne
  obtain ⟨v, hv, hbinder⟩ := h claudeSessionId hid hne
  exact ⟨v, List.mem_append_left _ hv, hbinder⟩

/-- A turn that finds a session leaves it known. -/
theorem found (h : Known past s) (turn : SessionTurn) (now : Nat) :
    Known past (SessionStore.found turn now s) := by
  intro claudeSessionId hid hne
  rw [SessionStore.found_key]
  rw [SessionStore.found] at hid ⊢
  split at hid
  · cases hid
  · rename_i hswap
    rw [if_neg hswap]
    split at hid
    · rename_i hadopts
      rw [if_pos hadopts]
      obtain ⟨v, hv, binder, hbinds, hkey, hruntime⟩ := h claudeSessionId hid hne
      refine ⟨v, hv, binder, hbinds, hkey, fun hgiven => ?_⟩
      -- The session had no runtime, so its binder named none.
      have hmissing : isGiven s.runtime = false := by
        rw [Bool.and_eq_true, Bool.not_eq_true'] at hadopts
        exact hadopts.2
      rw [hruntime hgiven, hgiven] at hmissing
      cases hmissing
    · rename_i hkeeps
      rw [if_neg hkeeps]
      exact h claudeSessionId hid hne

end Known

section Steps

variable {past : List SessionStep} {st : SessionStore}

theorem known_put {sessions : Table StoredSession.key} {s : StoredSession}
    (h : ∀ r ∈ sessions.rows, Known past r) (hs : Known past s) :
    ∀ r ∈ (sessions.put s).rows, Known past r := by
  intro r hr
  rcases Table.mem_rows_put.mp hr with rfl | ⟨hr, -⟩
  · exact hs
  · exact h r hr

/-- Every step keeps all sessions known. -/
theorem allKnown_step (op : SessionOp) (past : List SessionStep) (st : SessionStore)
    (h : AllKnown past st) :
    AllKnown (past ++ [stepOf sessionNext op st]) (sessionNext op st).2 := by
  have hsessions : ∀ s ∈ st.sessions.rows, Known (past ++ [stepOf sessionNext op st]) s :=
    fun s hs => (h.1 s hs).mono _
  have hfile : ∀ s ∈ st.file.rows, Known (past ++ [stepOf sessionNext op st]) s :=
    fun s hs => (h.2 s hs).mono _
  cases op with
  | getOrCreate turn now id =>
    change AllKnown _ (st.getOrCreate turn now id).2
    rw [SessionStore.getOrCreate]
    cases hfind : st.sessions.find? turn.key with
    | some existing =>
      have hexisting := hsessions existing (List.mem_of_find?_eq_some hfind)
      exact ⟨known_put hsessions (hexisting.found turn now), hfile⟩
    | none =>
      refine ⟨fun s hs => ?_, hfile⟩
      refine known_put hsessions ?_ s (List.mem_of_mem_filter hs)
      intro claudeSessionId hid
      cases hid
  | update turn claudeSessionId now =>
    change AllKnown _ (st.updateClaudeSession turn claudeSessionId now)
    rw [SessionStore.updateClaudeSession]
    cases hfind : st.sessions.find? turn.key with
    | none => exact ⟨hsessions, hfile⟩
    | some session =>
      refine ⟨known_put hsessions fun id hid hne => ?_, hfile⟩
      obtain rfl := Option.some.inj hid
      refine ⟨_, List.mem_append_right _ List.mem_cons_self, turn, ⟨⟨now, rfl⟩, ?_⟩, ?_, fun hgiven => ?_⟩
      · rw [stepOf_before, hfind]
        exact Option.some_ne_none session
      · exact (Table.key_of_find? hfind).symm
      · exact if_pos hgiven
  | clear userId channel =>
    change AllKnown _ (st.clearClaudeSession userId channel)
    rw [SessionStore.clearClaudeSession]
    cases hfind : st.sessions.find? (sessionKey userId channel) with
    | none => exact ⟨hsessions, hfile⟩
    | some session =>
      refine ⟨known_put hsessions fun id hid => ?_, hfile⟩
      cases hid
  | save => exact ⟨hsessions, hsessions⟩
  | restart => exact ⟨hfile, hfile⟩

/-- A turn gets what it finds, unless that is of another runtime. -/
theorem getOrCreate_claudeSessionId {turn : SessionTurn} {now : Nat} {id claudeSessionId : JsString}
    (h : (st.getOrCreate turn now id).1.claudeSessionId = some claudeSessionId) :
    ∃ existing, st.sessions.find? turn.key = some existing ∧
      existing.claudeSessionId = some claudeSessionId ∧
      SessionStore.isSwap turn existing = false := by
  rw [SessionStore.getOrCreate] at h
  cases hfind : st.sessions.find? turn.key with
  | none =>
    rw [hfind] at h
    cases h
  | some existing =>
    rw [hfind] at h
    change (SessionStore.found turn now existing).claudeSessionId = _ at h
    rw [SessionStore.found] at h
    refine ⟨existing, rfl, ?_⟩
    split at h
    · cases h
    · rename_i hswap
      have hsame : SessionStore.isSwap turn existing = false := Bool.eq_false_iff.mpr hswap
      split at h
      · exact ⟨h, hsame⟩
      · exact ⟨h, hsame⟩

/-- A turn whose native session is bound by its own turns only gets one of its own. -/
theorem ownSession_of_boundByOwn {op : SessionOp} (h : AllKnown past st)
    (hown : BoundByOwn past (stepOf sessionNext op st)) :
    OwnSession past (stepOf sessionNext op st) := by
  rintro turn now id session claudeSessionId hop hout hid hne
  obtain rfl : op = .getOrCreate turn now id := hop
  obtain rfl := Option.some.inj hout
  obtain ⟨existing, hfind, hexisting, hswap⟩ := getOrCreate_claudeSessionId hid
  obtain ⟨v, hv, binder, hbinds, hkey, hruntime⟩ :=
    h.1 existing (List.mem_of_find?_eq_some hfind) claudeSessionId hexisting hne
  obtain ⟨huser, hchannel, hagent, hsame⟩ := hown turn now id existing claudeSessionId rfl hfind
    hexisting hne hswap v hv binder hbinds (hkey.trans (Table.key_of_find? hfind))
  have hgiven : binder.runtime = turn.runtime := by
    rcases hsame with ⟨hbinder, hturn⟩ | hsame
    · -- The session's runtime is its binder's, and the turn's, or it would be dropped.
      have hstored := hruntime hbinder
      by_contra hdiffer
      have hswaps : SessionStore.isSwap turn existing = true := by
        rw [SessionStore.isSwap, hstored, hturn, hbinder, hexisting]
        simp [hdiffer, isGiven, hne]
      rw [hswap] at hswaps
      cases hswaps
    · exact hsame
  have hturn : binder = turn := by
    cases binder
    cases turn
    simp_all
  exact ⟨v, hv, hturn ▸ hbinds⟩

/-- A turn gets the native session that it finds, if that is not of another runtime. -/
theorem getOrCreate_of_found {turn : SessionTurn} {existing : StoredSession}
    (hfind : st.sessions.find? turn.key = some existing)
    (hswap : SessionStore.isSwap turn existing = false) (now : Nat) (id : JsString) :
    (st.getOrCreate turn now id).1.claudeSessionId = existing.claudeSessionId := by
  have hsame : SessionStore.isSwap turn
      { existing with lastActivity := now, agentId := turn.agentId } = false := hswap
  rw [SessionStore.getOrCreate, hfind]
  change (SessionStore.found turn now existing).claudeSessionId = _
  rw [SessionStore.found, hsame, if_neg Bool.false_ne_true]
  split <;> rfl

end Steps

/-! ### Runs -/

/-- A turn gets a native session. -/
def Gets (turn : SessionTurn) (claudeSessionId : JsString) (t : SessionStep) : Prop :=
  (∃ now id, t.input = .getOrCreate turn now id) ∧
    ∃ session, t.output = some session ∧ session.claudeSessionId = some claudeSessionId

/-- A turn binds a native session that no turn has bound before, or that it has got. -/
def BindsNative (past : List SessionStep) (t : SessionStep) : Prop :=
  ∀ turn claudeSessionId, Binds turn claudeSessionId t → claudeSessionId ≠ [] →
    (∀ v ∈ past, ∀ binder, ¬ Binds binder claudeSessionId v) ∨
      ∃ v ∈ past, Gets turn claudeSessionId v

section Runs

variable {run : List SessionStep}

/-- If turns get their own native sessions only, each is bound by turns of one kind. -/
theorem binders_unique (hnative : ∀ past t future, run = past ++ t :: future → BindsNative past t)
    (hown : ∀ past t future, run = past ++ t :: future → OwnSession past t)
    {past future : List SessionStep} (hrun : run = past ++ future) {claudeSessionId : JsString}
    (hne : claudeSessionId ≠ []) : ∀ v ∈ past, ∀ w ∈ past, ∀ a b : SessionTurn,
      Binds a claudeSessionId v → Binds b claudeSessionId w → a = b := by
  induction past using List.reverseRecOn generalizing future with
  | nil => exact fun _ hv => nomatch hv
  | append_singleton past t ih =>
    rw [List.append_assoc] at hrun
    have hpast := ih hrun
    have hlast : ∀ v ∈ past, ∀ a b : SessionTurn, Binds a claudeSessionId v →
        Binds b claudeSessionId t → a = b := by
      intro v hv a b ha hb
      rcases hnative past t future hrun b claudeSessionId hb hne with hnew | ⟨u, hu, hgets⟩
      · exact absurd ha (hnew v hv a)
      · obtain ⟨before, after, rfl⟩ := List.append_of_mem hu
        obtain ⟨⟨now, id, hinput⟩, session, houtput, hid⟩ := hgets
        rw [List.append_assoc] at hrun
        obtain ⟨u', hu', hbound⟩ := hown before u (after ++ ([t] ++ future)) hrun b now id session
          claudeSessionId hinput houtput hid hne
        exact hpast v hv u' (List.mem_append_left _ hu') a b ha hbound
    intro v hv w hw a b ha hb
    rcases List.mem_append.mp hv with hvpast | hvlast
    · rcases List.mem_append.mp hw with hwpast | hwlast
      · exact hpast v hvpast w hwpast a b ha hb
      · obtain rfl := List.mem_singleton.mp hwlast
        exact hlast v hvpast a b ha hb
    · obtain rfl := List.mem_singleton.mp hvlast
      rcases List.mem_append.mp hw with hwpast | hwlast
      · exact (hlast w hwpast b a hb ha).symm
      · obtain rfl := List.mem_singleton.mp hwlast
        obtain ⟨now, hinput⟩ := ha.1
        obtain ⟨now', hinput'⟩ := hb.1
        rw [hinput] at hinput'
        exact (SessionOp.update.inj hinput').1

end Runs

/-- In every run in which the native sessions that turns find are bound by their own turns only,
no turn gets a native session of a stranger; and if turns bind what is new or what they got, only
in these runs. -/
theorem never_resumed_by_stranger (ops : List SessionOp) :
    ((∀ past t future, trace sessionNext ops .fresh = past ++ t :: future → BoundByOwn past t) →
      ∀ past t future, trace sessionNext ops .fresh = past ++ t :: future → OwnSession past t) ∧
    ((∀ past t future, trace sessionNext ops .fresh = past ++ t :: future → BindsNative past t) →
      (∀ past t future, trace sessionNext ops .fresh = past ++ t :: future → OwnSession past t) →
      ∀ past t future, trace sessionNext ops .fresh = past ++ t :: future → BoundByOwn past t) := by
  have hat : ∀ past t future, trace sessionNext ops .fresh = past ++ t :: future →
      AllKnown past t.before ∧ t = stepOf sessionNext t.input t.before := by
    intro past t future hrun
    have hmem : t ∈ trace sessionNext ops .fresh := by
      rw [hrun]
      exact List.mem_append_right _ List.mem_cons_self
    obtain ⟨_, _, -, hstep⟩ := mem_trace_split hmem
    refine ⟨history_at (R := AllKnown) allKnown_step ?_ hrun, ?_⟩
    · exact ⟨fun _ hs => absurd hs List.not_mem_nil, fun _ hs => absurd hs List.not_mem_nil⟩
    · rw [hstep]
      rfl
  constructor
  · intro hown past t future hrun
    obtain ⟨hknown, hstep⟩ := hat past t future hrun
    have hhere := hown past t future hrun
    rw [hstep] at hhere ⊢
    exact ownSession_of_boundByOwn hknown hhere
  · intro hnative hown past t future hrun turn now id existing claudeSessionId hinput hfind hid hne
      hswap v hv binder hbinds _
    obtain ⟨-, hstep⟩ := hat past t future hrun
    have houtput : t.output = some (t.before.getOrCreate turn now id).1 := by
      rw [hstep, hinput]
      rfl
    obtain ⟨u, hu, hbound⟩ := hown past t future hrun turn now id _ claudeSessionId hinput houtput
      ((getOrCreate_of_found hfind hswap now id).trans hid) hne
    obtain rfl := binders_unique hnative hown hrun hne v hv u hu binder turn hbinds hbound
    exact ⟨rfl, rfl, rfl, .inr rfl⟩

/-! A turn of another agent in the same chat. -/

def turnOf (agentId : String) : SessionTurn :=
  ⟨utf16 "main", utf16 "web", utf16 agentId, some (utf16 "claude-code")⟩

def osmodaStarts : SessionOp := .getOrCreate (turnOf "osmoda") 0 (utf16 "sess-0-a")

def osmodaBinds : SessionOp := .update (turnOf "osmoda") (utf16 "0a1b") 1

def osmodaResumes : SessionOp := .getOrCreate (turnOf "osmoda") 2 (utf16 "sess-2-b")

def osmodaRun : List SessionStep :=
  trace sessionNext [osmodaStarts, osmodaBinds, osmodaResumes] .fresh

theorem input_mem_of_osmodaRun {past future : List SessionStep} {v : SessionStep}
    (hrun : osmodaRun = past ++ future) (hv : v ∈ past ++ future) :
    v.input ∈ [osmodaStarts, osmodaBinds, osmodaResumes] := by
  rw [← trace_map_input sessionNext [osmodaStarts, osmodaBinds, osmodaResumes] .fresh]
  apply List.mem_map_of_mem
  change v ∈ osmodaRun
  rwa [hrun]

/-- A turn of the same agent gets the native session of its own. -/
theorem osmoda_resumes_own : ∀ past t future, osmodaRun = past ++ t :: future →
    OwnSession past t := by
  refine (never_resumed_by_stranger _).1 fun past t future hrun turn now id existing
    claudeSessionId hinput _ _ _ _ v hv binder hbinds _ => ?_
  have hbinder := input_mem_of_osmodaRun hrun (List.mem_append_left _ hv)
  have hturn := input_mem_of_osmodaRun hrun (List.mem_append_right past List.mem_cons_self)
  obtain ⟨⟨now', hupdate⟩, -⟩ := hbinds
  rw [hupdate] at hbinder
  rw [hinput] at hturn
  have hsame : binder = turnOf "osmoda" ∧ turn = turnOf "osmoda" := by
    simp only [osmodaStarts, osmodaBinds, osmodaResumes, List.mem_cons, SessionOp.update.injEq,
      SessionOp.getOrCreate.injEq, reduceCtorEq, List.not_mem_nil, or_false, false_or] at hbinder hturn
    exact ⟨hbinder.1, hturn.elim And.left And.left⟩
  obtain ⟨rfl, rfl⟩ := hsame
  exact ⟨rfl, rfl, rfl, .inr rfl⟩

def mobileStarts : SessionOp := .getOrCreate (turnOf "mobile") 2 (utf16 "sess-2-b")

/-- It gets the native session of the first. -/
theorem mobile_resumes_osmoda : ¬ ∀ ops past t future,
    trace sessionNext ops .fresh = past ++ t :: future → OwnSession past t := by
  intro h
  obtain ⟨v, hv, ⟨now, hinput⟩, -⟩ := h [osmodaStarts, osmodaBinds, mobileStarts] [_, _] _ [] rfl
    (turnOf "mobile") 2 (utf16 "sess-2-b") _ (utf16 "0a1b") rfl rfl rfl (by decide)
  rcases List.mem_pair.mp hv with rfl | rfl
  · cases hinput
  · have hagent := congrArg SessionTurn.agentId (SessionOp.update.inj hinput).1
    exact absurd hagent (by decide)

end OsModa.Gateway
