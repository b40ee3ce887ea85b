import OsModa.Base.Machine
import OsModa.Gateway.Drivers

/-!
The credentials that OpenClaw processes of one agent find.

All sessions of an agent share one file, and each writes its credential there before its process
is started. The writes come one after the other, but nothing keeps the file until the process has
read it; and a session whose turn to write comes after a write that failed does not write. So the
sessions have their own credentials if they do not overlap and no write fails before another
(`reads_own_credential`).
-/

namespace OsModa.Gateway.OpenClaw

open OsModa.Js OsModa.Machine

/-! ### The auth profile -/

/-- What the driver reads of a credential. -/
structure AuthCredential where
  provider : JsString
  type : JsString
  secret : JsString

inductive AuthProfile where
  | token (provider token : JsString)
  | apiKey (provider key : JsString)
  deriving DecidableEq

/-- `{ version: 1, profiles: { "<profileId>": profile } }` -/
structure AuthStore where
  version : Nat
  profileId : JsString
  profile : AuthProfile
  deriving DecidableEq

/-- What `writeAuthProfile` writes. -/
def AuthCredential.store (cred : AuthCredential) : AuthStore where
  version := 1
  profileId := cred.provider ++ utf16 "-default"
  profile :=
    if cred.type = utf16 "oauth" then .token cred.provider cred.secret
    else .apiKey cred.provider cred.secret

/-! ### Sessions -/

/-- The promise that a call of `writeAuthProfile` leaves in `authWriteLocks`. -/
inductive WritePromise where
  | pending
  | resolved
  | rejected (message : JsString)
  deriving DecidableEq

inductive SessionPhase where
  /-- Waits for its promise. -/
  | writing
  /-- Waits for `ensureAgentRegistered`. -/
  | registering
  /-- The process runs and has not called the model. -/
  | spawned
  | calling
  | ended
  deriving DecidableEq

structure AuthSession where
  credential : AuthCredential
  promise : WritePromise
  phase : SessionPhase

/-- The sessions of an agent in the order in which they called `writeAuthProfile`, those that
wait to be registered in theirs, and the agent's auth-profiles.json. -/
structure AuthState where
  sessions : List AuthSession
  registering : List Nat
  file : Option AuthStore

inductive AuthInput where
  /-- A session starts, where the binary is found or not. -/
  | start (credential : AuthCredential) (binary : Bool)
  /-- The turn of a session to write has come; what the write throws. -/
  | write (i : Nat) (error : Option JsString)
  /-- A session has awaited its promise. -/
  | resume (i : Nat) (cwd : JsString) (readable : Bool)
  /-- The agent is registered for the session that waits longest; why its process does not start. -/
  | registered (failure : Option StartFailure)
  /-- A process reads the file. -/
  | read (i : Nat)
  | modelCall (i : Nat)
  | exit (i : Nat)

inductive AuthOutput where
  | nothing
  /-- A session ends with an error before it calls `writeAuthProfile`. -/
  | noBinary
  | wrote (i : Nat)
  | writeFailed (i : Nat)
  /-- A session does not write. -/
  | skipped (i : Nat)
  /-- A session ends with an error. -/
  | failed (i : Nat) (failure : StartFailure)
  | spawned (i : Nat)
  | found (i : Nat) (file : Option AuthStore)

namespace AuthState

variable (s : AuthState)

def init (file : Option AuthStore) : AuthState := ⟨[], [], file⟩

def setSession (i : Nat) (session : AuthSession) : AuthState :=
  { s with sessions := s.sessions.set i session }

/-- `authWriteLocks.get(agentId) || Promise.resolve()`, as a session found it. -/
def promiseBefore : Nat → WritePromise
  | 0 => .resolved
  | i + 1 => (s.sessions[i]?).elim .resolved AuthSession.promise

/-- `prev.then(write, () => {})`, when `prev` is settled. -/
def write (i : Nat) (session : AuthSession) (error : Option JsString) : AuthOutput × AuthState :=
  match session.promise, s.promiseBefore i with
  | .pending, .resolved =>
    match error with
    | none =>
      (.wrote i, { s.setSession i { session with promise := .resolved } with
        file := some session.credential.store })
    | some message => (.writeFailed i, s.setSession i { session with promise := .rejected message })
  -- The handler of the rejection is no retry: the session's own write is left out.
  | .pending, .rejected _ => (.skipped i, s.setSession i { session with promise := .resolved })
  | _, _ => (.nothing, s)

/-- `startSession` from the promise to the registration. -/
def resume (i : Nat) (session : AuthSession) (cwd : JsString) (readable : Bool) :
    AuthOutput × AuthState :=
  match session.phase, session.promise with
  | .writing, .rejected message =>
    (.failed i (.authWriteFailed message), s.setSession i { session with phase := .ended })
  | .writing, .resolved =>
    if readable then
      (.nothing, { s.setSession i { session with phase := .registering } with
        registering := s.registering ++ [i] })
    else (.failed i (.workspaceMissing cwd), s.setSession i { session with phase := .ended })
  | _, _ => (.nothing, s)

/-- The process is started. -/
def spawn (i : Nat) (session : AuthSession) (failure : Option StartFailure) :
    AuthOutput × AuthState :=
  match failure with
  | none => (.spawned i, s.setSession i { session with phase := .spawned })
  | some failure => (.failed i failure, s.setSession i { session with phase := .ended })

/-- What a process does. -/
def process (i : Nat) (session : AuthSession) : AuthInput → AuthOutput × AuthState
  | .read _ => (.found i s.file, s)
  | .modelCall _ => (.nothing, s.setSession i { session with phase := .calling })
  | .exit _ => (.nothing, s.setSession i { session with phase := .ended })
  | _ => (.nothing, s)

end AuthState

def authNext (input : AuthInput) (s : AuthState) : AuthOutput × AuthState :=
  match input with
  | .start credential binary =>
    if binary then
      (.nothing, { s with sessions := s.sessions ++ [⟨credential, .pending, .writing⟩] })
    else (.noBinary, s)
  | .write i error => (s.sessions[i]?).elim (.nothing, s) fun session => s.write i session error
  | .resume i cwd readable =>
    (s.sessions[i]?).elim (.nothing, s) fun session => s.resume i session cwd readable
  | .registered failure =>
    match s.registering with
    | [] => (.nothing, s)
    | i :: rest => (s.sessions[i]?).elim (.nothing, s) fun session =>
      AuthState.spawn { s with registering := rest } i session failure
  | .read i | .modelCall i | .exit i =>
    (s.sessions[i]?).elim (.nothing, s) fun session =>
      if session.phase = .spawned ∨ session.phase = .calling then s.process i session input
      else (.nothing, s)

abbrev AuthStep := Step AuthState AuthInput AuthOutput

/-! ### What is said of a run -/

/-- A process finds the credential of its session until it calls the model; only a session that
has written is spawned, and one that could not write ends with an error. -/
structure OwnCredential (past : List AuthStep) (t : AuthStep) : Prop where
  read : ∀ i session file, t.before.sessions[i]? = some session → session.phase = .spawned →
    t.output = .found i file → file = some session.credential.store
  spawned : ∀ i, t.output = .spawned i → ∃ v ∈ past, v.output = .wrote i
  failed : ∀ i cwd readable session, t.input = .resume i cwd readable →
    t.before.sessions[i]? = some session → session.phase = .writing →
    session.promise ≠ .pending → (∀ v ∈ past, v.output ≠ .wrote i) →
    ∃ message, t.output = .failed i (.authWriteFailed message)

/-- The session is between its write and its first model call. -/
def AuthSession.relies (session : AuthSession) : Bool :=
  session.promise = .resolved &&
    (session.phase = .writing || session.phase = .registering || session.phase = .spawned)

/-- A session's turn to write has come: the write before it has not failed, and if it succeeds, no
session that has another credential is between its write and its first model call. -/
def AuthState.WriteFits (s : AuthState) (i : Nat) (error : Option JsString)
    (session : AuthSession) : Prop :=
  match s.promiseBefore i with
  | .pending => True
  | .rejected _ => False
  | .resolved => error = none → ∀ other ∈ s.sessions, other.relies = true →
    other.credential.store = session.credential.store

instance (s : AuthState) (i : Nat) (error : Option JsString) (session : AuthSession) :
    Decidable (s.WriteFits i error session) := by
  unfold AuthState.WriteFits
  split <;> infer_instance

/-- A session writes only when its write fits. -/
def WritesAlone (t : AuthStep) : Prop :=
  match t.input with
  | .write i error => ∀ session ∈ t.before.sessions[i]?, session.promise = .pending →
    t.before.WriteFits i error session
  | _ => True

instance (t : AuthStep) : Decidable (WritesAlone t) := by
  unfold WritesAlone
  split <;> infer_instance

/-! ### What a step can do -/

/-- All that a step can do. -/
inductive AuthOutcome (s : AuthState) : AuthInput → AuthOutput × AuthState → Prop where
  | idle (input : AuthInput)
      (hidle : ∀ i cwd readable session, input = .resume i cwd readable →
        s.sessions[i]? = some session → session.phase = .writing → session.promise = .pending) :
      AuthOutcome s input (.nothing, s)
  | noBinary (credential : AuthCredential) : AuthOutcome s (.start credential false) (.noBinary, s)
  | started (credential : AuthCredential) : AuthOutcome s (.start credential true)
      (.nothing, { s with sessions := s.sessions ++ [⟨credential, .pending, .writing⟩] })
  | wrote (i : Nat) (session : AuthSession) (hget : s.sessions[i]? = some session)
      (hpending : session.promise = .pending) (hbefore : s.promiseBefore i = .resolved) :
      AuthOutcome s (.write i none) (.wrote i,
        { s.setSession i { session with promise := .resolved } with
          file := some session.credential.store })
  | writeFailed (i : Nat) (session : AuthSession) (hget : s.sessions[i]? = some session)
      (hpending : session.promise = .pending) (message : JsString) :
      AuthOutcome s (.write i (some message))
        (.writeFailed i, s.setSession i { session with promise := .rejected message })
  | skipped (i : Nat) (session : AuthSession) (hget : s.sessions[i]? = some session)
      (hpending : session.promise = .pending) (message : JsString)
      (hbefore : s.promiseBefore i = .rejected message) (error : Option JsString) :
      AuthOutcome s (.write i error)
        (.skipped i, s.setSession i { session with promise := .resolved })
  | ended (i : Nat) (session : AuthSession) (hget : s.sessions[i]? = some session)
      (hphase : session.phase = .writing) (cwd : JsString) (readable : Bool) (failure : StartFailure)
      (hfailure : (∃ message, failure = .authWriteFailed message) ∨ session.promise = .resolved) :
      AuthOutcome s (.resume i cwd readable)
        (.failed i failure, s.setSession i { session with phase := .ended })
  | resumed (i : Nat) (session : AuthSession) (hget : s.sessions[i]? = some session)
      (hphase : session.phase = .writing) (hresolved : session.promise = .resolved)
      (cwd : JsString) : AuthOutcome s (.resume i cwd true)
        (.nothing, { s.setSession i { session with phase := .registering } with
          registering := s.registering ++ [i] })
  | spawned (i : Nat) (rest : List Nat) (hqueue : s.registering = i :: rest) (session : AuthSession)
      (hget : s.sessions[i]? = some session) : AuthOutcome s (.registered none) (.spawned i,
        { s.setSession i { session with phase := .spawned } with registering := rest })
  | unspawned (i : Nat) (rest : List Nat) (hqueue : s.registering = i :: rest)
      (session : AuthSession) (hget : s.sessions[i]? = some session) (failure : StartFailure) :
      AuthOutcome s (.registered (some failure)) (.failed i failure,
        { s.setSession i { session with phase := .ended } with registering := rest })
  | found (i : Nat) : AuthOutcome s (.read i) (.found i s.file, s)
  | called (i : Nat) (session : AuthSession) (hget : s.sessions[i]? = some session)
      (hphase : session.phase = .spawned ∨ session.phase = .calling) :
      AuthOutcome s (.modelCall i) (.nothing, s.setSession i { session with phase := .calling })
  | exited (i : Nat) (session : AuthSession) (hget : s.sessions[i]? = some session)
      (hphase : session.phase = .spawned ∨ session.phase = .calling) :
      AuthOutcome s (.exit i) (.nothing, s.setSession i { session with phase := .ended })

section Outcome

variable (s : AuthState)

theorem write_outcome {i : Nat} {session : AuthSession} (hget : s.sessions[i]? = some session)
    (error : Option JsString) : AuthOutcome s (.write i error) (s.write i session error) := by
  unfold AuthState.write
  split
  · rename_i hpending hbefore
    cases error with
    | none => exact .wrote i session hget hpending hbefore
    | some message => exact .writeFailed i session hget hpending message
  · rename_i message hpending hbefore
    exact .skipped i session hget hpending message hbefore error
  · exact .idle _ nofun

theorem resume_outcome {i : Nat} {session : AuthSession} (hget : s.sessions[i]? = some session)
    (cwd : JsString) (readable : Bool) :
    AuthOutcome s (.resume i cwd readable) (s.resume i session cwd readable) := by
  unfold AuthState.resume
  split
  · rename_i message hphase hpromise
    exact .ended i session hget hphase cwd readable _ (.inl ⟨message, rfl⟩)
  · rename_i hphase hresolved
    cases readable with
    | true => exact .resumed i session hget hphase hresolved cwd
    | false => exact .ended i session hget hphase cwd false _ (.inr hresolved)
  · rename_i hrejected hresolved
    apply AuthOutcome.idle
    rintro _ _ _ session' ⟨⟩ hget' hphase
    obtain rfl : session = session' := Option.some.inj (hget.symm.trans hget')
    cases hpromise : session.promise with
    | pending => rfl
    | resolved => exact absurd hpromise (hresolved hphase)
    | rejected message => exact absurd hpromise (hrejected message hphase)

theorem spawn_outcome {i : Nat} {rest : List Nat} (hqueue : s.registering = i :: rest)
    {session : AuthSession} (hget : s.sessions[i]? = some session) (failure : Option StartFailure) :
    AuthOutcome s (.registered failure)
      (AuthState.spawn { s with registering := rest } i session failure) := by
  cases failure with
  | none => exact .spawned i rest hqueue session hget
  | some failure => exact .unspawned i rest hqueue session hget failure

/-- A step of a session, if there is the session. -/
theorem session_outcome {input : AuthInput} {i : Nat} {f : AuthSession → AuthOutput × AuthState}
    (hnone : s.sessions[i]? = none → AuthOutcome s input (.nothing, s))
    (hsome : ∀ session, s.sessions[i]? = some session → AuthOutcome s input (f session)) :
    AuthOutcome s input ((s.sessions[i]?).elim (.nothing, s) f) := by
  cases hget : s.sessions[i]? with
  | none => exact hnone hget
  | some session => exact hsome session hget

theorem auth_outcome (input : AuthInput) : AuthOutcome s input (authNext input s) := by
  cases input with
  | start credential binary =>
    cases binary with
    | true => exact .started credential
    | false => exact .noBinary credential
  | write i error =>
    apply session_outcome
    · exact fun _ => .idle _ nofun
    · exact fun session hget => write_outcome s hget error
  | resume i cwd readable =>
    apply session_outcome
    · intro hnone
      apply AuthOutcome.idle
      rintro _ _ _ session ⟨⟩ hget
      rw [hnone] at hget
      cases hget
    · exact fun session hget => resume_outcome s hget cwd readable
  | registered failure =>
    rw [authNext]
    split
    · exact .idle _ nofun
    · rename_i i rest hqueue
      apply session_outcome
      · exact fun _ => .idle _ nofun
      · exact fun session hget => spawn_outcome s hqueue hget failure
  | read i =>
    apply session_outcome
    · exact fun _ => .idle _ nofun
    · intro session hget
      split
      · exact .found i
      · exact .idle _ nofun
  | modelCall i =>
    apply session_outcome
    · exact fun _ => .idle _ nofun
    · intro session hget
      split
      · rename_i hphase
        exact .called i session hget hphase
      · exact .idle _ nofun
  | exit i =>
    apply session_outcome
    · exact fun _ => .idle _ nofun
    · intro session hget
      split
      · rename_i hphase
        exact .exited i session hget hphase
      · exact .idle _ nofun

end Outcome

/-! ### The invariant -/

/-- What is known of a session: if its promise is resolved, it has written, and the file is what
it has written as long as it relies on it. -/
structure SessionKept (past : List AuthStep) (file : Option AuthStore) (k : Nat)
    (session : AuthSession) : Prop where
  wrote : session.promise = .resolved → ∃ v ∈ past, v.output = .wrote k
  own : session.relies = true → file = some session.credential.store
  resolved : session.phase ≠ .writing → session.phase ≠ .ended → session.promise = .resolved

structure AuthKept (past : List AuthStep) (s : AuthState) : Prop where
  sessions : ∀ k session, s.sessions[k]? = some session → SessionKept past s.file k session
  registering : ∀ i ∈ s.registering, ∃ session, s.sessions[i]? = some session ∧
    session.phase = .registering
  nodup : s.registering.Nodup

section Invariant

variable {past : List AuthStep} {s : AuthState} {t : AuthStep}

theorem SessionKept.mono {file : Option AuthStore} {k : Nat} {session : AuthSession}
    (h : SessionKept past file k session) (t : AuthStep) :
    SessionKept (past ++ [t]) file k session := by
  refine ⟨fun hresolved => ?_, h.own, h.resolved⟩
  obtain ⟨v, hv, hwrote⟩ := h.wrote hresolved
  exact ⟨v, List.mem_append_left _ hv, hwrote⟩

theorem SessionKept.resolved_of_eq {file : Option AuthStore} {k : Nat} {session : AuthSession}
    (h : SessionKept past file k session) {phase : SessionPhase} (hphase : session.phase = phase)
    (hwriting : phase ≠ .writing) (hended : phase ≠ .ended) : session.promise = .resolved := by
  subst hphase
  exact h.resolved hwriting hended

theorem AuthKept.mono (h : AuthKept past s) (t : AuthStep) : AuthKept (past ++ [t]) s :=
  ⟨fun k session hk => (h.sessions k session hk).mono t, h.registering, h.nodup⟩

/-- The sessions after one is changed. -/
theorem getElem?_set_cases {i k : Nat} {new session : AuthSession}
    (h : (s.sessions.set i new)[k]? = some session) :
    k = i ∧ session = new ∨ k ≠ i ∧ s.sessions[k]? = some session := by
  rw [List.getElem?_set] at h
  split at h
  · rename_i hik
    split at h
    · exact .inl ⟨hik.symm, (Option.some.inj h).symm⟩
    · cases h
  · rename_i hik
    exact .inr ⟨fun heq => hik heq.symm, h⟩

/-- A session is changed, and maybe the file; the session is none that waits to be registered. -/
theorem AuthKept.set (h : AuthKept past s) {i : Nat} {new : AuthSession} {file : Option AuthStore}
    {queue : List Nat} (hnew : SessionKept (past ++ [t]) file i new)
    (hfile : file = s.file ∨ ∀ other ∈ s.sessions, other.relies = true →
      file = some other.credential.store)
    (hqueue : ∀ k ∈ queue, k ∈ s.registering ∧ k ≠ i) (hnodup : queue.Nodup) :
    AuthKept (past ++ [t]) ⟨s.sessions.set i new, queue, file⟩ := by
  refine ⟨fun k session hk => ?_, fun k hk => ?_, hnodup⟩
  · rcases getElem?_set_cases hk with ⟨rfl, rfl⟩ | ⟨-, hold⟩
    · exact hnew
    · have hkept := (h.sessions k session hold).mono t
      rcases hfile with rfl | hfile
      · exact hkept
      · exact ⟨hkept.wrote, hfile session (List.mem_of_getElem? hold), hkept.resolved⟩
  · obtain ⟨hmem, hki⟩ := hqueue k hk
    obtain ⟨session, hget, hphase⟩ := h.registering k hmem
    refine ⟨session, ?_, hphase⟩
    rw [List.getElem?_set_ne (Ne.symm hki)]
    exact hget

/-- A session that does not wait to be registered. -/
theorem AuthKept.not_registering (h : AuthKept past s) {i : Nat} {session : AuthSession}
    (hget : s.sessions[i]? = some session) (hphase : session.phase ≠ .registering) :
    ∀ k ∈ s.registering, k ∈ s.registering ∧ k ≠ i := by
  intro k hk
  refine ⟨hk, ?_⟩
  rintro rfl
  obtain ⟨session', hget', hphase'⟩ := h.registering k hk
  obtain rfl : session = session' := Option.some.inj (hget.symm.trans hget')
  exact hphase hphase'

/-- A session gets another phase, in which it relies on the file only if it did before. -/
theorem AuthKept.setPhase (h : AuthKept past s) {i : Nat} {session : AuthSession}
    (hget : s.sessions[i]? = some session) {phase : SessionPhase}
    (hresolved : phase ≠ .writing → phase ≠ .ended → session.promise = .resolved)
    (hrelies : AuthSession.relies { session with phase := phase } = true → session.relies = true)
    {queue : List Nat} (hqueue : ∀ k ∈ queue, k ∈ s.registering ∧ k ≠ i) (hnodup : queue.Nodup)
    (t : AuthStep) :
    AuthKept (past ++ [t]) ⟨s.sessions.set i { session with phase := phase }, queue, s.file⟩ := by
  have hsession := (h.sessions i session hget).mono t
  apply h.set _ (.inl rfl) hqueue hnodup
  exact ⟨hsession.wrote, fun hnew => hsession.own (hrelies hnew), hresolved⟩

theorem AuthKept.setEnded (h : AuthKept past s) {i : Nat} {session : AuthSession}
    (hget : s.sessions[i]? = some session) {queue : List Nat}
    (hqueue : ∀ k ∈ queue, k ∈ s.registering ∧ k ≠ i) (hnodup : queue.Nodup) (t : AuthStep) :
    AuthKept (past ++ [t]) ⟨s.sessions.set i { session with phase := .ended }, queue, s.file⟩ := by
  apply h.setPhase hget _ _ hqueue hnodup
  · intro _ hended
    exact absurd rfl hended
  · intro hrelies
    simp [AuthSession.relies] at hrelies

/-- The session that waits longest leaves the registration. -/
theorem AuthKept.rest (h : AuthKept past s) {i : Nat} {rest : List Nat}
    (hqueue : s.registering = i :: rest) :
    (∀ k ∈ rest, k ∈ s.registering ∧ k ≠ i) ∧ rest.Nodup := by
  have hnodup := h.nodup
  rw [hqueue] at hnodup
  obtain ⟨hfirst, hrest⟩ := List.nodup_cons.mp hnodup
  refine ⟨fun k hk => ⟨?_, ?_⟩, hrest⟩
  · rw [hqueue]
    exact List.mem_cons_of_mem i hk
  · rintro rfl
    exact hfirst hk

/-- A session that runs has left the registration. -/
theorem ne_registering_of_runs {session : AuthSession}
    (h : session.phase = .spawned ∨ session.phase = .calling) : session.phase ≠ .registering := by
  intro hphase
  rw [hphase] at h
  rcases h with h | h <;> cases h

/-- A session that has not written waits for its promise, or has ended. -/
theorem ne_registering_of_pending {file : Option AuthStore} {k : Nat} {session : AuthSession}
    (h : SessionKept past file k session) (hpending : session.promise = .pending) :
    session.phase ≠ .registering := by
  intro hphase
  have hresolved := h.resolved_of_eq hphase nofun nofun
  rw [hpending] at hresolved
  cases hresolved

theorem AuthKept.started (h : AuthKept past s) (credential : AuthCredential) :
    AuthKept past { s with sessions := s.sessions ++ [⟨credential, .pending, .writing⟩] } := by
  refine ⟨fun k session hk => ?_, fun i hi => ?_, h.nodup⟩
  · rw [List.getElem?_append] at hk
    split at hk
    · exact h.sessions k session hk
    · obtain rfl := List.mem_singleton.mp (List.mem_of_getElem? hk)
      exact ⟨nofun, nofun, fun hphase => absurd rfl hphase⟩
  · obtain ⟨session, hget, hphase⟩ := h.registering i hi
    refine ⟨session, ?_, hphase⟩
    rw [List.getElem?_append_left (List.getElem?_eq_some_iff.mp hget).1]
    exact hget

/-- The step lemma. -/
theorem authKept_outcome {input : AuthInput} {out : AuthOutput × AuthState}
    (hout : AuthOutcome s input out) (h : AuthKept past s)
    (hfits : WritesAlone ⟨s, input, out.1, out.2⟩) :
    AuthKept (past ++ [⟨s, input, out.1, out.2⟩]) out.2 := by
  cases hout with
  | idle input hidle => exact h.mono _
  | noBinary credential => exact h.mono _
  | started credential => exact (h.mono _).started credential
  | wrote i session hget hpending hbefore =>
    have hsession := h.sessions i session hget
    have halone := hfits session hget hpending
    rw [AuthState.WriteFits, hbefore] at halone
    have hphase := ne_registering_of_pending hsession hpending
    refine h.set ⟨fun _ => ?_, fun _ => rfl, fun _ _ => rfl⟩ (.inr fun other hother hrelies => ?_)
      (h.not_registering hget hphase) h.nodup
    · exact ⟨_, List.mem_append_right _ (List.mem_singleton_self _), rfl⟩
    · exact congrArg some (halone rfl other hother hrelies).symm
  | writeFailed i session hget hpending message =>
    have hsession := h.sessions i session hget
    have hphase := ne_registering_of_pending hsession hpending
    refine h.set ⟨nofun, nofun, fun hwriting hended => ?_⟩ (.inl rfl)
      (h.not_registering hget hphase) h.nodup
    have hresolved := hsession.resolved hwriting hended
    rw [hpending] at hresolved
    cases hresolved
  | skipped i session hget hpending message hbefore error =>
    have halone := hfits session hget hpending
    rw [AuthState.WriteFits, hbefore] at halone
    exact halone.elim
  | ended i session hget hphase cwd readable failure hfailure =>
    exact h.setEnded hget (h.not_registering hget (by rw [hphase]; nofun)) h.nodup _
  | resumed i session hget hphase hresolved cwd =>
    have hrelies : session.relies = true := by simp [AuthSession.relies, hphase, hresolved]
    have hwaits := h.not_registering hget (by rw [hphase]; nofun)
    have hset : ∀ t, AuthKept (past ++ [t])
        ⟨s.sessions.set i { session with phase := .registering }, s.registering, s.file⟩ :=
      h.setPhase hget (fun _ _ => hresolved) (fun _ => hrelies) hwaits h.nodup
    refine ⟨(hset _).sessions, fun k hk => ?_, ?_⟩
    · rcases List.mem_append.mp hk with hk | hk
      · exact (hset ⟨s, .exit i, .nothing, s⟩).registering k hk
      · obtain rfl := List.mem_singleton.mp hk
        exact ⟨_, List.getElem?_set_self (List.getElem?_eq_some_iff.mp hget).1, rfl⟩
    · exact List.nodup_append_comm.mp (List.nodup_cons.mpr ⟨fun hi => (hwaits i hi).2 rfl, h.nodup⟩)
  | spawned i rest hqueue session hget =>
    obtain ⟨hrest, hnodup⟩ := h.rest hqueue
    obtain ⟨session', hget', hphase⟩ := h.registering i (by rw [hqueue]; exact List.mem_cons_self)
    obtain rfl : session = session' := Option.some.inj (hget.symm.trans hget')
    have hresolved := (h.sessions i session hget).resolved_of_eq hphase nofun nofun
    apply h.setPhase hget (fun _ _ => hresolved) _ hrest hnodup
    intro _
    simp [AuthSession.relies, hphase, hresolved]
  | unspawned i rest hqueue session hget failure =>
    obtain ⟨hrest, hnodup⟩ := h.rest hqueue
    exact h.setEnded hget hrest hnodup _
  | found i => exact h.mono _
  | called i session hget hphase =>
    apply h.setPhase hget _ _ (h.not_registering hget (ne_registering_of_runs hphase)) h.nodup
    · intro _ _
      rcases hphase with hphase | hphase
      · exact (h.sessions i session hget).resolved_of_eq hphase nofun nofun
      · exact (h.sessions i session hget).resolved_of_eq hphase nofun nofun
    · intro hrelies
      simp [AuthSession.relies] at hrelies
  | exited i session hget hphase =>
    exact h.setEnded hget (h.not_registering hget (ne_registering_of_runs hphase)) h.nodup _

/-! ### What the invariant gives -/

variable {input : AuthInput} {out : AuthOutput × AuthState}

/-- A process finds what is in the file. -/
theorem found_of_outcome (hout : AuthOutcome s input out) {i : Nat} {file : Option AuthStore}
    (h : out.1 = .found i file) : file = s.file := by
  cases hout with
  | found i =>
    cases h
    rfl
  | _ => cases h

/-- The process is that of the session that waits longest. -/
theorem spawned_of_outcome (hout : AuthOutcome s input out) {i : Nat} (h : out.1 = .spawned i) :
    i ∈ s.registering := by
  cases hout with
  | spawned j rest hqueue session hget =>
    obtain rfl : j = i := AuthOutput.spawned.inj h
    rw [hqueue]
    exact List.mem_cons_self
  | _ => cases h

theorem AuthKept.wrote_of_registering (h : AuthKept past s) {i : Nat} (hi : i ∈ s.registering) :
    ∃ v ∈ past, v.output = .wrote i := by
  obtain ⟨session, hget, hphase⟩ := h.registering i hi
  have hsession := h.sessions i session hget
  exact hsession.wrote (hsession.resolved_of_eq hphase nofun nofun)

theorem AuthKept.own_of_spawned (h : AuthKept past s) {i : Nat} {session : AuthSession}
    (hget : s.sessions[i]? = some session) (hphase : session.phase = .spawned) :
    s.file = some session.credential.store := by
  have hsession := h.sessions i session hget
  have hresolved := hsession.resolved_of_eq hphase nofun nofun
  apply hsession.own
  simp [AuthSession.relies, hphase, hresolved]

theorem ownCredential_of_kept (hout : AuthOutcome s input out) (h : AuthKept past s) :
    OwnCredential past ⟨s, input, out.1, out.2⟩ where
  read := by
    intro i session file hget hphase hfound
    rw [found_of_outcome hout hfound]
    exact h.own_of_spawned hget hphase
  spawned := by
    intro i hspawned
    exact h.wrote_of_registering (spawned_of_outcome hout hspawned)
  failed := by
    rintro i cwd readable session rfl hget hphase hsettled hunwritten
    have hunresolved : session.promise ≠ .resolved := by
      intro hresolved
      obtain ⟨v, hv, hwrote⟩ := (h.sessions i session hget).wrote hresolved
      exact hunwritten v hv hwrote
    cases hout with
    | idle input hidle => exact absurd (hidle i cwd readable session rfl hget hphase) hsettled
    | ended _ session' hget' hphase' cwd readable failure hfailure =>
      obtain rfl : session = session' := Option.some.inj (hget.symm.trans hget')
      rcases hfailure with ⟨message, rfl⟩ | hresolved
      · exact ⟨message, rfl⟩
      · exact absurd hresolved hunresolved
    | resumed _ session' hget' hphase' hresolved cwd =>
      obtain rfl : session = session' := Option.some.inj (hget.symm.trans hget')
      exact absurd hresolved hunresolved

end Invariant

/-- In every run in which sessions write alone, each process finds the credential of its session
until it calls the model, and no session that could not write is spawned. -/
theorem reads_own_credential (file : Option AuthStore) (inputs : List AuthInput)
    (halone : ∀ t ∈ trace authNext inputs (.init file), WritesAlone t) :
    ∀ past t future, trace authNext inputs (.init file) = past ++ t :: future →
      OwnCredential past t := by
  intro past t future hsplit
  have hkeep : ∀ input past s, AuthKept past s → WritesAlone (stepOf authNext input s) →
      AuthKept (past ++ [stepOf authNext input s]) (authNext input s).2 :=
    fun input past s h hfits => authKept_outcome (auth_outcome s input) h hfits
  have hinit : AuthKept [] (.init file) := ⟨nofun, nofun, List.nodup_nil⟩
  have hcond : ∀ past t future, trace authNext inputs (.init file) = past ++ t :: future →
      WritesAlone t := by
    intro past t future hsplit
    apply halone
    rw [hsplit]
    exact List.mem_append_right _ List.mem_cons_self
  obtain ⟨hkept, hstep⟩ := history_before_of hkeep hinit hcond hsplit
  rw [hstep]
  exact ownCredential_of_kept (auth_outcome _ _) hkept

/-! Two sessions of an agent with a key each. -/

def keyOf (secret : String) : AuthCredential := ⟨utf16 "anthropic", utf16 "api_key", utf16 secret⟩

/-- A session starts and writes, and is on its way to its process. -/
def startSteps (i : Nat) (secret : String) : List AuthInput :=
  [.start (keyOf secret) true, .write i none, .resume i (utf16 "/root") true]

/-- One session after the other; the third cannot write. -/
def aloneInputs : List AuthInput :=
  startSteps 0 "sk-ant-api-a" ++ [.registered none, .read 0, .modelCall 0] ++
    startSteps 1 "sk-ant-api-b" ++ [.registered none, .read 1, .modelCall 1,
      .start (keyOf "sk-ant-api-c") true, .write 2 (some (utf16 "ENOSPC")),
      .resume 2 (utf16 "/root") true]

theorem reads_own_credential_alone :
    (final authNext aloneInputs (.init none)).file = some (keyOf "sk-ant-api-b").store ∧
      ∀ past t future, trace authNext aloneInputs (.init none) = past ++ t :: future →
        OwnCredential past t :=
  ⟨by decide +kernel, reads_own_credential none aloneInputs (by decide +kernel)⟩

/-- The second session writes before the process of the first is started. -/
def overlappingInputs : List AuthInput :=
  startSteps 0 "sk-ant-api-a" ++ startSteps 1 "sk-ant-api-b" ++ [.registered none]

/-- The first session's process finds the credential of the second. -/
theorem finds_other_credential : ¬ ∀ file inputs past t future,
    trace authNext inputs (.init file) = past ++ t :: future → OwnCredential past t := by
  intro h
  have hown := (h none (overlappingInputs ++ [.read 0]) (trace authNext overlappingInputs (.init none))
    _ [] (trace_append ..)).read 0 _ _ rfl rfl rfl
  revert hown
  decide +kernel

/-- The second session comes after one whose write has failed. -/
def skippedInputs : List AuthInput :=
  [.start (keyOf "sk-ant-api-a") true, .write 0 (some (utf16 "ENOSPC"))] ++
    startSteps 1 "sk-ant-api-b"

/-- It is spawned, though it has not written. -/
example : ¬ ∀ file inputs past t future,
    trace authNext inputs (.init file) = past ++ t :: future →
      ∀ i, t.output = .spawned i → ∃ v ∈ past, v.output = .wrote i := by
  intro h
  obtain ⟨v, hv, hwrote⟩ := h none (skippedInputs ++ [.registered none])
    (trace authNext skippedInputs (.init none)) _ [] (trace_append ..) 1 rfl
  simp only [skippedInputs, startSteps, List.cons_append, List.nil_append, trace_cons, trace_nil,
    List.mem_cons, List.not_mem_nil, or_false] at hv
  rcases hv with rfl | rfl | rfl | rfl | rfl <;> cases hwrote

end OsModa.Gateway.OpenClaw
