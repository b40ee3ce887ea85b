import OsModa.Gateway.Budget
import OsModa.Gateway.StoreLoss

/-!
The gateway's turns over its credentials, and which of them the sessions are started with.

The first session of a turn is started with the agent's credential whatever its cooldown is. A web
turn that goes on after its credential has failed takes another one that is healthy.
`GatewayState.step_opens` says which sessions a step opens, and `CredentialGateway.turn_begins` with
which credentials.
-/

namespace OsModa.Gateway

open OsModa.Js

/-! ### State -/

/-- A credential as frames name it. -/
def StoredCredential.named (c : StoredCredential) : Credential :=
  ⟨c.id, text (some c.label), text c.provider, text c.type⟩
where
  text (v : Option Value) : JsString := (ConfigError.textOf v).getD []

structure SessionStart where
  session : SessionId
  credential : StoredCredential
  /-- The session whose turn goes on in it. -/
  retryOf : Option Nat

structure CredentialGateway where
  gateway : GatewayState
  file : CredentialsFile
  /-- The credentials of the sessions, the last first. -/
  active : List (Nat × StoredCredential)

/-- An operation on the store that is not part of a turn. -/
inductive CredentialOp where
  | add (c : NewCredential) (id createdAt : JsString)
  | remove (id : JsString)
  | setDefault (id : JsString)
  | updateMeta (id : JsString) (patch : CredentialPatch)

def CredentialOp.apply (file : CredentialsFile) : CredentialOp → CredentialsFile
  | .add c id createdAt => file.addCredential (c.stored id createdAt)
  | .remove id => (file.removeCredential id).getD file
  | .setDefault id => (file.setDefault id).getD file
  | .updateMeta id patch => (file.updateMeta id patch.apply).getD file

/-- A step of the gateway. What it looks up of the store is put in where it is run. -/
structure TurnInput extends GatewayInput where
  /-- The credential of the agent of a tick. -/
  credentialId : JsString
  /-- The clock as cooldowns read it. -/
  readAt : Nat

inductive CredentialInput where
  | turn (input : TurnInput)
  | store (op : CredentialOp)

/-! ### Steps -/

/-- The session whose turn a step may go on with. -/
def GatewayOp.resumes : GatewayOp → Option Nat
  | .next session _ _ => some session
  | _ => none

/-- What the operation has looked up of the store is there. -/
def GatewayOp.finds : GatewayOp → Bool
  | .chat _ request _ => request.credential.isSome
  | .telegram update _ => update.credential.isSome
  | .agentTurn request => request.credential.isSome
  | .fire _ deps => deps.hasCredential
  | .next _ fallback _ => fallback.isSome
  | _ => false

/-- The operation with a credential in the place of what it looks up. -/
def GatewayOp.lookedUp (found : Option StoredCredential) : GatewayOp → GatewayOp
  | .chat conn request run =>
    .chat conn { request with credential := found.map StoredCredential.named } run
  | .telegram update run =>
    .telegram { update with credential := found.map StoredCredential.named } run
  | .agentTurn request => .agentTurn { request with credential := found.map StoredCredential.named }
  | .fire handle deps => .fire handle { deps with hasCredential := found.isSome }
  | .next session _ run => .next session (found.map StoredCredential.named) run
  | op => op

/-- `markCredentialCooldown`, for 30 minutes. -/
def CredentialsFile.parked (readAt : Nat) (file : CredentialsFile) :
    GatewayEffect → CredentialsFile
  | .markCooldown id reason =>
    (file.markCooldown id (utf16 reason) (readAt + 30 * 60 * 1000)).getD file
  | _ => file

def SessionStart.held? (start : SessionStart) : Option (Nat × StoredCredential) :=
  match start.session with
  | .gateway n => some (n, start.credential)
  | .loop _ => none

namespace CredentialGateway

variable (table : List (String × Price)) (tables : CaseTables) (maxLoops : Nat)

/-- The credential that a web turn goes on with, once the one of its session is parked. -/
def fallback (s : CredentialGateway) (session readAt : Nat) : Option StoredCredential :=
  match s.gateway.streaming.find? session with
  | some ⟨_, _, _, .web web⟩ =>
    (s.active.lookup session).bind fun failed =>
      (s.file.parked readAt
        (.markCooldown failed.id (web.pass.credErrorReason.getD "unknown"))).pickFallback failed
        readAt
  | _ => none

/-- What a step finds in the store. -/
def found (s : CredentialGateway) (input : TurnInput) : Option StoredCredential :=
  match input.op with
  | .chat _ request _ => s.file.getCredential request.credentialId
  | .telegram update _ => s.file.getCredential update.credentialId
  | .agentTurn request => s.file.getCredential request.credentialId
  | .fire _ _ => s.file.getCredential input.credentialId
  | .next session _ _ => s.fallback session input.readAt
  | _ => none

def turn (input : TurnInput) (s : CredentialGateway) : List SessionStart × CredentialGateway :=
  let found := s.found input
  let out := s.gateway.step table tables maxLoops ⟨input.op.lookedUp found, input.w⟩
  let begun := (starts out.1).filterMap fun x => found.map (⟨x.1, ·, input.op.resumes⟩)
  (begun, ⟨out.2, out.1.foldl (CredentialsFile.parked input.readAt) s.file,
    begun.filterMap SessionStart.held? ++ s.active⟩)

def step (input : CredentialInput) (s : CredentialGateway) : List SessionStart × CredentialGateway :=
  match input with
  | .turn input => s.turn table tables maxLoops input
  | .store op => ([], { s with file := op.apply s.file })

/-- A new process, with the files that it finds. -/
def boot (usage : Buckets) (loops : Table Loop.id) (file : CredentialsFile) : CredentialGateway :=
  ⟨.boot usage loops, file, []⟩

end CredentialGateway

/-! ### What a step opens -/

/-- The turn has gone on with another credential. -/
def Turn.retried (turn : Turn) : Bool :=
  match turn.consumer with
  | .web web => web.retried
  | .telegram _ => false

namespace GatewayState

/-- The turn of a session, if it is read, was read before, with as many passes. -/
def OldTurn (g g' : GatewayState) (session : Nat) : Prop :=
  ∀ turn', g'.streaming.find? session = some turn' →
    ∃ turn, g.streaming.find? session = some turn ∧ turn'.retried = turn.retried

/-- The session that a step opens, if it opens one. -/
inductive Opens (g : GatewayState) (op : GatewayOp) (out : List GatewayEffect × GatewayState) :
    Prop where
  | nothing (hstarts : starts out.1 = []) (hnext : out.2.nextSession = g.nextSession)
      (hold : ∀ session, g.OldTurn out.2 session)
  | loopTurn (hop : op.resumes = none)
      (hstarts : ∀ x ∈ starts out.1, op.finds = true ∧ ∃ k, x.1 = .loop k)
      (hnext : out.2.nextSession = g.nextSession) (hold : ∀ session, g.OldTurn out.2 session)
  | first (hop : op.resumes = none) (hfinds : op.finds = true) (agent : AgentProfile)
      (hstarts : starts out.1 = [(.gateway g.nextSession, agent)])
      (hnext : out.2.nextSession = g.nextSession + 1)
      (hold : ∀ session, session ≠ g.nextSession → g.OldTurn out.2 session)
  | again (session : Nat) (hop : op.resumes = some session) (hfinds : op.finds = true) (turn : Turn)
      (hfind : g.streaming.find? session = some turn) (hfirst : turn.retried = false)
      (agent : AgentProfile) (hstarts : starts out.1 = [(.gateway g.nextSession, agent)])
      (hnext : out.2.nextSession = g.nextSession + 1)
      (hold : ∀ session, session ≠ g.nextSession → g.OldTurn out.2 session)
      (hgone : session ≠ g.nextSession → out.2.streaming.find? session = none)
      (hnew : ∀ turn', out.2.streaming.find? g.nextSession = some turn' → turn'.retried = true)

section Handlers

variable {table : List (String × Price)} {tables : CaseTables} {maxLoops : Nat}
variable (g : GatewayState) (w : Moment) {op : GatewayOp}

theorem oldTurn_of_eq {g' : GatewayState} (h : g'.streaming = g.streaming) (session : Nat) :
    g.OldTurn g' session :=
  fun turn' hfind => ⟨turn', h ▸ hfind, rfl⟩

theorem oldTurn_of_erase {g' : GatewayState} {session : Nat}
    (h : g'.streaming = g.streaming.erase session) (session' : Nat) : g.OldTurn g' session' := by
  intro turn' hfind
  rw [h, Table.find?_erase] at hfind
  split at hfind
  · cases hfind
  · exact ⟨turn', hfind, rfl⟩

theorem opens_quiet {out : List GatewayEffect × GatewayState} (hplain : Plain out.1)
    (hnext : out.2.nextSession = g.nextSession) (hstreaming : out.2.streaming = g.streaming) :
    g.Opens op out :=
  .nothing hplain.2 hnext (g.oldTurn_of_eq hstreaming)

variable {g w} in
/-- A message from outside opens a session where it names a credential that is found. -/
theorem Enters.opens {credential : Option Credential} {out : List GatewayEffect × GatewayState}
    (h : g.Enters w credential out) (hop : op.resumes = none)
    (hfinds : op.finds = credential.isSome) : g.Opens op out := by
  cases h with
  | answered hplain spend hout => exact g.opens_quiet hplain (by rw [hout]) (by rw [hout])
  | opened agent hcredential _ _ _ hstarts hnext hstreaming _ =>
    refine .first hop (hfinds.trans hcredential) agent hstarts hnext ?_
    intro session hother turn' hfind
    exact ⟨turn', hstreaming session hother ▸ hfind, rfl⟩

/-! A turn that is read -/

theorem bill_streaming (session : SessionId) (agent : AgentProfile) (usage : Option SpendUsage) :
    (g.bill table session agent usage w).2.streaming = g.streaming := by
  cases usage <;> rfl

theorem bill_nextSession (session : SessionId) (agent : AgentProfile)
    (usage : Option SpendUsage) :
    (g.bill table session agent usage w).2.nextSession = g.nextSession := by
  cases usage <;> rfl

/-- An event that is read leaves its turn with as many passes. -/
theorem advance_opens {turn : Turn} (hfind : g.streaming.find? turn.session = some turn)
    (events : List AgentEvent) (consumer : Consumer)
    (hconsumer : Turn.retried { turn with consumer } = turn.retried) {effects : List GatewayEffect}
    (hplain : Plain effects) (usage : Option SpendUsage) :
    g.Opens op
      (effects ++ ((g.advance turn events consumer).bill table (.gateway turn.session) turn.agent
          usage w).1,
        ((g.advance turn events consumer).bill table (.gateway turn.session) turn.agent usage w).2) := by
  refine .nothing ?_ (bill_nextSession ..) fun session turn' h => ?_
  · rw [starts_append, hplain.2]
    exact starts_bill (e := ⟨.gateway turn.session, turn.agent, usage⟩) _ w
  · rw [bill_streaming] at h
    simp only [advance, Table.find?_put] at h
    by_cases hsame : turn.session = session
    · rw [if_pos hsame] at h
      rw [← Option.some.inj h]
      exact ⟨turn, hsame ▸ hfind, hconsumer⟩
    · rw [if_neg hsame] at h
      exact ⟨turn', h, rfl⟩

theorem closeTurn_opens (turn : Turn) (web : WebTurn) (thrown : Option JsString)
    {effects : List GatewayEffect} (hplain : Plain effects) :
    g.Opens op (effects ++ (g.closeTurn turn web thrown).1, (g.closeTurn turn web thrown).2) :=
  .nothing (hplain.append (g.closeTurn_plain turn web thrown)).2 rfl (g.oldTurn_of_erase rfl)

theorem passEnds_opens {turn : Turn} {web : WebTurn} {session : Nat}
    (hfind : g.streaming.find? session = some turn) (hsession : turn.session = session)
    (hconsumer : turn.consumer = .web web) (fallback : Option Credential) (run : DriverRun) :
    g.Opens (.next session fallback run) (g.passEnds turn web fallback run) := by
  have hended := g.passEnds_ended turn web fallback run
  generalize g.passEnds turn web fallback run = out at hended ⊢
  cases hended with
  | closed thrown hplain hretry => exact g.closeTurn_opens turn web thrown hplain
  | again next hplain hfallback hretried hretry =>
    subst hsession hfallback
    refine .again turn.session rfl rfl turn hfind ?_ turn.agent ?_ rfl ?_ ?_ ?_
    · rw [Turn.retried, hconsumer]
      exact hretried
    · rw [starts_append, hplain.2]
      rfl
    · intro session hother turn' h
      simp only [startStreaming, Table.find?_put, if_neg hother.symm] at h
      rw [Table.find?_erase] at h
      split at h
      · cases h
      · exact ⟨turn', h, rfl⟩
    · intro hother
      simp only [startStreaming, Table.find?_put, if_neg hother.symm, Table.find?_erase, if_true]
    · intro turn' h
      simp only [startStreaming, Table.find?_put, if_true] at h
      rw [← Option.some.inj h]
      rfl

/-- The turn's number of passes is not changed by an event. -/
theorem retried_absorb (tables : CaseTables) (web : WebTurn) (e : AgentEvent) :
    (web.absorb tables e).retried = web.retried := by
  cases e with
  | text text | textBulk text =>
    rw [WebTurn.absorb]
    split <;> rfl
  | done sessionId usage =>
    rw [WebTurn.absorb, WebTurn.flushed]
    split <;> rfl
  | _ => rfl

theorem next_opens (session : Nat) (fallback : Option Credential) (run : DriverRun) :
    g.Opens (.next session fallback run) (g.next table tables session fallback run w) := by
  unfold next
  cases hfind : g.streaming.find? session with
  | none => exact g.opens_quiet plain_nil rfl rfl
  | some turn =>
    obtain rfl : turn.session = session := Table.key_of_find? hfind
    obtain ⟨session, agent, ⟨events, thrown⟩, consumer⟩ := turn
    cases consumer with
    | telegram reply =>
      dsimp only [telegramNext]
      cases events with
      | nil => exact .nothing (plain_deliver _ _ _).2 rfl (g.oldTurn_of_erase rfl)
      | cons e events =>
        exact g.advance_opens w hfind events (.telegram (reply.absorb e)) rfl
          (plain_map (fun _ => rfl) (fun _ => rfl) _) _
    | web web =>
      dsimp only [webNext]
      cases events with
      | nil =>
        cases thrown with
        | some message =>
          exact .nothing (g.closeTurn_plain _ web _).2 rfl (g.oldTurn_of_erase rfl)
        | none => exact g.passEnds_opens hfind rfl rfl fallback run
      | cons e events =>
        dsimp only
        split
        · exact g.passEnds_opens hfind rfl rfl fallback run
        · exact g.advance_opens w hfind events (.web (web.absorb tables e))
            (retried_absorb tables web e) (plain_show tables web agent e) _

/-! Requests, loops and the process -/

theorem agentTurnEnds_opens (session : Nat) (run : DriverRun) :
    g.Opens op (g.agentTurnEnds table session run w) := by
  unfold agentTurnEnds
  cases hfind : g.requests.find? session with
  | none => exact g.opens_quiet plain_nil rfl rfl
  | some turn =>
    refine .nothing ?_ (bill_nextSession ..) fun session => oldTurn_of_eq _ (bill_streaming ..) session
    dsimp only
    rw [starts_append, (plain_answer turn _).2]
    exact congrArg (· ++ []) (starts_bill (e := ⟨.gateway session, turn.agent, _⟩) _ w)

theorem fire_opens (handle : Nat) (deps : TickDeps) :
    g.Opens (.fire handle deps) (g.fire handle deps w) := by
  unfold fire
  cases g.loops.gatedAgent handle deps with
  | none =>
    refine .nothing (List.eq_nil_iff_forall_not_mem.mpr fun start hstart => ?_) rfl
      (g.oldTurn_of_eq rfl)
    cases (starts_loopEffects (s := start.1) (a := start.2) hstart).1
  | some agent =>
    refine .loopTurn rfl (fun start hstart => ?_) rfl (g.oldTurn_of_eq rfl)
    obtain ⟨-, id, controller, message, hloop, hmem⟩ :=
      starts_loopEffects (s := start.1) (a := start.2) hstart
    exact ⟨(g.loops.deps_of_fire id w.toWorld hmem).2, controller, hloop⟩

/-- Effects of a loop start no session. -/
theorem runEffects_opens (session : SessionId) (effects : List LoopEffect) :
    starts (g.runEffects table session w effects).1 = [] ∧
      (g.runEffects table session w effects).2.nextSession = g.nextSession ∧
      (g.runEffects table session w effects).2.streaming = g.streaming := by
  induction effects generalizing g with
  | nil => exact ⟨rfl, rfl, rfl⟩
  | cons e effects ih =>
    cases e with
    | spendRecord agent usage =>
      obtain ⟨hstarts, hnext, hstreaming⟩ := ih (g.record table session agent usage w).2
      refine ⟨?_, hnext, hstreaming⟩
      rw [runEffects, starts_append, hstarts]
      exact congrArg (· ++ []) (starts_bill (e := ⟨session, agent, some usage⟩) g w)
    | _ => exact ih g

theorem loopTurnEnds_opens (controller : Nat) (run : DriverRun) :
    g.Opens op (g.loopTurnEnds table tables controller run w) := by
  obtain ⟨hstarts, hnext, hstreaming⟩ := @runEffects_opens table
    { g with loops := (g.loops.turnEnds tables controller run.stream w.toWorld).2 } w
    (.loop controller) (g.loops.turnEnds tables controller run.stream w.toWorld).1
  exact .nothing hstarts hnext (g.oldTurn_of_eq hstreaming)

/-- The session that a step opens. -/
theorem step_opens (input : GatewayInput) :
    g.Opens input.op (step table tables maxLoops input g) := by
  obtain ⟨op, w⟩ := input
  cases op with
  | connect conn =>
    unfold step
    dsimp only
    split <;> exact g.opens_quiet plain_nil rfl rfl
  | chat conn request run => exact (g.chat_enters w conn request run).opens rfl rfl
  | abort conn =>
    change g.Opens (.abort conn) (g.abort conn)
    unfold abort
    split
    · exact g.opens_quiet plain_nil rfl rfl
    · split
      · exact g.opens_quiet (plain_one rfl rfl) rfl rfl
      · exact g.opens_quiet plain_nil rfl rfl
  | closing conn => exact g.opens_quiet plain_nil rfl rfl
  | close conn =>
    change g.Opens (.close conn) (g.close conn)
    unfold close
    split
    · exact g.opens_quiet plain_nil rfl rfl
    · refine g.opens_quiet ?_ rfl rfl
      dsimp only
      split
      · exact plain_one rfl rfl
      · exact plain_nil
  | telegram update run => exact (g.telegram_enters w update run).opens rfl rfl
  | next session fallback run => exact g.next_opens w session fallback run
  | agentTurn request => exact (g.agentTurn_enters w request).opens rfl rfl
  | agentTurnEnds session run => exact g.agentTurnEnds_opens w session run
  | loopRequest request =>
    exact g.opens_quiet (plain_map (fun _ => rfl) (fun _ => rfl) _) rfl rfl
  | fire handle deps => exact g.fire_opens w handle deps
  | loopTurnEnds controller run => exact g.loopTurnEnds_opens w controller run
  | restart file => exact .nothing rfl rfl fun session turn' h => by cases h

end Handlers

end GatewayState

/-! ### What a step begins -/

@[simp] theorem resumes_lookedUp (op : GatewayOp) (found : Option StoredCredential) :
    (op.lookedUp found).resumes = op.resumes := by
  cases op <;> rfl

theorem isSome_of_finds {op : GatewayOp} {found : Option StoredCredential}
    (h : (op.lookedUp found).finds = true) : found.isSome = true := by
  cases op with
  | chat | telegram | agentTurn | next => exact Option.isSome_map.symm.trans h
  | fire => exact h
  | _ => cases h

namespace CredentialGateway

/-- The sessions that a step begins, with the credential that it finds. -/
inductive Begins (s : CredentialGateway) (input : TurnInput)
    (out : List SessionStart × CredentialGateway) : Prop where
  | nothing (hstarts : out.1 = []) (hactive : out.2.active = s.active)
      (hnext : out.2.gateway.nextSession = s.gateway.nextSession)
      (hold : ∀ session, s.gateway.OldTurn out.2.gateway session)
  | loopTurn (hop : input.op.resumes = none) (c : StoredCredential) (hfound : s.found input = some c)
      (hstarts : ∀ x ∈ out.1, ∃ k, x = ⟨.loop k, c, none⟩) (hactive : out.2.active = s.active)
      (hnext : out.2.gateway.nextSession = s.gateway.nextSession)
      (hold : ∀ session, s.gateway.OldTurn out.2.gateway session)
  | first (hop : input.op.resumes = none) (c : StoredCredential) (hfound : s.found input = some c)
      (hstarts : out.1 = [⟨.gateway s.gateway.nextSession, c, none⟩])
      (hactive : out.2.active = (s.gateway.nextSession, c) :: s.active)
      (hnext : out.2.gateway.nextSession = s.gateway.nextSession + 1)
      (hold : ∀ session, session ≠ s.gateway.nextSession →
        s.gateway.OldTurn out.2.gateway session)
  | again (session : Nat) (hop : input.op.resumes = some session) (c : StoredCredential)
      (hfound : s.fallback session input.readAt = some c) (turn : Turn)
      (hfind : s.gateway.streaming.find? session = some turn) (hfirst : turn.retried = false)
      (hstarts : out.1 = [⟨.gateway s.gateway.nextSession, c, some session⟩])
      (hactive : out.2.active = (s.gateway.nextSession, c) :: s.active)
      (hnext : out.2.gateway.nextSession = s.gateway.nextSession + 1)
      (hold : ∀ session, session ≠ s.gateway.nextSession →
        s.gateway.OldTurn out.2.gateway session)
      (hgone : session ≠ s.gateway.nextSession →
        out.2.gateway.streaming.find? session = none)
      (hnew : ∀ turn', out.2.gateway.streaming.find? s.gateway.nextSession = some turn' →
        turn'.retried = true)

section Steps

variable {table : List (String × Price)} {tables : CaseTables} {maxLoops : Nat}
variable {s : CredentialGateway} {input : TurnInput}

theorem found_of_resumes {session : Nat} (h : input.op.resumes = some session) :
    s.found input = s.fallback session input.readAt := by
  rw [found]
  cases hop : input.op with
  | next session' fallback run =>
    rw [hop] at h
    rw [Option.some.inj h]
  | _ =>
    rw [hop] at h
    cases h

theorem turn_begins : s.Begins input (s.turn table tables maxLoops input) := by
  have hopens := @GatewayState.step_opens table tables maxLoops s.gateway
    ⟨input.op.lookedUp (s.found input), input.w⟩
  rw [turn]
  dsimp only at hopens ⊢
  generalize s.gateway.step table tables maxLoops
    ⟨input.op.lookedUp (s.found input), input.w⟩ = out at hopens ⊢
  cases hopens with
  | nothing hstarts hnext hold =>
    rw [hstarts]
    exact .nothing rfl rfl hnext hold
  | loopTurn hop hstarts hnext hold =>
    rw [resumes_lookedUp] at hop
    rw [hop]
    cases hfound : s.found input with
    | none =>
      have hnone : (starts out.1).filterMap (fun x =>
          Option.map (SessionStart.mk x.1 · none) (none : Option StoredCredential)) = [] :=
        List.filterMap_eq_nil_iff.mpr fun _ _ => rfl
      rw [hnone]
      exact .nothing rfl rfl hnext hold
    | some c =>
      refine .loopTurn hop c hfound (fun start hstart => ?_) ?_ hnext hold
      · obtain ⟨x, hx, hmade⟩ := List.mem_filterMap.mp hstart
        obtain ⟨-, k, hloop⟩ := hstarts x hx
        refine ⟨k, ?_⟩
        rw [← hloop]
        exact (Option.some.inj hmade).symm
      · dsimp only
        rw [List.filterMap_eq_nil_iff.mpr fun start hstart => ?_]
        · rfl
        · obtain ⟨x, hx, hmade⟩ := List.mem_filterMap.mp hstart
          obtain ⟨-, k, hloop⟩ := hstarts x hx
          rw [← Option.some.inj hmade, SessionStart.held?]
          dsimp only
          rw [hloop]
  | first hop hfinds agent hstarts hnext hold =>
    rw [resumes_lookedUp] at hop
    obtain ⟨c, hfound⟩ := Option.isSome_iff_exists.mp (isSome_of_finds hfinds)
    rw [hstarts, hfound, hop]
    exact .first hop c hfound rfl rfl hnext hold
  | again session hop hfinds turn hfind hfirst agent hstarts hnext hold hgone hnew =>
    rw [resumes_lookedUp] at hop
    obtain ⟨c, hfound⟩ := Option.isSome_iff_exists.mp (isSome_of_finds hfinds)
    rw [hstarts, hfound, hop]
    rw [found_of_resumes hop] at hfound
    exact .again session hop c hfound turn hfind hfirst rfl rfl hnext hold hgone hnew

/-- No session is begun without a credential. -/
theorem map_session_turn : (s.turn table tables maxLoops input).1.map SessionStart.session =
    (starts (s.gateway.step table tables maxLoops
      ⟨input.op.lookedUp (s.found input), input.w⟩).1).map Prod.fst := by
  have hopens := @GatewayState.step_opens table tables maxLoops s.gateway
    ⟨input.op.lookedUp (s.found input), input.w⟩
  have hfound : ∀ x ∈ starts (s.gateway.step table tables maxLoops
      ⟨input.op.lookedUp (s.found input), input.w⟩).1, ∃ c, s.found input = some c := by
    intro x hx
    apply Option.isSome_iff_exists.mp
    cases hopens with
    | nothing hstarts hnext hold =>
      rw [hstarts] at hx
      cases hx
    | loopTurn hop hstarts hnext hold => exact isSome_of_finds (hstarts x hx).1
    | first hop hfinds agent hstarts hnext hold => exact isSome_of_finds hfinds
    | again session hop hfinds turn hfind hfirst agent hstarts hnext hold hgone hnew =>
      exact isSome_of_finds hfinds
  rw [turn]
  dsimp only
  rw [List.map_filterMap, ← List.filterMap_eq_map]
  refine List.filterMap_congr ?_
  intro x hx
  obtain ⟨c, hc⟩ := hfound x hx
  rw [hc]
  rfl

/-- The credential of a turn that goes on is another one, and healthy. -/
theorem of_fallback {session readAt : Nat} {c : StoredCredential}
    (h : s.fallback session readAt = some c) :
    ∃ failed, s.active.lookup session = some failed ∧ c.id ≠ failed.id ∧
      c.isCooldown readAt = false := by
  rw [fallback] at h
  split at h
  · obtain ⟨failed, hfailed, hpick⟩ := Option.bind_eq_some_iff.mp h
    obtain ⟨-, hother, -, hhealthy⟩ := CredentialsFile.of_pickFallback hpick
    exact ⟨failed, hfailed, hother, hhealthy⟩
  · cases h

end Steps

end CredentialGateway

end OsModa.Gateway
