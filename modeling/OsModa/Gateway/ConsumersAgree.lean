import OsModa.Gateway.CredentialTurns
import OsModa.Gateway.SessionStore

/-!
What a turn leaves behind, whichever consumer reads its events.

A web turn and a Telegram turn read the events of their driver one by one, with other steps of
the gateway in between, and `POST /agent/turn` collapses all of them first. For a stream that ends
with its terminal event and blames no credential, the three leave the same assistant rows, usage
and native session (`consumers_agree`).
-/

namespace OsModa.Gateway

open OsModa.Js LoopManager

/-! ### What is left of a turn -/

/-- Where a turn writes to. -/
structure TurnPlace where
  agent : AgentProfile
  runtime : Option JsString
  sessionKey : JsString
  channel : String

def TurnPlace.turn (place : TurnPlace) : SessionTurn :=
  ⟨place.sessionKey, utf16 place.channel, place.agent.id, place.runtime⟩

namespace GatewayEffect

/-- An assistant row that is appended: its agent, its chat and its text. -/
def assistantRow? : GatewayEffect → Option (AgentId × JsString × JsString)
  | .appendTranscript agentId sessionKey role text _ =>
    if role = "assistant" then some (agentId, sessionKey, text) else none
  | _ => none

def recorded? : GatewayEffect → Option (AgentProfile × SpendUsage)
  | .spendRecord _ agent usage => some (agent, usage)
  | _ => none

def savedId? : GatewayEffect → Option (JsString × String × JsString)
  | .saveSessionId sessionKey channel sessionId => some (sessionKey, channel, sessionId)
  | _ => none

end GatewayEffect

namespace SessionStore

/-- The native session that a turn finds, if it has a session at all. -/
def bound (st : SessionStore) (turn : SessionTurn) : Option (Option JsString) :=
  (st.sessions.find? turn.key).map (·.claudeSessionId)

/-- The store after an effect of a turn, at a reading of the clock. -/
def after (place : TurnPlace) (st : SessionStore) (e : Nat × GatewayEffect) : SessionStore :=
  match e.2 with
  | .saveSessionId sessionKey channel sessionId =>
    st.updateClaudeSession { place.turn with userId := sessionKey, channel := utf16 channel }
      sessionId e.1
  | _ => st

end SessionStore

/-- The effects of a turn append these answers, record these usages, and turn the native session
from one into the other. -/
structure Leaves (place : TurnPlace) (effects : List GatewayEffect) (answers : List JsString)
    (usages : List SpendUsage) (initial bound : Option JsString) : Prop where
  rows : effects.filterMap (·.assistantRow?) =
    answers.map fun text => (place.agent.id, place.sessionKey, text)
  usage : effects.filterMap (·.recorded?) = usages.map fun usage => (place.agent, usage)
  session : ∀ (st : SessionStore) (timed : List (Nat × GatewayEffect)),
    timed.map Prod.snd = effects → st.bound place.turn = some initial →
      (timed.foldl (SessionStore.after place) st).bound place.turn = some bound

/-! ### Turns -/

/-- At most one event is terminal, and it is the last. -/
def DoneLast (events : List AgentEvent) : Prop :=
  ∀ before e after, events = before ++ e :: after → e.terminal?.isSome = true → after = []

/-- No error is one that a credential is to blame for. -/
def NoCredentialError (tables : CaseTables) (events : List AgentEvent) : Prop :=
  ∀ text code, .error text code ∈ events → classifyCredentialError tables code text = none

/-- The rest of a turn, read to its end. Between two reads other steps may change the gateway, but
not the turn, and what is `held` stays so. -/
inductive Drained (table : List (String × Price)) (tables : CaseTables)
    (held : GatewayState → Prop) : Turn → List GatewayEffect → Prop where
  | ends {g g' : GatewayState} {turn : Turn} {fallback : Option Credential} {run : DriverRun}
      {w : Moment} {effects : List GatewayEffect} :
      held g → g.streaming.find? turn.session = some turn →
      g.next table tables turn.session fallback run w = (effects, g') →
      g'.streaming.find? turn.session = none → Drained table tables held turn effects
  | reads {g g' : GatewayState} {turn turn' : Turn} {fallback : Option Credential} {run : DriverRun}
      {w : Moment} {effects rest : List GatewayEffect} :
      held g → g.streaming.find? turn.session = some turn →
      g.next table tables turn.session fallback run w = (effects, g') →
      g'.streaming.find? turn.session = some turn' → Drained table tables held turn' rest →
      Drained table tables held turn (effects ++ rest)

/-- A web turn whose session has just been started. -/
def Turn.web (session : Nat) (agent : AgentProfile) (stream : DriverStream) (conn : Nat)
    (sessionKey message : JsString) (credential : Credential) : Turn :=
  ⟨session, agent, stream,
    .web ⟨conn, sessionKey, message, credential, credential, false, .start, []⟩⟩

/-- A Telegram turn whose session has just been started. -/
def Turn.telegram (session : Nat) (agent : AgentProfile) (stream : DriverStream)
    (chatId : JsString) : Turn :=
  ⟨session, agent, stream, .telegram ⟨chatId, [], []⟩⟩

/-- The effects of an API turn once its driver has yielded the stream. -/
def ApiTurn.effects (table : List (String × Price)) (turn : ApiTurn) (stream : DriverStream)
    (g : GatewayState) (w : Moment) : List GatewayEffect :=
  let result := runAgentTurn turn.sessionId stream
  (g.bill table (.gateway turn.session) turn.agent result.usage w).1 ++ turn.answer result

/-- They are those of the end of its request. -/
theorem GatewayState.agentTurnEnds_effects (table : List (String × Price)) {g : GatewayState}
    {turn : ApiTurn} (hfind : g.requests.find? turn.session = some turn) (run : DriverRun)
    (w : Moment) : (g.agentTurnEnds table turn.session run w).1 =
      turn.effects table run.stream { g with requests := g.requests.erase turn.session } w := by
  rw [GatewayState.agentTurnEnds, hfind]
  rfl

/-! ### The answer -/

/-- The answer as an event changes it. -/
def AgentEvent.answer (answer : JsString) : AgentEvent → JsString
  | .text delta => answer ++ delta
  | .textBulk bulk => if bulk = [] then answer else bulk
  | _ => answer

/-- The rows that an answer makes. -/
def answerRows (answer : JsString) : List JsString := if trim answer = [] then [] else [answer]

theorem length_answerRows_le (answer : JsString) : (answerRows answer).length ≤ 1 := by
  rw [answerRows]
  split
  · exact Nat.zero_le 1
  · exact Nat.le_refl 1

theorem foldl_absorb_text (events : List AgentEvent) (r : TurnResult) :
    (events.foldl TurnResult.absorb r).text = events.foldl AgentEvent.answer r.text := by
  induction events generalizing r with
  | nil => rfl
  | cons e events ih =>
    rw [List.foldl_cons, List.foldl_cons, ih]
    congr 1
    cases e with
    | text text => by_cases h : text = [] <;> simp [TurnResult.absorb, AgentEvent.answer, h]
    | textBulk text => by_cases h : text = [] <;> simp [TurnResult.absorb, AgentEvent.answer, h]
    | session sessionId =>
      by_cases h : sessionId = [] <;> simp [TurnResult.absorb, AgentEvent.answer, h]
    | _ => rfl

/-- The native session of a result is the last one that an event carries. -/
theorem foldl_absorb_sessionId (events : List AgentEvent) (r : TurnResult) :
    (events.foldl TurnResult.absorb r).sessionId =
      (events.flatMap AgentEvent.sessionIds).getLast?.or r.sessionId := by
  induction events generalizing r with
  | nil => rfl
  | cons e events ih =>
    have hstep : (r.absorb e).sessionId = e.sessionIds.getLast?.or r.sessionId := by
      cases e with
      | text text => by_cases h : text = [] <;> simp [TurnResult.absorb, AgentEvent.sessionIds, h]
      | textBulk text =>
        by_cases h : text = [] <;> simp [TurnResult.absorb, AgentEvent.sessionIds, h]
      | session sessionId =>
        by_cases h : sessionId = [] <;> simp [TurnResult.absorb, AgentEvent.sessionIds, h]
      | done sessionId usage =>
        cases sessionId with
        | none => rfl
        | some id =>
          by_cases h : id = []
          · rw [h]
            rfl
          · simp [TurnResult.absorb, AgentEvent.sessionIds, h]
      | _ => rfl
    rw [List.foldl_cons, ih, hstep, List.flatMap_cons, List.getLast?_append, Option.or_assoc]

/-! ### What is left, part by part -/

/-- The saves of a turn bind the last native session that is saved. -/
theorem SessionStore.bound_after {place : TurnPlace} {timed : List (Nat × GatewayEffect)}
    {ids : List JsString} (hsaved : (timed.map Prod.snd).filterMap (·.savedId?) =
      ids.map fun id => (place.sessionKey, place.channel, id)) {st : SessionStore}
    {initial : Option JsString} (hst : st.bound place.turn = some initial) :
    (timed.foldl (SessionStore.after place) st).bound place.turn =
      some (ids.getLast?.or initial) := by
  induction timed generalizing ids st initial with
  | nil =>
    obtain rfl : ids = [] := List.map_eq_nil_iff.mp hsaved.symm
    exact hst
  | cons e timed ih =>
    obtain ⟨now, effect⟩ := e
    rw [List.map_cons, List.filterMap_cons] at hsaved
    rw [List.foldl_cons]
    cases effect with
    | saveSessionId sessionKey channel sessionId =>
      cases ids with
      | nil => cases hsaved
      | cons id ids =>
        rw [List.map_cons] at hsaved
        injection hsaved with hhead htail
        cases hhead
        have hbound : (SessionStore.after place st
            (now, .saveSessionId place.sessionKey place.channel sessionId)).bound place.turn =
              some (some sessionId) := by
          obtain ⟨session, hfind, -⟩ := Option.map_eq_some_iff.mp hst
          have hkey : session.key = place.turn.key := Table.key_of_find? hfind
          change (st.updateClaudeSession place.turn sessionId now).bound place.turn = _
          rw [SessionStore.updateClaudeSession, hfind]
          dsimp only
          rw [SessionStore.bound, ← hkey]
          exact congrArg _ (Table.find?_put_self st.sessions _)
        rw [ih htail hbound, List.getLast?_cons]
        cases ids.getLast? <;> rfl
    | _ => exact ih hsaved hst

/-- The assistant rows, usages and native sessions that effects write. -/
structure Wrote (place : TurnPlace) (effects : List GatewayEffect) (answers : List JsString)
    (usages : List SpendUsage) (ids : List JsString) : Prop where
  rows : effects.filterMap (·.assistantRow?) =
    answers.map fun text => (place.agent.id, place.sessionKey, text)
  usage : effects.filterMap (·.recorded?) = usages.map fun usage => (place.agent, usage)
  saved : effects.filterMap (·.savedId?) =
    ids.map fun id => (place.sessionKey, place.channel, id)

namespace Wrote

variable {place : TurnPlace} {effects effects' : List GatewayEffect}
  {answers answers' : List JsString} {usages usages' : List SpendUsage} {ids ids' : List JsString}

theorem leaves (h : Wrote place effects answers usages ids) (initial : Option JsString) :
    Leaves place effects answers usages initial (ids.getLast?.or initial) where
  rows := h.rows
  usage := h.usage
  session st timed htimed hst := by
    subst htimed
    exact SessionStore.bound_after h.saved hst

theorem append (h : Wrote place effects answers usages ids)
    (h' : Wrote place effects' answers' usages' ids') :
    Wrote place (effects ++ effects') (answers ++ answers') (usages ++ usages') (ids ++ ids') where
  rows := by rw [List.filterMap_append, h.rows, h'.rows, List.map_append]
  usage := by rw [List.filterMap_append, h.usage, h'.usage, List.map_append]
  saved := by rw [List.filterMap_append, h.saved, h'.saved, List.map_append]

theorem nil : Wrote place [] [] [] [] := ⟨rfl, rfl, rfl⟩

theorem quiet {e : GatewayEffect} (hrow : e.assistantRow? = none) (husage : e.recorded? = none)
    (hsaved : e.savedId? = none) : Wrote place [e] [] [] [] where
  rows := by rw [List.filterMap_cons_none hrow]; rfl
  usage := by rw [List.filterMap_cons_none husage]; rfl
  saved := by rw [List.filterMap_cons_none hsaved]; rfl

theorem send (conn : Nat) (frame : Frame) : Wrote place [.send conn frame] [] [] [] :=
  quiet rfl rfl rfl

theorem saves (place : TurnPlace) (ids : List JsString) :
    Wrote place (ids.map (.saveSessionId place.sessionKey place.channel)) [] [] ids := by
  induction ids with
  | nil => exact nil
  | cons id ids ih =>
    have hid : Wrote place [.saveSessionId place.sessionKey place.channel id] [] [] [id] :=
      ⟨rfl, rfl, rfl⟩
    exact hid.append ih

theorem answer (place : TurnPlace) (text : JsString) :
    Wrote place
      (if trim text = [] then []
        else [.appendTranscript place.agent.id place.sessionKey "assistant" text none])
      (answerRows text) [] [] := by
  rw [answerRows]
  split
  · exact nil
  · exact ⟨rfl, rfl, rfl⟩

theorem bill (place : TurnPlace) (table : List (String × Price)) (g : GatewayState)
    (session : SessionId) (usage : Option SpendUsage) (w : Moment) :
    Wrote place (g.bill table session place.agent usage w).1 [] usage.toList [] := by
  cases usage with
  | none => exact nil
  | some usage =>
    have halerts : ∀ alerts : List SpendAlert,
        Wrote place (alerts.map GatewayEffect.alert) [] [] [] := by
      intro alerts
      induction alerts with
      | nil => exact nil
      | cons alert alerts ih => exact (quiet rfl rfl rfl).append ih
    have hrecord : Wrote place [.spendRecord session place.agent usage] [] [usage] [] :=
      ⟨rfl, rfl, rfl⟩
    exact hrecord.append (halerts _)

end Wrote

/-! ### The three consumers -/

/-- An event of such a stream is terminal only if it is the last one. -/
theorem DoneLast.cons {e : AgentEvent} {events : List AgentEvent} (h : DoneLast (e :: events)) :
    (e.terminal?.isSome = true → events = []) ∧ DoneLast events := by
  constructor
  · exact h [] e events rfl
  · intro before e' after heq
    exact h (e :: before) e' after (congrArg (e :: ·) heq)

theorem doneLast_of_dropLast {events : List AgentEvent}
    (h : ∀ e ∈ events.dropLast, e.terminal?.isSome = false) : DoneLast events := by
  intro before e after heq hterminal
  by_contra hafter
  have hmem : e ∈ events.dropLast := by
    rw [heq, List.dropLast_append_of_ne_nil (List.cons_ne_nil e after),
      List.dropLast_cons_of_ne_nil hafter]
    exact List.mem_append_right before List.mem_cons_self
  rw [h e hmem] at hterminal
  cases hterminal

theorem NoCredentialError.cons {tables : CaseTables} {e : AgentEvent} {events : List AgentEvent}
    (h : NoCredentialError tables (e :: events)) : NoCredentialError tables events := by
  intro text code hmem
  exact h text code (List.mem_cons_of_mem e hmem)

/-- The usage of a result is the one that is billed as the events come. -/
theorem foldl_absorb_usage_toList {events : List AgentEvent} (hdone : DoneLast events)
    {r : TurnResult} (hr : r.usage = none) :
    (events.foldl TurnResult.absorb r).usage.toList = events.filterMap (·.usage?) := by
  induction events generalizing r with
  | nil => rw [List.foldl_nil, hr]; rfl
  | cons e events ih =>
    rw [List.foldl_cons, List.filterMap_cons]
    cases hterminal : e.terminal? with
    | none =>
      have husage : (r.absorb e).usage = none := by rw [absorb_usage, hterminal, ← hr]; rfl
      rw [ih hdone.cons.2 husage, AgentEvent.usage?, hterminal]
      rfl
    | some usage =>
      obtain rfl : events = [] := hdone.cons.1 (by rw [hterminal]; rfl)
      rw [List.foldl_nil, absorb_usage, hterminal, hr, AgentEvent.usage?, hterminal]
      cases usage <;> rfl

theorem AgentEvent.ne_nil_of_mem_sessionIds (e : AgentEvent) {id : JsString}
    (h : id ∈ e.sessionIds) : some id ≠ some [] := by
  have hne : id ≠ [] := by
    cases e with
    | session sessionId => exact of_decide_eq_true (List.mem_filter.mp h).2
    | done sessionId usage => exact of_decide_eq_true (List.mem_filter.mp h).2
    | _ => cases h
  intro heq
  exact hne (Option.some.inj heq)

/-- A native session is saved unless it is the one that was there, or an empty one. -/
theorem getLast?_given_or (id initial : Option JsString) (h : id = initial ∨ id ≠ some []) :
    (id.toList.filter (· ≠ [])).getLast?.or initial = id.or initial := by
  cases id with
  | none => rfl
  | some id =>
    by_cases hempty : id = []
    · subst hempty
      obtain rfl | hne := h
      · rfl
      · exact absurd rfl hne
    · simp [hempty]

/-- What an API turn leaves. -/
theorem ApiTurn.effects_wrote (table : List (String × Price)) (turn : ApiTurn)
    {stream : DriverStream} (hdone : DoneLast stream.events) (g : GatewayState) (w : Moment)
    (runtime : Option JsString) :
    ∃ ids, Wrote ⟨turn.agent, runtime, turn.sessionKey, "api"⟩ (turn.effects table stream g w)
        (answerRows (stream.events.foldl AgentEvent.answer []))
        (stream.events.filterMap (·.usage?)) ids ∧
      ids.getLast?.or turn.sessionId =
        (stream.events.flatMap AgentEvent.sessionIds).getLast?.or turn.sessionId := by
  let result := runAgentTurn turn.sessionId stream
  have htext : result.text = stream.events.foldl AgentEvent.answer [] :=
    foldl_absorb_text stream.events (.start turn.sessionId)
  have husage : result.usage.toList = stream.events.filterMap (·.usage?) :=
    foldl_absorb_usage_toList hdone (r := .start turn.sessionId) rfl
  have hid : result.sessionId =
      (stream.events.flatMap AgentEvent.sessionIds).getLast?.or turn.sessionId :=
    foldl_absorb_sessionId stream.events (.start turn.sessionId)
  let place : TurnPlace := ⟨turn.agent, runtime, turn.sessionKey, "api"⟩
  have hbill := Wrote.bill place table g (.gateway turn.session) result.usage w
  have hsaves := Wrote.saves place (result.sessionId.toList.filter (· ≠ []))
  have hanswer := Wrote.answer place result.text
  have hrespond : Wrote place [.respond (if result.Failed then 502 else 200)
      (.result result turn.sessionKey)] [] [] [] := .quiet rfl rfl rfl
  have hall := hbill.append ((hsaves.append hanswer).append hrespond)
  rw [← htext, ← husage, ← hid]
  refine ⟨result.sessionId.toList.filter (· ≠ []), ?_, ?_⟩
  · simp only [List.nil_append, List.append_nil] at hall
    exact hall
  · rw [hid]
    cases hlast : (stream.events.flatMap AgentEvent.sessionIds).getLast? with
    | none =>
      have hsame := getLast?_given_or turn.sessionId turn.sessionId (.inl rfl)
      rw [Option.none_or, hsame, Option.or_self]
    | some id =>
      obtain ⟨e, -, hmem⟩ := List.mem_flatMap.mp (List.mem_of_getLast? hlast)
      exact getLast?_given_or (some id) turn.sessionId (.inr (e.ne_nil_of_mem_sessionIds hmem))

/-- An event adds its rows to those of the events after it. -/
theorem WebTurn.answerRows_absorb {tables : CaseTables} {turn : WebTurn} {e : AgentEvent}
    {events : List AgentEvent} (hlast : e.terminal?.isSome = true → events = []) :
    (if e.terminal?.isSome then answerRows turn.turnText else []) ++
        answerRows (events.foldl AgentEvent.answer (turn.absorb tables e).turnText) =
      answerRows ((e :: events).foldl AgentEvent.answer turn.turnText) := by
  rw [List.foldl_cons]
  cases e with
  | done sessionId usage =>
    obtain rfl := hlast rfl
    -- The rows are flushed, so what is left of the text makes none.
    have hflushed : answerRows turn.flushed.turnText = [] := by
      rw [WebTurn.flushed]
      split
      · rename_i hblank
        exact if_pos hblank
      · rfl
    exact (congrArg _ hflushed).trans (List.append_nil _)
  | text delta =>
    by_cases h : delta = [] <;>
      simp [WebTurn.absorb, AgentEvent.answer, AgentEvent.terminal?, h]
  | textBulk bulk =>
    by_cases h : bulk = [] <;>
      simp [WebTurn.absorb, AgentEvent.answer, AgentEvent.terminal?, h]
  | _ => rfl

/-- No event blames the credential. -/
theorem WebTurn.absorb_sawCredError {tables : CaseTables} {turn : WebTurn} {e : AgentEvent}
    (hcred : ∀ text code, e = .error text code → classifyCredentialError tables code text = none)
    (hpass : turn.pass.sawCredError = false) :
    (turn.absorb tables e).pass.sawCredError = false := by
  cases e with
  | error text code =>
    rw [WebTurn.absorb, WebPass.sawError, hcred text code rfl]
    exact hpass
  | done sessionId usage =>
    rw [WebTurn.absorb, WebTurn.flushed]
    split <;> exact hpass
  | text delta => by_cases h : delta = [] <;> simp [WebTurn.absorb, WebPass.withOutput, h, hpass]
  | textBulk bulk => by_cases h : bulk = [] <;> simp [WebTurn.absorb, WebPass.withOutput, h, hpass]
  | _ => exact hpass

theorem WebPass.not_exhausted {pass : WebPass} (h : pass.sawCredError = false) :
    ¬ pass.Exhausted := by
  rintro ⟨hsaw, -⟩
  rw [h] at hsaw
  cases hsaw

theorem WebTurn.show_wrote {tables : CaseTables} {turn : WebTurn} {e : AgentEvent}
    (hpass : (turn.absorb tables e).pass.sawCredError = false) (agent : AgentProfile)
    (runtime : Option JsString) :
    Wrote ⟨agent, runtime, turn.sessionKey, "web"⟩ (turn.show tables agent e)
      (if e.terminal?.isSome then answerRows turn.turnText else []) [] e.sessionIds := by
  have hnot : ¬ (e.isError = true ∧ (turn.absorb tables e).pass.Exhausted) := by
    intro h
    exact WebPass.not_exhausted hpass h.2
  let place : TurnPlace := ⟨agent, runtime, turn.sessionKey, "web"⟩
  have hflush : Wrote place (if e.terminal?.isSome then turn.flushAssistant agent else [])
      (if e.terminal?.isSome then answerRows turn.turnText else []) [] [] := by
    split
    · exact Wrote.answer place turn.turnText
    · exact .nil
  have hpipe : Wrote place (turn.pipeEvent e) [] [] e.sessionIds := by
    have hsent : ∀ frames : List GatewayEffect, Wrote place frames [] [] [] →
        Wrote place (e.sessionIds.map (.saveSessionId turn.sessionKey "web") ++ frames) [] []
          e.sessionIds := by
      intro frames hframes
      have hall := (Wrote.saves place e.sessionIds).append hframes
      simp only [List.append_nil] at hall
      exact hall
    cases e with
    | session sessionId => exact hsent [] .nil
    | _ => exact hsent _ (.send _ _)
  rw [WebTurn.show, if_neg hnot]
  have hall := hflush.append hpipe
  rwa [List.append_nil] at hall

namespace GatewayState

variable (table : List (String × Price)) (tables : CaseTables) (g : GatewayState) (w : Moment)

/-- A read leaves the turn as it says. -/
theorem advance_find? (turn : Turn) (events : List AgentEvent) (consumer : Consumer)
    (usage : Option SpendUsage) :
    ((g.advance turn events consumer).bill table (.gateway turn.session) turn.agent usage
      w).2.streaming.find? turn.session =
        some ⟨turn.session, turn.agent, ⟨events, turn.rest.thrown⟩, consumer⟩ := by
  rw [bill_streaming]
  exact Table.find?_put_self g.streaming ⟨turn.session, turn.agent, _, consumer⟩

theorem erase_find? (session : Nat) : (g.streaming.erase session).find? session = none := by
  rw [Table.find?_erase, if_pos rfl]

theorem webNext_nil {turn : Turn} {web : WebTurn} (hevents : turn.rest.events = [])
    (hpass : web.pass.sawCredError = false) (fallback : Option Credential) (run : DriverRun) :
    g.webNext table tables turn web fallback run w = g.closeTurn turn web turn.rest.thrown := by
  rw [webNext, hevents]
  cases turn.rest.thrown with
  | some message => rfl
  | none =>
    dsimp only
    rw [passEnds, if_neg]
    intro h
    exact WebPass.not_exhausted hpass h.2

theorem webNext_cons {turn : Turn} {web : WebTurn} {e : AgentEvent} {events : List AgentEvent}
    (hevents : turn.rest.events = e :: events) (hopen : g.isOpen web.conn = true)
    (fallback : Option Credential) (run : DriverRun) :
    g.webNext table tables turn web fallback run w =
      let out := (g.advance turn events (.web (web.absorb tables e))).bill table
        (.gateway turn.session) turn.agent e.usage? w
      (web.show tables turn.agent e ++ out.1, out.2) := by
  rw [webNext, hevents]
  dsimp only
  rw [if_neg]
  rw [hopen]
  exact Bool.noConfusion

theorem closeTurn_wrote (turn : Turn) (web : WebTurn) (thrown : Option JsString)
    (runtime : Option JsString) :
    Wrote ⟨turn.agent, runtime, web.sessionKey, "web"⟩ (g.closeTurn turn web thrown).1
      (answerRows web.turnText) [] [] := by
  let place : TurnPlace := ⟨turn.agent, runtime, web.sessionKey, "web"⟩
  have hanswer : Wrote place (web.flushAssistant turn.agent) (answerRows web.turnText) [] [] :=
    Wrote.answer place web.turnText
  have hquiet : ∀ report, Wrote place report [] [] [] →
      Wrote place (web.flushAssistant turn.agent ++ report) (answerRows web.turnText) [] [] := by
    intro report hreport
    have hall := hanswer.append hreport
    rw [List.append_nil] at hall
    exact hall
  cases thrown with
  | none => exact hquiet [] .nil
  | some message =>
    refine hquiet (if g.isOpen web.conn then [.send web.conn (.error message none)] else []) ?_
    split
    · exact .send _ _
    · exact .nil

end GatewayState

/-- What a read of a turn comes to: the turn is over and its `rows` are there, or an event is
handled and its rows are those that the turn has beyond the rest of it. -/
inductive ReadsTo (place : TurnPlace) (inv : Turn → Prop) (rows : Turn → List JsString)
    (turn : Turn) (out : List GatewayEffect × GatewayState) : Prop where
  | finished (hevents : turn.rest.events = []) (hwrote : Wrote place out.1 (rows turn) [] [])
      (hover : out.2.streaming.find? turn.session = none)
  | event (e : AgentEvent) (turn' : Turn) (answers : List JsString)
      (hevents : turn.rest.events = e :: turn'.rest.events)
      (hwrote : Wrote place out.1 answers e.usage?.toList e.sessionIds)
      (hrows : answers ++ rows turn' = rows turn)
      (hnext : out.2.streaming.find? turn.session = some turn') (hinv : inv turn')

/-- A turn writes its rows, its usages and its native sessions if each read does its part. -/
theorem Drained.wrote {table : List (String × Price)} {tables : CaseTables}
    {held : GatewayState → Prop} {turn : Turn} {effects : List GatewayEffect}
    (h : Drained table tables held turn effects) {place : TurnPlace} {inv : Turn → Prop}
    {rows : Turn → List JsString}
    (hstep : ∀ (g : GatewayState) (turn : Turn) (fallback : Option Credential) (run : DriverRun)
      (w : Moment), held g → g.streaming.find? turn.session = some turn → inv turn →
        ReadsTo place inv rows turn (g.next table tables turn.session fallback run w))
    (hinv : inv turn) :
    Wrote place effects (rows turn) (turn.rest.events.filterMap (·.usage?))
      (turn.rest.events.flatMap AgentEvent.sessionIds) := by
  induction h with
  | @ends g g' turn fallback run w effects hheld hfind hnext hover =>
    have hread := hstep g turn fallback run w hheld hfind hinv
    rw [hnext] at hread
    cases hread with
    | finished hevents hwrote hover' =>
      rw [hevents]
      exact hwrote
    | event e turn' answers hevents hwrote hrows hmore hinv' =>
      rw [hover] at hmore
      cases hmore
  | @reads g g' turn turn' fallback run w effects rest hheld hfind hnext hmore hrest ih =>
    have hread := hstep g turn fallback run w hheld hfind hinv
    rw [hnext] at hread
    cases hread with
    | finished hevents hwrote hover =>
      rw [hmore] at hover
      cases hover
    | event e turn'' answers hevents hwrote hrows hmore' hinv' =>
      rw [hmore] at hmore'
      obtain rfl := Option.some.inj hmore'
      have hall := hwrote.append (ih hinv')
      rw [hrows] at hall
      rw [hevents, List.filterMap_cons, List.flatMap_cons]
      cases husage : e.usage? <;> rw [husage] at hall <;> exact hall

/-- A web turn that has blamed no credential, with the events that are still to come. -/
structure WebInv (tables : CaseTables) (place : TurnPlace) (conn : Nat) (turn : Turn) : Prop where
  agent : turn.agent = place.agent
  done : DoneLast turn.rest.events
  credential : NoCredentialError tables turn.rest.events
  web : ∃ web, turn.consumer = .web web ∧ web.conn = conn ∧ web.sessionKey = place.sessionKey ∧
    web.pass.sawCredError = false

/-- The rows that are still to come. -/
def Turn.rows (turn : Turn) : List JsString :=
  match turn.consumer with
  | .web web => answerRows (turn.rest.events.foldl AgentEvent.answer web.turnText)
  | .telegram reply => answerRows (turn.rest.events.foldl AgentEvent.answer reply.turnText)

theorem WebTurn.absorb_place (tables : CaseTables) (web : WebTurn) (e : AgentEvent) :
    (web.absorb tables e).conn = web.conn ∧ (web.absorb tables e).sessionKey = web.sessionKey := by
  cases e with
  | text delta => by_cases h : delta = [] <;> simp [WebTurn.absorb, h]
  | textBulk bulk => by_cases h : bulk = [] <;> simp [WebTurn.absorb, h]
  | done sessionId usage =>
    rw [WebTurn.absorb, WebTurn.flushed]
    split <;> exact ⟨rfl, rfl⟩
  | _ => exact ⟨rfl, rfl⟩

theorem GatewayState.next_web {table : List (String × Price)} {tables : CaseTables}
    {place : TurnPlace} {conn : Nat} (hchannel : place.channel = "web") (g : GatewayState)
    (turn : Turn) (fallback : Option Credential) (run : DriverRun) (w : Moment)
    (hopen : g.isOpen conn = true) (hfind : g.streaming.find? turn.session = some turn)
    (hinv : WebInv tables place conn turn) :
    ReadsTo place (WebInv tables place conn) Turn.rows turn
      (g.next table tables turn.session fallback run w) := by
  obtain ⟨web, hweb, hconn, hkey, hpass⟩ := hinv.web
  have hplace : place = ⟨turn.agent, place.runtime, web.sessionKey, "web"⟩ := by
    rw [hinv.agent, hkey, ← hchannel]
  have hnext : g.next table tables turn.session fallback run w =
      g.webNext table tables turn web fallback run w := by
    rw [GatewayState.next, hfind]
    dsimp only
    rw [hweb]
  rw [hnext]
  cases hevents : turn.rest.events with
  | nil =>
    rw [g.webNext_nil table tables w hevents hpass fallback run]
    refine .finished hevents ?_ (g.erase_find? turn.session)
    have hclose := g.closeTurn_wrote turn web turn.rest.thrown place.runtime
    rw [← hplace] at hclose
    rw [Turn.rows, hweb, hevents]
    exact hclose
  | cons e events =>
    have hdone := hinv.done
    have hcred := hinv.credential
    rw [hevents] at hdone hcred
    have hpass' : (web.absorb tables e).pass.sawCredError = false := by
      refine WebTurn.absorb_sawCredError (fun text code heq => ?_) hpass
      exact hcred text code (heq ▸ List.mem_cons_self)
    rw [g.webNext_cons table tables w hevents (hconn ▸ hopen) fallback run]
    refine .event e ⟨turn.session, turn.agent, ⟨events, turn.rest.thrown⟩,
      .web (web.absorb tables e)⟩ (if e.terminal?.isSome then answerRows web.turnText else [])
      hevents ?_ ?_ (g.advance_find? table w turn events _ _) ?_
    · have hshow := WebTurn.show_wrote hpass' turn.agent place.runtime
      have hbill := Wrote.bill ⟨turn.agent, place.runtime, web.sessionKey, "web"⟩ table
        (g.advance turn events (.web (web.absorb tables e))) (.gateway turn.session) e.usage? w
      have hall := hshow.append hbill
      simp only [List.append_nil, ← hplace] at hall
      exact hall
    · rw [Turn.rows, Turn.rows, hweb, hevents]
      exact WebTurn.answerRows_absorb hdone.cons.1
    · obtain ⟨hconn', hkey'⟩ := web.absorb_place tables e
      exact ⟨hinv.agent, hdone.cons.2, hcred.cons, web.absorb tables e, rfl, hconn'.trans hconn,
        hkey'.trans hkey, hpass'⟩

/-- A Telegram turn. -/
structure TelegramInv (place : TurnPlace) (turn : Turn) : Prop where
  agent : turn.agent = place.agent
  reply : ∃ reply, turn.consumer = .telegram reply ∧ reply.chatId = place.sessionKey

theorem TelegramReply.deliver_wrote (reply : TelegramReply) (agent : AgentProfile)
    (thrown : Option JsString) (runtime : Option JsString) :
    Wrote ⟨agent, runtime, reply.chatId, "telegram"⟩ (reply.deliver agent thrown)
      (answerRows reply.turnText) [] [] := by
  let place : TurnPlace := ⟨agent, runtime, reply.chatId, "telegram"⟩
  have hsent : ∀ fullText : JsString, Wrote place
      (if fullText = [] then [] else [.sendTelegram reply.chatId fullText]) [] [] [] := by
    intro fullText
    split
    · exact .nil
    · exact .quiet rfl rfl rfl
  have hall := (Wrote.answer place reply.turnText).append
    (hsent (thrown.elim reply.fullText (utf16 "Error: " ++ ·)))
  rw [List.append_nil] at hall
  exact hall

/-- The reply keeps its chat, and its answer is what the events make of it. -/
theorem TelegramReply.absorb_eq (reply : TelegramReply) (e : AgentEvent) :
    (reply.absorb e).chatId = reply.chatId ∧
      (reply.absorb e).turnText = e.answer reply.turnText := by
  cases e with
  | textBulk bulk => by_cases h : bulk = [] <;> simp [TelegramReply.absorb, AgentEvent.answer, h]
  | error text code =>
    rw [TelegramReply.absorb]
    split <;> exact ⟨rfl, rfl⟩
  | _ => exact ⟨rfl, rfl⟩

theorem GatewayState.next_telegram {table : List (String × Price)} {tables : CaseTables}
    {place : TurnPlace} (hchannel : place.channel = "telegram") (g : GatewayState) (turn : Turn)
    (fallback : Option Credential) (run : DriverRun) (w : Moment) (_ : True)
    (hfind : g.streaming.find? turn.session = some turn) (hinv : TelegramInv place turn) :
    ReadsTo place (TelegramInv place) Turn.rows turn
      (g.next table tables turn.session fallback run w) := by
  obtain ⟨reply, hreply, hchat⟩ := hinv.reply
  have hplace : place = ⟨turn.agent, place.runtime, reply.chatId, "telegram"⟩ := by
    rw [hinv.agent, hchat, ← hchannel]
  have hnext : g.next table tables turn.session fallback run w =
      g.telegramNext table turn reply w := by
    rw [GatewayState.next, hfind]
    dsimp only
    rw [hreply]
  rw [hnext, GatewayState.telegramNext]
  cases hevents : turn.rest.events with
  | nil =>
    refine .finished hevents ?_ (g.erase_find? turn.session)
    have hdeliver := reply.deliver_wrote turn.agent turn.rest.thrown place.runtime
    rw [← hplace] at hdeliver
    rw [Turn.rows, hreply, hevents]
    exact hdeliver
  | cons e events =>
    refine .event e ⟨turn.session, turn.agent, ⟨events, turn.rest.thrown⟩,
      .telegram (reply.absorb e)⟩ [] hevents ?_ ?_ (g.advance_find? table w turn events _ _) ?_
    · have hsaves := Wrote.saves ⟨turn.agent, place.runtime, reply.chatId, "telegram"⟩ e.sessionIds
      have hbill := Wrote.bill ⟨turn.agent, place.runtime, reply.chatId, "telegram"⟩ table
        (g.advance turn events (.telegram (reply.absorb e))) (.gateway turn.session) e.usage? w
      have hall := hsaves.append hbill
      simp only [List.append_nil, ← hplace] at hall
      exact hall
    · rw [Turn.rows, Turn.rows, hreply, hevents]
      dsimp only
      rw [(reply.absorb_eq e).2]
      rfl
    · exact ⟨hinv.agent, reply.absorb e, rfl, (reply.absorb_eq e).1.trans hchat⟩

/-! ### Agreement -/

section Agreement

variable {table : List (String × Price)} {tables : CaseTables} {stream : DriverStream}

/-- Whoever reads the events, the same answer, at most one row of it, the same usage and the same
native session are left. -/
theorem consumers_agree (hdone : DoneLast stream.events)
    (hcred : NoCredentialError tables stream.events)
    {conn webSession telegramSession : Nat} {webAgent telegramAgent : AgentProfile}
    {webKey message chatId : JsString} {credential : Credential}
    {webEffects telegramEffects : List GatewayEffect}
    (hweb : Drained table tables (fun g => g.isOpen conn = true)
      (.web webSession webAgent stream conn webKey message credential) webEffects)
    (htelegram : Drained table tables (fun _ => True)
      (.telegram telegramSession telegramAgent stream chatId) telegramEffects)
    (api : ApiTurn) (g : GatewayState) (w : Moment)
    (webRuntime telegramRuntime apiRuntime : Option JsString) :
    ∃ answers usages bound, answers.length ≤ 1 ∧
      Leaves ⟨webAgent, webRuntime, webKey, "web"⟩ webEffects answers usages api.sessionId bound ∧
      Leaves ⟨telegramAgent, telegramRuntime, chatId, "telegram"⟩ telegramEffects answers usages
        api.sessionId bound ∧
      Leaves ⟨api.agent, apiRuntime, api.sessionKey, "api"⟩ (api.effects table stream g w) answers
        usages api.sessionId bound := by
  let answer := stream.events.foldl AgentEvent.answer []
  let bound := (stream.events.flatMap AgentEvent.sessionIds).getLast?.or api.sessionId
  refine ⟨answerRows answer, stream.events.filterMap (·.usage?), bound, length_answerRows_le answer,
    ?_, ?_, ?_⟩
  · refine (hweb.wrote (GatewayState.next_web rfl) ?_).leaves api.sessionId
    exact ⟨rfl, hdone, hcred, _, rfl, rfl, rfl, rfl⟩
  · refine (htelegram.wrote (GatewayState.next_telegram rfl) ?_).leaves api.sessionId
    exact ⟨rfl, _, rfl, rfl⟩
  · obtain ⟨ids, hwrote, hids⟩ := api.effects_wrote table hdone g w apiRuntime
    have hleaves := hwrote.leaves api.sessionId
    rw [hids] at hleaves
    exact hleaves

/-- Every turn can be read to its end. -/
theorem exists_drained {held : GatewayState → Prop} {place : TurnPlace} {inv : Turn → Prop}
    {rows : Turn → List JsString}
    (hstep : ∀ (g : GatewayState) (turn : Turn) (fallback : Option Credential) (run : DriverRun)
      (w : Moment), held g → g.streaming.find? turn.session = some turn → inv turn →
        ReadsTo place inv rows turn (g.next table tables turn.session fallback run w))
    (g : GatewayState) (hheld : ∀ streaming, held { g with streaming := streaming })
    (run : DriverRun) (w : Moment) {turn : Turn} (hinv : inv turn) :
    ∃ effects, Drained table tables held turn effects := by
  generalize hevents : turn.rest.events = events
  induction events generalizing turn with
  | nil =>
    have hfind := Table.find?_put_self g.streaming turn
    cases hstep _ turn none run w (hheld _) hfind hinv with
    | finished _ _ hover => exact ⟨_, .ends (hheld _) hfind rfl hover⟩
    | event e turn' answers hcons => cases hevents.symm.trans hcons
  | cons e events ih =>
    have hfind := Table.find?_put_self g.streaming turn
    cases hstep _ turn none run w (hheld _) hfind hinv with
    | finished hnil => cases hevents.symm.trans hnil
    | event e' turn' answers hcons _ _ hmore hinv' =>
      obtain ⟨rest, hrest⟩ := ih hinv' (List.cons.inj (hcons.symm.trans hevents)).2
      exact ⟨_, .reads (hheld _) hfind rfl hmore hrest⟩

end Agreement

/-! ### A greeting, over the three of them -/

def greetingUsage : SpendUsage := ⟨some 900, some 100, none⟩

/-- The answer comes in two pieces. -/
def greeting : DriverStream where
  events := [.session (utf16 "s1"), .text (utf16 "Hel"), .toolUse (utf16 "Bash") none none,
    .text (utf16 "lo."), .done (some (utf16 "s2")) (some greetingUsage)]
  thrown := none

theorem greeting_doneLast : DoneLast greeting.events := by
  apply doneLast_of_dropLast
  intro e hmem
  simp only [greeting, List.dropLast_cons_cons, List.dropLast_singleton, List.mem_cons,
    List.not_mem_nil, or_false] at hmem
  obtain rfl | rfl | rfl | rfl := hmem <;> rfl

theorem greeting_blames_none : NoCredentialError .ascii greeting.events := by
  intro text code hmem
  simp [greeting] at hmem

/-- The web turn, the Telegram turn and the API turn of the greeting agree. -/
theorem greeting_agrees : ∃ webEffects telegramEffects answers usages bound,
    answers.length ≤ 1 ∧
      Leaves ⟨assistant, none, utf16 "main", "web"⟩ webEffects answers usages none bound ∧
      Leaves ⟨assistant, none, utf16 "7", "telegram"⟩ telegramEffects answers usages none bound ∧
      Leaves ⟨assistant, none, utf16 "main", "api"⟩
        (ApiTurn.effects prices ⟨2, assistant, utf16 "main", none⟩ greeting (.boot .empty .empty)
          atEpoch) answers usages none bound := by
  have hweb : WebInv .ascii ⟨assistant, none, utf16 "main", "web"⟩ 0
      (.web 0 assistant greeting 0 (utf16 "main") (utf16 "hello") subscription) :=
    ⟨rfl, greeting_doneLast, greeting_blames_none, _, rfl, rfl, rfl, rfl⟩
  have htelegram : TelegramInv ⟨assistant, none, utf16 "7", "telegram"⟩
      (.telegram 1 assistant greeting (utf16 "7")) := ⟨rfl, _, rfl, rfl⟩
  obtain ⟨webEffects, hweb⟩ := exists_drained (GatewayState.next_web rfl)
    ((GatewayState.boot .empty .empty).setConnection ⟨0, true, true, true⟩) (fun _ => rfl)
    (.claudeCode answering) atEpoch hweb
  obtain ⟨telegramEffects, htelegram⟩ := exists_drained (GatewayState.next_telegram rfl)
    (.boot .empty .empty) (fun _ => trivial) (.claudeCode answering) atEpoch htelegram
  exact ⟨webEffects, telegramEffects, consumers_agree greeting_doneLast greeting_blames_none hweb
    htelegram ⟨2, assistant, utf16 "main", none⟩ _ atEpoch none none none⟩

end OsModa.Gateway
