import OsModa.Gateway.Turns

/-!
What a step of the gateway does to driver sessions.

`Does` lists it once for every step: which sessions it starts and under which check, which
terminal events it takes, what it bills for them, and that a session's terminal events are
paid from a reserve of one. `step_does` goes through the handlers; the results about runs
are drawn from it alone.
-/

namespace OsModa.Gateway

open OsModa.Js

/-! ### Sessions in the effects -/

/-- The terminal event of a session of an agent. -/
structure Terminal where
  session : SessionId
  agent : AgentProfile
  usage : Option SpendUsage

/-- A call of `spend.record` for a session. -/
structure Charge where
  session : SessionId
  agent : AgentProfile
  usage : SpendUsage

/-- The call that the usage of an event asks for. -/
def Terminal.charge? (e : Terminal) : Option Charge := e.usage.map (⟨e.session, e.agent, ·⟩)

def GatewayEffect.charge? : GatewayEffect → Option Charge
  | .spendRecord session agent usage => some ⟨session, agent, usage⟩
  | _ => none

def GatewayEffect.start? : GatewayEffect → Option (SessionId × AgentProfile)
  | .startSession session agent _ => some (session, agent)
  | _ => none

def charges (effects : List GatewayEffect) : List Charge := effects.filterMap (·.charge?)

def starts (effects : List GatewayEffect) : List (SessionId × AgentProfile) :=
  effects.filterMap (·.start?)

@[simp] theorem charges_nil : charges [] = [] := rfl
@[simp] theorem starts_nil : starts [] = [] := rfl

theorem charges_cons (e : GatewayEffect) (effects : List GatewayEffect) :
    charges (e :: effects) = e.charge?.toList ++ charges effects := by
  unfold charges
  rw [List.filterMap_cons]
  cases e.charge? <;> rfl

theorem starts_cons (e : GatewayEffect) (effects : List GatewayEffect) :
    starts (e :: effects) = e.start?.toList ++ starts effects := by
  unfold starts
  rw [List.filterMap_cons]
  cases e.start? <;> rfl

theorem charges_append (effects effects' : List GatewayEffect) :
    charges (effects ++ effects') = charges effects ++ charges effects' :=
  List.filterMap_append

theorem starts_append (effects effects' : List GatewayEffect) :
    starts (effects ++ effects') = starts effects ++ starts effects' :=
  List.filterMap_append

/-- Effects that start no session and record nothing. -/
def Plain (effects : List GatewayEffect) : Prop := charges effects = [] ∧ starts effects = []

theorem plain_nil : Plain [] := ⟨rfl, rfl⟩

theorem Plain.append {effects effects' : List GatewayEffect} (h : Plain effects)
    (h' : Plain effects') : Plain (effects ++ effects') :=
  ⟨by rw [charges_append, h.1, h'.1]; rfl, by rw [starts_append, h.2, h'.2]; rfl⟩

theorem Plain.cons {e : GatewayEffect} {effects : List GatewayEffect} (hcharge : e.charge? = none)
    (hstart : e.start? = none) (h : Plain effects) : Plain (e :: effects) :=
  ⟨by rw [charges_cons, hcharge, h.1]; rfl, by rw [starts_cons, hstart, h.2]; rfl⟩

theorem plain_map {α : Type} {f : α → GatewayEffect} (hcharge : ∀ x, (f x).charge? = none)
    (hstart : ∀ x, (f x).start? = none) (l : List α) : Plain (l.map f) := by
  induction l with
  | nil => exact plain_nil
  | cons x l ih => exact .cons (hcharge x) (hstart x) ih

theorem plain_flushAssistant (web : WebTurn) (agent : AgentProfile) :
    Plain (web.flushAssistant agent) := by
  unfold WebTurn.flushAssistant
  split
  · exact plain_nil
  · exact .cons rfl rfl plain_nil

theorem plain_pipeEvent (web : WebTurn) (e : AgentEvent) : Plain (web.pipeEvent e) := by
  unfold WebTurn.pipeEvent
  refine .append (plain_map (fun _ => rfl) (fun _ => rfl) _) ?_
  cases e with
  | session sessionId => exact plain_nil
  | _ => exact .cons rfl rfl plain_nil

theorem plain_show (tables : CaseTables) (web : WebTurn) (agent : AgentProfile) (e : AgentEvent) :
    Plain (web.show tables agent e) := by
  unfold WebTurn.show
  refine .append ?_ ?_
  · split
    · exact plain_flushAssistant web agent
    · exact plain_nil
  · split
    · exact plain_nil
    · exact plain_pipeEvent web e

theorem plain_deliver (reply : TelegramReply) (agent : AgentProfile) (thrown : Option JsString) :
    Plain (reply.deliver agent thrown) := by
  unfold TelegramReply.deliver
  refine .append ?_ ?_
  · split
    · exact plain_nil
    · exact .cons rfl rfl plain_nil
  · split
    · exact plain_nil
    · exact .cons rfl rfl plain_nil

theorem plain_answer (turn : ApiTurn) (result : TurnResult) : Plain (turn.answer result) := by
  unfold ApiTurn.answer
  refine .append (.append (plain_map (fun _ => rfl) (fun _ => rfl) _) ?_)
    (.cons rfl rfl plain_nil)
  split
  · exact plain_nil
  · exact .cons rfl rfl plain_nil

/-! ### What a step is about to do -/

/-- How many terminal events a turn of the controller can still bring. -/
def LoopManager.reserve (m : LoopManager) (controller : Nat) : Nat :=
  (if m.nextController ≤ controller then 1 else 0) + m.flights.countP (·.controller = controller)

namespace GatewayState

/-- How many terminal events a session can still bring: one if it is to be started, those
still to come of one that is read, and one for a request. -/
def reserve (g : GatewayState) : SessionId → Nat
  | .gateway n => (if g.nextSession ≤ n then 1 else 0) +
      (g.streaming.find? n).elim 0 (·.rest.terminals.length) +
      (g.requests.find? n).elim 0 fun _ => 1
  | .loop controller => g.loops.reserve controller

/-- The terminal events that a step takes. -/
def terminals (g : GatewayState) : GatewayOp → List Terminal
  | .next session _ _ => (g.streaming.find? session).toList.flatMap fun turn =>
    (turn.rest.events.head?.bind (·.terminal?)).toList.map (⟨.gateway session, turn.agent, ·⟩)
  | .agentTurnEnds session run => (g.requests.find? session).toList.flatMap fun turn =>
    run.stream.terminals.map (⟨.gateway session, turn.agent, ·⟩)
  | .loopTurnEnds controller run =>
    (g.loops.flights.find? (·.controller = controller)).toList.flatMap fun flight =>
      run.stream.terminals.map (⟨.loop controller, flight.agent, ·⟩)
  | _ => []

/-- The consumer of the step's events is one that bills: a web connection that is open, a
loop that runs and whose turn did not fail, a Telegram chat or a request. -/
def bills (g : GatewayState) : GatewayOp → Bool
  | .next session _ _ =>
    match g.streaming.find? session with
    | some ⟨_, _, _, .web web⟩ => g.isOpen web.conn
    | _ => true
  | .loopTurnEnds controller run =>
    (g.loops.flights.find? (·.controller = controller)).any fun flight =>
      (g.loops.loops.find? flight.loopId).any fun loop =>
        loop.status = .running && !decide (runAgentTurn flight.sessionId run.stream).Failed
  | _ => true

/-- A pass of a web turn is over: its driver has ended, or nobody listens to it. -/
def passIsOver (g : GatewayState) (turn : Turn) (web : WebTurn) : Bool :=
  match turn.rest.events with
  | [] => turn.rest.thrown.isNone
  | _ :: _ => !g.isOpen web.conn

/-- The agent of a turn that goes on with another credential when its pass is over. -/
def retryOf (g : GatewayState) (turn : Turn) (web : WebTurn) (fallback : Option Credential) :
    Option AgentProfile :=
  if web.retried = false ∧ web.pass.Exhausted ∧ fallback.isSome = true ∧
      (g.connections.find? web.conn).any (·.hasController) = true then some turn.agent
  else none

/-- The agent whose turn a step takes up again. -/
def retries (g : GatewayState) : GatewayOp → Option AgentProfile
  | .next session fallback _ =>
    match g.streaming.find? session with
    | some turn =>
      match turn.consumer with
      | .web web => if g.passIsOver turn web = true then g.retryOf turn web fallback else none
      | .telegram _ => none
    | none => none
  | _ => none

end GatewayState

/-- What a step does to sessions, given the agent whose turn it takes up again, the terminal
events it takes, and whether they are billed. -/
structure Does (table : List (String × Price)) (g : GatewayState) (w : Moment)
    (retry : Option AgentProfile) (ends : List Terminal) (bills : Bool)
    (out : List GatewayEffect × GatewayState) : Prop where
  /-- A session is started in the step that checks its budget, unless the turn is taken up
  again. -/
  started : ∀ s a, (s, a) ∈ starts out.1 → retry = some a ∧ out.2.spend = g.spend ∨
    (g.spend.check a w.now).1.allowed = true ∧ out.2.spend = (g.spend.check a w.now).2
  retried : ∀ a, retry = some a → out.2.spend = g.spend ∧ ∃ s, (s, a) ∈ starts out.1
  charged : charges out.1 = if bills then ends.filterMap (·.charge?) else []
  metered : ∀ c ∈ charges out.1,
    out.2.spend = (g.spend.record table c.agent c.usage w.now w.checkedAt).2
  paid : ∀ s, ends.countP (·.session = s) + out.2.reserve s ≤ g.reserve s

section Bill

variable {table : List (String × Price)} (g : GatewayState) (w : Moment) {e : Terminal}

theorem charges_bill : charges (g.bill table e.session e.agent e.usage w).1 = e.charge?.toList := by
  unfold GatewayState.bill Terminal.charge?
  cases e.usage with
  | none => rfl
  | some usage =>
    have halerts := plain_map (f := .alert) (fun _ => rfl) (fun _ => rfl)
      (g.spend.record table e.agent usage w.now w.checkedAt).1
    simp only [GatewayState.record, charges_cons, halerts.1]
    rfl

theorem starts_bill : starts (g.bill table e.session e.agent e.usage w).1 = [] := by
  unfold GatewayState.bill
  cases e.usage with
  | none => rfl
  | some usage =>
    have halerts := plain_map (f := .alert) (fun _ => rfl) (fun _ => rfl)
      (g.spend.record table e.agent usage w.now w.checkedAt).1
    simp only [GatewayState.record, starts_cons, halerts.2]
    rfl

theorem bill_reserve (s : SessionId) :
    (g.bill table e.session e.agent e.usage w).2.reserve s = g.reserve s := by
  unfold GatewayState.bill
  cases e.usage <;> rfl

theorem bill_spend {c : Charge} (hc : c ∈ e.charge?.toList) :
    (g.bill table e.session e.agent e.usage w).2.spend =
      (g.spend.record table c.agent c.usage w.now w.checkedAt).2 := by
  unfold Terminal.charge? at hc
  cases husage : e.usage with
  | none =>
    rw [husage] at hc
    cases hc
  | some usage =>
    rw [husage] at hc
    obtain rfl := List.mem_singleton.mp hc
    rfl

end Bill

namespace Does

variable {table : List (String × Price)} {g g' : GatewayState} {w : Moment} {bills : Bool}
  {effects effects' : List GatewayEffect} {ends : List Terminal}
  {out : List GatewayEffect × GatewayState}

/-- A step that starts nothing and takes no terminal event. -/
theorem quiet (hplain : Plain out.1) (hreserve : ∀ s, out.2.reserve s ≤ g.reserve s) :
    Does table g w none [] bills out where
  started := by
    intro s a hstart
    rw [hplain.2] at hstart
    cases hstart
  retried := nofun
  charged := hplain.1.trans (by cases bills <;> rfl)
  metered := by
    intro c hc
    rw [hplain.1] at hc
    cases hc
  paid := fun s => (Nat.zero_add _).trans_le (hreserve s)

/-- A step that takes terminal events without billing them. -/
theorem dropped (hplain : Plain out.1)
    (hreserve : ∀ s, ends.countP (·.session = s) + out.2.reserve s ≤ g.reserve s) :
    Does table g w none ends false out where
  started := by
    intro s a hstart
    rw [hplain.2] at hstart
    cases hstart
  retried := nofun
  charged := hplain.1
  metered := by
    intro c hc
    rw [hplain.1] at hc
    cases hc
  paid := hreserve

/-- A step that starts a session after its check. -/
theorem opened {a : AgentProfile} (hallowed : (g.spend.check a w.now).1.allowed = true)
    (hspend : out.2.spend = (g.spend.check a w.now).2) (hcharges : charges out.1 = [])
    (hstarts : ∀ s a', (s, a') ∈ starts out.1 → a' = a)
    (hreserve : ∀ s, out.2.reserve s ≤ g.reserve s) :
    Does table g w none [] bills out where
  started := by
    intro s a' hstart
    obtain rfl := hstarts s a' hstart
    exact .inr ⟨hallowed, hspend⟩
  retried := nofun
  charged := hcharges.trans (by cases bills <;> rfl)
  metered := by
    intro c hc
    rw [hcharges] at hc
    cases hc
  paid := fun s => (Nat.zero_add _).trans_le (hreserve s)

/-- A step that takes a turn up again. -/
theorem reopened {s : SessionId} {a : AgentProfile} (hspend : out.2.spend = g.spend)
    (hcharges : charges out.1 = []) (hstarts : starts out.1 = [(s, a)])
    (hreserve : ∀ s, ends.countP (·.session = s) + out.2.reserve s ≤ g.reserve s) :
    Does table g w (some a) ends false out where
  started := by
    intro s' a' hstart
    rw [hstarts] at hstart
    obtain ⟨-, rfl⟩ := Prod.mk.inj (List.mem_singleton.mp hstart)
    exact .inl ⟨rfl, hspend⟩
  retried := by
    intro a' ha
    obtain rfl := Option.some.inj ha
    exact ⟨hspend, s, hstarts ▸ List.mem_singleton_self _⟩
  charged := hcharges
  metered := by
    intro c hc
    rw [hcharges] at hc
    cases hc
  paid := hreserve

/-- Without a terminal event there is nothing to bill. -/
theorem of_no_ends {retry : Option AgentProfile} {bills' : Bool}
    (h : Does table g w retry [] bills out) :
    Does table g w retry [] bills' out :=
  { h with charged := h.charged.trans (by cases bills <;> cases bills' <;> rfl) }

/-- A step that takes an event and bills its usage, if it has one. -/
theorem billed {e : Terminal} (hplain : Plain effects) (hplain' : Plain effects')
    (hspend : g'.spend = g.spend)
    (hreserve : ∀ s, [e].countP (·.session = s) + g'.reserve s ≤ g.reserve s) :
    Does table g w none [e] true
      (effects ++ (g'.bill table e.session e.agent e.usage w).1 ++ effects',
        (g'.bill table e.session e.agent e.usage w).2) := by
  have hcharges : charges (effects ++ (g'.bill table e.session e.agent e.usage w).1 ++ effects') =
      e.charge?.toList := by
    rw [charges_append, charges_append, hplain.1, hplain'.1, charges_bill]
    exact List.append_nil _
  refine ⟨?_, nofun, ?_, ?_, fun s => (bill_reserve g' w s).symm ▸ hreserve s⟩
  · intro s a hstart
    rw [starts_append, starts_append, hplain.2, hplain'.2, starts_bill] at hstart
    cases hstart
  · rw [hcharges, if_pos rfl, List.filterMap_cons]
    cases e.charge? <;> rfl
  · intro c hc
    rw [hcharges] at hc
    rw [← hspend]
    exact bill_spend g' w hc

/-- The same where the event may not be terminal. -/
theorem billedAt {s : SessionId} {a : AgentProfile} {usage : Option (Option SpendUsage)}
    (hplain : Plain effects) (hplain' : Plain effects') (hspend : g'.spend = g.spend)
    (hreserve : ∀ s', (usage.toList.map (Terminal.mk s a)).countP (·.session = s') +
      g'.reserve s' ≤ g.reserve s') :
    Does table g w none (usage.toList.map (Terminal.mk s a)) true
      (effects ++ (g'.bill table s a usage.join w).1 ++ effects',
        (g'.bill table s a usage.join w).2) := by
  cases usage with
  | none =>
    refine .quiet ((hplain.append plain_nil).append hplain') ?_
    intro s'
    exact (Nat.zero_add _).symm.trans_le (hreserve s')
  | some usage => exact .billed (e := ⟨s, a, usage⟩) hplain hplain' hspend hreserve

end Does

/-! ### The handlers -/

namespace GatewayState

variable {table : List (String × Price)} {tables : CaseTables} {maxLoops : Nat}
variable (g : GatewayState) (w : Moment)

theorem plain_one {e : GatewayEffect} (hcharge : e.charge? = none) (hstart : e.start? = none) :
    Plain [e] := .cons hcharge hstart plain_nil

/-- The numbers from `k + 1` on are still fresh, and `k` has become a session. -/
theorem fresh_add_le {k n after before : Nat} (hsame : k = n → after ≤ 1 + before)
    (hother : k ≠ n → after ≤ before) :
    (if k + 1 ≤ n then 1 else 0) + after ≤ (if k ≤ n then 1 else 0) + before := by
  by_cases hn : k = n
  · have := hsame hn
    rw [if_neg (by omega), if_pos (by omega)]
    omega
  · have := hother hn
    have hfresh : (k + 1 ≤ n) = (k ≤ n) := by
      rw [eq_iff_iff]
      omega
    simp only [hfresh]
    omega

/-- A new session has its one terminal event in store. -/
theorem startStreaming_reserve (agent : AgentProfile) (message : JsString) (run : DriverRun)
    (consumer : Consumer) (s : SessionId) :
    (g.startStreaming agent message run consumer).2.reserve s ≤ g.reserve s := by
  cases s with
  | loop controller => exact le_rfl
  | gateway n =>
    have hrun : (Turn.mk g.nextSession agent run.stream consumer).rest.terminals.length ≤ 1 :=
      run.terminals_length_le
    simp only [startStreaming, reserve, Table.find?_put, Nat.add_assoc]
    refine fresh_add_le (fun hn => ?_) fun hn => ?_
    · rw [if_pos hn, Option.elim_some]
      omega
    · rw [if_neg hn]

theorem erase_reserve (session : Nat) (s : SessionId) :
    reserve { g with streaming := g.streaming.erase session } s ≤ g.reserve s := by
  cases s with
  | loop controller => exact le_rfl
  | gateway n =>
    simp only [reserve, Table.find?_erase]
    by_cases hn : session = n
    · rw [if_pos hn, Option.elim_none]
      omega
    · rw [if_neg hn]

/-- What a message from outside comes to: an answer without a turn, or a turn after the check of
its agent. -/
inductive Enters (g : GatewayState) (w : Moment) (credential : Option Credential)
    (out : List GatewayEffect × GatewayState) : Prop where
  | answered (hplain : Plain out.1) (spend : SpendMeter) (hout : out.2 = { g with spend })
  | opened (agent : AgentProfile) (hcredential : credential.isSome = true)
      (hallowed : (g.spend.check agent w.now).1.allowed = true)
      (hspend : out.2.spend = (g.spend.check agent w.now).2) (hcharges : charges out.1 = [])
      (hstarts : starts out.1 = [(.gateway g.nextSession, agent)])
      (hnext : out.2.nextSession = g.nextSession + 1)
      (hstreaming : ∀ session, session ≠ g.nextSession →
        out.2.streaming.find? session = g.streaming.find? session)
      (hreserve : ∀ s, out.2.reserve s ≤ g.reserve s)

variable {g w} in
theorem Enters.does {credential : Option Credential} {out : List GatewayEffect × GatewayState}
    (h : g.Enters w credential out) (bills : Bool) : Does table g w none [] bills out := by
  cases h with
  | answered hplain spend hout =>
    refine .quiet hplain ?_
    intro s
    rw [hout]
    exact le_rfl
  | opened agent _ hallowed hspend hcharges hstarts _ _ hreserve =>
    refine .opened hallowed hspend hcharges ?_ hreserve
    intro s a hstart
    rw [hstarts] at hstart
    exact (Prod.mk.inj (List.mem_singleton.mp hstart)).2

variable {w} in
/-- A session that a driver streams. -/
theorem enters_startStreaming {g' : GatewayState} {agent : AgentProfile} {message : JsString}
    {run : DriverRun} {consumer : Consumer} {credential : Option Credential} {e : GatewayEffect}
    (hcredential : credential.isSome = true)
    (hallowed : ¬ (g.spend.check agent w.now).1.allowed = false)
    (hspend : g'.spend = (g.spend.check agent w.now).2) (hnext : g'.nextSession = g.nextSession)
    (hstreaming : g'.streaming = g.streaming) (hreserve : ∀ s, g'.reserve s = g.reserve s)
    (hcharge : e.charge? = none) (hstart : e.start? = none) :
    g.Enters w credential (e :: (g'.startStreaming agent message run consumer).1,
      (g'.startStreaming agent message run consumer).2) := by
  refine .opened agent hcredential (by simpa using hallowed) hspend ?_ ?_ ?_ ?_ ?_
  · rw [charges_cons, hcharge]
    rfl
  · rw [starts_cons, hstart, ← hnext]
    rfl
  · exact congrArg (· + 1) hnext
  · intro session hother
    rw [← hnext] at hother
    simp only [startStreaming, Table.find?_put, if_neg hother.symm, hstreaming]
  · intro s
    rw [← hreserve s]
    exact startStreaming_reserve _ _ message _ _ s

theorem chat_enters (conn : Nat) (request : ChatRequest) (run : DriverRun) :
    g.Enters w request.credential (g.chat conn request run w) := by
  have hrefuse : ∀ frame, g.Enters w request.credential ([.send conn frame], g) := fun _ =>
    .answered (plain_one rfl rfl) _ rfl
  unfold chat
  dsimp only
  split
  · exact .answered plain_nil _ rfl
  · split
    · exact .answered plain_nil _ rfl
    split
    · exact hrefuse _
    split
    · exact hrefuse _
    split
    · exact hrefuse _
    split
    · exact hrefuse _
    rename_i hcredential
    split
    · exact hrefuse _
    split
    · exact .answered (plain_one rfl rfl) _ rfl
    · rename_i hallowed
      exact g.enters_startStreaming (Option.isSome_iff_exists.mpr ⟨_, hcredential⟩) hallowed rfl rfl
        rfl (fun _ => rfl) rfl rfl

theorem telegram_enters (update : TelegramUpdate) (run : DriverRun) :
    g.Enters w update.credential (g.telegram update run w) := by
  have hreply : ∀ text, g.Enters w update.credential ([.sendTelegram update.chatId text], g) :=
    fun _ => .answered (plain_one rfl rfl) _ rfl
  unfold telegram
  dsimp only
  split
  · exact .answered plain_nil _ rfl
  split
  · exact hreply _
  split
  · exact hreply _
  rename_i hcredential
  split
  · exact hreply _
  split
  · exact .answered (plain_one rfl rfl) _ rfl
  · rename_i hallowed
    exact g.enters_startStreaming (Option.isSome_iff_exists.mpr ⟨_, hcredential⟩) hallowed rfl rfl
      rfl (fun _ => rfl) rfl rfl

theorem agentTurn_enters (request : ApiRequest) :
    g.Enters w request.credential (g.agentTurn request w) := by
  have hrefuse : ∀ status body, g.Enters w request.credential ([.respond status body], g) :=
    fun _ _ => .answered (plain_one rfl rfl) _ rfl
  unfold agentTurn
  dsimp only
  split
  · exact hrefuse _ _
  split
  · exact hrefuse _ _
  split
  · exact hrefuse _ _
  rename_i hcredential
  split
  · exact hrefuse _ _
  split
  · exact .answered (plain_one rfl rfl) _ rfl
  · rename_i agent _ _ _ _ hallowed
    refine .opened agent (Option.isSome_iff_exists.mpr ⟨_, hcredential⟩) (by simpa using hallowed)
      rfl rfl rfl rfl (fun _ _ => rfl) ?_
    intro s
    cases s with
    | loop controller => exact le_rfl
    | gateway n =>
      simp only [reserve, Table.find?_put, Nat.add_assoc]
      refine fresh_add_le (fun hn => ?_) fun hn => ?_
      · rw [if_pos hn, Option.elim_some]
        omega
      · rw [if_neg hn]

/-! A turn that is read -/

theorem closeTurn_plain (turn : Turn) (web : WebTurn) (thrown : Option JsString) :
    Plain (g.closeTurn turn web thrown).1 := by
  unfold closeTurn
  refine .append (plain_flushAssistant web turn.agent) ?_
  cases thrown with
  | none => exact plain_nil
  | some message =>
    dsimp only
    split
    · exact plain_one rfl rfl
    · exact plain_nil

theorem count_session (s s' : SessionId) (a : AgentProfile) (usages : List (Option SpendUsage)) :
    (usages.map (Terminal.mk s a)).countP (·.session = s') = if s = s' then usages.length else 0 := by
  rw [List.countP_map]
  by_cases hs : s = s'
  · subst hs
    simp [Function.comp_def]
  · simp [Function.comp_def, hs]

/-- Taking the next event of a turn leaves those that follow it. -/
theorem advance_reserve {turn : Turn} (hfind : g.streaming.find? turn.session = some turn)
    {e : AgentEvent} {events : List AgentEvent} (hevents : turn.rest.events = e :: events)
    (consumer : Consumer) (s : SessionId) :
    (e.terminal?.toList.map (Terminal.mk (.gateway turn.session) turn.agent)).countP
        (·.session = s) +
      (g.advance turn events consumer).reserve s ≤ g.reserve s := by
  have hterminals : turn.rest.terminals.length =
      e.terminal?.toList.length + (DriverStream.mk events turn.rest.thrown).terminals.length := by
    unfold DriverStream.terminals
    rw [hevents, List.filterMap_cons]
    cases e.terminal? with
    | none => exact (Nat.zero_add _).symm
    | some usage => exact Nat.add_comm _ 1
  rw [count_session]
  unfold advance
  cases s with
  | loop controller => simp [reserve]
  | gateway n =>
    simp only [reserve, Table.find?_put, SessionId.gateway.injEq]
    by_cases hn : turn.session = n
    · subst hn
      rw [hfind]
      simp only [if_true, Option.elim_some, hterminals]
      omega
    · simp only [if_neg hn, Nat.zero_add, le_refl]

/-- So does ending the turn when its next event comes. -/
theorem drop_reserve {turn : Turn} (hfind : g.streaming.find? turn.session = some turn)
    {e : AgentEvent} {events : List AgentEvent} (hevents : turn.rest.events = e :: events)
    (s : SessionId) :
    (e.terminal?.toList.map (Terminal.mk (.gateway turn.session) turn.agent)).countP
        (·.session = s) +
      reserve { g with streaming := g.streaming.erase turn.session } s ≤ g.reserve s := by
  refine le_trans (Nat.add_le_add_left ?_ _) (advance_reserve g hfind hevents turn.consumer s)
  unfold advance
  cases s with
  | loop controller => exact le_rfl
  | gateway n =>
    simp only [reserve, Table.find?_put, Table.find?_erase]
    by_cases hn : turn.session = n
    · rw [if_pos hn, if_pos hn, Option.elim_none]
      omega
    · rw [if_neg hn, if_neg hn]

/-- What the end of a pass comes to: the turn is over, or it is taken up again with the next
credential. -/
inductive PassEnded (g : GatewayState) (turn : Turn) (web : WebTurn) (fallback : Option Credential)
    (run : DriverRun) : List GatewayEffect × GatewayState → Prop where
  | closed {effects : List GatewayEffect} (thrown : Option JsString) (hplain : Plain effects)
      (hretry : g.retryOf turn web fallback = none) : PassEnded g turn web fallback run
        (effects ++ (g.closeTurn turn web thrown).1, (g.closeTurn turn web thrown).2)
  | again {effects : List GatewayEffect} (next : Credential) (hplain : Plain effects)
      (hfallback : fallback = some next) (hretried : web.retried = false)
      (hretry : g.retryOf turn web fallback = some turn.agent) :
      PassEnded g turn web fallback run
        (effects ++ (startStreaming { g with streaming := g.streaming.erase turn.session }
            turn.agent web.message run
            (.web { web with active := next, retried := true, pass := .start })).1,
          (startStreaming { g with streaming := g.streaming.erase turn.session }
            turn.agent web.message run
            (.web { web with active := next, retried := true, pass := .start })).2)

theorem passEnds_ended (turn : Turn) (web : WebTurn) (fallback : Option Credential)
    (run : DriverRun) :
    PassEnded g turn web fallback run (g.passEnds turn web fallback run) := by
  have hsend : ∀ frame,
      Plain (if g.isOpen web.conn then [GatewayEffect.send web.conn frame] else []) := by
    intro frame
    split
    · exact plain_one rfl rfl
    · exact plain_nil
  unfold passEnds
  by_cases hexhausted : web.retried = false ∧ web.pass.Exhausted
  · rw [if_pos hexhausted]
    have hcooldown := Plain.cons (e := .markCooldown web.active.id
      (web.pass.credErrorReason.getD "unknown")) rfl rfl (hsend (.credentialCooldown web.active
        (web.pass.credErrorReason.getD "unknown") fallback))
    cases fallback with
    | none => exact .closed none (hcooldown.append (hsend _)) (if_neg (by simp))
    | some next =>
      dsimp only
      by_cases hcontroller : (g.connections.find? web.conn).any (·.hasController) = true
      · rw [if_pos hcontroller]
        exact .again next hcooldown rfl hexhausted.1
          (if_pos ⟨hexhausted.1, hexhausted.2, rfl, hcontroller⟩)
      · rw [if_neg hcontroller]
        exact .closed _ hcooldown (if_neg fun h => hcontroller h.2.2.2)
  · rw [if_neg hexhausted]
    exact .closed none plain_nil (if_neg fun h => hexhausted ⟨h.1, h.2.1⟩)

/-- A pass that is over ends the turn, or takes it up again. -/
theorem passEnds_does {ends : List Terminal} (turn : Turn) (web : WebTurn)
    (fallback : Option Credential) (run : DriverRun)
    (hreserve : ∀ s, ends.countP (·.session = s) +
      reserve { g with streaming := g.streaming.erase turn.session } s ≤ g.reserve s) :
    Does table g w (g.retryOf turn web fallback) ends false (g.passEnds turn web fallback run) := by
  have hended := g.passEnds_ended turn web fallback run
  generalize g.passEnds turn web fallback run = out at hended ⊢
  cases hended with
  | closed thrown hplain hretry =>
    rw [hretry]
    exact .dropped (hplain.append (g.closeTurn_plain turn web thrown)) hreserve
  | again next hplain hfallback hretried hretry =>
    rw [hretry]
    refine .reopened (s := .gateway g.nextSession) rfl ?_ ?_ fun s => ?_
    · rw [charges_append, hplain.1]
      rfl
    · rw [starts_append, hplain.2]
      rfl
    · have hnew := startStreaming_reserve { g with streaming := g.streaming.erase turn.session }
        turn.agent web.message run
        (.web { web with active := next, retried := true, pass := .start }) s
      exact (Nat.add_le_add_left hnew _).trans (hreserve s)

/-- An event that is read is billed if it carries usage. -/
theorem advance_does {turn : Turn} (hfind : g.streaming.find? turn.session = some turn)
    {e : AgentEvent} {events : List AgentEvent} (hevents : turn.rest.events = e :: events)
    (consumer : Consumer) {effects : List GatewayEffect} (hplain : Plain effects) :
    Does table g w none
      (e.terminal?.toList.map (Terminal.mk (.gateway turn.session) turn.agent)) true
      (effects ++ ((g.advance turn events consumer).bill table (.gateway turn.session) turn.agent
          e.usage? w).1,
        ((g.advance turn events consumer).bill table (.gateway turn.session) turn.agent
          e.usage? w).2) := by
  rw [← List.append_nil (effects ++ _)]
  exact .billedAt hplain plain_nil rfl (advance_reserve g hfind hevents consumer)

theorem next_does (session : Nat) (fallback : Option Credential) (run : DriverRun) :
    Does table g w (g.retries (.next session fallback run)) (g.terminals (.next session fallback run))
      (g.bills (.next session fallback run)) (g.next table tables session fallback run w) := by
  unfold next
  cases hfind : g.streaming.find? session with
  | none =>
    simp only [retries, terminals, hfind, Option.toList_none, List.flatMap_nil]
    exact .quiet plain_nil fun _ => le_rfl
  | some turn =>
    obtain rfl : turn.session = session := Table.key_of_find? hfind
    obtain ⟨session, agent, ⟨events, thrown⟩, consumer⟩ := turn
    have herase := erase_reserve g session
    cases consumer with
    | telegram reply =>
      simp only [retries, terminals, bills, hfind, telegramNext]
      cases events with
      | nil => exact .quiet (plain_deliver _ _ _) herase
      | cons e events =>
        simp only [Option.toList_some, List.flatMap_cons, List.flatMap_nil, List.append_nil,
          List.head?_cons, Option.bind_some]
        exact advance_does g w hfind rfl _ (plain_map (fun _ => rfl) (fun _ => rfl) _)
    | web web =>
      simp only [retries, terminals, bills, hfind, webNext, passIsOver]
      cases events with
      | nil =>
        cases thrown with
        | some message => exact .quiet (closeTurn_plain _ _ _ _) herase
        | none =>
          refine (passEnds_does g w _ web fallback run fun s => ?_).of_no_ends
          exact (Nat.zero_add _).trans_le (herase s)
      | cons e events =>
        simp only [Option.toList_some, List.flatMap_cons, List.flatMap_nil, List.append_nil,
          List.head?_cons, Option.bind_some]
        by_cases hopen : g.isOpen web.conn = true
        · simp only [hopen, Bool.not_true, Bool.false_eq_true, Bool.true_eq_false, if_false]
          exact advance_does g w hfind rfl _ (plain_show tables web agent e)
        · have hclosed : g.isOpen web.conn = false := by simpa using hopen
          simp only [hclosed, Bool.not_false, if_true]
          exact passEnds_does g w _ web fallback run (drop_reserve g hfind rfl)

/-! API requests -/

theorem agentTurnEnds_does (session : Nat) (run : DriverRun) :
    Does table g w none (g.terminals (.agentTurnEnds session run)) true
      (g.agentTurnEnds table session run w) := by
  unfold agentTurnEnds
  cases hfind : g.requests.find? session with
  | none =>
    simp only [terminals, hfind, Option.toList_none, List.flatMap_nil]
    exact .quiet plain_nil fun _ => le_rfl
  | some turn =>
    have hlength := run.terminals_length_le
    obtain ⟨usage, hends, husage⟩ := runAgentTurn_usage hlength turn.sessionId
    rw [hends] at hlength
    simp only [terminals, hfind, Option.toList_some, List.flatMap_cons, List.flatMap_nil,
      List.append_nil, hends, husage]
    refine .billedAt plain_nil (plain_answer turn _) rfl ?_
    intro s
    rw [count_session]
    cases s with
    | loop controller => simp [reserve]
    | gateway n =>
      simp only [reserve, Table.find?_erase, SessionId.gateway.injEq]
      by_cases hn : session = n
      · subst hn
        simp only [if_true, hfind, Option.elim_none, Option.elim_some]
        omega
      · simp only [if_neg hn]
        omega

end GatewayState

/-! Loops -/

namespace LoopManager

variable (m : LoopManager) (id : String) (w : World)

theorem reserve_congr {m' : LoopManager} (hnext : m'.nextController = m.nextController)
    (hflights : m'.flights = m.flights) (controller : Nat) :
    m'.reserve controller = m.reserve controller := by
  unfold reserve
  rw [hnext, hflights]

theorem tick_reserve (deps : TickDeps) (controller : Nat) :
    (m.tick id deps w).2.reserve controller ≤ m.reserve controller := by
  have hout := tick_outcome m id w deps
  generalize m.tick id deps w = out at hout ⊢
  cases hout with
  | idle hidle => exact le_rfl
  | exhausted loop hfind hrunning hmax =>
    refine (m.reserve_congr ?_ ?_ controller).le
    · rw [finish_nextController, tickStarted]
    · rw [finish_flights, tickStarted]
  | withdrawn loop hfind hrunning reason =>
    refine (m.reserve_congr ?_ ?_ controller).le
    · rw [pause_nextController, tickStarted]
    · rw [pause_flights, tickStarted]
  | skipped loop hfind hrunning =>
    refine (m.reserve_congr ?_ ?_ controller).le
    · rw [reschedule_nextController, persist_nextController, setLoop_nextController, tickStarted]
    · rw [reschedule_flights, persist_flights, setLoop_flights, tickStarted]
  | launched loop hfind hrunning hiteration agent hagent hallowed hcredential hdriver =>
    unfold launched tickStarted
    simp only [reserve, List.countP_append]
    refine GatewayState.fresh_add_le (fun hnew => ?_) fun hother => ?_
    · simp only [List.countP_cons, List.countP_nil, hnew, decide_true, if_true]
      omega
    · simp [hother]

theorem fire_reserve (handle : Nat) (deps : TickDeps) (controller : Nat) :
    (m.fire handle deps w).2.reserve controller ≤ m.reserve controller := by
  rcases m.fire_cases handle deps w with hfire | ⟨timer, -, -, hfire⟩
  · rw [hfire]
  · rw [hfire]
    exact tick_reserve { m with pending := m.pending.filter (·.handle ≠ handle) } _ w deps controller

/-- Only a turn whose budget allows it and whose credential is there is started. -/
theorem deps_of_fire {handle : Nat} {deps : TickDeps} {controller : Nat} {message : JsString}
    (h : .startTurn id controller message ∈ (m.fire handle deps w).1) :
    deps.allowed = true ∧ deps.hasCredential = true := by
  have hstarted : ∀ {effects : List LoopEffect}, .startTurn id controller message ∈ effects →
      turnsStarted id effects ≠ 0 := fun hmem =>
    Nat.ne_of_gt (List.countP_pos_iff.mpr ⟨_, hmem, decide_eq_true rfl⟩)
  rcases m.fire_cases handle deps w with hfire | ⟨timer, -, -, hfire⟩
  · rw [hfire] at h
    cases h
  · rw [hfire] at h
    have hout := tick_outcome { m with pending := m.pending.filter (·.handle ≠ handle) }
      timer.loopId w deps
    generalize tick { m with pending := m.pending.filter (·.handle ≠ handle) } timer.loopId deps w =
      out at h hout
    cases hout with
    | idle hidle => cases h
    | exhausted loop hfind hrunning hmax => cases h
    | withdrawn loop hfind hrunning reason => exact absurd (turnsStarted_pause ..) (hstarted h)
    | skipped loop hfind hrunning => cases h
    | launched loop hfind hrunning hiteration agent hagent hallowed hcredential hdriver =>
      exact ⟨hallowed, hcredential⟩

theorem request_reserve (tables : CaseTables) (maxLoops : Nat) (request : LoopRequest)
    (controller : Nat) : (loopStep tables maxLoops (request.op w) m).2.reserve controller =
      m.reserve controller := by
  cases request with
  | create input agent =>
    have hout := create_outcome m w tables maxLoops input agent
    change (m.create tables maxLoops input agent w).2.reserve controller = _
    generalize m.create tables maxLoops input agent w = out at hout ⊢
    cases hout with
    | rejected message => rfl
    | created agent interval maxIter hroom hmaxIter =>
      exact m.reserve_congr (by simp) (by simp) controller
  | stop id =>
    change (m.stop id w).2.reserve controller = _
    rcases m.stop_cases id w with hstop | ⟨loop, -, -, hstop⟩ <;> rw [hstop]
    exact m.reserve_congr (withdraw_nextController ..) (withdraw_flights ..) controller
  | pause id => exact m.reserve_congr (pause_nextController ..) (pause_flights ..) controller
  | resume id =>
    change (m.resume id w).2.reserve controller = _
    rcases m.resume_cases id w with hresume | ⟨loop, -, -, -, hresume⟩ <;> rw [hresume]
    exact m.reserve_congr (by simp) (by simp) controller

/-- The turn that ends was in flight, and is no more. -/
theorem landed_reserve {flight : Flight} (hflight : flight ∈ m.flights) (controller : Nat) :
    (if flight.controller = controller then 1 else 0) + (m.landed flight).reserve controller ≤
      m.reserve controller := by
  unfold landed
  simp only [reserve, List.countP_filter]
  by_cases hsame : flight.controller = controller
  · subst hsame
    have hpos : 0 < m.flights.countP (·.controller = flight.controller) :=
      List.countP_pos_iff.mpr ⟨flight, hflight, decide_eq_true rfl⟩
    have hnone : m.flights.countP (fun f => decide (f.controller = flight.controller) &&
        decide (f.controller ≠ flight.controller)) = 0 := by
      rw [List.countP_eq_zero]
      intro f _
      simp
    rw [hnone, if_pos rfl]
    omega
  · rw [if_neg hsame, Nat.zero_add]
    refine Nat.add_le_add_left (List.countP_mono_left fun f _ hf => ?_) _
    exact (Bool.and_eq_true_iff.mp hf).1

theorem spendRecord_not_mem_pause (reason : String) (a : AgentProfile) (usage : SpendUsage) :
    .spendRecord a usage ∉ (m.pause id reason w).1 := by
  rcases m.pause_cases id w reason with hpause | ⟨loop, -, -, hpause⟩ <;> rw [hpause]
  · exact List.not_mem_nil
  · intro hmem
    obtain ⟨controller, -, habort⟩ := List.mem_map.mp hmem
    cases habort

theorem turnEffects_eq (loop : Loop) (agent : AgentProfile) (result : TurnResult) :
    ∃ effects, (∀ a usage, .spendRecord a usage ∉ effects) ∧
      turnEffects loop agent result = result.usage.toList.map (.spendRecord agent) ++ effects := by
  refine ⟨_, fun a usage hmem => ?_, List.append_assoc ..⟩
  rcases List.mem_append.mp hmem with hmem | hmem
  · obtain ⟨sessionId, -, hsave⟩ := List.mem_map.mp hmem
    cases hsave
  · split at hmem
    · cases hmem
    · cases List.mem_singleton.mp hmem

/-- The rest of a tick bills its turn, unless it failed. -/
theorem afterTurn_effects (tables : CaseTables) (loop : Loop) (agent : AgentProfile)
    (result : TurnResult) : ∃ effects, (∀ a usage, .spendRecord a usage ∉ effects) ∧
      (m.afterTurn tables loop agent result w).1 =
        (if result.Failed then [] else result.usage.toList.map (.spendRecord agent)) ++ effects := by
  obtain ⟨effects, hrecords, heffects⟩ := turnEffects_eq loop agent result
  have hout := afterTurn_outcome m loop w tables agent result
  generalize m.afterTurn tables loop agent result w = out at hout ⊢
  cases hout with
  | gaveUp hfailed herrors =>
    rw [if_pos hfailed]
    exact ⟨_, spendRecord_not_mem_pause _ _ w "repeated_errors", rfl⟩
  | failed hfailed herrors =>
    rw [if_pos hfailed]
    exact ⟨[], fun _ _ => List.not_mem_nil, rfl⟩
  | goalMet hok hhit => exact ⟨effects, hrecords, by rw [if_neg hok, heffects]⟩
  | exhausted hok hmiss hmax => exact ⟨effects, hrecords, by rw [if_neg hok, heffects]⟩
  | advanced hok hmiss hmore => exact ⟨effects, hrecords, by rw [if_neg hok, heffects]⟩

end LoopManager

namespace GatewayState

variable {table : List (String × Price)} {tables : CaseTables} {maxLoops : Nat}
variable (g : GatewayState) (w : Moment)

theorem charges_loopEffects (agent : Option AgentProfile) (effects : List LoopEffect) :
    charges (effects.flatMap (loopEffect agent)) = [] := by
  induction effects with
  | nil => rfl
  | cons e effects ih =>
    rw [List.flatMap_cons, charges_append, ih]
    cases e with
    | startTurn id controller message => cases agent <;> rfl
    | _ => rfl

theorem starts_loopEffects {agent : Option AgentProfile} {effects : List LoopEffect}
    {s : SessionId} {a : AgentProfile} (h : (s, a) ∈ starts (effects.flatMap (loopEffect agent))) :
    agent = some a ∧ ∃ id controller message, s = .loop controller ∧
      .startTurn id controller message ∈ effects := by
  obtain ⟨e, he, hstart⟩ := List.mem_filterMap.mp h
  obtain ⟨effect, heffect, he⟩ := List.mem_flatMap.mp he
  cases effect with
  | startTurn id controller message =>
    obtain ⟨a', ha', rfl⟩ := List.mem_map.mp he
    obtain ⟨rfl, rfl⟩ := Prod.mk.inj (Option.some.inj hstart)
    exact ⟨Option.mem_toList.mp ha', id, controller, message, rfl, heffect⟩
  | _ =>
    obtain rfl := List.mem_singleton.mp he
    cases hstart

theorem fire_does (bills : Bool) (handle : Nat) (deps : TickDeps) :
    Does table g w none [] bills (g.fire handle deps w) := by
  have hreserve : ∀ deps spend s,
      reserve { g with spend := spend, loops := (g.loops.fire handle deps w.toWorld).2 } s ≤
        g.reserve s := by
    intro deps spend s
    cases s with
    | gateway n => exact le_rfl
    | loop controller => exact g.loops.fire_reserve w.toWorld handle deps controller
  unfold fire
  cases g.loops.gatedAgent handle deps with
  | none =>
    dsimp only
    refine .quiet ⟨charges_loopEffects .., List.eq_nil_iff_forall_not_mem.mpr ?_⟩ (hreserve _ _)
    intro start hstart
    cases (starts_loopEffects (s := start.1) (a := start.2) hstart).1
  | some agent =>
    dsimp only
    cases hallowed : (g.spend.check agent w.now).1.allowed with
    | true =>
      refine .opened hallowed rfl (charges_loopEffects ..) ?_ (hreserve _ _)
      intro s a hstart
      exact (Option.some.inj (starts_loopEffects hstart).1).symm
    | false =>
      refine .quiet ⟨charges_loopEffects .., List.eq_nil_iff_forall_not_mem.mpr ?_⟩ (hreserve _ _)
      intro start hstart
      obtain ⟨-, id, controller, message, -, hmem⟩ :=
        starts_loopEffects (s := start.1) (a := start.2) hstart
      cases (g.loops.deps_of_fire id w.toWorld hmem).1

theorem loopRequest_does (bills : Bool) (request : LoopRequest) :
    Does table g w none [] bills
      ((loopStep tables maxLoops (request.op w.toWorld) g.loops).1.map .loop,
        { g with loops := (loopStep tables maxLoops (request.op w.toWorld) g.loops).2 }) := by
  refine .quiet (plain_map (fun _ => rfl) (fun _ => rfl) _) fun s => ?_
  cases s with
  | gateway n => exact le_rfl
  | loop controller =>
    exact (g.loops.request_reserve w.toWorld tables maxLoops request controller).le

/-- Effects without a call of the meter are passed on. -/
theorem runEffects_plain {effects : List LoopEffect}
    (h : ∀ a usage, .spendRecord a usage ∉ effects) (session : SessionId) :
    g.runEffects table session w effects = (effects.map .loop, g) := by
  induction effects with
  | nil => rfl
  | cons e effects ih =>
    have hrest := ih fun a usage hmem => h a usage (List.mem_cons_of_mem _ hmem)
    cases e with
    | spendRecord a usage => exact absurd List.mem_cons_self (h a usage)
    | _ =>
      simp only [runEffects, hrest]
      rfl

/-- A call of the meter for the turn's usage, and what follows it. -/
theorem runEffects_bill {effects : List LoopEffect}
    (h : ∀ a usage, .spendRecord a usage ∉ effects) (session : SessionId) (agent : AgentProfile)
    (usage : Option SpendUsage) :
    g.runEffects table session w (usage.toList.map (.spendRecord agent) ++ effects) =
      ((g.bill table session agent usage w).1 ++ effects.map .loop,
        (g.bill table session agent usage w).2) := by
  cases usage with
  | none => exact g.runEffects_plain w h session
  | some usage =>
    have hrest : (g.record table session agent usage w).2.runEffects table session w effects =
        (effects.map .loop, (g.record table session agent usage w).2) :=
      runEffects_plain _ w h session
    simp only [Option.toList_some, List.map_cons, List.map_nil, List.cons_append, List.nil_append,
      runEffects, hrest]
    rfl

theorem loopTurnEnds_does (controller : Nat) (run : DriverRun) :
    Does table g w none (g.terminals (.loopTurnEnds controller run))
      (g.bills (.loopTurnEnds controller run))
      (g.loopTurnEnds table tables controller run w) := by
  have hout := LoopManager.turnEnds_outcome g.loops w.toWorld tables controller run.stream
  unfold loopTurnEnds
  generalize g.loops.turnEnds tables controller run.stream w.toWorld = out at hout ⊢
  have hreserve : ∀ {flight : Flight} {m : LoopManager},
      g.loops.flights.find? (·.controller = controller) = some flight →
      m.nextController = (g.loops.landed flight).nextController →
      m.flights = (g.loops.landed flight).flights → ∀ s,
      (run.stream.terminals.map (Terminal.mk (.loop controller) flight.agent)).countP
        (·.session = s) + reserve { g with loops := m } s ≤ g.reserve s := by
    intro flight m hflight hnext hflights s
    have hlength := run.terminals_length_le
    rw [count_session]
    cases s with
    | gateway n => simp [reserve]
    | loop k =>
      obtain rfl : flight.controller = controller := by simpa using List.find?_some hflight
      have hlanded := g.loops.landed_reserve (List.mem_of_find?_eq_some hflight) k
      have hm := LoopManager.reserve_congr (g.loops.landed flight) hnext hflights k
      simp only [reserve, SessionId.loop.injEq, hm]
      split at hlanded <;> rename_i hk <;> simp only [hk, if_true, if_false] <;> omega
  cases hout with
  | unknown hnone =>
    simp only [terminals, hnone, Option.toList_none, List.flatMap_nil]
    exact .quiet plain_nil fun _ => le_rfl
  | orphaned flight hflight hclosed =>
    have hbills : g.bills (.loopTurnEnds controller run) = false := by
      simp only [bills, hflight, Option.any_some]
      cases hfind : g.loops.loops.find? flight.loopId with
      | none => rfl
      | some loop => simp [hclosed loop hfind]
    simp only [terminals, hbills, hflight, Option.toList_some, List.flatMap_cons, List.flatMap_nil,
      List.append_nil]
    exact .dropped plain_nil (hreserve hflight rfl rfl)
  | ended flight hflight loop hid hfind hrunning =>
    obtain ⟨effects, hrecords, heffects⟩ := (g.loops.landed flight).afterTurn_effects w.toWorld tables
      loop flight.agent (runAgentTurn flight.sessionId run.stream)
    have hafter := hreserve hflight
      (LoopManager.afterTurn_nextController (g.loops.landed flight) loop w.toWorld tables flight.agent
        (runAgentTurn flight.sessionId run.stream))
      (LoopManager.afterTurn_flights (g.loops.landed flight) loop w.toWorld tables flight.agent
        (runAgentTurn flight.sessionId run.stream))
    obtain ⟨usage, hends, husage⟩ := runAgentTurn_usage run.terminals_length_le flight.sessionId
    have hbills : g.bills (.loopTurnEnds controller run) =
        !decide (runAgentTurn flight.sessionId run.stream).Failed := by
      simp only [bills, hflight, Option.any_some]
      rw [← hid, hfind]
      simp [hrunning]
    simp only [terminals, hbills, hflight, Option.toList_some, List.flatMap_cons, List.flatMap_nil,
      List.append_nil, heffects]
    by_cases hfailed : (runAgentTurn flight.sessionId run.stream).Failed
    · rw [if_pos hfailed, List.nil_append, runEffects_plain _ w hrecords]
      simp only [hfailed, decide_true, Bool.not_true]
      exact .dropped (plain_map (fun _ => rfl) (fun _ => rfl) _) hafter
    · rw [if_neg hfailed, runEffects_bill _ w hrecords, husage]
      simp only [hfailed, decide_false, Bool.not_false]
      rw [hends] at hafter ⊢
      exact .billedAt plain_nil (plain_map (fun _ => rfl) (fun _ => rfl) _) rfl hafter

/-- What a step does to sessions. -/
theorem step_does (input : GatewayInput) :
    Does table g input.w (g.retries input.op) (g.terminals input.op) (g.bills input.op)
      (step table tables maxLoops input g) := by
  obtain ⟨op, w⟩ := input
  cases op with
  | connect conn =>
    unfold step
    dsimp only
    split <;> exact .quiet plain_nil fun _ => le_rfl
  | chat conn request run => exact (g.chat_enters w conn request run).does _
  | abort conn =>
    change Does table g w none [] true (g.abort conn)
    unfold abort
    split
    · exact .quiet plain_nil fun _ => le_rfl
    · split
      · exact .quiet (plain_one rfl rfl) fun _ => le_rfl
      · exact .quiet plain_nil fun _ => le_rfl
  | closing conn => exact .quiet plain_nil fun _ => le_rfl
  | close conn =>
    change Does table g w none [] true (g.close conn)
    unfold close
    split
    · exact .quiet plain_nil fun _ => le_rfl
    · refine .quiet ?_ fun _ => le_rfl
      dsimp only
      split
      · exact plain_one rfl rfl
      · exact plain_nil
  | telegram update run => exact (g.telegram_enters w update run).does _
  | next session fallback run => exact g.next_does w session fallback run
  | agentTurn request => exact (g.agentTurn_enters w request).does _
  | agentTurnEnds session run => exact g.agentTurnEnds_does w session run
  | loopRequest request => exact g.loopRequest_does w _ request
  | fire handle deps => exact g.fire_does w _ handle deps
  | loopTurnEnds controller run => exact g.loopTurnEnds_does w controller run
  | restart file =>
    refine .quiet plain_nil ?_
    intro s
    cases s with
    | gateway n => exact Nat.add_le_add (Nat.add_le_add le_rfl (Nat.zero_le _)) (Nat.zero_le _)
    | loop controller =>
      simp only [step, reserve, LoopManager.reserve, LoopManager.restart_nextController,
        LoopManager.restart_flights, List.countP_nil]
      omega

end GatewayState

end OsModa.Gateway
