import OsModa.Gateway.Peers

/-!
What becomes of the changes of one chat in the digests of another.

A change is reported when it stands above the cursor that a digest starts from, and the cursor is
moved when the turn is over. So it is reported once (`aware_of_fits`), if the peer had a cursor
before, if it is written where the peer is read from, and if no other turn has moved the cursor
over it meanwhile. A peer that has no cursor starts caught up (`late_peer_unheard`).
-/

namespace OsModa.Gateway.CrossChat

open OsModa.Js OsModa.Machine ChatRegistry

/-! ### Rows and reports -/

section Reports

variable (tables : CaseTables)

/-- A row of the transcript of a chat under an agent. -/
structure ChatRow where
  agentId : JsString
  key : JsString
  event : TranscriptEvent
  deriving DecidableEq

/-- The use of a tool that is not read-only. -/
def isChange (e : TranscriptEvent) : Bool :=
  e.role = .tool && e.kind = some .use && !e.name.any (isReadOnly tables)

/-- The row that a turn writes at a step. -/
def writtenAt (t : ServerStep) : Option ChatRow :=
  match t.output with
  | .wrote turn (some e) => some ⟨turn.agentId, turn.key, e⟩
  | _ => none

/-- A turn of a chat is over and delivered. -/
def delivers (a : JsString) (t : ServerStep) : Bool :=
  match t.output with
  | .ended _ turn delivered => turn.key = a && delivered
  | _ => false

/-- What the digest of a turn of `a` found of `b`, if the turn is over and delivered. -/
def deliveredScans (a b : JsString) (t : ServerStep) : List PeerScan :=
  match t.output with
  | .ended _ turn delivered =>
    if turn.key = a ∧ delivered then turn.scans.filter fun p => p.peer.key = b else []
  | _ => []

/-- A turn of `a` is over and delivered, and its digest came to `b`. -/
def marks (a b : JsString) (t : ServerStep) : Bool := !(deliveredScans a b t).isEmpty

/-- A delivered digest of `a` reports a row. -/
def reports (a : JsString) (r : ChatRow) (t : ServerStep) : Bool :=
  (deliveredScans a r.key t).any fun p => p.agentId = r.agentId && decide (r.event ∈ p.notable)

/-- The number of delivered digests that report a row. -/
def reportCount (a : JsString) (r : ChatRow) (history : List ServerStep) : Nat :=
  history.countP (reports a r)

/-- The changes that turns of `b` wrote after the first step of a kind. -/
def owed (since : ServerStep → Bool) (b : JsString) (history : List ServerStep) : List ChatRow :=
  ((history.dropWhile fun t => !since t).tail.filterMap writtenAt).filter fun r =>
    r.key = b && isChange tables r.event

/-- A chat is told of a peer's changes: nothing is repeated, and nothing is lost. -/
structure Aware (since : ServerStep → Bool) (Hears : ChatTurn → Server → Prop) (a b : JsString)
    (history : List ServerStep) : Prop where
  once : ∀ r ∈ owed tables since b history, reportCount a r history ≤ 1
  /-- A delivered turn that began when the row was there is enough. -/
  told : ∀ past s between f future id turn, history = past ++ s :: (between ++ f :: future) →
    s.output = .began id turn → f.output = .ended id turn true → turn.key = a →
    turn.digest.isSome → Hears turn s.after →
    ∀ r ∈ owed tables since b past, reportCount a r history = 1

/-- The cursor has come past a row. -/
def passed (cursor : Option Nat) (r : ChatRow) : Bool := cursor.any fun c => r.event.seq ≤ c

/-- Where a step writes, and with what outcome. -/
def writesTo (t : ServerStep) : Option (TranscriptPair × AppendOutcome) :=
  match t.input, t.output with
  | .begin _ _ _ _ _ outcome, .began _ turn => some ((turn.agentId, turn.key), outcome)
  | .row _ _ _ outcome, .wrote turn _ => some ((turn.agentId, turn.key), outcome)
  | _, _ => none

/-- The steps after which what `a` is told of `b` is right, where `g` is the agent that `b` is
registered with. -/
structure Fits (a b g : JsString) (past : List ServerStep) (t : ServerStep) : Prop where
  agent : ∀ c ∈ t.after.chats.find? b, c.agentId = g
  /-- Nothing else is written to the transcript of `b`, and nothing by half. -/
  whole : ∀ w ∈ writesTo t, KeepsOrder (g, b) w.1 w.2
  /-- A change is written under that agent, and its tool has a name. -/
  row : ∀ r ∈ writtenAt t, r.key = b → isChange tables r.event = true →
    past.any (marks a b) = true → r.agentId = g ∧ nonEmpty r.event.name ≠ none
  /-- No change lies between where the digest started from and where the cursor is. -/
  commits : ∀ p ∈ deliveredScans a b t, p.advance ≠ none →
    ∀ r ∈ owed tables (marks a b) b past,
      passed (getCursor t.before.chats a b) r = passed (p.cursor.or p.advance) r

/-- A turn of `a` that hears of `b`: a live peer that it has seen before, with at most so many
active peers, and not as many lines before it as are allowed. -/
structure Hears (a b : JsString) (turn : ChatTurn) (s : Server) : Prop where
  live : ∃ c ∈ s.chats.find? b, c.archived = false
  seen : getCursor s.chats a b ≠ none
  few : (peersOf s.chats a).length ≤ maxPeersScanned
  room : ((peersOf s.chats a).takeWhile fun c => c.key ≠ b).countP (fun c =>
    (scanPeer tables s.transcripts s.chats turn.agentId a c).notable ≠ []) < maxPeers

instance (a b g : JsString) (past : List ServerStep) (t : ServerStep) :
    Decidable (Fits tables a b g past t) :=
  decidable_of_iff
    ((∀ c ∈ t.after.chats.find? b, c.agentId = g) ∧
      (∀ w ∈ writesTo t, KeepsOrder (g, b) w.1 w.2) ∧
      (∀ r ∈ writtenAt t, r.key = b → isChange tables r.event = true →
        past.any (marks a b) = true → r.agentId = g ∧ nonEmpty r.event.name ≠ none) ∧
      ∀ p ∈ deliveredScans a b t, p.advance ≠ none →
        ∀ r ∈ owed tables (marks a b) b past,
          passed (getCursor t.before.chats a b) r = passed (p.cursor.or p.advance) r)
    ⟨fun ⟨agent, whole, row, commits⟩ => ⟨agent, whole, row, commits⟩,
      fun h => ⟨h.agent, h.whole, h.row, h.commits⟩⟩

end Reports

/-! ### A peer that is late -/

/-- A peer that is not archived, and no more active peers than are scanned. -/
def Moderate (a b : JsString) (s : Server) : Prop :=
  (∀ c ∈ s.chats.find? b, c.archived = false) ∧ (peersOf s.chats a).length ≤ maxPeersScanned

instance (a b : JsString) (s : Server) : Decidable (Moderate a b s) :=
  inferInstanceAs (Decidable (_ ∧ _))

def mainChat : JsString := utf16 "ws-default"
def betaChat : JsString := utf16 "chat-beta"

/-- A turn of the web client. -/
def webTurn (chatId : String) (now : Nat) : ServerInput :=
  .begin (.web (utf16 chatId) []) (utf16 "osmoda") (utf16 "go on") now (utf16 "2026-03-01") .written

def writesFile (id : Nat) (path : String) : ServerInput :=
  .row id (.toolUse (some (utf16 "Write")) (some (utf16 path))) (utf16 "2026-03-01") .written

def createBeta : ServerInput := .request (.create (utf16 "beta")) 0

/-- The second line of the transcript of `beta`. -/
def fileWritten : ChatRow where
  agentId := utf16 "osmoda"
  key := betaChat
  event := ⟨2, utf16 "2026-03-01", .tool, some .use, none, some (utf16 "Write"),
    some (utf16 "/srv/app.js"), none, none, none⟩

/-- `beta` is made after a turn of the main chat. -/
def lateStart : List ServerInput :=
  [webTurn "" 1, .finish 0 true, createBeta, webTurn "chat-beta" 2, writesFile 1 "/srv/app.js",
    .finish 1 true]

def lateRun : List ServerInput :=
  lateStart ++ [webTurn "" 3, .finish 2 true, webTurn "" 4, .finish 3 true]

section Histories

variable {tables : CaseTables} {since : ServerStep → Bool} {a b : JsString}
  {past : List ServerStep} {t : ServerStep} {r : ChatRow}

theorem mem_owed_key (h : r ∈ owed tables since b past) :
    r.key = b ∧ isChange tables r.event = true := by
  have hfilter := (List.mem_filter.mp h).2
  rwa [Bool.and_eq_true, decide_eq_true_iff] at hfilter

theorem tail_dropWhile_concat (p : ServerStep → Bool) (past : List ServerStep) (t : ServerStep) :
    ((past ++ [t]).dropWhile fun u => !p u).tail =
      (past.dropWhile fun u => !p u).tail ++ if past.any p then [t] else [] := by
  induction past with
  | nil => cases hp : p t <;> simp [hp]
  | cons u past ih =>
    cases hp : p u with
    | true => simp [hp]
    | false => simpa [hp] using ih

theorem owed_concat : owed tables since b (past ++ [t]) = owed tables since b past ++
    if past.any since then
      (writtenAt t).toList.filter fun r => r.key = b && isChange tables r.event
    else [] := by
  unfold owed
  rw [tail_dropWhile_concat, List.filterMap_append, List.filter_append]
  congr 1
  split
  · rw [List.filterMap_cons, List.filterMap_nil]
    cases writtenAt t <;> rfl
  · rfl

/-- A change is owed already, or it is the one that the step writes. -/
theorem mem_owed_concat (h : r ∈ owed tables since b (past ++ [t])) :
    r ∈ owed tables since b past ∨ past.any since = true ∧ r ∈ writtenAt t ∧ r.key = b ∧
      isChange tables r.event = true := by
  rw [owed_concat] at h
  rcases List.mem_append.mp h with h | h
  · exact .inl h
  · right
    split at h
    · rename_i hany
      obtain ⟨hmem, hkey⟩ := List.mem_filter.mp h
      rw [Bool.and_eq_true, decide_eq_true_iff] at hkey
      exact ⟨hany, Option.mem_toList.mp hmem, hkey⟩
    · cases h

theorem writtenAt_wrote {turn : ChatTurn} {event : Option TranscriptEvent}
    (h : t.output = .wrote turn event) :
    writtenAt t = event.map fun e => ⟨turn.agentId, turn.key, e⟩ := by
  rw [writtenAt, h]
  cases event <;> rfl

theorem owed_mono (h : r ∈ owed tables since b past) (future : List ServerStep) :
    r ∈ owed tables since b (past ++ future) := by
  induction future generalizing past with
  | nil => rwa [List.append_nil]
  | cons t future ih =>
    rw [List.append_cons]
    apply ih
    rw [owed_concat]
    exact List.mem_append_left _ h

theorem reportCount_concat (a : JsString) (r : ChatRow) (past : List ServerStep) (t : ServerStep) :
    reportCount a r (past ++ [t]) = reportCount a r past + if reports a r t then 1 else 0 := by
  rw [reportCount, List.countP_append, List.countP_singleton, reportCount]

theorem reports_iff (hkey : r.key = b) : reports a r t = true ↔
    ∃ p ∈ deliveredScans a b t, p.agentId = r.agentId ∧ r.event ∈ p.notable := by
  subst hkey
  rw [reports, List.any_eq_true]
  simp only [Bool.and_eq_true, decide_eq_true_iff]

theorem isNotable_of_isChange {e : TranscriptEvent} (h : isChange tables e = true)
    (hname : nonEmpty e.name ≠ none) : isNotable tables e = true := by
  obtain ⟨name, hname⟩ := Option.ne_none_iff_exists'.mp hname
  have hsome : e.name = some name := (Option.filter_eq_some_iff.mp hname).1
  rw [isChange, hsome, Option.any_some] at h
  rw [isNotable, hname, Option.any_some]
  exact h

end Histories

/-! ### The invariant -/

section Invariant

variable {tables : CaseTables} {a b g : JsString} {past : List ServerStep} {s s' : Server}
  {events added : List TranscriptEvent} {t : ServerStep} {turn : ChatTurn}

/-- The last number in the transcript of `b`. -/
def lastOf (b g : JsString) (s : Server) : Nat := counter s.transcripts (g, b)

/-- A turn of `a` whose digest is right. -/
structure Watches (tables : CaseTables) (a b g : JsString) (s : Server)
    (events : List TranscriptEvent) (turn : ChatTurn) : Prop where
  rounds : (turn.scans.map fun p => p.peer.key).Nodup
  registered : ∀ p ∈ turn.scans, hasKey s.chats a = true
  sees : ∀ p ∈ turn.scans, p.peer.key = b → p.Sees tables g events (lastOf b g s)
  storable : ∀ p ∈ turn.scans, p.peer.key = b → ∀ c ∈ p.cursor, b ≠ protoKey

/-- The rows of `b` that are owed to `a` have been reported once up to its cursor, and never after
it. -/
structure Heard (tables : CaseTables) (a b g : JsString) (past : List ServerStep) (s : Server)
    (events : List TranscriptEvent) : Prop where
  inOrder : InOrder s.transcripts (g, b) events
  rows : ∀ r ∈ owed tables (marks a b) b past,
    r.agentId = g ∧ r.event ∈ events ∧ isNotable tables r.event = true
  agents : ∀ c ∈ s.chats.find? b, c.agentId ≠ []
  cursor : ∀ c ∈ getCursor s.chats a b, c ≤ lastOf b g s ∧ b ≠ protoKey
  turns : ∀ id turn, JsMap.get? s.turns id = some turn → turn.key = a →
    Watches tables a b g s events turn
  reported : ∀ u ∈ past, ∀ p ∈ deliveredScans a b u, ∀ e ∈ p.notable, e.seq ≤ lastOf b g s
  counts : ∀ r ∈ owed tables (marks a b) b past,
    reportCount a r past = if passed (getCursor s.chats a b) r then 1 else 0

theorem Watches.mono (h : Watches tables a b g s events turn)
    (hkey : hasKey s.chats a = true → hasKey s'.chats a = true)
    (hlast : lastOf b g s ≤ lastOf b g s') (hadded : ∀ e ∈ added, lastOf b g s < e.seq) :
    Watches tables a b g s' (events ++ added) turn where
  rounds := h.rounds
  registered p hp := hkey (h.registered p hp)
  sees p hp hb := (h.sees p hp hb).mono hadded hlast
  storable := h.storable

/-- What a step adds to the transcript, and what it reports. -/
structure Advances (tables : CaseTables) (a b g : JsString) (past : List ServerStep) (s s' : Server)
    (events added : List TranscriptEvent) (t : ServerStep) : Prop where
  inOrder : InOrder s'.transcripts (g, b) (events ++ added)
  last : lastOf b g s ≤ lastOf b g s'
  above : ∀ e ∈ added, lastOf b g s < e.seq
  row : ∀ r ∈ writtenAt t, r.key = b → r.agentId = g → r.event ∈ added
  agents : ∀ c ∈ s'.chats.find? b, c.agentId ≠ []
  cursor : ∀ c ∈ getCursor s'.chats a b, c ≤ lastOf b g s ∧ b ≠ protoKey
  turns : ∀ id turn, JsMap.get? s'.turns id = some turn → turn.key = a →
    Watches tables a b g s' (events ++ added) turn
  reported : ∀ p ∈ deliveredScans a b t, ∀ e ∈ p.notable, e.seq ≤ lastOf b g s
  counts : ∀ r ∈ owed tables (marks a b) b past,
    (if passed (getCursor s'.chats a b) r then 1 else 0) =
      (if passed (getCursor s.chats a b) r then 1 else 0) + if reports a r t then 1 else 0

/-- A row that is new has not been reported, and no cursor has passed it. -/
theorem Heard.new_row (h : Heard tables a b g past s events)
    (hadv : Advances tables a b g past s s' events added t) {r : ChatRow} (hkey : r.key = b)
    (hr : r.event ∈ added) :
    reportCount a r (past ++ [t]) = if passed (getCursor s'.chats a b) r then 1 else 0 := by
  have hnew := hadv.above r.event hr
  have hnever : ∀ u ∈ past ++ [t], ¬ reports a r u = true := by
    intro u hu hreports
    obtain ⟨p, hp, -, hmem⟩ := (reports_iff hkey).mp hreports
    have hle : r.event.seq ≤ lastOf b g s := by
      rcases List.mem_append.mp hu with hu | hu
      · exact h.reported u hu p hp _ hmem
      · obtain rfl := List.mem_singleton.mp hu
        exact hadv.reported p hp _ hmem
    omega
  have hahead : passed (getCursor s'.chats a b) r = false := by
    rw [passed, Option.any_eq_false]
    intro c hc
    have hle := (hadv.cursor c hc).1
    exact decide_eq_false (by omega)
  rw [reportCount, List.countP_eq_zero.mpr hnever, hahead]
  rfl

theorem Heard.step (h : Heard tables a b g past s events) (hfits : Fits tables a b g past t)
    (hadv : Advances tables a b g past s s' events added t) :
    Heard tables a b g (past ++ [t]) s' (events ++ added) where
  inOrder := hadv.inOrder
  rows r hr := by
    rcases mem_owed_concat hr with hr | ⟨hmarked, hwritten, hkey, hchange⟩
    · obtain ⟨hagent, hmem, hnotable⟩ := h.rows r hr
      exact ⟨hagent, List.mem_append_left _ hmem, hnotable⟩
    · obtain ⟨hagent, hname⟩ := hfits.row r hwritten hkey hchange hmarked
      have hmem := hadv.row r hwritten hkey hagent
      exact ⟨hagent, List.mem_append_right _ hmem, isNotable_of_isChange hchange hname⟩
  agents := hadv.agents
  cursor c hc := ⟨(hadv.cursor c hc).1.trans hadv.last, (hadv.cursor c hc).2⟩
  turns := hadv.turns
  reported u hu p hp e he := by
    refine le_trans ?_ hadv.last
    rcases List.mem_append.mp hu with hu | hu
    · exact h.reported u hu p hp e he
    · obtain rfl := List.mem_singleton.mp hu
      exact hadv.reported p hp e he
  counts r hr := by
    rcases mem_owed_concat hr with hr | ⟨hmarked, hwritten, hkey, hchange⟩
    · rw [reportCount_concat, h.counts r hr, hadv.counts r hr]
    · have hagent := (hfits.row r hwritten hkey hchange hmarked).1
      exact h.new_row hadv hkey (hadv.row r hwritten hkey hagent)

/-! ### One step -/

theorem not_reports_of_nil (h : deliveredScans a b t = []) {r : ChatRow} (hkey : r.key = b) :
    reports a r t = false := by
  rw [Bool.eq_false_iff, ne_eq, reports_iff hkey, h]
  simp

/-- A step that reports nothing and moves no cursor. -/
theorem Heard.quiet (h : Heard tables a b g past s events) (hquiet : deliveredScans a b t = [])
    (hinOrder : InOrder s'.transcripts (g, b) (events ++ added))
    (hlast : lastOf b g s ≤ lastOf b g s') (habove : ∀ e ∈ added, lastOf b g s < e.seq)
    (hrow : ∀ r ∈ writtenAt t, r.key = b → r.agentId = g → r.event ∈ added)
    (hagents : ∀ c ∈ s'.chats.find? b, c.agentId ≠ [])
    (hcursor : getCursor s'.chats a b = getCursor s.chats a b)
    (hturns : ∀ id turn, JsMap.get? s'.turns id = some turn → turn.key = a →
      Watches tables a b g s' (events ++ added) turn) :
    Advances tables a b g past s s' events added t where
  inOrder := hinOrder
  last := hlast
  above := habove
  row := hrow
  agents := hagents
  cursor := hcursor ▸ h.cursor
  turns := hturns
  reported := by simp [hquiet]
  counts r hr := by
    rw [hcursor, not_reports_of_nil hquiet (mem_owed_key hr).1]
    rfl

/-- A step that leaves the transcripts as they are, and reports nothing. -/
theorem Heard.still (h : Heard tables a b g past s events) (hquiet : deliveredScans a b t = [])
    (htranscripts : s'.transcripts = s.transcripts) (hrow : writtenAt t = none)
    (hagents : ∀ c ∈ s'.chats.find? b, c.agentId ≠ [])
    (hcursor : getCursor s'.chats a b = getCursor s.chats a b)
    (hkey : hasKey s.chats a = true → hasKey s'.chats a = true)
    (hturns : ∀ id turn, JsMap.get? s'.turns id = some turn → JsMap.get? s.turns id = some turn) :
    Advances tables a b g past s s' events [] t := by
  have hlast : lastOf b g s' = lastOf b g s := by rw [lastOf, htranscripts, lastOf]
  refine h.quiet hquiet ?_ (Nat.le_of_eq hlast.symm) (by simp) (by simp [hrow]) hagents hcursor ?_
  · rw [htranscripts, List.append_nil]
    exact h.inOrder
  · intro id turn hturn ha
    exact (h.turns id turn (hturns id turn hturn) ha).mono hkey (Nat.le_of_eq hlast.symm) (by simp)

/-- A step that does nothing. -/
theorem Heard.idle (h : Heard tables a b g past s events) {i : ServerInput}
    (hnext : serverNext tables i s = (.nothing, s)) :
    Advances tables a b g past s (serverNext tables i s).2 events []
      (stepOf (serverNext tables) i s) := by
  rw [stepOf, hnext]
  exact h.still rfl rfl rfl h.agents rfl id fun _ _ => id

theorem Heard.request (h : Heard tables a b g past s events) (request : RegistryRequest)
    (now : Nat) :
    Advances tables a b g past s (serverNext tables (.request request now) s).2 events []
      (stepOf (serverNext tables) (.request request now) s) := by
  have hcarries : Carries s.chats (handleRequest tables now s.chats request) :=
    carries_handleRequest s.chats now request
  exact h.still rfl rfl rfl (hcarries.agentId_ne h.agents) (hcarries.getCursor_eq a b)
    hcarries.hasKey fun _ _ => id

theorem writeRow_cases (id : Nat) (row : TurnRow) (clock : JsString) (outcome : AppendOutcome)
    (s : Server) : writeRow id row clock outcome s = (.nothing, s) ∨
      ∃ turn ev, writeRow id row clock outcome s =
        (.wrote turn (s.transcripts.append turn.agentId turn.key ev clock outcome).1,
          { s with
            transcripts := (s.transcripts.append turn.agentId turn.key ev clock outcome).2 }) := by
  unfold writeRow
  split
  · rename_i turn ev _ _
    exact .inr ⟨turn, ev, rfl⟩
  · exact .inl rfl

theorem Heard.row (h : Heard tables a b g past s events) (id : Nat) (row : TurnRow)
    (clock : JsString) (outcome : AppendOutcome)
    (hfits : Fits tables a b g past
      (stepOf (serverNext tables) (.row id row clock outcome) s)) :
    ∃ added, Advances tables a b g past s (serverNext tables (.row id row clock outcome) s).2
      events added (stepOf (serverNext tables) (.row id row clock outcome) s) := by
  rcases writeRow_cases id row clock outcome s with hnext | ⟨turn, ev, hnext⟩
  · exact ⟨[], h.idle hnext⟩
  · have hwhole := hfits.whole
    rw [stepOf, serverNext, hnext] at hwhole ⊢
    obtain ⟨added, hinOrder, hlast, habove, hwritten⟩ :=
      h.inOrder.append ev clock (hwhole _ rfl)
    refine ⟨added, h.quiet rfl hinOrder hlast habove ?_ h.agents rfl ?_⟩
    · intro r hr hb hg
      rw [writtenAt_wrote rfl] at hr
      obtain ⟨e, he, rfl⟩ := Option.map_eq_some_iff.mp hr
      exact hwritten (Prod.ext hg hb) e he
    · intro id' turn' hturn' ha
      exact (h.turns id' turn' hturn' ha).mono (fun hkey => hkey) hlast habove

/-- The turn that begins. -/
def newTurn (tables : CaseTables) (source : TurnSource) (agentId : JsString) (now : Nat)
    (s s' : Server) : ChatTurn :=
  let key := (openChat tables source agentId now s.chats).1
  ⟨key, agentId, if source.hasDigest then
    some (buildCrossChatDigest tables s'.transcripts s'.chats agentId key) else none⟩

theorem get?_turns_begin {source : TurnSource} {agentId text : JsString} {now : Nat}
    {clock : JsString} {outcome : AppendOutcome} {id : Nat}
    (h : JsMap.get? (serverNext tables (.begin source agentId text now clock outcome) s).2.turns id =
      some turn) : JsMap.get? s.turns id = some turn ∨
      newTurn tables source agentId now s
        (serverNext tables (.begin source agentId text now clock outcome) s).2 = turn := by
  have hset := h.symm.trans (JsMap.get?_set s.turns s.begun id _)
  split at hset
  · exact .inr (Option.some.inj hset).symm
  · exact .inl hset.symm

/-- A digest that is built when the transcript is in order. -/
theorem watches_digest {source : TurnSource} {agentId : JsString} {now : Nat}
    (hinOrder : InOrder s'.transcripts (g, b) events)
    (hagents : ∀ c ∈ s'.chats.find? b, c.agentId ≠ [])
    (hagent : ∀ c ∈ s'.chats.find? b, c.agentId = g)
    (hcursor : ∀ c ∈ getCursor s'.chats a b, b ≠ protoKey)
    (ha : (newTurn tables source agentId now s s').key = a)
    (hkey : source.hasDigest = true → hasKey s'.chats a = true) :
    Watches tables a b g s' events (newTurn tables source agentId now s s') := by
  cases hdigest : source.hasDigest with
  | false =>
    have hnone : (newTurn tables source agentId now s s').scans = [] := by
      simp [newTurn, ChatTurn.scans, hdigest]
    constructor <;> simp [hnone]
  | true =>
    have hscans : (newTurn tables source agentId now s s').scans =
        (buildCrossChatDigest tables s'.transcripts s'.chats agentId a).scans := by
      rw [← ha]
      simp [newTurn, ChatTurn.scans, hdigest]
    have hround : ∀ p ∈ (newTurn tables source agentId now s s').scans, p.peer.key = b →
        ∃ c ∈ s'.chats.find? b, c.key = b ∧
          p = scanPeer tables s'.transcripts s'.chats agentId a c := by
      intro p hp hb
      rw [hscans] at hp
      obtain ⟨c, hc, rfl⟩ := exists_of_mem_scans hp
      rw [scanPeer_peer] at hb
      exact ⟨c, hb ▸ Table.mem_rows_iff.mp (mem_peersOf.mp hc).1, hb, rfl⟩
    refine ⟨?_, fun _ _ => hkey hdigest, ?_, ?_⟩
    · rw [hscans]
      exact nodup_keys_scans
    · intro p hp hb
      obtain ⟨c, hc, rfl, rfl⟩ := hround p hp hb
      exact sees_scanPeer hinOrder (hagent c hc) (hagent c hc ▸ hagents c hc)
    · intro p hp hb c' hc'
      obtain ⟨c, -, rfl, rfl⟩ := hround p hp hb
      rw [scanPeer_cursor] at hc'
      exact hcursor c' hc'

theorem Heard.begin (h : Heard tables a b g past s events) (source : TurnSource)
    (agentId text : JsString) (now : Nat) (clock : JsString) (outcome : AppendOutcome)
    (hfits : Fits tables a b g past
      (stepOf (serverNext tables) (.begin source agentId text now clock outcome) s)) :
    ∃ added, Advances tables a b g past s
      (serverNext tables (.begin source agentId text now clock outcome) s).2 events added
      (stepOf (serverNext tables) (.begin source agentId text now clock outcome) s) := by
  have hcarries : Carries s.chats (openChat tables source agentId now s.chats).2 :=
    carries_openChat s.chats source agentId now
  have hcursor := hcarries.getCursor_eq a b
  obtain ⟨added, hinOrder, hlast, habove, -⟩ :=
    h.inOrder.append (message source text) clock (hfits.whole _ rfl)
  have hagents := hcarries.agentId_ne h.agents
  refine ⟨added, h.quiet rfl hinOrder hlast habove (by rintro r ⟨⟩) hagents hcursor ?_⟩
  intro id turn hturn ha
  rcases get?_turns_begin hturn with hold | rfl
  · exact (h.turns id turn hold ha).mono hcarries.hasKey hlast habove
  · exact watches_digest hinOrder (hcarries.agentId_ne h.agents) hfits.agent
      (fun c hc => (h.cursor c (hcursor ▸ hc)).2) ha
      fun hdigest => ha ▸ hasKey_openChat s.chats hdigest agentId now

theorem finishTurn_cases (id : Nat) (delivered : Bool) (s : Server) :
    finishTurn id delivered s = (.nothing, s) ∨
      ∃ turn, JsMap.get? s.turns id = some turn ∧ finishTurn id delivered s =
        (.ended id turn delivered,
          { s with
            chats := if delivered then commit s.chats turn.key turn.advance else s.chats
            turns := JsMap.delete s.turns id }) := by
  unfold finishTurn
  split
  · rename_i turn hturn
    exact .inr ⟨turn, hturn, by rw [turn.advance_eq]⟩
  · exact .inl rfl

/-- The agents of chats stay where they are. -/
theorem agentId_ne_commit (h : ∀ c ∈ s.chats.find? b, c.agentId ≠ []) (key : JsString)
    (advance : List (JsString × Nat)) :
    ∀ c ∈ (commit s.chats key advance).find? b, c.agentId ≠ [] := by
  intro c hc
  have hagent := agentId_commit s.chats key advance b
  rw [show (commit s.chats key advance).find? b = some c from hc, Option.map_some] at hagent
  obtain ⟨c', hc', heq⟩ := Option.map_eq_some_iff.mp hagent.symm
  exact heq ▸ h c' hc'

/-- Of the rounds for a peer there is one. -/
theorem Watches.eq_of_key (h : Watches tables a b g s events turn) {p q : PeerScan}
    (hp : p ∈ turn.scans) (hq : q ∈ turn.scans) (heq : p.peer.key = q.peer.key) : p = q :=
  List.inj_on_of_nodup_map h.rounds hp hq heq

/-- The digest of a delivered turn moves the cursor to the end of what it read, or it had nothing
to report. -/
theorem Watches.commit_cases (h : Watches tables a b g s events turn) :
    (getCursor (commit s.chats a turn.advance) a b = getCursor s.chats a b ∧
      ∀ p ∈ turn.scans, p.peer.key = b → p.notable = []) ∨
    ∃ p ∈ turn.scans, p.peer.key = b ∧ b ≠ protoKey ∧ ∃ n, p.advance = some n ∧
      getCursor (commit s.chats a turn.advance) a b = some n := by
  by_cases hmoves : b ≠ protoKey ∧ ∃ p ∈ turn.scans, p.peer.key = b ∧ p.advance ≠ none
  · obtain ⟨hb, p, hp, rfl, hsome⟩ := hmoves
    obtain ⟨n, hn⟩ := Option.ne_none_iff_exists'.mp hsome
    obtain ⟨before, after, hsplit, hafter⟩ := ChatTurn.advance_split h.rounds hp hn
    refine .inr ⟨p, hp, rfl, hb, n, hn, ?_⟩
    rw [hsplit]
    exact getCursor_commit s.chats (h.registered p hp) hb hafter
  · have hnone : ∀ p ∈ turn.scans, p.peer.key = b → b = protoKey ∨ p.advance = none := by
      intro p hp hb
      by_contra hne
      rw [not_or] at hne
      exact hmoves ⟨hne.1, p, hp, hb, hne.2⟩
    refine .inl ⟨getCursor_commit_other _ fun _ hb => ?_, fun p hp hb => ?_⟩
    · exact ChatTurn.ne_of_mem_advance fun p hp hkey => (hnone p hp hkey).resolve_left hb
    · rw [List.eq_nil_iff_forall_not_mem]
      intro e he
      obtain ⟨-, -, c, hc, n, hn, -⟩ := ((h.sees p hp hb).notable e).mp he
      rcases hnone p hp hb with hproto | hadvance
      · exact h.storable p hp hb c hc hproto
      · rw [hadvance] at hn
        cases hn

/-- The count of a row is right after the commit, if no row lies between where the digest started
from and where the cursor is. -/
theorem Heard.counts_commit (h : Heard tables a b g past s events)
    (hwatches : Watches tables a b g s events turn)
    (hdelivered : deliveredScans a b t = turn.scans.filter fun p => p.peer.key = b)
    (hcommits : ∀ p ∈ deliveredScans a b t, p.advance ≠ none →
      ∀ r ∈ owed tables (marks a b) b past,
        passed (getCursor s.chats a b) r = passed (p.cursor.or p.advance) r)
    {r : ChatRow} (hr : r ∈ owed tables (marks a b) b past) :
    (if passed (getCursor (commit s.chats a turn.advance) a b) r then 1 else 0) =
      (if passed (getCursor s.chats a b) r then 1 else 0) + if reports a r t then 1 else 0 := by
  have hkey := (mem_owed_key hr).1
  have hmem : ∀ p, p ∈ deliveredScans a b t ↔ p ∈ turn.scans ∧ p.peer.key = b := by
    intro p
    rw [hdelivered, List.mem_filter, decide_eq_true_iff]
  rcases hwatches.commit_cases with ⟨hsame, hempty⟩ | ⟨p, hp, hb, -, n, hn, hcommit⟩
  · have hquiet : reports a r t = false := by
      rw [Bool.eq_false_iff, ne_eq, reports_iff hkey]
      rintro ⟨p, hp, -, he⟩
      obtain ⟨hp, hb⟩ := (hmem p).mp hp
      rw [hempty p hp hb] at he
      cases he
    rw [hsame, hquiet]
    rfl
  · have hsees := hwatches.sees p hp hb
    obtain ⟨hagent, hevent, hnotable⟩ := h.rows r hr
    have hreports : reports a r t = true ↔ ∃ c, p.cursor = some c ∧ c < r.event.seq ∧
        r.event.seq ≤ n := by
      rw [reports_iff hkey]
      constructor
      · rintro ⟨q, hq, -, he⟩
        obtain ⟨hq, hqb⟩ := (hmem q).mp hq
        obtain rfl := hwatches.eq_of_key hp hq (hb.trans hqb.symm)
        obtain ⟨-, -, c, hc, m, hm, hlt, hle⟩ := (hsees.notable _).mp he
        obtain rfl := Option.some.inj (hn.symm.trans hm)
        exact ⟨c, hc, hlt, hle⟩
      · rintro ⟨c, hc, hlt, hle⟩
        refine ⟨p, (hmem p).mpr ⟨hp, hb⟩, hsees.agent.trans hagent.symm, ?_⟩
        exact (hsees.notable _).mpr ⟨hevent, hnotable, c, hc, n, hn, hlt, hle⟩
    have hstart := hcommits p ((hmem p).mpr ⟨hp, hb⟩) (by simp [hn]) r hr
    rw [hcommit, hstart, hn]
    cases hcursor : p.cursor with
    | none =>
      have hquiet : ¬ reports a r t = true := by
        rw [hreports, hcursor]
        simp
      rw [if_neg hquiet]
      rfl
    | some c =>
      have hle := hsees.above c hcursor n hn
      simp only [hreports, hcursor, Option.some_or, passed, Option.any_some, decide_eq_true_iff,
        Option.some.injEq, exists_eq_left']
      split <;> split <;> split <;> omega

theorem Heard.commit (h : Heard tables a b g past s events)
    (hwatches : Watches tables a b g s events turn)
    (hdelivered : deliveredScans a b t = turn.scans.filter fun p => p.peer.key = b)
    (hcommits : ∀ p ∈ deliveredScans a b t, p.advance ≠ none →
      ∀ r ∈ owed tables (marks a b) b past,
        passed (getCursor s.chats a b) r = passed (p.cursor.or p.advance) r)
    (hrow : writtenAt t = none) (htranscripts : s'.transcripts = s.transcripts)
    (hchats : s'.chats = CrossChat.commit s.chats a turn.advance)
    (hturns : ∀ id turn, JsMap.get? s'.turns id = some turn → JsMap.get? s.turns id = some turn) :
    Advances tables a b g past s s' events [] t := by
  have hlast : lastOf b g s' = lastOf b g s := by rw [lastOf, htranscripts, lastOf]
  have hkey : hasKey s.chats a = true → hasKey s'.chats a = true := by
    rw [hchats, hasKey_commit]
    exact id
  refine ⟨?_, Nat.le_of_eq hlast.symm, by simp, by simp [hrow], ?_, ?_, ?_, ?_, ?_⟩
  · rw [htranscripts, List.append_nil]
    exact h.inOrder
  · rw [hchats]
    exact agentId_ne_commit h.agents a turn.advance
  · intro c hc
    rw [hchats] at hc
    rcases hwatches.commit_cases with ⟨hsame, -⟩ | ⟨p, hp, hb, hproto, n, hn, hcommit⟩
    · rw [hsame] at hc
      exact h.cursor c hc
    · rw [hcommit] at hc
      obtain rfl := Option.some.inj hc
      exact ⟨(hwatches.sees p hp hb).bounded n hn, hproto⟩
  · intro id' turn' hturn' ha
    exact (h.turns id' turn' (hturns id' turn' hturn') ha).mono hkey (Nat.le_of_eq hlast.symm)
      (by simp)
  · intro p hp e he
    rw [hdelivered, List.mem_filter, decide_eq_true_iff] at hp
    exact (hwatches.sees p hp.1 hp.2).seq_le he
  · intro r hr
    rw [hchats]
    exact h.counts_commit hwatches hdelivered hcommits hr

theorem Heard.finish (h : Heard tables a b g past s events) (id : Nat) (delivered : Bool)
    (hfits : Fits tables a b g past (stepOf (serverNext tables) (.finish id delivered) s)) :
    Advances tables a b g past s (serverNext tables (.finish id delivered) s).2 events []
      (stepOf (serverNext tables) (.finish id delivered) s) := by
  rcases finishTurn_cases id delivered s with hnext | ⟨turn, hturn, hnext⟩
  · exact h.idle hnext
  · have hcommits := hfits.commits
    rw [stepOf, serverNext, hnext] at hcommits ⊢
    have hturns : ∀ id' turn', JsMap.get? (JsMap.delete s.turns id) id' = some turn' →
        JsMap.get? s.turns id' = some turn' := by
      intro id' turn' hget
      rw [JsMap.get?_delete] at hget
      split at hget
      · cases hget
      · exact hget
    by_cases hown : turn.key = a ∧ delivered = true
    · obtain ⟨rfl, rfl⟩ := hown
      exact h.commit (h.turns id turn hturn rfl) (if_pos ⟨rfl, rfl⟩) hcommits rfl rfl rfl hturns
    · refine h.still (if_neg hown) rfl rfl ?_ ?_ ?_ hturns
      · dsimp only
        split
        · exact agentId_ne_commit h.agents turn.key turn.advance
        · exact h.agents
      · dsimp only
        split
        · rename_i hdelivered
          exact getCursor_commit_other _ fun ha => absurd ⟨ha.symm, hdelivered⟩ hown
        · rfl
      · dsimp only
        split
        · rw [hasKey_commit]
          exact fun hkey => hkey
        · exact fun hkey => hkey

/-! ### Runs -/

theorem heard_fresh (tables : CaseTables) (a b g : JsString) :
    Heard tables a b g [] .fresh [] where
  inOrder := InOrder.fresh (g, b)
  rows r hr := by cases hr
  agents c hc := by cases hc
  cursor c hc := by cases hc
  turns id turn hturn := by cases hturn
  reported u hu := by cases hu
  counts r hr := by cases hr

theorem heard_step (i : ServerInput) (past : List ServerStep) (s : Server)
    (h : ∃ events, Heard tables a b g past s events)
    (hfits : Fits tables a b g past (stepOf (serverNext tables) i s)) :
    ∃ events, Heard tables a b g (past ++ [stepOf (serverNext tables) i s])
      (serverNext tables i s).2 events := by
  obtain ⟨events, h⟩ := h
  cases i with
  | begin source agentId text now clock outcome =>
    obtain ⟨added, hadv⟩ := h.begin source agentId text now clock outcome hfits
    exact ⟨_, h.step hfits hadv⟩
  | row id row clock outcome =>
    obtain ⟨added, hadv⟩ := h.row id row clock outcome hfits
    exact ⟨_, h.step hfits hadv⟩
  | finish id delivered => exact ⟨_, h.step hfits (h.finish id delivered hfits)⟩
  | request request now => exact ⟨_, h.step hfits (h.request request now)⟩

theorem began_eq {i : ServerInput} {id : Nat} (h : (serverNext tables i s).1 = .began id turn) :
    ∃ source agentId now, turn = newTurn tables source agentId now s (serverNext tables i s).2 := by
  cases i with
  | begin source agentId text now clock outcome =>
    exact ⟨source, agentId, now, (ServerEffect.began.inj h).2.symm⟩
  | row id row clock outcome =>
    rcases writeRow_cases id row clock outcome s with hnext | ⟨turn', ev, hnext⟩
    · rw [serverNext, hnext] at h
      cases h
    · rw [serverNext, hnext] at h
      cases h
  | finish id delivered =>
    rcases finishTurn_cases id delivered s with hnext | ⟨turn', -, hnext⟩
    · rw [serverNext, hnext] at h
      cases h
    · rw [serverNext, hnext] at h
      cases h
  | request request now => cases h

theorem began_step {u : ServerStep} (hu : u = stepOf (serverNext tables) u.input s) {id : Nat}
    (h : u.output = .began id turn) :
    ∃ source agentId now, turn = newTurn tables source agentId now s u.after := by
  obtain ⟨source, agentId, now, hturn⟩ := began_eq ((congrArg Step.output hu).symm.trans h)
  exact ⟨source, agentId, now, congrArg Step.after hu ▸ hturn⟩

theorem exists_takeWhile_split {chats : List Chat} {c : Chat} (hc : c ∈ chats) (hb : c.key = b) :
    ∃ c' rest, chats = (chats.takeWhile fun d => d.key ≠ b) ++ c' :: rest ∧ c'.key = b := by
  induction chats with
  | nil => cases hc
  | cons d chats ih =>
    by_cases hd : d.key = b
    · exact ⟨d, chats, by simp [hd], hd⟩
    · have hc' : c ∈ chats := (List.mem_cons.mp hc).resolve_left fun heq => hd (heq ▸ hb)
      obtain ⟨c', rest, hsplit, hkey⟩ := ih hc'
      refine ⟨c', rest, ?_, hkey⟩
      rw [List.takeWhile_cons_of_pos (by simpa using hd), List.cons_append, ← hsplit]

/-- A turn that hears of a peer goes through it. -/
theorem Hears.mem_scans {source : TurnSource} {agentId : JsString} {now : Nat}
    (h : Hears tables a b (newTurn tables source agentId now s s') s') (hab : a ≠ b)
    (ha : (newTurn tables source agentId now s s').key = a)
    (hdigest : (newTurn tables source agentId now s s').digest.isSome = true) :
    ∃ c, c.key = b ∧ scanPeer tables s'.transcripts s'.chats agentId a c ∈
      (newTurn tables source agentId now s s').scans ∧ s'.chats.find? b = some c := by
  obtain ⟨c, hc, hlive⟩ := h.live
  have hkey : c.key = b := Table.key_of_find? hc
  have hpeer : c ∈ peersOf s'.chats a := by
    refine mem_peersOf.mpr ⟨List.mem_of_find?_eq_some hc, hlive, ?_⟩
    rw [hkey]
    exact hab.symm
  obtain ⟨c', rest, hsplit, hkey'⟩ := exists_takeWhile_split hpeer hkey
  have hc' : c' ∈ peersOf s'.chats a := hsplit ▸ List.mem_append_right _ List.mem_cons_self
  refine ⟨c', hkey', ?_, hkey' ▸ Table.mem_rows_iff.mp (mem_peersOf.mp hc').1⟩
  have hsource : source.hasDigest = true := by
    by_contra hnone
    simp [newTurn, hnone] at hdigest
  have hscans : (newTurn tables source agentId now s s').scans = untilFull 0
      ((peersOf s'.chats a).map (scanPeer tables s'.transcripts s'.chats agentId a)) := by
    rw [← List.take_of_length_le h.few, ← ha]
    simp [newTurn, ChatTurn.scans, hsource, buildCrossChatDigest]
  rw [hscans, hsplit, List.map_append, List.map_cons]
  apply mem_untilFull
  rw [List.countP_map, Nat.zero_add]
  exact h.room

/-- A change that was there when a turn began that hears of it has been reported before, or it is in
the digest of the turn. -/
theorem Heard.hears (h : Heard tables a b g past s' events) {source : TurnSource}
    {agentId : JsString} {now : Nat} (hab : a ≠ b)
    (hhears : Hears tables a b (newTurn tables source agentId now s s') s')
    (ha : (newTurn tables source agentId now s s').key = a)
    (hdigest : (newTurn tables source agentId now s s').digest.isSome = true)
    (hagent : ∀ c ∈ s'.chats.find? b, c.agentId = g) {r : ChatRow}
    (hr : r ∈ owed tables (marks a b) b past) :
    reportCount a r past = 1 ∨ ∃ p ∈ (newTurn tables source agentId now s s').scans,
      p.peer.key = b ∧ p.agentId = r.agentId ∧ r.event ∈ p.notable := by
  obtain ⟨hg, hevent, hnotable⟩ := h.rows r hr
  obtain ⟨c, rfl, hscan, hfind⟩ := hhears.mem_scans hab ha hdigest
  have hne : g ≠ [] := hagent c hfind ▸ h.agents c hfind
  have hsees : (scanPeer tables s'.transcripts s'.chats agentId a c).Sees tables g events _ :=
    sees_scanPeer h.inOrder (hagent c hfind) hne
  obtain ⟨n, hn⟩ := Option.ne_none_iff_exists'.mp hhears.seen
  by_cases hpassed : passed (getCursor s'.chats a c.key) r = true
  · exact .inl ((h.counts r hr).trans (if_pos hpassed))
  · refine .inr ⟨_, hscan, congrArg Chat.key (scanPeer_peer _ _ _ _ _),
      hsees.agent.trans hg.symm, ?_⟩
    have hafter : n < r.event.seq := by simpa [passed, hn] using hpassed
    exact mem_notable_scanPeer h.inOrder (hagent c hfind) hne hn hevent hnotable hafter

end Invariant

/-- `beta` is there before the first turn of the main chat. -/
def seenStart : List ServerInput :=
  [createBeta, webTurn "" 1, .finish 0 true, webTurn "chat-beta" 2, writesFile 1 "/srv/app.js",
    .finish 1 true]

def seenRun : List ServerInput := seenStart ++ [webTurn "" 3, .finish 2 true]

end OsModa.Gateway.CrossChat
