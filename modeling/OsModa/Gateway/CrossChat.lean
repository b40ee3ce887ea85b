import OsModa.Base.Machine
import OsModa.Gateway.Chats
import OsModa.Gateway.Transcript

/-!
What a turn of one chat is told of the other chats' work, and the turns of a gateway.

A digest is read from the transcripts of the peers, that of each from a cursor on. The cursors are
committed when the turn is over, and only if it delivered something. A peer that has no cursor yet
starts caught up to the end of its transcript.
-/

namespace OsModa.Gateway.CrossChat

open OsModa.Js OsModa.Machine

/-! ### The digest -/

/-- Pure-read tools carry no "change". -/
def readOnlyTools : List JsString :=
  ["read", "grep", "glob", "directory_list", "file_read", "webfetch",
    "system_query", "system_health", "system_discover", "network_info",
    "service_status", "journal_logs", "event_log", "memory_recall", "agent_card",
    "codegraph_search", "codegraph_context", "codegraph_callers", "codegraph_callees",
    "codegraph_node", "codegraph_explore", "codegraph_files", "codegraph_status"].map utf16

/-- Notable actions shown per peer chat. -/
def maxPerPeer : Nat := 6
/-- Peer chats shown. -/
def maxPeers : Nat := 8
/-- Peer transcripts read per turn. -/
def maxPeersScanned : Nat := 16
/-- Hard cap on the whole digest. -/
def maxChars : Nat := 1600

/-- `replace(/^old/, new)` -/
def replaceStart (old new s : JsString) : JsString :=
  if old.isPrefixOf s then new ++ s.drop old.length else s

/-- `join` -/
def join (separator : JsString) (parts : List JsString) : JsString :=
  (parts.intersperse separator).flatten

section Digest

variable (tables : CaseTables)

def isReadOnly (name : JsString) : Bool :=
  readOnlyTools.any fun tool => tool = tables.toLowerCase name

def verbFor (name : JsString) : JsString :=
  let n := tables.toLowerCase name
  if n = utf16 "write" ∨ n = utf16 "file_write" then utf16 "wrote"
  else if n = utf16 "edit" then utf16 "edited"
  else if n = utf16 "bash" ∨ n = utf16 "shell_exec" then utf16 "ran"
  else if (utf16 "app_").isPrefixOf n then replaceStart (utf16 "app_") (utf16 "app ") name
  else if (utf16 "service_").isPrefixOf n then
    replaceStart (utf16 "service_") (utf16 "service ") name
  else name

/-- The filter of the digest. A tool without a name is not notable. -/
def isNotable (e : TranscriptEvent) : Bool :=
  e.role = .tool && e.kind = some .use && (nonEmpty e.name).any fun name => !isReadOnly tables name

/-- What one round of the peer loop finds. -/
structure PeerScan where
  peer : Chat
  /-- The agent under which the peer's transcript is read. -/
  agentId : JsString
  /-- The number after which it is read. -/
  cursor : Option Nat
  /-- The cursor to commit. -/
  advance : Option Nat
  notable : List TranscriptEvent

def scanPeer (transcripts : TranscriptStore) (chats : ChatRegistry)
    (agentId currentChatKey : JsString) (peer : Chat) : PeerScan :=
  let peerAgent := if peer.agentId = [] then agentId else peer.agentId
  match ChatRegistry.getCursor chats currentChatKey peer.key with
  | none => ⟨peer, peerAgent, none, some (transcripts.headSeq peerAgent peer.key), []⟩
  | some cursor =>
    let evs := transcripts.read peerAgent peer.key cursor
    ⟨peer, peerAgent, some cursor, evs.getLast?.map TranscriptEvent.seq,
      evs.filter (isNotable tables)⟩

/-- The rounds that the loop makes, after so many lines: it ends with the line that is the last one
allowed. -/
def untilFull (blocks : Nat) : List PeerScan → List PeerScan
  | [] => []
  | p :: rest =>
    if p.notable = [] then p :: untilFull blocks rest
    else if maxPeers ≤ blocks + 1 then [p]
    else p :: untilFull (blocks + 1) rest

namespace PeerScan

variable (p : PeerScan)

/-- `slice(-6)` -/
def shown : List TranscriptEvent := p.notable.drop (p.notable.length - maxPerPeer)

def omitted : Nat := p.notable.length - p.shown.length

def action (e : TranscriptEvent) : JsString :=
  verbFor tables (e.name.getD []) ++
    match nonEmpty e.target with
    | some target => 32 :: (squeeze target).take 60
    | none => []

def line : JsString :=
  utf16 "- **" ++ p.peer.name ++ utf16 "**: " ++ join (utf16 "; ") (p.shown.map (action tables)) ++
    if 0 < p.omitted then utf16 " (+" ++ numeral p.omitted ++ utf16 " earlier)" else []

end PeerScan

structure CrossChatDigest where
  text : Option JsString
  /-- How many peer chats contributed. -/
  peers : Nat
  /-- The rounds of the peer loop. -/
  scans : List PeerScan

/-- Cursors to commit AFTER a successful turn. -/
def CrossChatDigest.advance (d : CrossChatDigest) : List (JsString × Nat) :=
  d.scans.filterMap fun p => p.advance.map fun seq => (p.peer.key, seq)

/-- The other live chats, the last active first. -/
def peersOf (chats : ChatRegistry) (currentChatKey : JsString) : List Chat :=
  (ChatRegistry.list chats false).filter fun c => c.key ≠ currentChatKey

def digestText (blocks : List JsString) : JsString :=
  let body := join [10] blocks
  utf16 ("[Cross-chat update — significant changes OTHER chats on this server made since you " ++
      "last ran here. The filesystem and services are SHARED across chats, so re-check current " ++
      "state before acting on anything below. This is context, NOT a user request.]\n") ++
    (if maxChars < body.length then body.take maxChars ++ utf16 "\n…(more changes omitted)"
      else body) ++
    utf16 "\n[End cross-chat update.]"

def buildCrossChatDigest (transcripts : TranscriptStore) (chats : ChatRegistry)
    (agentId currentChatKey : JsString) : CrossChatDigest :=
  let peers := (peersOf chats currentChatKey).take maxPeersScanned
  let scans := untilFull 0 (peers.map (scanPeer tables transcripts chats agentId currentChatKey))
  let blocks := (scans.filter fun p => p.notable ≠ []).map (PeerScan.line tables)
  ⟨if blocks = [] then none else some (digestText blocks), blocks.length, scans⟩

/-- Every notable row of a peer is listed or counted. -/
theorem PeerScan.take_omitted_append_shown (p : PeerScan) :
    p.notable.take p.omitted ++ p.shown = p.notable := by
  have homitted : p.omitted = p.notable.length - maxPerPeer := by
    rw [omitted, shown, List.length_drop]
    omega
  rw [homitted, shown, List.take_append_drop]

/-- A text is injected when there is a notable row. -/
theorem text_eq_none_iff (transcripts : TranscriptStore) (chats : ChatRegistry)
    (agentId key : JsString) :
    (buildCrossChatDigest tables transcripts chats agentId key).text = none ↔
      ∀ p ∈ (buildCrossChatDigest tables transcripts chats agentId key).scans, p.notable = [] := by
  simp only [buildCrossChatDigest]
  split
  · rename_i hblocks
    rw [List.map_eq_nil_iff, List.filter_eq_nil_iff] at hblocks
    simpa using hblocks
  · rename_i hblocks
    rw [List.map_eq_nil_iff, List.filter_eq_nil_iff] at hblocks
    simpa using hblocks

end Digest

/-! ### Turns -/

/-- Where a turn comes from. -/
inductive TurnSource where
  /-- The missing fields of a frame are empty. -/
  | web (chatId sessionKey : JsString)
  | telegram (chatId : JsString)
  /-- `POST /agent/turn` -/
  | api (sessionKey : JsString)
  | loop (sessionKey : JsString)

namespace TurnSource

def name : TurnSource → JsString
  | web _ _ => utf16 "web"
  | telegram _ => utf16 "telegram"
  | api _ => utf16 "api"
  | loop _ => utf16 "loop"

/-- The turns that a digest is built for. -/
def hasDigest : TurnSource → Bool
  | web _ _ | telegram _ => true
  | api _ | loop _ => false

end TurnSource

/-- A row that a turn appends to its transcript. -/
inductive TurnRow where
  | toolUse (name target : Option JsString)
  | toolResult (outcome : Option JsString)
  | answer (text : JsString)

/-- A blank answer is not appended. -/
def TurnRow.input : TurnRow → Option TranscriptInput
  | toolUse name target => some ⟨none, .tool, some .use, none, name, target, none, none, none⟩
  | toolResult outcome => some ⟨none, .tool, some .result, none, none, none, outcome, none, none⟩
  | answer text =>
    if trim text = [] then none
    else some ⟨none, .assistant, none, some text, none, none, none, none, none⟩

/-- A turn that is under way. -/
structure ChatTurn where
  key : JsString
  agentId : JsString
  digest : Option CrossChatDigest

def ChatTurn.scans (turn : ChatTurn) : List PeerScan :=
  (turn.digest.map CrossChatDigest.scans).getD []

/-- Requests to the registry that are no turns. -/
inductive RegistryRequest where
  /-- `POST /chats` -/
  | create (name : JsString)
  | rename (key name : JsString)
  | setArchived (key : JsString) (archived : Bool)
  /-- `POST /loops` -/
  | createLoop (sessionKey agentId name : JsString)

structure Server where
  transcripts : TranscriptStore
  chats : ChatRegistry
  turns : JsMap Nat ChatTurn
  /-- The number of turns that have begun. -/
  begun : Nat

def Server.fresh : Server := ⟨.fresh, .empty, .empty, 0⟩

inductive ServerInput where
  | begin (source : TurnSource) (agentId text : JsString) (now : Nat) (clock : JsString)
      (outcome : AppendOutcome)
  | row (id : Nat) (row : TurnRow) (clock : JsString) (outcome : AppendOutcome)
  /-- The turn is over; `delivered` says that some output reached the client. -/
  | finish (id : Nat) (delivered : Bool)
  | request (request : RegistryRequest) (now : Nat)

inductive ServerEffect where
  | began (id : Nat) (turn : ChatTurn)
  | wrote (turn : ChatTurn) (event : Option TranscriptEvent)
  | ended (id : Nat) (turn : ChatTurn) (delivered : Bool)
  | nothing

section Turns

variable (tables : CaseTables)

/-- The chat of a turn, which is registered if need be. -/
def openChat (source : TurnSource) (agentId : JsString) (now : Nat) (chats : ChatRegistry) :
    JsString × ChatRegistry :=
  match source with
  | .web chatId sessionKey =>
    match if chatId = [] then none else ChatRegistry.resolve tables chats chatId with
    | some existing => (existing.key, ChatRegistry.touch chats existing.key now)
    | none =>
      let key := if sessionKey = [] then utf16 "ws-default" else sessionKey
      (key, ChatRegistry.touch (ChatRegistry.register tables chats key none none now).2 key now)
  | .telegram chatId =>
    let name := utf16 "Telegram " ++ chatId
    (chatId, ChatRegistry.touch
      (ChatRegistry.register tables chats chatId (some agentId) (some name) now).2 chatId now)
  | .api sessionKey =>
    let key := if sessionKey = [] then utf16 "main" else sessionKey
    (key, (ChatRegistry.register tables chats key none none now).2)
  | .loop sessionKey => (sessionKey, chats)

def message (source : TurnSource) (text : JsString) : TranscriptInput :=
  ⟨none, .user, none, some text, none, none, none, none, some source.name⟩

def beginTurn (source : TurnSource) (agentId text : JsString) (now : Nat) (clock : JsString)
    (outcome : AppendOutcome) (s : Server) : ServerEffect × Server :=
  let (key, chats) := openChat tables source agentId now s.chats
  let transcripts := (s.transcripts.append agentId key (message source text) clock outcome).2
  let digest := if source.hasDigest then
      some (buildCrossChatDigest tables transcripts chats agentId key)
    else none
  let turn : ChatTurn := ⟨key, agentId, digest⟩
  (.began s.begun turn,
    { transcripts, chats, turns := JsMap.set s.turns s.begun turn, begun := s.begun + 1 })

def writeRow (id : Nat) (row : TurnRow) (clock : JsString) (outcome : AppendOutcome) (s : Server) :
    ServerEffect × Server :=
  match JsMap.get? s.turns id, row.input with
  | some turn, some ev =>
    let (event, transcripts) := s.transcripts.append turn.agentId turn.key ev clock outcome
    (.wrote turn event, { s with transcripts })
  | _, _ => (.nothing, s)

/-- `for (const a of digestAdvance) chats.setCursor(sessionKey, a.peerKey, a.seq)` -/
def commit (chats : ChatRegistry) (chatKey : JsString) (advance : List (JsString × Nat)) :
    ChatRegistry :=
  advance.foldl (fun chats a => ChatRegistry.setCursor chats chatKey a.1 a.2) chats

/-- Cross-chat cursors advance ONLY when the turn actually DELIVERED output. -/
def finishTurn (id : Nat) (delivered : Bool) (s : Server) : ServerEffect × Server :=
  match JsMap.get? s.turns id with
  | some turn =>
    (.ended id turn delivered,
      { s with
        chats := if delivered then
            commit s.chats turn.key ((turn.digest.map CrossChatDigest.advance).getD [])
          else s.chats
        turns := JsMap.delete s.turns id })
  | none => (.nothing, s)

def handleRequest (now : Nat) (chats : ChatRegistry) : RegistryRequest → ChatRegistry
  | .create name =>
    match ChatRegistry.resolveOrCreate tables chats name now with
    | .ok (_, chats') => chats'
    | .error _ => chats
  | .rename key name => ChatRegistry.rename chats key name
  | .setArchived key archived => ChatRegistry.setArchived chats key archived
  | .createLoop sessionKey agentId name =>
    (ChatRegistry.register tables chats sessionKey (some agentId) (some name) now).2

def serverNext : ServerInput → Server → ServerEffect × Server
  | .begin source agentId text now clock outcome, s =>
    beginTurn tables source agentId text now clock outcome s
  | .row id row clock outcome, s => writeRow id row clock outcome s
  | .finish id delivered, s => finishTurn id delivered s
  | .request request now, s =>
    (.nothing, { s with chats := handleRequest tables now s.chats request })

end Turns

abbrev ServerStep := Step Server ServerInput ServerEffect

end OsModa.Gateway.CrossChat
