import OsModa.Base.Float64
import OsModa.Base.Query
import OsModa.Base.Text
import OsModa.Agentd.Ledger

/-!
`POST /memory/recall`: what agentd finds in its ledger for a query and a timeframe.

The search asks FTS5 for twice as many rows as are wanted and then leaves out those outside the
timeframe, so that it finds the best matches only where enough of these rows are inside
(`recall_best_iff`). The keyword scan, which stands in for FTS5 where that fails, filters first
and cuts off last (`keywordScan_complete`).
-/

namespace OsModa.Agentd

open OsModa.Text OsModa.Float64

/-! ### The search -/

/-- The full-text index of the events. -/
structure FtsIndex where
  /-- The rows of `events_fts MATCH ?1` with their events and their bm25 ranks, the smaller the
  better; `none` where the statement fails. -/
  found : Events → List Char → Option (List (Event × ℚ))
  /-- `ORDER BY rank` -/
  order : OrderBy (Prod.snd : Event × ℚ → ℚ)

/-- The tables of a Unicode version that a search reads. -/
structure SearchUnicode extends Unicode where
  isAlphanumeric : Char → Bool

section Search

variable (u : SearchUnicode) (fts : FtsIndex)

/-- A character of a search term. -/
def keepsInTerm (c : Char) : Bool := u.isAlphanumeric c || c = '_' || c = '-' || c = '.'

/-- Sanitize an FTS5 query: escape special chars and wrap terms in quotes. -/
def sanitizeFtsQuery (query : List Char) : List Char :=
  let terms := (splitWhitespace u.toUnicode query).map fun term =>
    let clean := term.filter (keepsInTerm u)
    if clean.isEmpty then [] else '"' :: clean ++ ['"']
  " OR ".toList.intercalate (terms.filter fun term => !term.isEmpty)

/-- All the rows that the search is for, best first. -/
def FtsIndex.ranked (events : Events) (query : List Char) : Option (List (Event × ℚ)) :=
  let ftsQuery := sanitizeFtsQuery u query
  if ftsQuery.isEmpty then some [] else (fts.found events ftsQuery).map fts.order.arrange

/-- Full-text search over events using FTS5 with BM25 ranking. -/
def ftsSearch (events : Events) (query : List Char) (limit : Nat) :
    Except String (List (Event × ℚ)) :=
  match fts.ranked u events query with
  | none => .error "FTS5 query failed"
  -- bm25() returns negative scores, negate for positive relevance
  | some rows => .ok ((rows.take limit).map fun r => (r.1, -r.2))

end Search

/-! ### Chunks -/

/-- serde_json's values, as far as a payload is read. -/
structure SerdeJson where
  Value : Type
  fromStr : String → Option Value
  emptyObject : Value
  get : Value → String → Option Value
  asStr : Value → Option String
  asArray : Value → Option (List Value)

structure MemoryRecallRequest where
  query : String
  maxResults : Option Nat
  timeframe : Option String

structure MemoryChunk where
  id : Int
  ts : String
  content : String
  category : Option String
  tags : Option (List String)
  relevance : ℚ

structure MemoryRecallResponse where
  query : String
  chunks : List MemoryChunk
  totalSearched : Nat

/-- `str::starts_with` -/
def startsWith (s start : String) : Bool := start.toList.isPrefixOf s.toList

def MemoryRecallRequest.inTimeframe (body : MemoryRecallRequest) (event : Event) : Bool :=
  body.timeframe.all (startsWith event.ts)

/-- The chunk that is made of an event. -/
def chunkOf (json : SerdeJson) (event : Event) (relevance : ℚ) : MemoryChunk :=
  let parsed := (json.fromStr event.payload).getD json.emptyObject
  let text name := (json.get parsed name).bind json.asStr
  { id := event.id
    ts := event.ts
    content := ((text "content").or ((text "detail").or (text "summary"))).getD event.payload
    category := text "category"
    tags := ((json.get parsed "tags").bind json.asArray).map (·.filterMap json.asStr)
    relevance := relevance }

/-! ### The handler -/

/-- The database that the handler has locked. -/
structure RecallDb where
  events : Events
  fts : FtsIndex
  /-- Whether the keyword scan's query and the counting fail. -/
  scanFails : Bool := false
  countFails : Bool := false

section Handler

variable (u : SearchUnicode) (json : SerdeJson) (db : RecallDb) (body : MemoryRecallRequest)

/-- How many chunks are wanted: the number that is asked for, up to a hundred. -/
def MemoryRecallRequest.limit : Nat := min (body.maxResults.getD 10) 100

/-- The events that the keyword scan reads, the newest first. -/
def RecallDb.scanned : List Event := db.events.rows.reverse.take 5000

/-- How many of the query's terms the payload contains. -/
def matchingTerms (event : Event) : Nat :=
  let queryTerms := splitWhitespace u.toUnicode (toLowercase u.toUnicode body.query.toList)
  queryTerms.countP (contains (toLowercase u.toUnicode event.payload.toList))

/-- The chunk of an event that the scan does not skip. -/
def scanEvent (event : Event) : Option MemoryChunk :=
  let queryTerms := splitWhitespace u.toUnicode (toLowercase u.toUnicode body.query.toList)
  if !body.inTimeframe event then none
  else
    let matching := matchingTerms u body event
    if matching = 0 then none
    else some (chunkOf json event (fl ((matching : ℚ) / queryTerms.length)))

/-- The order of the scan: more terms first, newer events first among equals. -/
def ranksBefore (a b : MemoryChunk) : Bool :=
  b.relevance < a.relevance || (b.relevance = a.relevance && b.id ≤ a.id)

/-- Fallback keyword scan when FTS5 is unavailable. -/
def keywordScanFallback (maxResults : Nat) : Except Nat (List MemoryChunk) :=
  if db.scanFails then .error 500
  else
    let chunks := db.scanned.filterMap (scanEvent u json body)
    .ok ((chunks.mergeSort ranksBefore).take maxResults)

/-- Normalize a BM25 score to the 0.0-1.0 range. -/
def normalized (maxScore score : ℚ) : ℚ := if 0 < maxScore then fl (score / maxScore) else 0

/-- The chunks of the rows that the search has found. -/
def searchedChunks (results : List (Event × ℚ)) (maxResults : Nat) : List MemoryChunk :=
  let maxScore := (results.map (·.2)).foldl max 0
  let inTime := results.filter fun r => body.inTimeframe r.1
  (inTime.map fun r => chunkOf json r.1 (normalized maxScore r.2)).take maxResults

/-- Try FTS5 first, fall back to keyword scan if it fails. -/
def recallChunks (maxResults : Nat) : Except Nat (List MemoryChunk) :=
  match ftsSearch u db.fts db.events body.query.toList (maxResults * 2) with
  | .ok [] => .ok []
  | .ok results => .ok (searchedChunks json body results maxResults)
  | .error _ => keywordScanFallback u json db body maxResults

def memoryRecallHandler : Except Nat MemoryRecallResponse :=
  (recallChunks u json db body body.limit).map fun chunks =>
    ⟨body.query, chunks, if db.countFails then 0 else db.events.rows.length⟩

/-! ### The best matches -/

/-- A row inside the timeframe. -/
def MemoryRecallRequest.rowInTimeframe (r : Event × ℚ) : Bool := body.inTimeframe r.1

/-- The chunks are those of the first rows, in the order of the search, of all the rows inside
the timeframe. -/
def RecallsBest : Prop :=
  ∀ rows, db.fts.ranked u db.events body.query.toList = some rows →
    ∃ response, memoryRecallHandler u json db body = .ok response ∧
      response.chunks.map (·.id) =
        ((rows.filter body.rowInTimeframe).take body.limit).map (·.1.id)

/-- Enough of the rows that are fetched are inside the timeframe, or none of the others is. -/
def FetchesEnough : Prop :=
  ∀ rows, db.fts.ranked u db.events body.query.toList = some rows →
    body.limit ≤ (rows.take (body.limit * 2)).countP body.rowInTimeframe ∨
      ∀ r ∈ rows.drop (body.limit * 2), body.rowInTimeframe r = false

variable {u json db body}

theorem searchedChunks_ids (rows : List (Event × ℚ)) (maxResults : Nat) :
    (searchedChunks json body (rows.map fun r => (r.1, -r.2)) maxResults).map (·.id) =
      ((rows.filter body.rowInTimeframe).take maxResults).map (·.1.id) := by
  unfold searchedChunks
  dsimp only
  rw [List.filter_map, ← List.map_take, ← List.map_take, List.map_map, List.map_map]
  rfl

/-- Where the search is answered, the chunks are made of the rows that it fetched. -/
theorem memoryRecallHandler_ids {rows : List (Event × ℚ)}
    (hrows : db.fts.ranked u db.events body.query.toList = some rows) :
    ∃ response, memoryRecallHandler u json db body = .ok response ∧
      response.chunks.map (·.id) = (((rows.take (body.limit * 2)).filter
        body.rowInTimeframe).take body.limit).map (·.1.id) := by
  have hchunks : recallChunks u json db body body.limit = .ok (searchedChunks json body
      ((rows.take (body.limit * 2)).map fun r => (r.1, -r.2)) body.limit) := by
    have hsearch : ftsSearch u db.fts db.events body.query.toList (body.limit * 2) =
        .ok ((rows.take (body.limit * 2)).map fun r => (r.1, -r.2)) := by
      rw [ftsSearch, hrows]
    rw [recallChunks, hsearch]
    cases (rows.take (body.limit * 2)).map fun r => (r.1, -r.2) with
    | nil => exact congrArg Except.ok List.take_nil.symm
    | cons r fetched => rfl
  rw [memoryRecallHandler, hchunks]
  exact ⟨_, rfl, searchedChunks_ids _ _⟩

/-- The best matches are returned where fetching loses none of them. -/
theorem recallsBest_iff_ids : RecallsBest u json db body ↔
    ∀ rows, db.fts.ranked u db.events body.query.toList = some rows →
      (((rows.take (body.limit * 2)).filter body.rowInTimeframe).take body.limit).map (·.1.id) =
        ((rows.filter body.rowInTimeframe).take body.limit).map (·.1.id) := by
  refine forall_congr' fun rows => forall_congr' fun hrows => ?_
  obtain ⟨response, hresponse, hids⟩ := @memoryRecallHandler_ids u json db body _ hrows
  rw [← hids]
  constructor
  · rintro ⟨response', hresponse', hbest⟩
    obtain rfl := Except.ok.inj (hresponse.symm.trans hresponse')
    exact hbest
  · exact fun hbest => ⟨response, hresponse, hbest⟩

/-- A recall returns the best matches in the timeframe if and only if enough of the rows that the
search fetches, twice as many as are wanted, are inside it, or no other row is. -/
theorem recall_best_iff : RecallsBest u json db body ↔ FetchesEnough u db body := by
  rw [recallsBest_iff_ids]
  exact forall_congr' fun rows => forall_congr' fun _ => filter_take_iff _ _ rows _ _

/-- Without a timeframe, the best matches are returned. -/
theorem recallsBest_of_no_timeframe (hnone : body.timeframe = none) :
    RecallsBest u json db body := by
  have hall : ∀ r : Event × ℚ, body.rowInTimeframe r = true := by
    intro r
    rw [MemoryRecallRequest.rowInTimeframe, MemoryRecallRequest.inTimeframe, hnone]
    rfl
  refine recallsBest_iff_ids.mpr ?_
  intro rows _
  rw [List.filter_eq_self.mpr fun r _ => hall r, List.filter_eq_self.mpr fun r _ => hall r,
    List.take_take, Nat.min_eq_left (by omega)]

/-! ### The keyword scan -/

/-- The scan omits no event that it reads, that is inside the timeframe and that contains a term,
while its result is shorter than what is wanted. -/
theorem keywordScan_complete {maxResults : Nat} {chunks : List MemoryChunk}
    (hscan : keywordScanFallback u json db body maxResults = .ok chunks)
    (hshort : chunks.length < maxResults) {event : Event} (hread : event ∈ db.scanned)
    (htime : body.inTimeframe event = true) (hterm : 0 < matchingTerms u body event) :
    ∃ chunk ∈ chunks, chunk.id = event.id := by
  unfold keywordScanFallback at hscan
  split at hscan
  · cases hscan
  · obtain rfl := Except.ok.inj hscan
    rw [List.length_take, List.length_mergeSort] at hshort
    rw [List.take_of_length_le (by rw [List.length_mergeSort]; omega)]
    have hchunk : ∃ relevance, scanEvent u json body event =
        some (chunkOf json event relevance) := by
      rw [scanEvent, htime]
      exact ⟨_, if_neg hterm.ne'⟩
    obtain ⟨relevance, hchunk⟩ := hchunk
    exact ⟨chunkOf json event relevance,
      List.mem_mergeSort.mpr (List.mem_filterMap.mpr ⟨event, hread, hchunk⟩), rfl⟩

end Handler

/-! Three events on two days, of which the latest is the worst match. -/

/-- Tables that know only ASCII. -/
def SearchUnicode.ascii : SearchUnicode := { Unicode.ascii with isAlphanumeric := Char.isAlphanum }

/-- Payloads that are no JSON. -/
def noJson : SerdeJson := ⟨Unit, fun _ => none, (), fun _ _ => none, fun _ => none, fun _ => none⟩

def diskEvent (id : Int) (ts payload : String) : Event :=
  ⟨id, ts, "memory.ingest", "agent", payload, "", ""⟩

def diskEvents : Events where
  rows :=
    [diskEvent 1 "2026-01-05T08:00:00.000Z" "disk disk disk",
      diskEvent 2 "2026-01-05T09:00:00.000Z" "disk disk",
      diskEvent 3 "2026-01-06T08:00:00.000Z" "disk"]
  sorted := by decide

/-- An index that has the three events for every query, ranked by how often they name the disk. -/
def diskIndex : FtsIndex where
  found events _ := some (events.rows.zip [-3, -2, -1])
  order := .stable _

def diskDb : RecallDb := { events := diskEvents, fts := diskIndex }

def diskRequest : MemoryRecallRequest := ⟨"disk", some 1, some "2026-01-06"⟩

/-- One match of the second day is asked for, there is one, and none is returned. -/
theorem diskRequest_misses :
    ¬ RecallsBest .ascii noJson diskDb diskRequest := by
  intro h
  have hranked : diskIndex.ranked .ascii diskEvents "disk".toList =
      some (diskEvents.rows.zip [-3, -2, -1]) := by
    decide +kernel
  have hids := recallsBest_iff_ids.mp h _ hranked
  revert hids
  decide +kernel

end OsModa.Agentd
