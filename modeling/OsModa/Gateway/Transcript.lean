import OsModa.Base.Js
import OsModa.Base.JsMap
import OsModa.Base.Machine

/-!
The transcripts of the gateway: one file for each session key, one event on each line.

The number of an event is that of the line it is written on, as long as every write succeeds:
it is counted on in memory, under a key of its own, and from the lines of the file only after a
start. The file goes by a name with other characters than the key (`faithful_iff`).
-/

namespace OsModa.Gateway

open OsModa.Js OsModa.Machine

inductive TranscriptRole where
  | user
  | assistant
  | tool
  deriving DecidableEq

inductive TranscriptKind where
  | use
  | result
  deriving DecidableEq

structure TranscriptEvent where
  seq : Nat
  ts : JsString
  role : TranscriptRole
  kind : Option TranscriptKind
  text : Option JsString
  name : Option JsString
  target : Option JsString
  outcome : Option JsString
  requestId : Option JsString
  source : Option JsString
  deriving DecidableEq

/-- An event that is to be appended. -/
structure TranscriptInput where
  ts : Option JsString
  role : TranscriptRole
  kind : Option TranscriptKind
  text : Option JsString
  name : Option JsString
  target : Option JsString
  outcome : Option JsString
  requestId : Option JsString
  source : Option JsString
  deriving DecidableEq

/-- A field is left out when it is missing or empty. -/
def nonEmpty (field : Option JsString) : Option JsString := field.filter (· ≠ [])

/-- The event that is written. -/
def TranscriptInput.full (ev : TranscriptInput) (seq : Nat) (clock : JsString) : TranscriptEvent where
  seq := seq
  ts := (nonEmpty ev.ts).getD clock
  role := ev.role
  kind := ev.kind
  text := nonEmpty ev.text
  name := nonEmpty ev.name
  target := nonEmpty ev.target
  outcome := nonEmpty ev.outcome
  requestId := nonEmpty ev.requestId
  source := nonEmpty ev.source

/-! ### Files -/

/-- `[a-zA-Z0-9_:.@-]` -/
def isFileUnit (a : UInt16) : Bool :=
  (97 ≤ a && a ≤ 122) || (65 ≤ a && a ≤ 90) || (48 ≤ a && a ≤ 57) || a = 95 || a = 58 || a = 46 ||
    a = 64 || a = 45

def sanitize (s : JsString) : JsString := (s.map fun a => if isFileUnit a then a else 95).take 200

/-- A path below the directory of the transcripts. A directory of one dot is no directory. -/
structure TranscriptPath where
  dir : JsString
  file : JsString
  deriving DecidableEq

def fileFor (agentId sessionKey : JsString) : TranscriptPath where
  dir := if sanitize agentId = utf16 "." then [] else sanitize agentId
  file := sanitize sessionKey ++ utf16 ".jsonl"

/-- What the lines of a file parse to; a line that does not is `none`. What follows the last
newline is a line of its own. -/
structure TranscriptFile where
  lines : List (Option TranscriptEvent)
  tail : Option (Option TranscriptEvent)

/-- How a call of `append` ends. -/
inductive AppendOutcome where
  /-- The directory is not there and cannot be made. -/
  | noDirectory
  | written
  /-- Nothing could be written. -/
  | kept
  /-- Some bytes were written: all but the newline, or fewer. -/
  | torn (allButNewline : Bool)
  deriving DecidableEq

namespace TranscriptFile

variable (f : TranscriptFile)

/-- A file that is missing reads as an empty one. -/
def empty : TranscriptFile := ⟨[], none⟩

/-- `split("\n").filter(Boolean)` -/
def nonBlank : List (Option TranscriptEvent) := f.lines ++ f.tail.toList

/-- A text is written behind what is there. What it is glued to does not parse with it. -/
def glue (text : Option TranscriptEvent) : Option TranscriptEvent :=
  if f.tail.isSome then none else text

/-- `appendFileSync` of an event and a newline. -/
def append (e : TranscriptEvent) : AppendOutcome → TranscriptFile
  | .written => ⟨f.lines ++ [f.glue (some e)], none⟩
  | .torn allButNewline => ⟨f.lines, some (f.glue (if allButNewline then some e else none))⟩
  | .noDirectory | .kept => f

/-- The events with a higher number. -/
def eventsAfter (sinceSeq : Nat) : List TranscriptEvent :=
  (f.nonBlank.filterMap id).filter fun e => sinceSeq < e.seq

end TranscriptFile

/-! ### The store -/

structure TranscriptStore where
  files : JsMap TranscriptPath TranscriptFile
  /-- The last number given out for a key. -/
  seqByKey : JsMap JsString Nat

namespace TranscriptStore

variable (s : TranscriptStore)

def fresh : TranscriptStore := ⟨.empty, .empty⟩

def fileAt (path : TranscriptPath) : TranscriptFile := (JsMap.get? s.files path).getD .empty

/-- `${agentId}:${sessionKey}` -/
def cacheKey (agentId sessionKey : JsString) : JsString := agentId ++ 58 :: sessionKey

/-- The number before that of the next event. -/
def lastSeq (agentId sessionKey : JsString) : Nat :=
  (JsMap.get? s.seqByKey (cacheKey agentId sessionKey)).getD
    (s.fileAt (fileFor agentId sessionKey)).nonBlank.length

/-- Append one event. Best-effort — never throws into the chat path. -/
def append (agentId sessionKey : JsString) (ev : TranscriptInput) (clock : JsString)
    (outcome : AppendOutcome) : Option TranscriptEvent × TranscriptStore :=
  if outcome = .noDirectory then (none, s)
  else
    let path := fileFor agentId sessionKey
    let seq := s.lastSeq agentId sessionKey + 1
    let full := ev.full seq clock
    (if outcome = .written then some full else none,
      { files := JsMap.set s.files path ((s.fileAt path).append full outcome)
        seqByKey := JsMap.set s.seqByKey (cacheKey agentId sessionKey) seq })

/-- Highest seq currently on disk for this key (0 if none). For an append-only
file seq == line count, so this is one cheap read with no JSON parse. -/
def headSeq (agentId sessionKey : JsString) : Nat :=
  (s.fileAt (fileFor agentId sessionKey)).nonBlank.length

/-- Read events with seq > sinceSeq. -/
def read (agentId sessionKey : JsString) (sinceSeq : Nat) : List TranscriptEvent :=
  (s.fileAt (fileFor agentId sessionKey)).eventsAfter sinceSeq

/-- A new process counts the lines again. -/
def restarted : TranscriptStore := { s with seqByKey := .empty }

end TranscriptStore

inductive TranscriptOp where
  | append (agentId sessionKey : JsString) (ev : TranscriptInput) (clock : JsString)
      (outcome : AppendOutcome)
  | restart

/-- One step, with the event that was appended. -/
def transcriptNext : TranscriptOp → TranscriptStore → Option TranscriptEvent × TranscriptStore
  | .append agentId sessionKey ev clock outcome, s => s.append agentId sessionKey ev clock outcome
  | .restart, s => (none, s.restarted)

abbrev TranscriptStep := Step TranscriptStore TranscriptOp (Option TranscriptEvent)

/-! ### What a transcript is for -/

/-- An agent and a session key. -/
abbrev TranscriptPair := JsString × JsString

namespace TranscriptStore

def fileOf (s : TranscriptStore) (p : TranscriptPair) : TranscriptFile := s.fileAt (fileFor p.1 p.2)

end TranscriptStore

/-- The event that a step appends for a pair. -/
def appendedAt (p : TranscriptPair) (t : TranscriptStep) : Option TranscriptEvent :=
  match t.input with
  | .append agentId sessionKey .. => if (agentId, sessionKey) = p then t.output else none
  | .restart => none

/-- The events that were appended for a pair. -/
def appendedTo (p : TranscriptPair) (history : List TranscriptStep) : List TranscriptEvent :=
  history.filterMap (appendedAt p)

/-- The transcript of a pair holds what was appended for it. -/
structure Faithful (history : List TranscriptStep) (s : TranscriptStore) (p : TranscriptPair) :
    Prop where
  all : s.read p.1 p.2 0 = appendedTo p history
  increasing : (appendedTo p history).Pairwise fun d e => d.seq < e.seq
  head : s.headSeq p.1 p.2 = ((appendedTo p history).getLast?.map TranscriptEvent.seq).getD 0
  since : ∀ n, s.read p.1 p.2 n = (appendedTo p history).filter fun e => n < e.seq

/-- A file that is written is that of no other pair, and the number of the event is that of its
line; and no write stops halfway. -/
def WritesInLine (pairs : Set TranscriptPair) (t : TranscriptStep) : Prop :=
  match t.input with
  | .append agentId sessionKey _ _ .written =>
    ∀ p ∈ pairs, fileFor p.1 p.2 = fileFor agentId sessionKey →
      p = (agentId, sessionKey) ∧
        t.before.lastSeq agentId sessionKey = (t.before.fileOf p).nonBlank.length
  | .append agentId sessionKey _ _ (.torn _) =>
    ∀ p ∈ pairs, fileFor p.1 p.2 ≠ fileFor agentId sessionKey
  | _ => True

/-! ### One file -/

section File

/-- The lines of a file are these events, numbered by their lines. -/
structure TranscriptFile.Holds (f : TranscriptFile) (events : List TranscriptEvent) : Prop where
  lines : f.lines = events.map some
  tail : f.tail = none
  numbered : events.map TranscriptEvent.seq = List.range' 1 events.length

variable {f : TranscriptFile} {events : List TranscriptEvent}

namespace TranscriptFile

/-- A file that ends with a newline. -/
theorem nonBlank_of_tail (hlines : f.lines = events.map some) (htail : f.tail = none) :
    f.nonBlank = events.map some := by
  rw [nonBlank, hlines, htail]
  exact List.append_nil _

theorem eventsAfter_of_nonBlank (h : f.nonBlank = events.map some) (n : Nat) :
    f.eventsAfter n = events.filter fun e => n < e.seq := by
  rw [eventsAfter, h, List.filterMap_map]
  exact congrArg (List.filter _) List.filterMap_some

end TranscriptFile

namespace TranscriptFile.Holds

theorem nonBlank (h : f.Holds events) : f.nonBlank = events.map some :=
  nonBlank_of_tail h.lines h.tail

theorem length (h : f.Holds events) : f.nonBlank.length = events.length := by
  rw [h.nonBlank, List.length_map]

theorem eventsAfter (h : f.Holds events) (n : Nat) :
    f.eventsAfter n = events.filter fun e => n < e.seq :=
  eventsAfter_of_nonBlank h.nonBlank n

theorem seq_pos (h : f.Holds events) {e : TranscriptEvent} (he : e ∈ events) : 0 < e.seq := by
  have hmem : e.seq ∈ events.map TranscriptEvent.seq := List.mem_map_of_mem he
  rw [h.numbered, List.mem_range'_1] at hmem
  exact hmem.1

theorem getLast_seq (h : f.Holds events) :
    (events.getLast?.map TranscriptEvent.seq).getD 0 = events.length := by
  rw [← List.getLast?_map, h.numbered, List.getLast?_range']
  split
  · rename_i hzero
    rw [hzero]
    rfl
  · rw [Option.getD_some]
    omega

/-- A line is written behind the others. -/
theorem append (h : f.Holds events) {e : TranscriptEvent} (hseq : e.seq = events.length + 1) :
    (f.append e .written).Holds (events ++ [e]) where
  lines := by
    rw [TranscriptFile.append, TranscriptFile.glue, h.lines, h.tail, List.map_append]
    rfl
  tail := rfl
  numbered := by
    rw [List.map_append, h.numbered, List.length_append, List.length_singleton,
      List.range'_concat, List.map_singleton, hseq, Nat.one_mul, Nat.add_comm]

end TranscriptFile.Holds

theorem TranscriptFile.holds_empty : TranscriptFile.empty.Holds [] := ⟨rfl, rfl, rfl⟩

end File

/-! ### One step -/

section Steps

variable {pairs : Set TranscriptPair} {history : List TranscriptStep} {s : TranscriptStore}

theorem appendedTo_concat (p : TranscriptPair) (t : TranscriptStep) :
    appendedTo p (history ++ [t]) = appendedTo p history ++ (appendedAt p t).toList := by
  rw [appendedTo, List.filterMap_append]
  congr 1

/-- Every file of the pairs holds what was appended for its pair. -/
def Kept (pairs : Set TranscriptPair) (history : List TranscriptStep) (s : TranscriptStore) : Prop :=
  ∀ p ∈ pairs, (s.fileOf p).Holds (appendedTo p history)

theorem faithful_of_kept (h : Kept pairs history s) {p : TranscriptPair} (hp : p ∈ pairs) :
    Faithful history s p where
  all := by
    refine ((h p hp).eventsAfter 0).trans (List.filter_eq_self.mpr fun e he => ?_)
    exact decide_eq_true ((h p hp).seq_pos he)
  increasing := by
    have hseqs : ((appendedTo p history).map TranscriptEvent.seq).Pairwise (· < ·) := by
      rw [(h p hp).numbered]
      exact List.pairwise_lt_range'
    exact List.pairwise_map.mp hseqs
  head := (h p hp).length.trans (h p hp).getLast_seq.symm
  since n := (h p hp).eventsAfter n

/-- Where a call of `append` leaves its own file. -/
theorem fileAt_append (agentId sessionKey : JsString) (ev : TranscriptInput) (clock : JsString)
    {outcome : AppendOutcome} (path : TranscriptPath) :
    (s.append agentId sessionKey ev clock outcome).2.fileAt path =
      if fileFor agentId sessionKey = path then
        (s.fileAt path).append (ev.full (s.lastSeq agentId sessionKey + 1) clock) outcome
      else s.fileAt path := by
  unfold TranscriptStore.append
  split
  · rename_i hnone
    rw [hnone]
    split <;> rfl
  · unfold TranscriptStore.fileAt
    dsimp only
    rw [JsMap.get?_set]
    split
    · rename_i hpath
      rw [hpath]
      rfl
    · rfl

theorem appendedAt_append (p : TranscriptPair) (agentId sessionKey : JsString)
    (ev : TranscriptInput) (clock : JsString) (outcome : AppendOutcome) :
    appendedAt p (stepOf transcriptNext (.append agentId sessionKey ev clock outcome) s) =
      if (agentId, sessionKey) = p ∧ outcome = .written then
        some (ev.full (s.lastSeq agentId sessionKey + 1) clock)
      else none := by
  by_cases hp : (agentId, sessionKey) = p
  · refine (if_pos hp).trans ?_
    cases outcome <;> simp [hp, transcriptNext, TranscriptStore.append]
  · rw [if_neg fun h => hp h.1]
    exact if_neg hp

/-- A step that meets the condition keeps every file. -/
theorem kept_step (op : TranscriptOp) (h : Kept pairs history s)
    (hcond : WritesInLine pairs (stepOf transcriptNext op s)) :
    Kept pairs (history ++ [stepOf transcriptNext op s]) (transcriptNext op s).2 := by
  intro p hp
  rw [appendedTo_concat]
  cases op with
  | restart => exact (List.append_nil (appendedTo p history)).symm ▸ h p hp
  | append agentId sessionKey ev clock outcome =>
    change ((s.append agentId sessionKey ev clock outcome).2.fileAt (fileFor p.1 p.2)).Holds _
    rw [fileAt_append, appendedAt_append]
    by_cases hpath : fileFor agentId sessionKey = fileFor p.1 p.2
    · rw [if_pos hpath]
      cases outcome with
      | written =>
        obtain ⟨rfl, hseq⟩ := hcond p hp hpath.symm
        rw [if_pos ⟨rfl, rfl⟩]
        refine (h _ hp).append ?_
        rw [← (h _ hp).length]
        exact congrArg (· + 1) hseq
      | torn allButNewline => exact absurd hpath.symm (hcond p hp)
      | noDirectory | kept =>
        rw [if_neg (by simp)]
        exact (List.append_nil (appendedTo p history)).symm ▸ h p hp
    · have hne : ¬ ((agentId, sessionKey) = p ∧ outcome = .written) := by
        rintro ⟨rfl, -⟩
        exact hpath rfl
      rw [if_neg hpath, if_neg hne]
      exact (List.append_nil (appendedTo p history)).symm ▸ h p hp

/-- A step after which the transcripts are right meets the condition. -/
theorem writesInLine_of_faithful (op : TranscriptOp) (h : Kept pairs history s)
    (hgood : ∀ p ∈ pairs,
      Faithful (history ++ [stepOf transcriptNext op s]) (transcriptNext op s).2 p) :
    WritesInLine pairs (stepOf transcriptNext op s) := by
  cases op with
  | restart => trivial
  | append agentId sessionKey ev clock outcome =>
    -- What a file of the pairs holds, if it is the one that is written.
    have hafter : ∀ p ∈ pairs, fileFor p.1 p.2 = fileFor agentId sessionKey →
        (transcriptNext (.append agentId sessionKey ev clock outcome) s).2.fileOf p =
          (s.fileOf p).append (ev.full (s.lastSeq agentId sessionKey + 1) clock) outcome := by
      intro p _ hpath
      exact (fileAt_append agentId sessionKey ev clock _).trans (if_pos hpath.symm)
    cases outcome with
    | noDirectory | kept => trivial
    | written =>
      intro p hp hpath
      set e := ev.full (s.lastSeq agentId sessionKey + 1) clock
      have hlines : ((transcriptNext (.append agentId sessionKey ev clock .written) s).2.fileOf
          p).nonBlank = (appendedTo p history ++ [e]).map some := by
        rw [hafter p hp hpath, TranscriptFile.nonBlank, TranscriptFile.append, TranscriptFile.glue,
          (h p hp).lines, (h p hp).tail, List.map_append]
        exact List.append_nil _
      have hall := (hgood p hp).all
      have hhead := (hgood p hp).head
      have hread : (transcriptNext (.append agentId sessionKey ev clock .written) s).2.read
          p.1 p.2 0 = appendedTo p history ++ [e] := by
        refine (TranscriptFile.eventsAfter_of_nonBlank hlines 0).trans ?_
        apply List.filter_eq_self.mpr
        intro d hd
        rcases List.mem_append.mp hd with hd | hd
        · exact decide_eq_true ((h p hp).seq_pos hd)
        · obtain rfl := List.mem_singleton.mp hd
          exact decide_eq_true (Nat.succ_pos _)
      rw [appendedTo_concat, appendedAt_append] at hall hhead
      have hself : (agentId, sessionKey) = p := by
        by_contra hne
        rw [if_neg fun hown => hne hown.1, hread] at hall
        have hlength := congrArg List.length hall
        simp at hlength
      rw [if_pos ⟨hself, rfl⟩, Option.toList_some, List.getLast?_concat, Option.map_some,
        Option.getD_some] at hhead
      have hcount : (appendedTo p history).length + 1 = s.lastSeq agentId sessionKey + 1 := by
        refine Eq.trans ?_ hhead
        refine Eq.trans ?_ (congrArg List.length hlines).symm
        rw [List.length_map, List.length_append, List.length_singleton]
      refine ⟨hself.symm, ?_⟩
      exact (Nat.succ.inj hcount).symm.trans (h p hp).length.symm
    | torn allButNewline =>
      intro p hp hpath
      -- The unfinished line counts, and nothing has been appended.
      have hhead := (hgood p hp).head
      have hnothing : appendedTo p (history ++ [stepOf transcriptNext
          (.append agentId sessionKey ev clock (.torn allButNewline)) s]) = appendedTo p history := by
        rw [appendedTo_concat, appendedAt_append, if_neg (by simp)]
        exact List.append_nil _
      have hlines : ((transcriptNext (.append agentId sessionKey ev clock
          (.torn allButNewline)) s).2.fileOf p).nonBlank.length = (appendedTo p history).length + 1 := by
        rw [hafter p hp hpath, TranscriptFile.nonBlank, TranscriptFile.append, (h p hp).lines,
          List.length_append, List.length_map]
        rfl
      rw [hnothing, (h p hp).getLast_seq] at hhead
      have hcount := hlines.symm.trans hhead
      omega

end Steps

/-- In every run, and for all pairs of any set, the transcripts hold what was appended at every
point if and only if every event is written in line. -/
theorem faithful_iff (pairs : Set TranscriptPair) (ops : List TranscriptOp) :
    (∀ pre, pre <+: ops → ∀ p ∈ pairs,
        Faithful (trace transcriptNext pre .fresh) (final transcriptNext pre .fresh) p) ↔
      ∀ t ∈ trace transcriptNext ops .fresh, WritesInLine pairs t := by
  refine history_good_iff (I := Kept pairs)
    (G := fun history s => ∀ p ∈ pairs, Faithful history s p)
    (fun _ _ h _ hp => faithful_of_kept h hp)
    (fun op _ _ h hgood => writesInLine_of_faithful op h hgood)
    (fun op _ _ h hcond => kept_step op h hcond) ops (h := []) fun _ _ => TranscriptFile.holds_empty

/-! A write that fails, and one that succeeds after it. -/

def saying (text : String) : TranscriptInput :=
  ⟨none, .user, none, some (utf16 text), none, none, none, none, none⟩

def userSays (text : String) (outcome : AppendOutcome) : TranscriptOp :=
  .append (utf16 "osmoda") (utf16 "web:main") (saying text) (utf16 "2026-03-01T00:00:00.000Z") outcome

/-- The second event on disk is the third in number. -/
theorem skipped_not_faithful : ¬ ∀ (ops pre : List TranscriptOp), pre <+: ops →
    ∀ p : TranscriptPair,
      Faithful (trace transcriptNext pre .fresh) (final transcriptNext pre .fresh) p := by
  intro h
  have hhead := (h _ [userSays "one" .written, userSays "two" .kept, userSays "three" .written]
    List.prefix_rfl (utf16 "osmoda", utf16 "web:main")).head
  exact absurd hhead (by decide +kernel)

end OsModa.Gateway
