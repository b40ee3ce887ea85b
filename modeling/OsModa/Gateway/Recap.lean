import OsModa.Gateway.Transcript

/-!
The recap that a message of the web gets where the runtime has no session to resume.

It is to be made of the earlier turns, and it is made of the transcript that the message itself
has just been appended to. So it always ends with the new message, unless the append fails or
its line cannot be read (`recapOfEarlier_iff`, `recap_ends_with_message`).
-/

namespace OsModa.Gateway

open OsModa.Js

/-! ### The recap -/

/-- The line of an event in a recap, if it has one. -/
def recapLine (e : TranscriptEvent) : Option JsString :=
  match e.role, e.kind with
  | .user, _ => (nonEmpty e.text).map (utf16 "User: " ++ ·)
  | .assistant, _ => (nonEmpty e.text).map (utf16 "You (osModa): " ++ ·)
  | .tool, some .use => (nonEmpty e.name).map fun name =>
    utf16 "[you ran tool " ++ name ++ (nonEmpty e.target).elim [] (utf16 " · " ++ ·) ++ utf16 "]"
  | .tool, _ => none

/-- UTF-16 units of a recap. -/
def maxChars : Nat := 6000

/-- The lines one below the other; of a long recap the tail. -/
def recapOf (lines : List JsString) : Option JsString :=
  if lines = [] then none
  else
    let recap := [10].intercalate lines
    if maxChars < recap.length then
      some (utf16 "…[earlier turns omitted for brevity]\n" ++ recap.drop (recap.length - maxChars))
    else some recap

namespace TranscriptStore

variable (s : TranscriptStore) (agentId sessionKey : JsString)

/-- The lines that a recap is made of. -/
def recapLines : List JsString := (s.read agentId sessionKey 0).filterMap recapLine

/-- Build a compact recap of prior turns, for re-seeding a fresh runtime session. -/
def buildRecap : Option JsString := recapOf (s.recapLines agentId sessionKey)

end TranscriptStore

/-- The user's message as the transcript has it. -/
def userMessage (text : JsString) : TranscriptInput :=
  ⟨none, .user, none, some text, none, none, none, none, some (utf16 "web")⟩

def recapHeader : JsString :=
  utf16 ("[Conversation recap — restored from osModa's durable transcript because the " ++
    "runtime session was not available (new session, or runtime switched). Continue the " ++
    "conversation naturally; do NOT re-introduce yourself or repeat earlier answers.]\n\n")

/-- The message that the turn of a chat frame sends to the runtime, before the digest of other
chats is put in front, and the transcript that it leaves. -/
def messageToSend (s : TranscriptStore) (agentId sessionKey text clock : JsString)
    (outcome : AppendOutcome) (claudeSessionId : Option JsString) : JsString × TranscriptStore :=
  let s := (s.append agentId sessionKey (userMessage text) clock outcome).2
  if (nonEmpty claudeSessionId).isSome then (text, s)
  else match s.buildRecap agentId sessionKey with
    | none => (text, s)
    | some recap =>
      (recapHeader ++ recap ++ utf16 "\n\n[End of recap. The user's new message follows.]\n\n" ++
        text, s)

/-! ### Which lines it is made of -/

/-- The recap is made of earlier lines, and is there if there are any. -/
def RecapOfEarlier (s : TranscriptStore) (agentId sessionKey text clock : JsString)
    (outcome : AppendOutcome) (claudeSessionId : Option JsString) : Prop :=
  let sent := messageToSend s agentId sessionKey text clock outcome claudeSessionId
  (sent.1 ≠ text ↔ s.recapLines agentId sessionKey ≠ []) ∧
    (sent.2.recapLines agentId sessionKey).Sublist (s.recapLines agentId sessionKey)

namespace TranscriptFile

variable {e : TranscriptEvent} {line : JsString}

/-- What a line of a file is in a recap. -/
def lineOf : Option TranscriptEvent → Option JsString
  | some e => if 0 < e.seq then recapLine e else none
  | none => none

/-- The lines of a recap that whole lines of the file are the source of. -/
def keptLines (f : TranscriptFile) : List JsString := f.lines.filterMap lineOf

/-- The line of a recap that the end of the file is the source of, after the last newline. -/
def tailLine (f : TranscriptFile) : Option JsString := f.tail.bind lineOf

theorem filterMap_recapLine (events : List (Option TranscriptEvent)) :
    ((events.filterMap id).filter fun e => 0 < e.seq).filterMap recapLine =
      events.filterMap lineOf := by
  induction events with
  | nil => rfl
  | cons e events ih =>
    cases e with
    | none => exact ih
    | some e =>
      change ((e :: events.filterMap id).filter fun e => 0 < e.seq).filterMap recapLine = _
      by_cases hseq : 0 < e.seq
      · rw [List.filter_cons_of_pos (by simpa using hseq), List.filterMap_cons, ih,
          List.filterMap_cons, lineOf, if_pos hseq]
      · rw [List.filter_cons_of_neg (by simpa using hseq), ih, List.filterMap_cons, lineOf,
          if_neg hseq]

theorem filterMap_eventsAfter (f : TranscriptFile) :
    (f.eventsAfter 0).filterMap recapLine = f.keptLines ++ f.tailLine.toList := by
  have htail : f.tail.toList.filterMap lineOf = f.tailLine.toList := by
    unfold tailLine
    cases f.tail with
    | none => rfl
    | some e => cases hline : lineOf e <;> simp [hline]
  rw [eventsAfter, filterMap_recapLine, nonBlank, List.filterMap_append, htail]
  rfl

/-- Something is written. -/
def Writes (outcome : AppendOutcome) : Prop :=
  outcome = .written ∨ ∃ allButNewline, outcome = .torn allButNewline

/-- What is written can be read as a line. -/
def Reads (f : TranscriptFile) (outcome : AppendOutcome) : Prop :=
  f.tail = none ∧ (outcome = .written ∨ outcome = .torn true)

/-- What a line adds to the recap is one line more at its end, or what it is glued to is lost. -/
theorem recap_append (f : TranscriptFile) (outcome : AppendOutcome) (hline : lineOf (some e) = some line) :
    (f.Reads outcome ∧ (f.append e outcome).keptLines ++ (f.append e outcome).tailLine.toList =
        f.keptLines ++ [line]) ∨
      (¬ f.Reads outcome ∧ Writes outcome ∧
        (f.append e outcome).keptLines ++ (f.append e outcome).tailLine.toList = f.keptLines) ∨
      ¬ f.Reads outcome ∧ ¬ Writes outcome ∧ f.append e outcome = f := by
  obtain ⟨lines, tail⟩ := f
  cases outcome with
  | noDirectory | kept => exact .inr (.inr (by simp [Reads, Writes, append]))
  | written =>
    cases tail with
    | none => exact .inl (by simp [Reads, append, glue, keptLines, tailLine, hline])
    | some t => exact .inr (.inl (by simp [Reads, Writes, append, glue, keptLines, tailLine, lineOf]))
  | torn allButNewline =>
    cases tail with
    | none =>
      cases allButNewline with
      | true => exact .inl (by simp [Reads, append, glue, keptLines, tailLine, hline])
      | false =>
        exact .inr (.inl (by simp [Reads, Writes, append, glue, keptLines, tailLine, lineOf]))
    | some t => exact .inr (.inl (by simp [Reads, Writes, append, glue, keptLines, tailLine, lineOf]))

end TranscriptFile

section Messages

variable {s : TranscriptStore} {agentId sessionKey text clock : JsString} {outcome : AppendOutcome}

theorem recapLines_eq : s.recapLines agentId sessionKey =
    (s.fileAt (fileFor agentId sessionKey)).keptLines ++
      (s.fileAt (fileFor agentId sessionKey)).tailLine.toList :=
  TranscriptFile.filterMap_eventsAfter _

theorem messageToSend_snd (claudeSessionId : Option JsString) :
    (messageToSend s agentId sessionKey text clock outcome claudeSessionId).2 =
      (s.append agentId sessionKey (userMessage text) clock outcome).2 := by
  unfold messageToSend
  dsimp only
  split
  · rfl
  · split <;> rfl

/-- There is a recap if there are lines for one. -/
theorem messageToSend_ne_iff {claudeSessionId : Option JsString}
    (hnative : nonEmpty claudeSessionId = none) :
    (messageToSend s agentId sessionKey text clock outcome claudeSessionId).1 ≠ text ↔
      (messageToSend s agentId sessionKey text clock outcome claudeSessionId).2.recapLines agentId
        sessionKey ≠ [] := by
  rw [messageToSend_snd]
  unfold messageToSend TranscriptStore.buildRecap recapOf
  dsimp only
  rw [hnative, if_neg (by simp)]
  by_cases hlines : (s.append agentId sessionKey (userMessage text) clock outcome).2.recapLines
      agentId sessionKey = []
  · simp [hlines]
  · have hlong : ∀ recap, recapHeader ++ recap ++
        utf16 "\n\n[End of recap. The user's new message follows.]\n\n" ++ text ≠ text := by
      intro recap htext
      have hlen := congrArg List.length htext
      simp only [List.length_append] at hlen
      have hpos : 0 < recapHeader.length := List.length_pos_of_ne_nil (utf16_ne_nil (by simp))
      omega
    simp only [hlines, if_false, ne_eq, not_false_eq_true, iff_true]
    split
    · rename_i hnone
      split at hnone <;> cases hnone
    · exact hlong _

/-- The line of the message itself. -/
theorem lineOf_userMessage (h : text ≠ []) (clock : JsString) (seq : Nat) :
    TranscriptFile.lineOf (some ((userMessage text).full (seq + 1) clock)) =
      some (utf16 "User: " ++ text) := by
  have htext : nonEmpty (nonEmpty (some text)) = some text := by simp [nonEmpty, Option.filter, h]
  have hseq : 0 < ((userMessage text).full (seq + 1) clock).seq := Nat.succ_pos seq
  rw [TranscriptFile.lineOf, if_pos hseq]
  change (nonEmpty (nonEmpty (some text))).map _ = _
  rw [htext, Option.map_some]

/-- The recap of a message that is written ends with the message. -/
theorem recap_ends_with_message (s : TranscriptStore) {agentId sessionKey text : JsString}
    (clock : JsString) {outcome : AppendOutcome} (htext : text ≠ [])
    (claudeSessionId : Option JsString)
    (hreads : (s.fileAt (fileFor agentId sessionKey)).Reads outcome) :
    (messageToSend s agentId sessionKey text clock outcome claudeSessionId).2.recapLines agentId
        sessionKey =
      s.recapLines agentId sessionKey ++ [utf16 "User: " ++ text] := by
  rw [messageToSend_snd, recapLines_eq, fileAt_append, if_pos rfl, recapLines_eq]
  obtain ⟨-, hlines⟩ | ⟨hnot, -⟩ | ⟨hnot, -⟩ := TranscriptFile.recap_append
    (s.fileAt (fileFor agentId sessionKey)) outcome
    (lineOf_userMessage htext clock (s.lastSeq agentId sessionKey))
  · rw [hlines, TranscriptFile.tailLine, hreads.1]
    simp
  · exact absurd hreads hnot
  · exact absurd hreads hnot

/-- The recap keeps to earlier turns just when the append leaves no line that can be read, and
does not spoil the only line of an earlier turn. -/
theorem recapOfEarlier_iff (s : TranscriptStore) {agentId sessionKey text clock : JsString}
    (outcome : AppendOutcome) {claudeSessionId : Option JsString} (htext : text ≠ [])
    (hnative : nonEmpty claudeSessionId = none) :
    RecapOfEarlier s agentId sessionKey text clock outcome claudeSessionId ↔
      ¬ (s.fileAt (fileFor agentId sessionKey)).Reads outcome ∧
        ¬ (TranscriptFile.Writes outcome ∧
          (s.fileAt (fileFor agentId sessionKey)).keptLines = [] ∧
          (s.fileAt (fileFor agentId sessionKey)).tailLine ≠ none) := by
  have hafter : (messageToSend s agentId sessionKey text clock outcome claudeSessionId).2.recapLines
      agentId sessionKey = _ := recapLines_eq
  rw [messageToSend_snd, fileAt_append, if_pos rfl] at hafter
  unfold RecapOfEarlier
  dsimp only
  rw [messageToSend_ne_iff hnative, messageToSend_snd, hafter, recapLines_eq]
  generalize s.fileAt (fileFor agentId sessionKey) = f
  rcases TranscriptFile.recap_append f outcome
      (lineOf_userMessage htext clock (s.lastSeq agentId sessionKey)) with
    ⟨hreads, hlines⟩ | ⟨hreads, hwrites, hlines⟩ | ⟨hreads, hwrites, hfile⟩
  · rw [hlines]
    refine iff_of_false (fun hearlier => ?_) fun hnot => hnot.1 hreads
    have hlength := hearlier.2.length_le
    rw [TranscriptFile.tailLine, hreads.1] at hlength
    simp only [Option.bind_none, Option.toList_none, List.append_nil, List.length_append,
      List.length_singleton] at hlength
    omega
  · rw [hlines]
    have hsub : f.keptLines.Sublist (f.keptLines ++ f.tailLine.toList) :=
      List.sublist_append_left _ _
    simp only [hreads, hwrites, hsub, not_false_eq_true, true_and, and_true]
    cases f.keptLines <;> cases f.tailLine <;> simp
  · rw [hfile]
    simp [hreads, hwrites]

/-- The message itself in a recap of its own, where there is nothing earlier. -/
theorem firstMessage_recapped :
    ¬ RecapOfEarlier .fresh (utf16 "osmoda") (utf16 "ws-default") (utf16 "Hi")
      (utf16 "2026-03-01T09:00:00.000Z") .written none := by
  intro hearlier
  have hreads : ((TranscriptStore.fresh).fileAt
      (fileFor (utf16 "osmoda") (utf16 "ws-default"))).Reads .written := ⟨rfl, .inl rfl⟩
  have htext : utf16 "Hi" ≠ [] := utf16_ne_nil (by simp)
  have hlines := recap_ends_with_message .fresh (utf16 "2026-03-01T09:00:00.000Z") htext none hreads
  have hsub := hearlier.2
  rw [hlines] at hsub
  have hlength := hsub.length_le
  rw [List.length_append, List.length_singleton] at hlength
  omega

/-- No message in the recap, where none could be written. -/
theorem unwrittenMessage_not_recapped :
    RecapOfEarlier .fresh (utf16 "osmoda") (utf16 "ws-default") (utf16 "Hi")
      (utf16 "2026-03-01T09:00:00.000Z") .kept none := by
  refine (recapOfEarlier_iff .fresh .kept (utf16_ne_nil (by simp)) rfl).mpr ⟨?_, ?_⟩
  · rintro ⟨-, hwritten | htorn⟩
    · cases hwritten
    · cases htorn
  · rintro ⟨hwritten | ⟨_, htorn⟩, -⟩
    · cases hwritten
    · cases htorn

end Messages

end OsModa.Gateway
