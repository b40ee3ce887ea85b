import OsModa.Base.Growing
import OsModa.Gateway.ClaudeCode

/-!
What the claude-code driver streams of the messages of the CLI.

A message comes as a sequence of snapshots of its content. Its texts are counted by one number, so
of a second text in one message only what is beyond the first is shown; its tool calls are not
counted at all, so each snapshot shows them again. A commit counts what was shown before it
(`streamedOnce_iff`).
-/

namespace OsModa.Gateway

open OsModa.Growing OsModa.Js

/-- The text of a delta of planning text. -/
def AgentEvent.interim? : AgentEvent → Option JsString
  | .interimText delta => some delta
  | _ => none

/-- The name and the target of a tool call. -/
def AgentEvent.toolUse? : AgentEvent → Option (JsString × Option JsString)
  | .toolUse name target _ => some (name, target)
  | _ => none

namespace ClaudeCode

/-! ### Snapshots of messages -/

/-- The id that the texts of a message are counted under. -/
def messageKey (id : Option JsString) : JsString := (id.filter (· ≠ [])).getD (utf16 "msg-default")

/-- The content, if the line is a snapshot of this message. -/
def CliEvent.content? (msgId : JsString) (e : CliEvent) : Option (List CliBlock) :=
  match e.message with
  | .assistant id content => if messageKey id = msgId then some content else none
  | _ => none

def snapshotsOf (msgId : JsString) (es : List CliEvent) : List (List CliBlock) :=
  es.filterMap (·.content? msgId)

/-- The content that the last snapshot has. -/
def finalContent (msgId : JsString) (es : List CliEvent) : List CliBlock :=
  (snapshotsOf msgId es).getLast?.getD []

def CliBlock.text? : CliBlock → Option JsString
  | .text full => some full
  | _ => none

def CliBlock.tool? : CliBlock → Option (JsString × Option JsString)
  | .toolUse name target => some (name, target)
  | _ => none

def textsOf (content : List CliBlock) : List JsString := content.filterMap CliBlock.text?

def toolsOf (content : List CliBlock) : List (JsString × Option JsString) :=
  content.filterMap CliBlock.tool?

/-- A later form of a block: a text has grown. -/
def BlockExtends : CliBlock → CliBlock → Prop
  | .text text, .text text' => text <+: text'
  | .toolUse name _, .toolUse name' _ => name = name'
  | .toolResult, .toolResult => True
  | .other, .other => True
  | _, _ => False

/-- A later form of a content: its blocks have grown, and there are more of them. -/
inductive ContentExtends : List CliBlock → List CliBlock → Prop where
  | nil (content : List CliBlock) : ContentExtends [] content
  | cons {b b' : CliBlock} {bs bs' : List CliBlock} :
    BlockExtends b b' → ContentExtends bs bs' → ContentExtends (b :: bs) (b' :: bs')

/-- Each message comes as successive snapshots, each extending those before. -/
def Successive (es : List CliEvent) : Prop :=
  ∀ msgId, (snapshotsOf msgId es).Pairwise ContentExtends

/-! ### What is streamed -/

/-- What goes before the next text of a message that is shown. -/
def separator (msgId : JsString) (r : Reader) : JsString :=
  if (JsMap.get? r.textLenByMsg msgId).getD 0 = 0 ∧ r.emittedAnyText ∧ some msgId ≠ r.lastTextMsgId then
    [10, 10] else []

/-- What is shown of a block as text, without the separator. -/
def shownText (msgId : JsString) (r : Reader) (b : CliBlock) : JsString :=
  ((readBlock msgId r b).1.filterMap AgentEvent.interim?).flatten.drop (separator msgId r).length

def shownTexts (msgId : JsString) (r : Reader) : List CliBlock → JsString
  | [] => []
  | b :: bs => shownText msgId r b ++ shownTexts msgId (readBlock msgId r b).2 bs

/-- The driver when it has seen the session of a line. -/
def afterSession (r : Reader) (e : CliEvent) : Reader :=
  match e.sessionId.filter (fun s => s ≠ [] ∧ r.sessionYielded = false) with
  | none => r
  | some sessionId => { r with sessionId := some sessionId, sessionYielded := true }

/-- The planning text that the lines of a message show, without separators. -/
def messageText (msgId : JsString) (r : Reader) : List CliEvent → JsString
  | [] => []
  | e :: es => (e.content? msgId).elim [] (shownTexts msgId (afterSession r e)) ++
    messageText msgId (readEvent r e).2 es

/-- The tool calls that the lines of a message show. -/
def messageTools (msgId : JsString) (r : Reader) : List CliEvent → List (JsString × Option JsString)
  | [] => []
  | e :: es => (e.content? msgId).elim [] (fun content =>
      (readBlocks msgId (afterSession r e) content).1.filterMap AgentEvent.toolUse?) ++
    messageTools msgId (readEvent r e).2 es

/-- UTF-16 units of planning text. -/
def interimLength (events : List AgentEvent) : Nat :=
  (events.filterMap AgentEvent.interim?).flatten.length

/-- Texts and tool calls are streamed once. -/
structure StreamedOnce (run : CliRun) : Prop where
  text : ∀ msgId, messageText msgId .start run.events =
    (textsOf (finalContent msgId run.events)).flatten
  tools : ∀ msgId, messageTools msgId .start run.events = toolsOf (finalContent msgId run.events)
  commit : ∀ length, .interimCommitFinal length ∈ (startSession run).events →
    length = interimLength (startSession run).events

/-! ### What the lines say -/

/-- A text of a message. -/
abbrev Said := JsString × JsString

/-- The texts of the messages, line by line. -/
def said (es : List CliEvent) : List Said :=
  es.flatMap fun e =>
    match e.message with
    | .assistant id content => (textsOf content).map (messageKey id, ·)
    | _ => []

/-- Length of the longest text of a message. -/
def longestOf (msgId : JsString) (past : List Said) : Nat :=
  longest ((past.filter (·.1 = msgId)).map (·.2))

/-- The texts that are longer than all earlier ones of their message. -/
def newTexts (past : List Said) : List Said → List Said
  | [] => []
  | x :: xs => (if longestOf x.1 past < x.2.length then [x] else []) ++ newTexts (past ++ [x]) xs

/-- The line is a result that the driver answers with: with the text of the result, or else with
the last new text before it. -/
def CliEvent.Answers (past : List Said) (e : CliEvent) : Prop :=
  match e.message with
  | .result false _ result _ _ =>
    trim ((result.filter (trim · ≠ [])).getD
      (((newTexts [] past).getLast?.map (·.2)).getD [])) ≠ []
  | _ => False

/-- No message has a second text or a tool call without a name, tool calls are in the last snapshot
alone, and no new text follows the answer. -/
structure Plain (es : List CliEvent) : Prop where
  oneText : ∀ msgId, AtMostOne (textsOf (finalContent msgId es))
  named : ∀ msgId, ∀ tool ∈ toolsOf (finalContent msgId es), tool.1 ≠ []
  lastOnly : ∀ msgId, ∀ content ∈ (snapshotsOf msgId es).dropLast, toolsOf content = []
  answered : ∀ before e after, es = before ++ e :: after → e.Answers (said before) →
    newTexts [] (said before) ≠ [] → newTexts (said before) (said after) = []

/-! ### Blocks and lines -/

section Reading

variable {r : Reader} {e : CliEvent} {es : List CliEvent} {b : CliBlock} {bs : List CliBlock}
  {msgId key : JsString}

/-- How much of a message was shown. -/
def Reader.counter (r : Reader) (msgId : JsString) : Nat := (JsMap.get? r.textLenByMsg msgId).getD 0

theorem readBlock_text_of_lt {full : JsString} (h : r.counter msgId < full.length) :
    readBlock msgId r (.text full) =
      ([.interimText (separator msgId r ++ full.drop (r.counter msgId))], { r with
        emittedInterim := r.emittedInterim +
          (separator msgId r ++ full.drop (r.counter msgId)).length
        textLenByMsg := JsMap.set r.textLenByMsg msgId full.length
        lastTextMsgId := some msgId
        lastMsgFullText := full
        emittedAnyText := true
        hasOutput := true }) := by
  have hdelta : separator msgId r ++ full.drop (r.counter msgId) =
      if r.counter msgId = 0 ∧ r.emittedAnyText ∧ some msgId ≠ r.lastTextMsgId then
        [10, 10] ++ full.drop (r.counter msgId) else full.drop (r.counter msgId) := by
    unfold separator
    split
    · rw [if_pos ‹_›]
    · rw [if_neg ‹_›, List.nil_append]
  rw [hdelta]
  exact if_pos h

theorem readBlock_text_of_ge {full : JsString} (h : ¬ r.counter msgId < full.length) :
    readBlock msgId r (.text full) = ([], r) := if_neg h

/-- A block is shown from where the texts of the message have been shown. -/
theorem shownText_eq : shownText msgId r b = deltas (r.counter msgId) b.text?.toList := by
  unfold shownText
  have hnone : ([] : JsString).drop (separator msgId r).length = [] := List.drop_nil
  cases b with
  | text full =>
    by_cases hmore : r.counter msgId < full.length
    · rw [readBlock_text_of_lt hmore]
      change (separator msgId r ++ full.drop (r.counter msgId) ++ []).drop _ = _
      rw [List.append_nil, List.drop_left]
      exact ((if_pos hmore).trans (List.append_nil _)).symm
    · rw [readBlock_text_of_ge hmore]
      exact hnone.trans (if_neg hmore).symm
  | toolUse name target =>
    simp only [readBlock]
    split <;> exact hnone
  | toolResult | other => exact hnone

theorem counter_readBlock : (readBlock msgId r b).2.counter key =
    if key = msgId then max (r.counter key) (longest b.text?.toList) else r.counter key := by
  have hsame : r.counter key =
      if key = msgId then max (r.counter key) 0 else r.counter key := by
    rw [Nat.max_zero, ite_self]
  cases b with
  | text full =>
    by_cases hmore : r.counter msgId < full.length
    · rw [readBlock_text_of_lt hmore]
      change (JsMap.get? (JsMap.set r.textLenByMsg msgId full.length) key).getD 0 = _
      rw [JsMap.get?_set]
      by_cases hkey : key = msgId
      · subst hkey
        rw [if_pos rfl, if_pos rfl]
        change full.length = max (r.counter key) (max full.length 0)
        omega
      · rw [if_neg (Ne.symm hkey), if_neg hkey]
        rfl
    · rw [readBlock_text_of_ge hmore]
      by_cases hkey : key = msgId
      · subst hkey
        rw [if_pos rfl]
        change r.counter key = max (r.counter key) (max full.length 0)
        omega
      · rw [if_neg hkey]
  | toolUse name target =>
    simp only [readBlock]
    split <;> exact hsame
  | toolResult | other => exact hsame

theorem textsOf_cons : textsOf (b :: bs) = b.text?.toList ++ textsOf bs := by
  unfold textsOf
  rw [List.filterMap_cons]
  cases b.text? <;> rfl

theorem shownTexts_eq : shownTexts msgId r bs = deltas (r.counter msgId) (textsOf bs) := by
  induction bs generalizing r with
  | nil => rfl
  | cons b bs ih =>
    rw [shownTexts, shownText_eq, ih, textsOf_cons, deltas_append, counter_readBlock, if_pos rfl]

theorem counter_readBlocks : (readBlocks msgId r bs).2.counter key =
    if key = msgId then max (r.counter key) (longest (textsOf bs)) else r.counter key := by
  induction bs generalizing r with
  | nil => exact (by rw [textsOf, List.filterMap_nil, longest, Nat.max_zero, ite_self]; rfl)
  | cons b bs ih =>
    rw [readBlocks, ih, counter_readBlock, textsOf_cons, longest_append]
    split <;> omega

/-- The first session id is yielded. -/
def sessionEvents (r : Reader) (e : CliEvent) : List AgentEvent :=
  ((e.sessionId.filter (fun s => s ≠ [] ∧ r.sessionYielded = false)).map .session).toList

theorem readEvent_eq (r : Reader) (e : CliEvent) :
    readEvent r e = (sessionEvents r e ++ (readMessage (afterSession r e) e.sessionId e.message).1,
      (readMessage (afterSession r e) e.sessionId e.message).2) := by
  unfold readEvent afterSession sessionEvents
  generalize e.sessionId.filter (fun s => s ≠ [] ∧ r.sessionYielded = false) = first
  cases first <;> rfl

theorem afterSession_texts (r : Reader) (e : CliEvent) :
    (afterSession r e).textLenByMsg = r.textLenByMsg ∧
      (afterSession r e).emittedInterim = r.emittedInterim ∧
      (afterSession r e).lastMsgFullText = r.lastMsgFullText := by
  unfold afterSession
  split <;> exact ⟨rfl, rfl, rfl⟩

theorem counter_afterSession : (afterSession r e).counter key = r.counter key := by
  rw [Reader.counter, (afterSession_texts r e).1]
  rfl

/-- The texts of a message on a line. -/
def CliEvent.texts (e : CliEvent) (msgId : JsString) : List JsString :=
  (e.content? msgId).elim [] textsOf

theorem resultAnswer_texts (r : Reader) (result : Option JsString) :
    (resultAnswer r result).2.textLenByMsg = r.textLenByMsg ∧
      (resultAnswer r result).2.emittedInterim = r.emittedInterim ∧
      (resultAnswer r result).2.lastMsgFullText = r.lastMsgFullText := by
  unfold resultAnswer
  dsimp only
  split <;> exact ⟨rfl, rfl, rfl⟩

theorem counter_readEvent :
    (readEvent r e).2.counter key = max (r.counter key) (longest (e.texts key)) := by
  rw [readEvent_eq]
  have hquiet : (afterSession r e).counter key = max (r.counter key) 0 := by
    rw [counter_afterSession, Nat.max_zero]
  unfold CliEvent.texts CliEvent.content?
  cases e.message with
  | assistant id content =>
    change (readBlocks (messageKey id) (afterSession r e) content).2.counter key = _
    rw [counter_readBlocks, counter_afterSession]
    by_cases hkey : key = messageKey id
    · subst hkey
      simp only [if_true, Option.elim_some]
    · simp only [hkey, Ne.symm hkey, if_false, Option.elim_none, longest, Nat.max_zero]
  | result isError apiErrorStatus result usage totalCostUsd =>
    cases isError with
    | true => exact hquiet
    | false =>
      have htexts := (resultAnswer_texts (afterSession r e) result).1
      change (JsMap.get? (resultAnswer (afterSession r e) result).2.textLenByMsg key).getD 0 = _
      rw [htexts]
      exact hquiet
  | systemInit | user _ | other => exact hquiet

theorem snapshotsOf_cons :
    snapshotsOf msgId (e :: es) = (e.content? msgId).toList ++ snapshotsOf msgId es := by
  rw [snapshotsOf, List.filterMap_cons]
  cases e.content? msgId <;> rfl

/-- The lines of a message show what grows of its texts. -/
theorem messageText_eq : messageText msgId r es =
    deltas (r.counter msgId) ((snapshotsOf msgId es).flatMap textsOf) := by
  induction es generalizing r with
  | nil => rfl
  | cons e es ih =>
    have hline : (e.content? msgId).elim [] (shownTexts msgId (afterSession r e)) =
        deltas (r.counter msgId) (e.texts msgId) := by
      unfold CliEvent.texts
      cases e.content? msgId with
      | none => rfl
      | some content =>
        rw [Option.elim_some, Option.elim_some, shownTexts_eq, counter_afterSession]
    have htexts : (e.content? msgId).toList.flatMap textsOf = e.texts msgId := by
      unfold CliEvent.texts
      cases e.content? msgId with
      | none => rfl
      | some content => exact List.append_nil _
    rw [messageText, hline, ih, counter_readEvent, snapshotsOf_cons, List.flatMap_append, htexts,
      deltas_append]

/-- The tool calls that have a name. -/
def namedTools (content : List CliBlock) : List (JsString × Option JsString) :=
  (toolsOf content).filter (·.1 ≠ [])

theorem readBlocks_toolUse :
    (readBlocks msgId r bs).1.filterMap AgentEvent.toolUse? = namedTools bs := by
  induction bs generalizing r with
  | nil => rfl
  | cons b bs ih =>
    rw [readBlocks, List.filterMap_append, ih]
    cases b with
    | text full =>
      simp only [readBlock]
      split <;> rfl
    | toolUse name target =>
      change _ = ((name, target) :: toolsOf bs).filter _
      by_cases hname : name = []
      · rw [List.filter_cons_of_neg (by simpa using hname), readBlock, if_pos hname]
        rfl
      · rw [List.filter_cons_of_pos (by simpa using hname), readBlock, if_neg hname]
        rfl
    | toolResult | other => rfl

/-- Each snapshot of a message shows all its tool calls that have a name. -/
theorem messageTools_eq : messageTools msgId r es = (snapshotsOf msgId es).flatMap namedTools := by
  induction es generalizing r with
  | nil => rfl
  | cons e es ih =>
    rw [messageTools, ih, snapshotsOf_cons, List.flatMap_append]
    refine congrArg (· ++ _) ?_
    cases e.content? msgId with
    | none => rfl
    | some content =>
      rw [Option.elim_some, readBlocks_toolUse]
      exact (List.append_nil _).symm

end Reading

/-! ### Messages -/

section Messages

variable {bs bs' : List CliBlock} {es : List CliEvent} {msgId : JsString}

theorem ContentExtends.exists_of_mem (h : ContentExtends bs bs') {b : CliBlock} (hb : b ∈ bs) :
    ∃ b' ∈ bs', BlockExtends b b' := by
  induction h with
  | nil => cases hb
  | @cons c c' cs cs' hc hcs ih =>
    rcases List.mem_cons.mp hb with rfl | hmem
    · exact ⟨c', List.mem_cons_self, hc⟩
    · obtain ⟨b', hb', hext⟩ := ih hmem
      exact ⟨b', List.mem_cons_of_mem _ hb', hext⟩

theorem ContentExtends.text (h : ContentExtends bs bs') {full : JsString}
    (hfull : full ∈ textsOf bs) : ∃ full' ∈ textsOf bs', full <+: full' := by
  obtain ⟨b, hb, hb'⟩ := List.mem_filterMap.mp hfull
  cases b with
  | text full =>
    obtain rfl := Option.some.inj hb'
    obtain ⟨c, hc, hext⟩ := h.exists_of_mem hb
    cases c with
    | text full' => exact ⟨full', List.mem_filterMap.mpr ⟨_, hc, rfl⟩, hext⟩
    | toolUse _ _ | toolResult | other => cases hext
  | toolUse _ _ | toolResult | other => cases hb'

theorem ContentExtends.tool (h : ContentExtends bs bs') {tool : JsString × Option JsString}
    (htool : tool ∈ toolsOf bs) : ∃ tool' ∈ toolsOf bs', tool.1 = tool'.1 := by
  obtain ⟨b, hb, hb'⟩ := List.mem_filterMap.mp htool
  cases b with
  | toolUse name target =>
    obtain rfl := Option.some.inj hb'
    obtain ⟨c, hc, hext⟩ := h.exists_of_mem hb
    cases c with
    | toolUse name' target' => exact ⟨_, List.mem_filterMap.mpr ⟨_, hc, rfl⟩, hext⟩
    | text _ | toolResult | other => cases hext
  | text _ | toolResult | other => cases hb'

/-- A message that was never seen, or the earlier snapshots and the last. -/
theorem snapshots_cases (msgId : JsString) (es : List CliEvent) :
    snapshotsOf msgId es = [] ∧ finalContent msgId es = [] ∨
      snapshotsOf msgId es = (snapshotsOf msgId es).dropLast ++ [finalContent msgId es] := by
  by_cases hnone : snapshotsOf msgId es = []
  · exact .inl ⟨hnone, by rw [finalContent, hnone]; rfl⟩
  · refine .inr ?_
    rw [finalContent, List.getLast?_eq_some_getLast hnone, Option.getD_some]
    exact (List.dropLast_append_getLast hnone).symm

theorem extends_final (h : (snapshotsOf msgId es).Pairwise ContentExtends) {content : List CliBlock}
    (hcontent : content ∈ (snapshotsOf msgId es).dropLast) :
    ContentExtends content (finalContent msgId es) := by
  rcases snapshots_cases msgId es with ⟨hnone, -⟩ | hsplit
  · rw [hnone] at hcontent
    cases hcontent
  · rw [hsplit] at h
    exact (List.pairwise_append.mp h).2.2 content hcontent _ List.mem_cons_self

theorem flatMap_snapshotsOf {β : Type} (f : List CliBlock → List β)
    (hsplit : snapshotsOf msgId es = (snapshotsOf msgId es).dropLast ++ [finalContent msgId es]) :
    (snapshotsOf msgId es).flatMap f =
      (snapshotsOf msgId es).dropLast.flatMap f ++ f (finalContent msgId es) := by
  conv_lhs => rw [hsplit]
  rw [List.flatMap_append]
  exact congrArg _ (List.append_nil _)

/-- The texts of a message are shown once if there is only one of them. -/
theorem messageText_iff (h : (snapshotsOf msgId es).Pairwise ContentExtends) :
    messageText msgId .start es = (textsOf (finalContent msgId es)).flatten ↔
      AtMostOne (textsOf (finalContent msgId es)) := by
  have hstart : Reader.start.counter msgId = 0 := rfl
  rw [messageText_eq, hstart]
  rcases snapshots_cases msgId es with ⟨hnone, hfinal⟩ | hsplit
  · rw [hnone, hfinal]
    exact iff_of_true rfl (Nat.zero_le 1)
  · have hall := flatMap_snapshotsOf textsOf hsplit
    refine deltas_eq_flatten_iff (fun full hfull => ?_) ?_
    · rw [hall, List.mem_append] at hfull
      rcases hfull with hearlier | hlast
      · obtain ⟨content, hcontent, hfull⟩ := List.mem_flatMap.mp hearlier
        exact (extends_final h hcontent).text hfull
      · exact ⟨full, hlast, List.prefix_rfl⟩
    · rw [hall, longest_append]
      exact Nat.le_max_right _ _

/-- The tool calls of a message are shown once if only the last snapshot has them, and all have a
name. -/
theorem messageTools_iff (h : (snapshotsOf msgId es).Pairwise ContentExtends) :
    messageTools msgId .start es = toolsOf (finalContent msgId es) ↔
      (∀ tool ∈ toolsOf (finalContent msgId es), tool.1 ≠ []) ∧
        ∀ content ∈ (snapshotsOf msgId es).dropLast, toolsOf content = [] := by
  rw [messageTools_eq]
  rcases snapshots_cases msgId es with ⟨hnone, hfinal⟩ | hsplit
  · rw [hnone, hfinal]
    exact iff_of_true rfl ⟨nofun, nofun⟩
  · rw [flatMap_snapshotsOf namedTools hsplit]
    have hnamed : (∀ tool ∈ toolsOf (finalContent msgId es), tool.1 ≠ []) →
        namedTools (finalContent msgId es) = toolsOf (finalContent msgId es) := fun hnames =>
      List.filter_eq_self.mpr fun tool htool => decide_eq_true (hnames tool htool)
    constructor
    · intro honce
      have hnames : ∀ tool ∈ toolsOf (finalContent msgId es), tool.1 ≠ [] := by
        intro tool htool
        rw [← honce, List.mem_append] at htool
        rcases htool with hearlier | hlast
        · obtain ⟨content, -, hmem⟩ := List.mem_flatMap.mp hearlier
          exact of_decide_eq_true (List.mem_filter.mp hmem).2
        · exact of_decide_eq_true (List.mem_filter.mp hlast).2
      rw [hnamed hnames, List.append_left_eq_self, List.flatMap_eq_nil_iff] at honce
      refine ⟨hnames, fun content hcontent => ?_⟩
      rw [← honce content hcontent]
      refine (List.filter_eq_self.mpr fun tool htool => decide_eq_true ?_).symm
      obtain ⟨tool', htool', hname⟩ := (extends_final h hcontent).tool htool
      exact hname ▸ hnames tool' htool'
    · rintro ⟨hnames, hearlier⟩
      rw [hnamed hnames, List.append_left_eq_self, List.flatMap_eq_nil_iff]
      intro content hcontent
      rw [namedTools, hearlier content hcontent]
      rfl

end Messages

/-! ### Commits -/

section Commits

variable {r : Reader} {e : CliEvent} {es es' : List CliEvent} {b : CliBlock} {bs : List CliBlock}
  {past xs xs' : List Said} {msgId : JsString}

theorem longestOf_concat (x : Said) : longestOf msgId (past ++ [x]) =
    max (longestOf msgId past) (if x.1 = msgId then x.2.length else 0) := by
  unfold longestOf
  rw [List.filter_append, List.map_append, longest_append]
  by_cases hx : x.1 = msgId
  · rw [if_pos hx, List.filter_cons_of_pos (by simpa using hx)]
    exact congrArg _ (Nat.max_zero _)
  · rw [if_neg hx, List.filter_cons_of_neg (by simpa using hx)]
    rfl

theorem newTexts_singleton (x : Said) :
    newTexts past [x] = if longestOf x.1 past < x.2.length then [x] else [] :=
  List.append_nil _

theorem newTexts_append :
    newTexts past (xs ++ xs') = newTexts past xs ++ newTexts (past ++ xs) xs' := by
  induction xs generalizing past with
  | nil => rw [List.nil_append, newTexts, List.nil_append, List.append_nil]
  | cons x xs ih =>
    rw [List.cons_append, newTexts, ih, newTexts, List.append_assoc]
    simp only [List.append_assoc, List.singleton_append]

theorem interimLength_append (events events' : List AgentEvent) :
    interimLength (events ++ events') = interimLength events + interimLength events' := by
  unfold interimLength
  rw [List.filterMap_append, List.flatten_append, List.length_append]

theorem interimLength_of_none {events : List AgentEvent}
    (h : events.filterMap AgentEvent.interim? = []) : interimLength events = 0 := by
  unfold interimLength
  rw [h]
  rfl

/-- What the driver has counted is what was said. -/
structure Tracks (past : List Said) (r : Reader) : Prop where
  counted : ∀ msgId, r.counter msgId = longestOf msgId past
  last : r.lastMsgFullText = ((newTexts [] past).getLast?.map (·.2)).getD []
  shown : 0 < r.emittedInterim ↔ newTexts [] past ≠ []

/-- What reading some blocks or lines after what was said shows of them, and leaves. -/
structure Shows (past xs : List Said) (r : Reader) (events : List AgentEvent) (r' : Reader) :
    Prop where
  tracks : Tracks (past ++ xs) r'
  emitted : r'.emittedInterim = r.emittedInterim + interimLength events
  new : interimLength events = 0 ↔ newTexts past xs = []

theorem Shows.append {r₁ r₂ : Reader} {first second : List AgentEvent}
    (h₁ : Shows past xs r first r₁) (h₂ : Shows (past ++ xs) xs' r₁ second r₂) :
    Shows past (xs ++ xs') r (first ++ second) r₂ where
  tracks := by
    rw [← List.append_assoc]
    exact h₂.tracks
  emitted := by rw [h₂.emitted, h₁.emitted, interimLength_append, Nat.add_assoc]
  new := by
    rw [interimLength_append, Nat.add_eq_zero_iff, h₁.new, h₂.new, newTexts_append,
      List.append_eq_nil_iff]

/-- Events without planning text, with the texts left alone. -/
theorem shows_of_quiet {r' : Reader} {events : List AgentEvent} (h : Tracks past r)
    (htexts : r'.textLenByMsg = r.textLenByMsg) (hemitted : r'.emittedInterim = r.emittedInterim)
    (hlast : r'.lastMsgFullText = r.lastMsgFullText)
    (hquiet : events.filterMap AgentEvent.interim? = []) : Shows past [] r events r' where
  tracks := by
    rw [List.append_nil]
    refine ⟨fun msgId => ?_, hlast.trans h.last, hemitted ▸ h.shown⟩
    rw [Reader.counter, htexts]
    exact h.counted msgId
  emitted := by rw [hemitted, interimLength_of_none hquiet, Nat.add_zero]
  new := iff_of_true (interimLength_of_none hquiet) rfl

theorem longestOf_readText (h : Tracks past r) (msgId full key : JsString) :
    (readBlock msgId r (.text full)).2.counter key = longestOf key (past ++ [(msgId, full)]) := by
  rw [counter_readBlock, longestOf_concat, h.counted]
  by_cases hkey : key = msgId
  · rw [if_pos hkey, if_pos hkey.symm]
    exact congrArg _ (Nat.max_zero _)
  · rw [if_neg hkey, if_neg (Ne.symm hkey), Nat.max_zero]

/-- The rest of a text that is longer than what was counted is shown. -/
theorem shows_text_of_lt (h : Tracks past r) {full : JsString}
    (hmore : r.counter msgId < full.length) : Shows past [(msgId, full)] r
      (readBlock msgId r (.text full)).1 (readBlock msgId r (.text full)).2 := by
  have hcounted := longestOf_readText h msgId full
  have hsingle : newTexts past [(msgId, full)] = [(msgId, full)] := by
    rw [newTexts_singleton, if_pos (h.counted msgId ▸ hmore)]
  have hnew : newTexts [] (past ++ [(msgId, full)]) = newTexts [] past ++ [(msgId, full)] := by
    rw [newTexts_append, List.nil_append, hsingle]
  rw [readBlock_text_of_lt hmore] at hcounted ⊢
  have hlength : interimLength [.interimText (separator msgId r ++ full.drop (r.counter msgId))] =
      (separator msgId r ++ full.drop (r.counter msgId)).length := by
    unfold interimLength
    exact congrArg List.length (List.append_nil _)
  have hpos : 0 < (separator msgId r ++ full.drop (r.counter msgId)).length := by
    rw [List.length_append, List.length_drop]
    omega
  refine ⟨⟨hcounted, ?_, ?_⟩, ?_, ?_⟩
  · rw [hnew, List.getLast?_concat]
    rfl
  · rw [hnew]
    exact iff_of_true (Nat.lt_of_lt_of_le hpos (Nat.le_add_left _ _)) (by simp)
  · rw [hlength]
  · rw [hlength, hsingle]
    exact iff_of_false (Nat.pos_iff_ne_zero.mp hpos) (by simp)

/-- Nothing is shown of a text that is no longer. -/
theorem shows_text_of_ge (h : Tracks past r) {full : JsString}
    (hmore : ¬ r.counter msgId < full.length) : Shows past [(msgId, full)] r
      (readBlock msgId r (.text full)).1 (readBlock msgId r (.text full)).2 := by
  have hcounted := longestOf_readText h msgId full
  have hsingle : newTexts past [(msgId, full)] = [] := by
    rw [newTexts_singleton, if_neg (h.counted msgId ▸ hmore)]
  have hnew : newTexts [] (past ++ [(msgId, full)]) = newTexts [] past := by
    rw [newTexts_append, List.nil_append, hsingle, List.append_nil]
  rw [readBlock_text_of_ge hmore] at hcounted ⊢
  exact ⟨⟨hcounted, hnew ▸ h.last, hnew ▸ h.shown⟩, rfl, iff_of_true rfl hsingle⟩

theorem shows_block (h : Tracks past r) (msgId : JsString) (b : CliBlock) :
    Shows past (b.text?.toList.map (msgId, ·)) r (readBlock msgId r b).1
      (readBlock msgId r b).2 := by
  cases b with
  | text full =>
    by_cases hmore : r.counter msgId < full.length
    · exact shows_text_of_lt h hmore
    · exact shows_text_of_ge h hmore
  | toolUse name target =>
    simp only [readBlock]
    split <;> exact shows_of_quiet h rfl rfl rfl rfl
  | toolResult | other => exact shows_of_quiet h rfl rfl rfl rfl

theorem shows_blocks (h : Tracks past r) (msgId : JsString) (bs : List CliBlock) :
    Shows past ((textsOf bs).map (msgId, ·)) r (readBlocks msgId r bs).1
      (readBlocks msgId r bs).2 := by
  induction bs generalizing past r with
  | nil => exact shows_of_quiet h rfl rfl rfl rfl
  | cons b bs ih =>
    have hblock := shows_block h msgId b
    rw [textsOf_cons, List.map_append]
    exact hblock.append (ih hblock.tracks)

theorem said_cons : said (e :: es) = said [e] ++ said es := by
  unfold said
  rw [List.flatMap_cons, List.flatMap_cons, List.flatMap_nil, List.append_nil]

theorem shows_message (h : Tracks past r) (sessionId : Option JsString) (m : CliMessage) :
    Shows past (said [⟨sessionId, m⟩]) r (readMessage r sessionId m).1
      (readMessage r sessionId m).2 := by
  cases m with
  | assistant id content =>
    have hsaid : said [⟨sessionId, .assistant id content⟩] =
        (textsOf content).map (messageKey id, ·) := List.append_nil _
    rw [hsaid]
    exact shows_blocks h _ content
  | user content =>
    refine shows_of_quiet h rfl rfl rfl (List.filterMap_eq_nil_iff.mpr fun e he => ?_)
    obtain ⟨b, -, he⟩ := List.mem_flatMap.mp he
    cases b with
    | toolResult =>
      rw [List.mem_singleton.mp he]
      rfl
    | _ => cases he
  | result isError apiErrorStatus result usage totalCostUsd =>
    cases isError with
    | true => exact shows_of_quiet h rfl rfl rfl rfl
    | false =>
      obtain ⟨htexts, hemitted, hlast⟩ := resultAnswer_texts r result
      refine shows_of_quiet h htexts hemitted hlast ?_
      change (resultAnswer r result).1.filterMap AgentEvent.interim? = []
      unfold resultAnswer
      dsimp only
      split
      · rfl
      · split <;> rfl
  | systemInit | other => exact shows_of_quiet h rfl rfl rfl rfl

theorem shows_session (h : Tracks past r) (e : CliEvent) :
    Shows past [] r (sessionEvents r e) (afterSession r e) := by
  obtain ⟨htexts, hemitted, hlast⟩ := afterSession_texts r e
  refine shows_of_quiet h htexts hemitted hlast ?_
  unfold sessionEvents
  cases e.sessionId.filter (fun s => s ≠ [] ∧ r.sessionYielded = false) <;> rfl

theorem shows_event (h : Tracks past r) (e : CliEvent) :
    Shows past (said [e]) r (readEvent r e).1 (readEvent r e).2 := by
  rw [readEvent_eq]
  have hsession := shows_session h e
  exact hsession.append (shows_message hsession.tracks e.sessionId e.message)

/-- What the lines show of planning text is counted, and is nothing if no text is new. -/
theorem shows_events (h : Tracks past r) (es : List CliEvent) :
    Shows past (said es) r (readEvents r es).1 (readEvents r es).2 := by
  induction es generalizing past r with
  | nil => exact shows_of_quiet h rfl rfl rfl rfl
  | cons e es ih =>
    have hevent := shows_event h e
    rw [said_cons]
    exact hevent.append (ih hevent.tracks)

theorem tracks_start : Tracks [] .start :=
  ⟨fun _ => rfl, rfl, iff_of_false (Nat.lt_irrefl 0) fun h => h rfl⟩

theorem readBlocks_commit (r : Reader) (length : Nat) :
    .interimCommitFinal length ∉ (readBlocks msgId r bs).1 := by
  induction bs generalizing r with
  | nil => exact nofun
  | cons b bs ih =>
    rw [readBlocks, List.mem_append]
    rintro (hblock | hlater)
    · cases b with
      | text full =>
        simp only [readBlock] at hblock
        split at hblock <;> simp at hblock
      | toolUse name target =>
        simp only [readBlock] at hblock
        split at hblock <;> simp at hblock
      | toolResult | other => cases hblock
    · exact ih _ hlater

/-- A line commits if the driver answers with it and has shown planning text. -/
theorem commit_mem_readEvent (h : Tracks past r) (length : Nat) :
    .interimCommitFinal length ∈ (readEvent r e).1 ↔
      e.Answers past ∧ newTexts [] past ≠ [] ∧ length = r.emittedInterim := by
  have hsession : .interimCommitFinal length ∉ sessionEvents r e := by
    unfold sessionEvents
    cases e.sessionId.filter (fun s => s ≠ [] ∧ r.sessionYielded = false) <;> simp
  rw [readEvent_eq, List.mem_append, or_iff_right hsession]
  obtain ⟨-, hemitted, hlast⟩ := afterSession_texts r e
  unfold CliEvent.Answers
  cases e.message with
  | assistant id content => exact iff_of_false (readBlocks_commit _ length) fun h => h.1
  | user content =>
    refine iff_of_false (fun hmem => ?_) fun h => h.1
    obtain ⟨b, -, hb⟩ := List.mem_flatMap.mp hmem
    cases b <;> simp at hb
  | result isError apiErrorStatus result usage totalCostUsd =>
    cases isError with
    | true => exact iff_of_false (by simp [readMessage, resultError]) fun h => h.1
    | false =>
      change .interimCommitFinal length ∈ (resultAnswer (afterSession r e) result).1 ↔ _
      unfold resultAnswer
      rw [hemitted, hlast, h.last, ← h.shown]
      dsimp only
      split
      · rename_i hblank
        exact iff_of_false nofun fun hanswer => hanswer.1 hblank
      · rename_i hanswer
        rw [List.mem_append]
        rw [or_iff_left (by simp)]
        by_cases hshown : 0 < r.emittedInterim
        · rw [if_pos hshown, List.mem_singleton, AgentEvent.interimCommitFinal.injEq]
          exact ⟨fun heq => ⟨hanswer, hshown, heq⟩, fun hcommit => hcommit.2.2⟩
        · rw [if_neg hshown]
          exact iff_of_false nofun fun hcommit => hshown hcommit.2.1
  | systemInit | other => exact iff_of_false nofun fun h => h.1

theorem readEvents_append : readEvents r (es ++ es') =
    ((readEvents r es).1 ++ (readEvents (readEvents r es).2 es').1,
      (readEvents (readEvents r es).2 es').2) := by
  induction es generalizing r with
  | nil => rfl
  | cons e es ih =>
    rw [List.cons_append, readEvents, ih, readEvents]
    dsimp only
    rw [List.append_assoc]

/-- What is yielded is yielded for some line. -/
theorem mem_readEvents {event : AgentEvent} : event ∈ (readEvents r es).1 ↔
    ∃ before e after, es = before ++ e :: after ∧
      event ∈ (readEvent (readEvents r before).2 e).1 := by
  constructor
  · intro hmem
    induction es generalizing r with
    | nil => cases hmem
    | cons e es ih =>
      rw [readEvents, List.mem_append] at hmem
      rcases hmem with hfirst | hlater
      · exact ⟨[], e, es, rfl, hfirst⟩
      · obtain ⟨before, e', after, rfl, hmem⟩ := ih hlater
        exact ⟨e :: before, e', after, rfl, hmem⟩
  · rintro ⟨before, e, after, rfl, hmem⟩
    rw [readEvents_append, List.mem_append, readEvents, List.mem_append]
    exact .inr (.inl hmem)

theorem said_of_answers (h : e.Answers past) : said [e] = [] := by
  unfold CliEvent.Answers at h
  unfold said
  rw [List.flatMap_singleton]
  cases hmessage : e.message with
  | assistant =>
    rw [hmessage] at h
    exact h.elim
  | systemInit | user | result | other => rfl

/-- What is counted before an answer is all planning text just when no later text is new. -/
theorem emitted_eq_iff {before after : List CliEvent} (hanswer : e.Answers (said before)) :
    (readEvents .start before).2.emittedInterim =
        interimLength (readEvents .start (before ++ e :: after)).1 ↔
      newTexts (said before) (said after) = [] := by
  have hsilent := said_of_answers hanswer
  have hbefore := shows_events tracks_start before
  have hevent := shows_event hbefore.tracks e
  have hafter := shows_events hevent.tracks after
  have hzero := hevent.new.mpr (by rw [hsilent]; rfl)
  have hnew := hafter.new
  rw [hsilent, List.append_nil, List.nil_append] at hnew
  have hcount := hbefore.emitted
  rw [← hnew, hcount, readEvents_append, interimLength_append, readEvents, interimLength_append,
    hzero]
  change 0 + _ = _ ↔ _
  omega

/-- Every commit is of all planning text just when no new text follows an answer. -/
theorem commits_iff (es : List CliEvent) :
    (∀ length, .interimCommitFinal length ∈ (readEvents .start es).1 →
      length = interimLength (readEvents .start es).1) ↔
    ∀ before e after, es = before ++ e :: after → e.Answers (said before) →
      newTexts [] (said before) ≠ [] → newTexts (said before) (said after) = [] := by
  constructor
  · rintro hcommits before e after rfl hanswer hshown
    have htracks := (shows_events tracks_start before).tracks
    rw [← emitted_eq_iff hanswer]
    refine hcommits _ (mem_readEvents.mpr ⟨before, e, after, rfl, ?_⟩)
    exact (commit_mem_readEvent htracks _).mpr ⟨hanswer, hshown, rfl⟩
  · intro hquiet length hmem
    obtain ⟨before, e, after, rfl, hcommit⟩ := mem_readEvents.mp hmem
    have htracks := (shows_events tracks_start before).tracks
    obtain ⟨hanswer, hshown, rfl⟩ := (commit_mem_readEvent htracks _).mp hcommit
    exact (emitted_eq_iff hanswer).mpr (hquiet before e after rfl hanswer hshown)

end Commits

/-! ### Turns -/

/-- After the lines, only errors and the end of the turn are yielded. -/
theorem startSession_lines {run : CliRun} (hstart : run.spawnFailure = none) :
    (∀ length, .interimCommitFinal length ∈ (startSession run).events ↔
      .interimCommitFinal length ∈ (readEvents .start run.events).1) ∧
      interimLength (startSession run).events = interimLength (readEvents .start run.events).1 := by
  unfold startSession
  rw [hstart]
  dsimp only
  constructor
  · intro length
    rw [List.mem_append, List.mem_append, or_assoc]
    refine or_iff_left ?_
    rintro (hexit | hdone)
    · split at hexit <;> simp [exitError] at hexit
    · simp at hdone
  · rw [interimLength_append, interimLength_append]
    have hexit : ∀ (p : Prop) [Decidable p],
        interimLength (if p then [exitError run] else []) = 0 := by
      intro p _
      split <;> rfl
    rw [hexit]
    rfl

/-- Texts and tool calls are streamed once just when no message has a second text, tool calls come
with a name and in the last snapshot, and no new text follows the answer. -/
theorem streamedOnce_iff {run : CliRun} (hstart : run.spawnFailure = none)
    (h : Successive run.events) : StreamedOnce run ↔ Plain run.events := by
  obtain ⟨hmem, hlength⟩ := startSession_lines hstart
  have hcommits := commits_iff run.events
  simp only [← hmem, ← hlength] at hcommits
  constructor
  · rintro ⟨htext, htools, hcommit⟩
    exact ⟨fun msgId => (messageText_iff (h msgId)).mp (htext msgId),
      fun msgId => ((messageTools_iff (h msgId)).mp (htools msgId)).1,
      fun msgId => ((messageTools_iff (h msgId)).mp (htools msgId)).2, hcommits.mp hcommit⟩
  · rintro ⟨hone, hnamed, hlast, hanswered⟩
    exact ⟨fun msgId => (messageText_iff (h msgId)).mpr (hone msgId),
      fun msgId => (messageTools_iff (h msgId)).mpr ⟨hnamed msgId, hlast msgId⟩,
      hcommits.mpr hanswered⟩

/-- A run with two snapshots of one message, and a result. -/
def twoSnapshots (first second : List CliBlock) : CliRun where
  spawnFailure := none
  events := [⟨none, .assistant (some (utf16 "msg_1")) first⟩,
    ⟨none, .assistant (some (utf16 "msg_1")) second⟩,
    ⟨none, .result false none (some (utf16 "Done.")) none none⟩]
  exitCode := 0
  stderr := []
  aborted := false

def bash : CliBlock := .toolUse (utf16 "Bash") (some (utf16 "df -h /"))

section Example

variable {first second : List CliBlock}

theorem snapshotsOf_twoSnapshots (msgId : JsString) :
    snapshotsOf msgId (twoSnapshots first second).events =
      if utf16 "msg_1" = msgId then [first, second] else [] := by
  have hkey : messageKey (some (utf16 "msg_1")) = utf16 "msg_1" := rfl
  by_cases hid : utf16 "msg_1" = msgId
  · subst hid
    simp [snapshotsOf, twoSnapshots, CliEvent.content?, hkey]
  · simp [snapshotsOf, twoSnapshots, CliEvent.content?, hkey, hid]

theorem successive_twoSnapshots (h : ContentExtends first second) :
    Successive (twoSnapshots first second).events := by
  intro msgId
  rw [snapshotsOf_twoSnapshots]
  split
  · exact List.pairwise_pair.mpr h
  · exact List.Pairwise.nil

end Example

/-- A text that grows, and then a tool call. -/
theorem growingText_streamedOnce :
    StreamedOnce (twoSnapshots [.text (utf16 "Check")] [.text (utf16 "Checking"), bash]) := by
  have hextends : ContentExtends [.text (utf16 "Check")] [.text (utf16 "Checking"), bash] :=
    .cons ⟨utf16 "ing", rfl⟩ (.nil _)
  refine (streamedOnce_iff rfl (successive_twoSnapshots hextends)).mpr ⟨?_, ?_, ?_, ?_⟩
  · intro msgId
    rw [finalContent, snapshotsOf_twoSnapshots]
    split
    · exact Nat.le_refl 1
    · exact Nat.zero_le 1
  · intro msgId tool htool
    rw [finalContent, snapshotsOf_twoSnapshots] at htool
    split at htool
    · rw [List.mem_singleton.mp htool]
      exact utf16_ne_nil (by simp)
    · cases htool
  · intro msgId content hcontent
    rw [snapshotsOf_twoSnapshots] at hcontent
    split at hcontent
    · rw [List.mem_singleton.mp hcontent]
      rfl
    · cases hcontent
  · rintro (_ | ⟨a, _ | ⟨b, _ | ⟨c, before⟩⟩⟩) e after hes hanswer -
    · obtain ⟨rfl, -⟩ := List.cons_eq_cons.mp hes
      cases hanswer
    · obtain ⟨-, hes⟩ := List.cons_eq_cons.mp hes
      obtain ⟨rfl, -⟩ := List.cons_eq_cons.mp hes
      cases hanswer
    · obtain ⟨-, hes⟩ := List.cons_eq_cons.mp hes
      obtain ⟨-, hes⟩ := List.cons_eq_cons.mp hes
      obtain ⟨-, rfl⟩ := List.cons_eq_cons.mp hes
      rfl
    · simp [twoSnapshots] at hes

/-- A second text, after a tool call: the call is shown twice, and the text not at all. -/
theorem secondText_not_streamedOnce :
    Successive (twoSnapshots [.text (utf16 "Checking"), bash]
        [.text (utf16 "Checking"), bash, .text (utf16 "Done.")]).events ∧
      ¬ StreamedOnce (twoSnapshots [.text (utf16 "Checking"), bash]
        [.text (utf16 "Checking"), bash, .text (utf16 "Done.")]) := by
  have hextends : ContentExtends [.text (utf16 "Checking"), bash]
      [.text (utf16 "Checking"), bash, .text (utf16 "Done.")] :=
    .cons List.prefix_rfl (.cons rfl (.nil _))
  refine ⟨successive_twoSnapshots hextends, fun honce => ?_⟩
  have htools : 2 = 1 := congrArg List.length (honce.tools (utf16 "msg_1"))
  cases htools

end ClaudeCode

end OsModa.Gateway
