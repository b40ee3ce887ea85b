import OsModa.Gateway.ChatNames
import OsModa.Gateway.CrossChat

/-!
What the cursors, the transcripts and the peer loop of the digest are like under every step.

No change of the registry but a commit moves a cursor (`Carries.getCursor_eq`). The numbers in a
transcript increase, even where writes failed, as long as it is its only writer's
(`InOrder.append`). A digest finds all rows between the cursor it starts from and the one it is to
commit (`sees_scanPeer`).
-/

namespace OsModa.Gateway.CrossChat

open OsModa.Js ChatRegistry

variable {tables : CaseTables}

/-! ### The registry -/

/-- A change of the registry that makes chats, and changes no agent and no cursor. -/
structure Carries (s s' : ChatRegistry) : Prop where
  kept : ∀ key c, s.find? key = some c →
    ∃ c', s'.find? key = some c' ∧ c'.agentId = c.agentId ∧ c'.cursors = c.cursors
  new : ∀ key c', s'.find? key = some c' → s.find? key = none →
    c'.agentId ≠ [] ∧ c'.cursors = .empty

namespace Carries

variable {s s' s'' : ChatRegistry}

theorem refl (s : ChatRegistry) : Carries s s where
  kept _ c h := ⟨c, h, rfl, rfl⟩
  new _ _ h hnone := by
    rw [h] at hnone
    cases hnone

theorem trans (h : Carries s s') (h' : Carries s' s'') : Carries s s'' where
  kept key c hc := by
    obtain ⟨c', hc', hagent, hcursors⟩ := h.kept key c hc
    obtain ⟨c'', hc'', hagent', hcursors'⟩ := h'.kept key c' hc'
    exact ⟨c'', hc'', hagent'.trans hagent, hcursors'.trans hcursors⟩
  new key c'' hc'' hnone := by
    cases hmid : s'.find? key with
    | none => exact h'.new key c'' hc'' hmid
    | some c' =>
      obtain ⟨hagent, hcursors⟩ := h.new key c' hmid hnone
      obtain ⟨d, hd, hagent', hcursors'⟩ := h'.kept key c' hmid
      obtain rfl := Option.some.inj (hd.symm.trans hc'')
      exact ⟨hagent' ▸ hagent, hcursors'.trans hcursors⟩

theorem of_change {f : Chat → Chat} (hf : ∀ c, (f c).key = c.key)
    (hagent : ∀ c, (f c).agentId = c.agentId) (hcursors : ∀ c, (f c).cursors = c.cursors)
    (key : JsString) : Carries s (change s key f hf) where
  kept k c hc := by
    refine ⟨if c.key = key then f c else c, ?_, ?_, ?_⟩
    · rw [change, Table.find?_updateWhere, hc, Option.map_some]
      simp
    · split
      · exact hagent c
      · rfl
    · split
      · exact hcursors c
      · rfl
  new k c' hc' hnone := by
    rw [change, Table.find?_updateWhere, hnone] at hc'
    cases hc'

theorem of_put {chat : Chat} (hfree : s.find? chat.key = none) (hagent : chat.agentId ≠ [])
    (hcursors : chat.cursors = .empty) : Carries s (s.put chat) where
  kept k c hc := by
    refine ⟨c, (Table.find?_put_other ?_).trans hc, rfl, rfl⟩
    rintro rfl
    rw [hfree] at hc
    cases hc
  new k c' hc' hnone := by
    rw [Table.find?_put] at hc'
    split at hc'
    · obtain rfl := Option.some.inj hc'
      exact ⟨hagent, hcursors⟩
    · rw [hnone] at hc'
      cases hc'

/-- A chat keeps its cursors. -/
theorem getCursor_eq (h : Carries s s') (a b : JsString) : getCursor s' a b = getCursor s a b := by
  unfold getCursor
  cases hfind : s.find? a with
  | some c =>
    obtain ⟨c', hc', -, hcursors⟩ := h.kept a c hfind
    rw [hc', Option.bind_some, Option.bind_some, hcursors]
  | none =>
    cases hfind' : s'.find? a with
    | none => rfl
    | some c' =>
      rw [Option.bind_some, (h.new a c' hfind' hfind).2]
      rfl

theorem hasKey (h : Carries s s') {key : JsString} (hkey : hasKey s key = true) :
    ChatRegistry.hasKey s' key = true := by
  obtain ⟨c, hc⟩ := Option.isSome_iff_exists.mp hkey
  obtain ⟨c', hc', -⟩ := h.kept key c hc
  exact Option.isSome_iff_exists.mpr ⟨c', hc'⟩

/-- A chat is one that has an agent, if there were no others. -/
theorem agentId_ne (h : Carries s s') {key : JsString}
    (hs : ∀ c ∈ s.find? key, c.agentId ≠ []) : ∀ c ∈ s'.find? key, c.agentId ≠ [] := by
  intro c' hc'
  cases hfind : s.find? key with
  | none => exact (h.new key c' hc' hfind).1
  | some c =>
    obtain ⟨d, hd, hagent, -⟩ := h.kept key c hfind
    obtain rfl := Option.some.inj (hd.symm.trans hc')
    exact hagent ▸ hs c hfind

end Carries

section Registry

variable (s : ChatRegistry)

theorem carries_touch (key : JsString) (now : Nat) : Carries s (touch s key now) := by
  unfold touch
  refine .of_change _ ?_ ?_ key <;> intro c <;> rfl

theorem carries_rename (key name : JsString) : Carries s (rename s key name) := by
  unfold rename
  refine .of_change _ ?_ ?_ key <;> intro c <;> rfl

theorem carries_setArchived (key : JsString) (archived : Bool) :
    Carries s (setArchived s key archived) := by
  unfold setArchived
  refine .of_change _ ?_ ?_ key <;> intro c <;> rfl

theorem carries_register (key : JsString) (agentId name : Option JsString) (now : Nat) :
    Carries s (register tables s key agentId name now).2 := by
  unfold register
  split
  · exact carries_touch s key now
  · rename_i hfind
    refine .of_put hfind ?_ rfl
    change (agentId.filter (· ≠ [])).getD (utf16 "osmoda") ≠ []
    cases hagent : agentId.filter (· ≠ []) with
    | none =>
      rw [Option.getD_none]
      decide
    | some agent => simpa using (Option.filter_eq_some_iff.mp hagent).2

theorem carries_resolveOrCreate {name : JsString} {now : Nat} {c : Chat} {s' : ChatRegistry}
    (h : resolveOrCreate tables s name now = .ok (c, s')) : Carries s s' := by
  unfold resolveOrCreate at h
  dsimp only at h
  split at h
  · obtain ⟨-, rfl⟩ := Prod.mk.inj (Except.ok.inj h)
    exact carries_register s _ none none now
  · split at h
    · obtain ⟨-, rfl⟩ := Prod.mk.inj (Except.ok.inj h)
      exact carries_touch s _ now
    · split at h
      · obtain ⟨-, rfl⟩ := Prod.mk.inj (Except.ok.inj h)
        exact carries_touch s _ now
      · split at h
        · cases h
        · obtain ⟨-, rfl⟩ := Prod.mk.inj (Except.ok.inj h)
          refine .of_put ?_ (show utf16 "osmoda" ≠ [] by decide) rfl
          have hfree := hasKey_freeKey (s := s) (slugify tables (trim name))
          rw [hasKey, Option.isSome_eq_false_iff] at hfree
          exact Option.isNone_iff_eq_none.mp hfree

theorem carries_handleRequest (now : Nat) (request : RegistryRequest) :
    Carries s (handleRequest tables now s request) := by
  cases request with
  | create name =>
    unfold handleRequest
    dsimp only
    split
    · rename_i hcreate
      exact carries_resolveOrCreate s hcreate
    · exact .refl s
  | rename key name => exact carries_rename s key name
  | setArchived key archived => exact carries_setArchived s key archived
  | createLoop sessionKey agentId name => exact carries_register s _ _ _ now

theorem carries_openChat (source : TurnSource) (agentId : JsString) (now : Nat) :
    Carries s (openChat tables source agentId now s).2 := by
  cases source with
  | web chatId sessionKey =>
    unfold openChat
    dsimp only
    split
    · exact carries_touch s _ now
    · exact (carries_register s _ none none now).trans (carries_touch _ _ now)
  | telegram chatId => exact (carries_register s _ _ _ now).trans (carries_touch _ _ now)
  | api sessionKey => exact carries_register s _ none none now
  | loop sessionKey => exact .refl s

theorem hasKey_register (key : JsString) (agentId name : Option JsString) (now : Nat) :
    hasKey (register tables s key agentId name now).2 key = true := by
  unfold register
  split
  · rename_i hfind
    rw [hasKey_touch, hasKey, hfind, Option.isSome_some]
  · exact (hasKey_put key).trans (by simp [newChat])

theorem hasKey_of_resolve {idOrName : JsString} {c : Chat} (h : resolve tables s idOrName = some c) :
    hasKey s c.key = true := by
  rw [hasKey_iff]
  unfold resolve at h
  dsimp only at h
  split at h
  · cases h
  · rcases Option.or_eq_some_iff.mp h with hkey | ⟨-, hslug⟩
    · exact List.mem_map_of_mem (List.mem_of_find?_eq_some hkey)
    · exact List.mem_map_of_mem (List.mem_of_find?_eq_some hslug)

/-- The chat of a turn with a digest is there. -/
theorem hasKey_openChat {source : TurnSource} (hdigest : source.hasDigest) (agentId : JsString)
    (now : Nat) :
    hasKey (openChat tables source agentId now s).2 (openChat tables source agentId now s).1 =
      true := by
  cases source with
  | web chatId sessionKey =>
    unfold openChat
    dsimp only
    split
    · rename_i existing hresolve
      rw [hasKey_touch]
      split at hresolve
      · cases hresolve
      · exact hasKey_of_resolve s hresolve
    · rw [hasKey_touch]
      exact hasKey_register s _ none none now
  | telegram chatId =>
    refine (hasKey_touch _ now _).trans ?_
    exact hasKey_register s _ _ _ now
  | api sessionKey | loop sessionKey => cases hdigest

end Registry

/-! ### Commits -/

section Commits

/-- The key that takes no number. -/
def protoKey : JsString := utf16 "__proto__"

theorem find?_setCursor (s : ChatRegistry) (key peerKey : JsString) (seq : Nat) (k : JsString) :
    (setCursor s key peerKey seq).find? k = (s.find? k).map fun c =>
      if c.key = key ∧ peerKey ≠ protoKey then
        { c with cursors := JsMap.set c.cursors peerKey seq }
      else c := by
  unfold setCursor
  split
  · rename_i hproto
    simp [protoKey, hproto]
  · rename_i hproto
    rw [change, Table.find?_updateWhere]
    simp [protoKey, hproto]

theorem getCursor_setCursor (s : ChatRegistry) (key peerKey : JsString) (seq : Nat)
    (a b : JsString) : getCursor (setCursor s key peerKey seq) a b =
      if hasKey s a = true ∧ a = key ∧ peerKey = b ∧ b ≠ protoKey then some seq
      else getCursor s a b := by
  unfold getCursor hasKey
  rw [find?_setCursor]
  cases hfind : s.find? a with
  | none => simp
  | some c =>
    have hkey : c.key = a := Table.key_of_find? hfind
    rw [Option.map_some, Option.bind_some, hkey]
    by_cases hown : a = key ∧ peerKey ≠ protoKey
    · rw [if_pos hown, JsMap.get?_set]
      by_cases hb : peerKey = b
      · subst hb
        simp [hown.1, hown.2]
      · simp [hb]
    · rw [if_neg hown, if_neg]
      · rfl
      · rintro ⟨-, ha, rfl, hb⟩
        exact hown ⟨ha, hb⟩

theorem hasKey_setCursor (s : ChatRegistry) (key peerKey : JsString) (seq : Nat) (k : JsString) :
    hasKey (setCursor s key peerKey seq) k = hasKey s k := by
  rw [hasKey, find?_setCursor, Option.isSome_map, hasKey]

theorem hasKey_commit (s : ChatRegistry) (key : JsString) (advance : List (JsString × Nat))
    (k : JsString) : hasKey (commit s key advance) k = hasKey s k := by
  induction advance generalizing s with
  | nil => rfl
  | cons x advance ih => exact (ih _).trans (hasKey_setCursor s key x.1 x.2 k)

/-- A commit changes no agent. -/
theorem agentId_commit (s : ChatRegistry) (key : JsString) (advance : List (JsString × Nat))
    (k : JsString) :
    ((commit s key advance).find? k).map Chat.agentId = (s.find? k).map Chat.agentId := by
  induction advance generalizing s with
  | nil => rfl
  | cons x advance ih =>
    refine (ih _).trans ?_
    rw [find?_setCursor, Option.map_map]
    refine congrArg (Option.map · (s.find? k)) (funext fun c => ?_)
    rw [Function.comp_apply]
    split <;> rfl

theorem getCursor_commit_other (s : ChatRegistry) {key a b : JsString}
    {advance : List (JsString × Nat)} (h : a = key → b ≠ protoKey → ∀ x ∈ advance, x.1 ≠ b) :
    getCursor (commit s key advance) a b = getCursor s a b := by
  induction advance generalizing s with
  | nil => rfl
  | cons x advance ih =>
    refine (ih _ fun ha hb y hy => h ha hb y (List.mem_cons_of_mem _ hy)).trans ?_
    rw [getCursor_setCursor, if_neg]
    rintro ⟨-, ha, hx, hb⟩
    exact h ha hb x List.mem_cons_self hx

theorem getCursor_commit (s : ChatRegistry) {a b : JsString} {seq : Nat}
    {before after : List (JsString × Nat)} (hkey : hasKey s a = true) (hb : b ≠ protoKey)
    (hafter : ∀ x ∈ after, x.1 ≠ b) :
    getCursor (commit s a (before ++ (b, seq) :: after)) a b = some seq := by
  rw [commit, List.foldl_append, List.foldl_cons]
  refine (getCursor_commit_other _ fun _ _ => hafter).trans ?_
  rw [getCursor_setCursor, if_pos]
  exact ⟨(hasKey_commit s a before a).trans hkey, rfl, rfl, hb⟩

end Commits

/-! ### Transcripts -/

/-- The last number given out for a pair. -/
def counter (s : TranscriptStore) (p : TranscriptPair) : Nat :=
  (JsMap.get? s.seqByKey (TranscriptStore.cacheKey p.1 p.2)).getD 0

/-- The lines of a pair's file are these events, with numbers that increase up to the last one. -/
structure InOrder (s : TranscriptStore) (p : TranscriptPair) (events : List TranscriptEvent) :
    Prop where
  lines : (s.fileOf p).lines = events.map some
  tail : (s.fileOf p).tail = none
  increasing : events.Pairwise fun d e => d.seq < e.seq
  counted : ∀ e ∈ events, e.seq ≤ counter s p
  length : events.length ≤ counter s p
  unset : JsMap.get? s.seqByKey (TranscriptStore.cacheKey p.1 p.2) = none → events = []

namespace InOrder

variable {s : TranscriptStore} {p : TranscriptPair} {events : List TranscriptEvent}

theorem fresh (p : TranscriptPair) : InOrder .fresh p [] where
  lines := rfl
  tail := rfl
  increasing := List.Pairwise.nil
  counted := by simp
  length := Nat.zero_le _
  unset _ := rfl

theorem nonBlank (h : InOrder s p events) : (s.fileOf p).nonBlank = events.map some :=
  TranscriptFile.nonBlank_of_tail h.lines h.tail

theorem headSeq (h : InOrder s p events) : s.headSeq p.1 p.2 = events.length :=
  (congrArg List.length h.nonBlank).trans (List.length_map _)

theorem read (h : InOrder s p events) (n : Nat) :
    s.read p.1 p.2 n = events.filter fun e => n < e.seq :=
  TranscriptFile.eventsAfter_of_nonBlank h.nonBlank n

theorem lastSeq (h : InOrder s p events) : s.lastSeq p.1 p.2 = counter s p := by
  unfold TranscriptStore.lastSeq counter
  cases hget : JsMap.get? s.seqByKey (TranscriptStore.cacheKey p.1 p.2) with
  | some n => rfl
  | none =>
    rw [Option.getD_none, Option.getD_none]
    exact h.headSeq.trans (by rw [h.unset hget, List.length_nil])

end InOrder

/-- A write for a pair that its own transcript can have, and every other one that is not in its
file. -/
def KeepsOrder (p q : TranscriptPair) (outcome : AppendOutcome) : Prop :=
  fileFor q.1 q.2 = fileFor p.1 p.2 →
    outcome = .noDirectory ∨ outcome = .kept ∨ outcome = .written ∧ q = p

instance (p q : TranscriptPair) (outcome : AppendOutcome) : Decidable (KeepsOrder p q outcome) :=
  inferInstanceAs (Decidable (_ → _))

theorem counter_le_lastSeq (s : TranscriptStore) {p q : TranscriptPair}
    (h : TranscriptStore.cacheKey q.1 q.2 = TranscriptStore.cacheKey p.1 p.2) :
    counter s p ≤ s.lastSeq q.1 q.2 := by
  unfold counter TranscriptStore.lastSeq
  rw [h]
  cases JsMap.get? s.seqByKey (TranscriptStore.cacheKey p.1 p.2) with
  | some n => exact Nat.le_refl n
  | none => exact Nat.zero_le _

theorem seqByKey_append (s : TranscriptStore) (q : TranscriptPair) (ev : TranscriptInput)
    (clock : JsString) {outcome : AppendOutcome} (h : outcome ≠ .noDirectory) (key : JsString) :
    JsMap.get? (s.append q.1 q.2 ev clock outcome).2.seqByKey key =
      if TranscriptStore.cacheKey q.1 q.2 = key then some (s.lastSeq q.1 q.2 + 1)
      else JsMap.get? s.seqByKey key := by
  rw [TranscriptStore.append, if_neg h]
  exact JsMap.get?_set _ _ _ _

theorem counter_append_le (s : TranscriptStore) (p q : TranscriptPair) (ev : TranscriptInput)
    (clock : JsString) {outcome : AppendOutcome} (h : outcome ≠ .noDirectory) :
    counter s p ≤ counter (s.append q.1 q.2 ev clock outcome).2 p := by
  rw [counter, counter, seqByKey_append s q ev clock h]
  split
  · rename_i hkey
    exact (counter_le_lastSeq s hkey).trans (Nat.le_succ _)
  · exact Nat.le_refl _

/-- What is appended is what is written. -/
theorem mem_append_fst {s : TranscriptStore} {q : TranscriptPair} {ev : TranscriptInput}
    {clock : JsString} {outcome : AppendOutcome} {e : TranscriptEvent}
    (h : e ∈ (s.append q.1 q.2 ev clock outcome).1) :
    outcome = .written ∧ e = ev.full (s.lastSeq q.1 q.2 + 1) clock := by
  cases outcome with
  | written => exact ⟨rfl, (Option.some.inj h).symm⟩
  | noDirectory | kept | torn => cases h

namespace InOrder

variable {s : TranscriptStore} {p q : TranscriptPair} {events : List TranscriptEvent}

/-- Its own pair writes the next line of a transcript. -/
theorem append_written (h : InOrder s p events) (ev : TranscriptInput) (clock : JsString) :
    let s' := (s.append p.1 p.2 ev clock .written).2
    let e := ev.full (s.lastSeq p.1 p.2 + 1) clock
    InOrder s' p (events ++ [e]) ∧ counter s p < e.seq := by
  intro s' e
  have hseq : e.seq = counter s p + 1 := congrArg (· + 1) h.lastSeq
  have hlast : counter s' p = counter s p + 1 := by
    rw [counter, seqByKey_append s p ev clock (by decide), if_pos rfl, Option.getD_some, h.lastSeq]
  have hfile : s'.fileOf p = (s.fileOf p).append e .written :=
    (fileAt_append p.1 p.2 ev clock _).trans (if_pos rfl)
  refine ⟨⟨?_, ?_, ?_, ?_, ?_, ?_⟩, by omega⟩
  · rw [hfile, TranscriptFile.append, TranscriptFile.glue, h.lines, h.tail, List.map_append]
    rfl
  · rw [hfile]
    rfl
  · refine List.pairwise_append.mpr ⟨h.increasing, List.pairwise_singleton _ _, ?_⟩
    intro d hd e' he'
    have hbound := h.counted d hd
    obtain rfl := List.mem_singleton.mp he'
    omega
  · intro d hd
    rw [hlast]
    rcases List.mem_append.mp hd with hd | hd
    · exact (h.counted d hd).trans (Nat.le_succ _)
    · obtain rfl := List.mem_singleton.mp hd
      exact Nat.le_of_eq hseq
  · have hlength := h.length
    rw [hlast, List.length_append, List.length_singleton]
    omega
  · intro hnone
    rw [seqByKey_append s p ev clock (by decide), if_pos rfl] at hnone
    cases hnone

/-- Another write leaves the file as it was, and lowers no number. -/
theorem append_other (h : InOrder s p events) (ev : TranscriptInput) (clock : JsString)
    {outcome : AppendOutcome} (hdir : outcome ≠ .noDirectory) (hfits : KeepsOrder p q outcome)
    (hother : ¬ (q = p ∧ outcome = .written)) :
    InOrder (s.append q.1 q.2 ev clock outcome).2 p events := by
  have hcounter := counter_append_le s p q ev clock hdir
  have hsame : (s.append q.1 q.2 ev clock outcome).2.fileOf p = s.fileOf p := by
    refine (fileAt_append q.1 q.2 ev clock _).trans ?_
    split
    · rename_i hpath
      rcases hfits hpath with rfl | rfl | ⟨rfl, rfl⟩
      · rfl
      · rfl
      · exact absurd ⟨rfl, rfl⟩ hother
    · rfl
  refine ⟨hsame ▸ h.lines, hsame ▸ h.tail, h.increasing,
    fun e he => (h.counted e he).trans hcounter, h.length.trans hcounter, fun hnone => ?_⟩
  rw [seqByKey_append s q ev clock hdir] at hnone
  split at hnone
  · cases hnone
  · exact h.unset hnone

/-- A write adds what is new to the transcript, under higher numbers. -/
theorem append (h : InOrder s p events) (ev : TranscriptInput) (clock : JsString)
    {outcome : AppendOutcome} (hfits : KeepsOrder p q outcome) :
    ∃ added, InOrder (s.append q.1 q.2 ev clock outcome).2 p (events ++ added) ∧
      counter s p ≤ counter (s.append q.1 q.2 ev clock outcome).2 p ∧
      (∀ e ∈ added, counter s p < e.seq) ∧
      (q = p → ∀ e ∈ (s.append q.1 q.2 ev clock outcome).1, e ∈ added) := by
  by_cases hown : q = p ∧ outcome = .written
  · obtain ⟨rfl, rfl⟩ := hown
    obtain ⟨hinorder, hseq⟩ := h.append_written ev clock
    refine ⟨_, hinorder, counter_append_le s q q ev clock (by decide), ?_, ?_⟩
    · intro e he
      obtain rfl := List.mem_singleton.mp he
      exact hseq
    · intro _ e he
      exact List.mem_singleton.mpr (mem_append_fst he).2
  · have hnone : q = p → ∀ e ∈ (s.append q.1 q.2 ev clock outcome).1, e ∈ [] := by
      intro hq e he
      exact absurd ⟨hq, (mem_append_fst he).1⟩ hown
    by_cases hdir : outcome = .noDirectory
    · subst hdir
      exact ⟨[], (List.append_nil events).symm ▸ h, Nat.le_refl _, by simp, hnone⟩
    · refine ⟨[], ?_, counter_append_le s p q ev clock hdir, by simp, hnone⟩
      rw [List.append_nil]
      exact h.append_other ev clock hdir hfits hown

end InOrder

/-! ### The peer loop -/

theorem scanPeer_peer (transcripts : TranscriptStore) (chats : ChatRegistry)
    (agentId key : JsString) (peer : Chat) :
    (scanPeer tables transcripts chats agentId key peer).peer = peer := by
  unfold scanPeer
  cases getCursor chats key peer.key <;> rfl

theorem scanPeer_cursor (transcripts : TranscriptStore) (chats : ChatRegistry)
    (agentId key : JsString) (peer : Chat) :
    (scanPeer tables transcripts chats agentId key peer).cursor = getCursor chats key peer.key := by
  unfold scanPeer
  cases getCursor chats key peer.key <;> rfl

/-- A round of the loop that found the notable rows between its cursor and the one to commit. -/
structure PeerScan.Sees (tables : CaseTables) (g : JsString) (events : List TranscriptEvent)
    (bound : Nat) (p : PeerScan) : Prop where
  agent : p.agentId = g
  above : ∀ c ∈ p.cursor, ∀ n ∈ p.advance, c ≤ n
  bounded : ∀ n ∈ p.advance, n ≤ bound
  notable : ∀ e, e ∈ p.notable ↔ e ∈ events ∧ isNotable tables e = true ∧
    ∃ c ∈ p.cursor, ∃ n ∈ p.advance, c < e.seq ∧ e.seq ≤ n

namespace PeerScan.Sees

variable {g : JsString} {events : List TranscriptEvent} {bound : Nat} {p : PeerScan}

theorem seq_le (h : p.Sees tables g events bound) {e : TranscriptEvent} (he : e ∈ p.notable) :
    e.seq ≤ bound := by
  obtain ⟨-, -, c, -, n, hn, -, hle⟩ := (h.notable e).mp he
  exact hle.trans (h.bounded n hn)

/-- What is written after it is none of it. -/
theorem mono (h : p.Sees tables g events bound) {added : List TranscriptEvent} {bound' : Nat}
    (hadded : ∀ e ∈ added, bound < e.seq) (hbound : bound ≤ bound') :
    p.Sees tables g (events ++ added) bound' where
  agent := h.agent
  above := h.above
  bounded n hn := (h.bounded n hn).trans hbound
  notable e := by
    rw [h.notable]
    constructor
    · rintro ⟨he, hrest⟩
      exact ⟨List.mem_append_left _ he, hrest⟩
    · rintro ⟨he, hnotable, c, hc, n, hn, hlt, hle⟩
      rcases List.mem_append.mp he with he | he
      · exact ⟨he, hnotable, c, hc, n, hn, hlt, hle⟩
      · have hnew := hadded e he
        have hold := h.bounded n hn
        omega

end PeerScan.Sees

/-- What is read after a cursor ends with the highest number. -/
theorem seq_le_getLast {events : List TranscriptEvent} {e last : TranscriptEvent}
    (h : events.Pairwise fun d e => d.seq < e.seq) (hlast : events.getLast? = some last)
    (he : e ∈ events) : e.seq ≤ last.seq := by
  obtain ⟨front, rfl⟩ := List.getLast?_eq_some_iff.mp hlast
  rcases List.mem_append.mp he with he | he
  · exact Nat.le_of_lt ((List.pairwise_append.mp h).2.2 e he last List.mem_cons_self)
  · exact Nat.le_of_eq (congrArg _ (List.mem_singleton.mp he))

/-- A notable row after the cursor is found. -/
theorem mem_notable_scanPeer {transcripts : TranscriptStore} {chats : ChatRegistry}
    {agentId key g : JsString} {peer : Chat} {events : List TranscriptEvent}
    (h : InOrder transcripts (g, peer.key) events) (hagent : peer.agentId = g) (hg : g ≠ [])
    {c : Nat} (hc : getCursor chats key peer.key = some c) {e : TranscriptEvent} (he : e ∈ events)
    (hnotable : isNotable tables e = true) (hlt : c < e.seq) :
    e ∈ (scanPeer tables transcripts chats agentId key peer).notable := by
  unfold scanPeer
  rw [hagent, if_neg hg, hc]
  dsimp only
  rw [h.read c]
  exact List.mem_filter.mpr ⟨List.mem_filter.mpr ⟨he, decide_eq_true hlt⟩, hnotable⟩

theorem sees_scanPeer {transcripts : TranscriptStore} {chats : ChatRegistry}
    {agentId key g : JsString} {peer : Chat} {events : List TranscriptEvent}
    (h : InOrder transcripts (g, peer.key) events) (hagent : peer.agentId = g) (hg : g ≠ []) :
    (scanPeer tables transcripts chats agentId key peer).Sees tables g events
      (counter transcripts (g, peer.key)) := by
  unfold scanPeer
  rw [hagent, if_neg hg]
  cases getCursor chats key peer.key with
  | none =>
    refine ⟨rfl, by simp, ?_, by simp⟩
    intro n hn
    obtain rfl := Option.some.inj hn
    exact h.headSeq.trans_le h.length
  | some c =>
    dsimp only
    rw [h.read c]
    set evs := events.filter fun e => c < e.seq with hevs
    have hlast : ∀ n ∈ evs.getLast?.map TranscriptEvent.seq, ∃ last ∈ evs, last.seq = n := by
      intro n hn
      obtain ⟨last, hlast, rfl⟩ := Option.map_eq_some_iff.mp hn
      exact ⟨last, List.mem_of_getLast? hlast, rfl⟩
    refine ⟨rfl, ?_, ?_, ?_⟩
    · rintro c' hc' n hn
      obtain rfl := Option.some.inj hc'
      obtain ⟨last, hmem, rfl⟩ := hlast n hn
      exact Nat.le_of_lt (of_decide_eq_true (List.mem_filter.mp hmem).2)
    · intro n hn
      obtain ⟨last, hmem, rfl⟩ := hlast n hn
      exact h.counted last (List.mem_filter.mp hmem).1
    · intro e
      rw [List.mem_filter, hevs, List.mem_filter]
      constructor
      · rintro ⟨⟨he, hlt⟩, hnotable⟩
        have hmem : e ∈ evs := List.mem_filter.mpr ⟨he, hlt⟩
        obtain ⟨last, hsome⟩ : ∃ last, evs.getLast? = some last :=
          ⟨_, List.getLast?_eq_some_getLast (List.ne_nil_of_mem hmem)⟩
        refine ⟨he, hnotable, c, rfl, last.seq, ?_, of_decide_eq_true hlt, ?_⟩
        · exact Option.map_eq_some_iff.mpr ⟨last, hsome, rfl⟩
        · exact seq_le_getLast (h.increasing.filter _) hsome hmem
      · rintro ⟨he, hnotable, c', hc', -, -, hlt, -⟩
        obtain rfl := Option.some.inj hc'
        exact ⟨⟨he, decide_eq_true hlt⟩, hnotable⟩

theorem untilFull_sublist (blocks : Nat) (scans : List PeerScan) :
    (untilFull blocks scans).Sublist scans := by
  induction scans generalizing blocks with
  | nil => exact List.Sublist.slnil
  | cons p rest ih =>
    unfold untilFull
    split
    · exact (ih blocks).cons_cons p
    · split
      · exact (List.nil_sublist rest).cons_cons p
      · exact (ih _).cons_cons p

/-- The loop comes to a peer unless as many lines as are allowed stand before it. -/
theorem mem_untilFull {blocks : Nat} {before after : List PeerScan} {p : PeerScan}
    (h : blocks + before.countP (fun q => q.notable ≠ []) < maxPeers) :
    p ∈ untilFull blocks (before ++ p :: after) := by
  induction before generalizing blocks with
  | nil =>
    rw [List.nil_append, untilFull]
    split
    · exact List.mem_cons_self
    · split <;> exact List.mem_cons_self
  | cons q before ih =>
    rw [List.countP_cons] at h
    rw [List.cons_append, untilFull]
    by_cases hq : q.notable = []
    · rw [if_pos hq]
      exact List.mem_cons_of_mem _ (ih (by simpa [hq] using h))
    · have hone : (if decide (q.notable ≠ []) = true then 1 else 0) = 1 := if_pos (decide_eq_true hq)
      rw [hone] at h
      rw [if_neg hq, if_neg (by omega)]
      exact List.mem_cons_of_mem _ (ih (by omega))

theorem mem_peersOf {chats : ChatRegistry} {key : JsString} {c : Chat} :
    c ∈ peersOf chats key ↔ c ∈ chats.rows ∧ c.archived = false ∧ c.key ≠ key := by
  rw [peersOf, List.mem_filter, list, List.mem_insertionSort, List.mem_filter, and_assoc]
  simp

theorem nodup_keys_peersOf (chats : ChatRegistry) (key : JsString) :
    ((peersOf chats key).map Chat.key).Nodup := by
  have hsorted : ((list chats false).map Chat.key).Nodup := by
    refine (((List.perm_insertionSort _ _).map Chat.key).nodup_iff).mpr ?_
    exact chats.nodup_keys.sublist (List.filter_sublist.map Chat.key)
  exact hsorted.sublist (List.filter_sublist.map Chat.key)

section Digest

variable {transcripts : TranscriptStore} {chats : ChatRegistry} {agentId key : JsString}

theorem exists_of_mem_scans {p : PeerScan}
    (h : p ∈ (buildCrossChatDigest tables transcripts chats agentId key).scans) :
    ∃ c ∈ peersOf chats key, p = scanPeer tables transcripts chats agentId key c := by
  obtain ⟨c, hc, rfl⟩ := List.mem_map.mp ((untilFull_sublist 0 _).mem h)
  exact ⟨c, List.mem_of_mem_take hc, rfl⟩

/-- The loop makes one round for a peer. -/
theorem nodup_keys_scans :
    ((buildCrossChatDigest tables transcripts chats agentId key).scans.map
      fun p => p.peer.key).Nodup := by
  have hscans := (untilFull_sublist 0 (((peersOf chats key).take maxPeersScanned).map
    (scanPeer tables transcripts chats agentId key))).map fun p => p.peer.key
  refine List.Nodup.sublist hscans ?_
  rw [List.map_map]
  have hkeys : (fun p : PeerScan => p.peer.key) ∘ scanPeer tables transcripts chats agentId key =
      Chat.key := by
    funext c
    rw [Function.comp_apply, scanPeer_peer]
  rw [hkeys]
  exact (nodup_keys_peersOf chats key).sublist ((List.take_sublist _ _).map Chat.key)

end Digest

/-! ### What a turn commits -/

/-- The cursors that a turn is to commit. -/
def ChatTurn.advance (turn : ChatTurn) : List (JsString × Nat) :=
  turn.scans.filterMap fun p => p.advance.map fun seq => (p.peer.key, seq)

namespace ChatTurn

variable {turn : ChatTurn}

theorem advance_eq (turn : ChatTurn) :
    (turn.digest.map CrossChatDigest.advance).getD [] = turn.advance := by
  unfold advance scans
  cases turn.digest <;> rfl

theorem ne_of_mem_advance {b : JsString}
    (h : ∀ p ∈ turn.scans, p.peer.key = b → p.advance = none) : ∀ x ∈ turn.advance, x.1 ≠ b := by
  rintro x hx rfl
  obtain ⟨p, hp, hsome⟩ := List.mem_filterMap.mp hx
  obtain ⟨n, hn, rfl⟩ := Option.map_eq_some_iff.mp hsome
  rw [h p hp rfl] at hn
  cases hn

theorem advance_split (hnodup : (turn.scans.map fun p => p.peer.key).Nodup) {p : PeerScan}
    (hp : p ∈ turn.scans) {seq : Nat} (hseq : p.advance = some seq) :
    ∃ before after, turn.advance = before ++ (p.peer.key, seq) :: after ∧
      ∀ x ∈ after, x.1 ≠ p.peer.key := by
  obtain ⟨front, back, hsplit⟩ := List.append_of_mem hp
  refine ⟨front.filterMap fun q => q.advance.map fun n => (q.peer.key, n),
    back.filterMap fun q => q.advance.map fun n => (q.peer.key, n), ?_, ?_⟩
  · rw [advance, hsplit, List.filterMap_append, List.filterMap_cons, hseq]
    rfl
  · intro x hx heq
    obtain ⟨q, hq, hsome⟩ := List.mem_filterMap.mp hx
    obtain ⟨n, -, rfl⟩ := Option.map_eq_some_iff.mp hsome
    rw [hsplit, List.map_append, List.map_cons] at hnodup
    have hback := (List.nodup_cons.mp (List.nodup_append.mp hnodup).2.1).1
    exact hback (heq ▸ List.mem_map_of_mem hq)

end ChatTurn

end OsModa.Gateway.CrossChat
