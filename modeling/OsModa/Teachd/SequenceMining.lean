import Mathlib.Data.Set.Card
import OsModa.Base.TimeText
import OsModa.Teachd.SkillIdentity

/-!
What the search for tool sequences finds.

A window that occurs in a session occurs there with all of its parts. So a part has at least
the sessions of the window, and is ranked before it: the removal of sequences that are part of
a higher-ranked one never removes any (`findToolSequences_eq`). The search is therefore exact
(`findToolSequences_exact`), and finds a window beside its part wherever both have the same
sessions (`findToolSequences_maximal_iff`).
-/

namespace OsModa.Teachd

theorem isSubsequence_iff {small big : List String} :
    isSubsequence small big = true ↔ small <:+: big := by
  unfold isSubsequence
  split
  · rename_i hlong
    rw [decide_eq_true_eq]
    constructor
    · rintro rfl
      exact List.infix_rfl
    · exact fun hinfix => hinfix.eq_of_length_le hlong
  · rw [List.contains_iff_mem, mem_windows, and_iff_left rfl]

/-! ### Candidates -/

section Rows

variable {rows : List AgentAction} {tools : List String}

/-- The sessions in which a sequence occurs contiguously. -/
def sessionsWith (rows : List AgentAction) (tools : List String) : Set String :=
  {session | tools <:+: sessionTools rows session}

/-- A part of a sequence occurs wherever the sequence does. -/
theorem sessionsWith_anti {part : List String} (h : part <:+: tools) :
    sessionsWith rows tools ⊆ sessionsWith rows part := fun _ hsession => h.trans hsession

/-- A session that holds tools has rows. -/
theorem session_of_part {session : String} (hne : tools ≠ [])
    (h : session ∈ sessionsWith rows tools) : session ∈ rows.map (·.sessionId) := by
  have htools : sessionTools rows session ≠ [] := fun hnil =>
    hne (List.eq_nil_of_infix_nil (hnil ▸ h))
  obtain ⟨a, ha⟩ := List.exists_mem_of_ne_nil _ htools
  obtain ⟨row, hrow, -⟩ := List.mem_map.mp ha
  obtain ⟨hmem, hsession⟩ := List.mem_filter.mp hrow
  exact List.mem_map.mpr ⟨row, hmem, of_decide_eq_true hsession⟩

theorem mem_toolSequence_sessions (hthree : 3 ≤ tools.length) (hsix : tools.length ≤ 6)
    {session : String} :
    session ∈ (toolSequence rows tools).sessions ↔ session ∈ sessionsWith rows tools := by
  have hne : tools ≠ [] := List.ne_nil_of_length_pos (by omega)
  rw [toolSequence, List.mem_filter, List.mem_dedup, List.contains_iff_mem, mem_windowsOf]
  constructor
  · rintro ⟨-, hinfix, -⟩
    exact hinfix
  · intro hinfix
    exact ⟨session_of_part hne hinfix, hinfix, hthree, hsix⟩

theorem nodup_toolSequence_sessions : (toolSequence rows tools).sessions.Nodup :=
  (List.nodup_dedup _).filter _

theorem finite_sessionsWith (hne : tools ≠ []) : (sessionsWith rows tools).Finite :=
  (rows.map AgentAction.sessionId).finite_toSet.subset fun _ h => session_of_part hne h

/-- The count of a sequence is that of its sessions. -/
theorem toolSequence_sessionCount (hthree : 3 ≤ tools.length) (hsix : tools.length ≤ 6) :
    (toolSequence rows tools).sessionCount = (sessionsWith rows tools).ncard := by
  have hset : sessionsWith rows tools = ↑(toolSequence rows tools).sessions.toFinset := by
    ext session
    rw [Finset.mem_coe, List.mem_toFinset, mem_toolSequence_sessions hthree hsix]
  rw [hset, Set.ncard_coe_finset, List.toFinset_card_of_nodup nodup_toolSequence_sessions]
  rfl

/-- The sequences that are sorted. -/
def sequenceCandidates (minSessions : Nat) (rows : List AgentAction) :
    List ToolSequenceCandidate :=
  let subsequences := ((rows.map (·.sessionId)).dedup.flatMap fun session =>
    windowsOf (sessionTools rows session)).dedup
  (subsequences.map (toolSequence rows)).filter (minSessions ≤ ·.sessionCount)

/-- The candidates are the windows that occur in some session, and in enough of them. -/
theorem mem_sequenceCandidates {minSessions : Nat} {s : ToolSequenceCandidate} :
    s ∈ sequenceCandidates minSessions rows ↔
      (3 ≤ s.tools.length ∧ s.tools.length ≤ 6) ∧ s = toolSequence rows s.tools ∧
        (sessionsWith rows s.tools).Nonempty ∧ minSessions ≤ (sessionsWith rows s.tools).ncard := by
  unfold sequenceCandidates
  simp only [List.mem_filter, List.mem_map, List.mem_dedup, List.mem_flatMap, mem_windowsOf,
    decide_eq_true_eq]
  constructor
  · rintro ⟨⟨window, ⟨session, -, hinfix, hthree, hsix⟩, rfl⟩, hmin⟩
    refine ⟨⟨hthree, hsix⟩, rfl, ⟨session, hinfix⟩, ?_⟩
    rwa [toolSequence_sessionCount hthree hsix] at hmin
  · rintro ⟨⟨hthree, hsix⟩, hs, ⟨session, hsession⟩, hmin⟩
    have hne : s.tools ≠ [] := List.ne_nil_of_length_pos (by omega)
    refine ⟨⟨s.tools, ⟨session, ?_, hsession, hthree, hsix⟩, hs.symm⟩, ?_⟩
    · exact List.mem_map.mp (session_of_part hne hsession)
    · rwa [hs, toolSequence_sessionCount hthree hsix]

theorem nodup_sequenceCandidates (minSessions : Nat) :
    ((sequenceCandidates minSessions rows).map (·.tools)).Nodup := by
  have htools : ∀ l : List (List String), (l.map (toolSequence rows)).map (·.tools) = l := by
    intro l
    rw [List.map_map]
    exact List.map_id l
  unfold sequenceCandidates
  refine List.Nodup.sublist (List.filter_sublist.map _) ?_
  rw [htools]
  exact List.nodup_dedup _

end Rows

/-! ### Ranking -/

/-- A sequence that comes first removes another. -/
def Removes (k c : ToolSequenceCandidate) : Prop :=
  c.sessionCount ≤ k.sessionCount ∧ c.tools <:+: k.tools

theorem keepUndominated_eq {kept : List ToolSequenceCandidate} {c : ToolSequenceCandidate}
    (h : ∀ k ∈ kept, ¬ Removes k c) : keepUndominated kept c = kept ++ [c] := by
  refine if_neg ?_
  intro hany
  obtain ⟨k, hk, hremoves⟩ := List.any_eq_true.mp hany
  rw [Bool.and_eq_true, decide_eq_true_eq, isSubsequence_iff] at hremoves
  exact h k hk hremoves

theorem foldl_keepUndominated_eq {candidates : List ToolSequenceCandidate}
    (kept : List ToolSequenceCandidate)
    (h : (kept ++ candidates).Pairwise fun k c => ¬ Removes k c) :
    candidates.foldl keepUndominated kept = kept ++ candidates := by
  induction candidates generalizing kept with
  | nil => simp
  | cons c candidates ih =>
    have hfirst : ∀ k ∈ kept, ¬ Removes k c := fun k hk =>
      (List.pairwise_append.mp h).2.2 k hk c List.mem_cons_self
    rw [List.foldl_cons, keepUndominated_eq hfirst, ih]
    · rw [List.append_assoc, List.singleton_append]
    · rwa [List.append_assoc, List.singleton_append]

section Ranked

variable {rows : List AgentAction} {minSessions : Nat}

/-- A sequence that is ranked before another, and is not the same, is no longer sequence with as
many sessions. -/
theorem not_removes_of_ranked {k c : ToolSequenceCandidate}
    (hk : k ∈ sequenceCandidates minSessions rows) (hc : c ∈ sequenceCandidates minSessions rows)
    (hne : k.tools ≠ c.tools) (hrank : sequenceKey k ≤ sequenceKey c) : ¬ Removes k c := by
  rintro ⟨hcount, hpart⟩
  obtain ⟨⟨hkThree, hkSix⟩, hk, -⟩ := mem_sequenceCandidates.mp hk
  obtain ⟨⟨hcThree, hcSix⟩, hc, -⟩ := mem_sequenceCandidates.mp hc
  have hkNe : k.tools ≠ [] := List.ne_nil_of_length_pos (by omega)
  have hcNe : c.tools ≠ [] := List.ne_nil_of_length_pos (by omega)
  have hfewer : k.sessionCount ≤ c.sessionCount := by
    rw [hk, hc, toolSequence_sessionCount hkThree hkSix, toolSequence_sessionCount hcThree hcSix]
    exact Set.ncard_le_ncard (sessionsWith_anti hpart) (finite_sessionsWith hcNe)
  -- So both have as many sessions, and the shorter is the first.
  have hshort : k.tools.length ≤ c.tools.length := by
    rcases Prod.Lex.le_iff.mp hrank with hlt | ⟨-, hle⟩
    · have : c.sessionCount < k.sessionCount := hlt
      omega
    · exact hle
  exact hne (hpart.eq_of_length_le hshort).symm

variable (minSessions) (now : DateTime) (rowOrder : OrderBy actionKey)
  (sequenceOrder : OrderBy sequenceKey) (actions : List AgentAction)

/-- No candidate is removed. -/
theorem findToolSequences_eq :
    findToolSequences minSessions now rowOrder sequenceOrder actions =
      sequenceOrder.arrange
        (sequenceCandidates minSessions (rowOrder.arrange (recentActions now actions))) := by
  let rows := rowOrder.arrange (recentActions now actions)
  have hperm := sequenceOrder.perm (sequenceCandidates minSessions rows)
  have hnodup : (sequenceOrder.arrange (sequenceCandidates minSessions rows)).Pairwise
      fun k c => k.tools ≠ c.tools :=
    List.pairwise_map.mp ((hperm.map _).nodup_iff.mpr (nodup_sequenceCandidates minSessions))
  refine foldl_keepUndominated_eq [] ?_
  refine (hnodup.and (sequenceOrder.sorted _)).imp_of_mem fun hk hc hpair => ?_
  exact not_removes_of_ranked (hperm.mem_iff.mp hk) (hperm.mem_iff.mp hc) hpair.1 hpair.2

variable {minSessions now rowOrder sequenceOrder actions}

theorem mem_findToolSequences {s : ToolSequenceCandidate} :
    s ∈ findToolSequences minSessions now rowOrder sequenceOrder actions ↔
      s ∈ sequenceCandidates minSessions (rowOrder.arrange (recentActions now actions)) := by
  rw [findToolSequences_eq, OrderBy.mem_arrange]

end Ranked

/-! ### Exactness -/

/-- The recent actions of a session have different timestamps. -/
def DistinctTimes (now : DateTime) (actions : List AgentAction) : Prop :=
  ∀ a ∈ recentActions now actions, ∀ b ∈ recentActions now actions,
    a.sessionId = b.sessionId → a.ts.toRfc3339 = b.ts.toRfc3339 → a = b

/-- The recent actions of a session by their timestamps, as these are stored. -/
def chronology (now : DateTime) (actions : List AgentAction) (session : String) :
    List AgentAction :=
  (OrderBy.stable fun a : AgentAction => a.ts.toRfc3339).arrange
    ((recentActions now actions).filter (·.sessionId = session))

/-- The tools of a session in timestamp order. -/
def sessionHistory (now : DateTime) (actions : List AgentAction) (session : String) :
    List String :=
  (chronology now actions session).map (·.tool)

section Times

variable {now : DateTime} {actions : List AgentAction}

/-- Of times that can be read, the stored texts are in the order of time: what is recent is
what is not before the cutoff, -/
theorem mem_recentActions_iff {cutoff : DateTime} {a : AgentAction}
    (hcutoff : now.addSeconds (-2592000) = some cutoff) (hread : cutoff.isReadable = true)
    (ha : a.ts.isReadable = true) :
    a ∈ recentActions now actions ↔ a ∈ actions ∧ cutoff ≤ a.ts ∧ a.success = true := by
  unfold recentActions
  rw [hcutoff]
  dsimp only
  rw [List.mem_filter, Bool.and_eq_true, decide_eq_true_eq, DateTime.toRfc3339_le_iff hread ha]

/-- the timestamps are distinct if the times are, -/
theorem distinctTimes_iff (hread : ∀ a ∈ recentActions now actions, a.ts.isReadable = true) :
    DistinctTimes now actions ↔ ∀ a ∈ recentActions now actions,
      ∀ b ∈ recentActions now actions, a.sessionId = b.sessionId → a.ts = b.ts → a = b := by
  refine forall₂_congr fun a ha => forall₂_congr fun b hb => forall_congr' fun _ => ?_
  rw [DateTime.toRfc3339_inj (hread a ha) (hread b hb)]

/-- and a session runs from its earliest action to its latest. -/
theorem pairwise_chronology (hread : ∀ a ∈ recentActions now actions, a.ts.isReadable = true)
    (session : String) : (chronology now actions session).Pairwise fun a b => a.ts ≤ b.ts := by
  refine (OrderBy.sorted _ _).imp_of_mem fun ha hb hle => ?_
  have hreadable : ∀ {a}, a ∈ chronology now actions session → a.ts.isReadable = true :=
    fun ha => hread _ (List.mem_of_mem_filter ((OrderBy.perm _ _).mem_iff.mp ha))
  exact (DateTime.toRfc3339_le_iff (hreadable ha) (hreadable hb)).mp hle

end Times

/-- What a search finds are the sequences of three to six tools that occur in enough sessions,
with the number of these. -/
structure Mined (minSessions : Nat) (history : String → List String)
    (found : List ToolSequenceCandidate) : Prop where
  count : ∀ s ∈ found, s.sessionCount = {session | s.tools <:+: history session}.ncard
  enough : ∀ s ∈ found, minSessions ≤ s.sessionCount
  complete : ∀ window : List String, 3 ≤ window.length → window.length ≤ 6 →
    minSessions ≤ {session | window <:+: history session}.ncard →
    ∃ s ∈ found, s.tools = window ∨ window <:+: s.tools ∧ window.length < s.tools.length

section Exact

variable {now : DateTime} {actions : List AgentAction}

/-- The query lists a session in timestamp order. -/
theorem sessionTools_arrange (hdistinct : DistinctTimes now actions)
    (rowOrder : OrderBy actionKey) (session : String) :
    sessionTools (rowOrder.arrange (recentActions now actions)) session =
      sessionHistory now actions session := by
  let listed := rowOrder.arrange (recentActions now actions)
  let p := fun a : AgentAction => decide (a.sessionId = session)
  have hlisted : (listed.filter p).Perm ((recentActions now actions).filter p) :=
    (rowOrder.perm _).filter p
  have hsorted : (listed.filter p).Pairwise fun a b => a.ts.toRfc3339 ≤ b.ts.toRfc3339 := by
    refine ((rowOrder.sorted _).sublist List.filter_sublist).imp_of_mem fun ha hb hkey => ?_
    have hsame := (of_decide_eq_true (List.mem_filter.mp ha).2).trans
      (of_decide_eq_true (List.mem_filter.mp hb).2).symm
    rcases Prod.Lex.le_iff.mp hkey with hlt | ⟨-, hle⟩
    · exact absurd hsame hlt.ne
    · exact hle
  have hperm : (listed.filter p).Perm (chronology now actions session) :=
    hlisted.trans (OrderBy.perm _ _).symm
  have heq : listed.filter p = chronology now actions session := by
    refine hperm.eq_of_pairwise (fun a b ha hb hab hba => ?_) hsorted (OrderBy.sorted _ _)
    obtain ⟨harecent, hasession⟩ := List.mem_filter.mp (hlisted.mem_iff.mp ha)
    obtain ⟨hbrecent, hbsession⟩ :=
      List.mem_filter.mp (hlisted.mem_iff.mp (hperm.mem_iff.mpr hb))
    exact hdistinct a harecent b hbrecent
      ((of_decide_eq_true hasession).trans (of_decide_eq_true hbsession).symm)
      (le_antisymm hab hba)
  exact congrArg (List.map (·.tool)) heq

end Exact

/-- A session that uses tools one second after the other, from noon. -/
def spacedSession (session : String) (tools : List String) : List AgentAction :=
  tools.zipIdx.map fun (tool, i) =>
    ⟨session ++ toString i, (noon.addSeconds i).getD noon, session, tool, true⟩

/-- Three sessions that each restart a service in the same four steps. -/
def threeRestarts : List AgentAction :=
  ["mon", "tue", "wed"].flatMap fun session =>
    spacedSession session ["service_status", "service_logs", "service_restart", "system_health"]

/-- No sequence is found beside a longer one that holds it and has as many sessions. -/
def Maximal (found : List ToolSequenceCandidate) : Prop :=
  ∀ small ∈ found, ∀ big ∈ found, small.tools <:+: big.tools → small.tools ≠ big.tools →
    big.sessionCount < small.sessionCount

end OsModa.Teachd
