import Mathlib.Data.Finset.Card
import OsModa.Watch.Fleet

/-!
Whether a veto is called exactly when the quorum is out of reach.

What the votes still to come can reach (`CanReach`) is counted over the participants, each of
whom votes once; `is_vetoed` counts the entries of the proposed list. A list that names a
participant twice has more entries than votes, so that a quorum out of reach is still waited
for. The two agree on lists of distinct participants, and on others as long as the quorum is not
in between (`veto_exact_iff`).
-/

namespace OsModa.Watch

namespace FleetSwitch

/-! ### Votes to come -/

/-- What a participant sends. -/
structure Ballot where
  peerId : String
  approve : Bool
  reason : Option String
  votedAt : DateTime

/-- Votes that come in one after the other; some are not recorded. -/
def recordVotes (fs : FleetSwitch) (ballots : List Ballot) : FleetSwitch :=
  ballots.foldl (fun fs b => (fs.recordVote b.peerId b.approve b.reason b.votedAt).getD fs) fs

/-- The participants, each once. -/
def members (fs : FleetSwitch) : Finset String := (fs.participants.map (·.peerId)).toFinset

def voters (fs : FleetSwitch) : Finset String := (fs.votes.map (·.peerId)).toFinset

/-- The participants that have not voted yet. -/
def unvoted (fs : FleetSwitch) : Finset String := fs.members \ fs.voters

/-- Some of those who have not voted yet can approve so that the quorum of distinct participants
is reached. -/
def CanReach (fs : FleetSwitch) : Prop :=
  ∃ approving ⊆ fs.unvoted, fs.quorumRequired ≤ (fs.approvers ∪ approving).card

/-- The proposal is vetoed exactly when the quorum is out of reach. -/
def VetoExact (fs : FleetSwitch) : Prop := fs.isVetoed = true ↔ ¬ fs.CanReach

/-- The quorum with the denials is within the number of participants, or beyond the number of
entries in the list too. -/
def RepeatsHarmless (fs : FleetSwitch) : Prop :=
  fs.quorumRequired + fs.denyCount ≤ fs.members.card ∨
    fs.participantCount < fs.quorumRequired + fs.denyCount

instance (fs : FleetSwitch) : Decidable fs.RepeatsHarmless := inferInstanceAs (Decidable (_ ∨ _))

/-! ### Counting -/

variable {fs fs' : FleetSwitch}

theorem members_card_le (fs : FleetSwitch) : fs.members.card ≤ fs.participantCount := by
  have hlength : (fs.participants.map (·.peerId)).length = fs.participantCount := List.length_map _
  rw [← hlength]
  exact List.toFinset_card_le _

theorem approveCount_add_denyCount (fs : FleetSwitch) :
    fs.approveCount + fs.denyCount = fs.votes.length := by
  rw [approveCount, denyCount, List.length_eq_countP_add_countP (·.approve)]
  congr 1
  exact List.countP_congr fun v _ => by simp

namespace Sound

theorem approvers_card (h : fs.Sound) : fs.approvers.card = fs.approveCount := by
  refine le_antisymm ?_ h.approveCount_le
  have hsub : fs.approvers ⊆ ((fs.votes.filter (·.approve)).map (·.peerId)).toFinset := by
    intro peerId hpeer
    obtain ⟨-, v, hv, rfl, happrove⟩ := Finset.mem_filter.mp hpeer
    exact List.mem_toFinset.mpr (List.mem_map_of_mem (List.mem_filter.mpr ⟨hv, happrove⟩))
  have hcard := (Finset.card_le_card hsub).trans (List.toFinset_card_le _)
  rwa [List.length_map, ← List.countP_eq_length_filter] at hcard

theorem unvoted_card_add (h : fs.Sound) :
    fs.unvoted.card + fs.votes.length = fs.members.card := by
  have hvoters : fs.voters ⊆ fs.members := by
    intro peerId hpeer
    obtain ⟨v, hv, rfl⟩ := List.mem_map.mp (List.mem_toFinset.mp hpeer)
    exact List.mem_toFinset.mpr (h.member v hv)
  have hlength : fs.voters.card = fs.votes.length := by
    rw [voters, List.toFinset_card_of_nodup h.once, List.length_map]
  rw [unvoted, ← hlength]
  exact Finset.card_sdiff_add_card_eq_card hvoters

theorem approvers_disjoint (fs : FleetSwitch) : Disjoint fs.approvers fs.unvoted := by
  refine Finset.disjoint_left.mpr ?_
  intro peerId happrover hunvoted
  obtain ⟨-, v, hv, rfl, -⟩ := Finset.mem_filter.mp happrover
  exact (Finset.mem_sdiff.mp hunvoted).2 (List.mem_toFinset.mpr (List.mem_map_of_mem hv))

/-- The quorum is within reach unless too few participants are left that have not denied. -/
theorem canReach_iff (h : fs.Sound) :
    fs.CanReach ↔ fs.quorumRequired + fs.denyCount ≤ fs.members.card := by
  have hall : (fs.approvers ∪ fs.unvoted).card + fs.denyCount = fs.members.card := by
    have hvotes := approveCount_add_denyCount fs
    have hmembers := h.unvoted_card_add
    rw [Finset.card_union_of_disjoint (approvers_disjoint fs), h.approvers_card]
    omega
  constructor
  · rintro ⟨approving, hsub, hquorum⟩
    have hle := Finset.card_le_card (Finset.union_subset_union_right (s := fs.approvers) hsub)
    omega
  · intro hle
    exact ⟨fs.unvoted, subset_rfl, by omega⟩

/-- A veto is called when too few entries are left. -/
theorem isVetoed_iff (h : fs.Sound) :
    fs.isVetoed = true ↔ fs.participantCount < fs.quorumRequired + fs.denyCount := by
  have hvotes := approveCount_add_denyCount fs
  have hlength := h.votes_length_le
  unfold isVetoed
  rw [decide_eq_true_eq]
  omega

theorem vetoExact_iff (h : fs.Sound) : fs.VetoExact ↔ fs.RepeatsHarmless := by
  have hcard := members_card_le fs
  unfold VetoExact RepeatsHarmless
  rw [h.isVetoed_iff, h.canReach_iff]
  omega

end Sound

/-! ### Recorded votes -/

/-- More votes on the same proposal. -/
structure Extends (fs fs' : FleetSwitch) : Prop where
  votes : fs.votes <+: fs'.votes
  ids : fs'.participants.map (·.peerId) = fs.participants.map (·.peerId)
  percent : fs'.quorumPercent = fs.quorumPercent

namespace Extends

theorem refl (fs : FleetSwitch) : fs.Extends fs := ⟨List.prefix_rfl, rfl, rfl⟩

theorem trans {fs'' : FleetSwitch} (h : fs.Extends fs') (h' : fs'.Extends fs'') :
    fs.Extends fs'' :=
  ⟨h.votes.trans h'.votes, h'.ids.trans h.ids, h'.percent.trans h.percent⟩

theorem quorumRequired (h : fs.Extends fs') : fs'.quorumRequired = fs.quorumRequired := by
  have hcount := congrArg List.length h.ids
  rw [List.length_map, List.length_map] at hcount
  rw [FleetSwitch.quorumRequired, participantCount, hcount, h.percent]
  rfl

end Extends

/-- A vote of a participant who has not voted yet is recorded. -/
theorem recordVote_of_unvoted {peerId : String} (h : peerId ∈ fs.unvoted) (approve : Bool)
    (reason : Option String) (now : DateTime) :
    fs.recordVote peerId approve reason now = some { fs with
      votes := fs.votes ++ [⟨peerId, approve, reason, now⟩]
      participants := setStatus peerId .voted fs.participants } := by
  obtain ⟨hmember, hfresh⟩ := Finset.mem_sdiff.mp h
  obtain ⟨p, hp, hpid⟩ := List.mem_map.mp (List.mem_toFinset.mp hmember)
  have hnone : fs.votes.any (·.peerId = peerId) = false := by
    rw [List.any_eq_false]
    intro v hv hid
    exact hfresh (List.mem_toFinset.mpr (of_decide_eq_true hid ▸ List.mem_map_of_mem hv))
  have hsome : fs.participants.any (·.peerId = peerId) = true :=
    List.any_eq_true.mpr ⟨p, hp, decide_eq_true hpid⟩
  rw [recordVote, hnone, hsome]
  rfl

theorem extends_recordVote {peerId : String} {approve : Bool} {reason : Option String}
    {now : DateTime} (h : fs.recordVote peerId approve reason now = some fs') :
    fs.Extends fs' := by
  obtain ⟨-, -, rfl⟩ := recordVote_eq_some h
  exact ⟨List.prefix_append _ _, setStatus_ids _ _ _, rfl⟩

/-- Votes come in on a proposal: it stays sound, and what was recorded stays. -/
theorem recordVotes_spec (h : fs.Sound) (hphase : fs.phase = .propose) (ballots : List Ballot) :
    (fs.recordVotes ballots).Sound ∧ fs.Extends (fs.recordVotes ballots) := by
  induction ballots generalizing fs with
  | nil => exact ⟨h, .refl fs⟩
  | cons b ballots ih =>
    rw [recordVotes, List.foldl_cons]
    cases hrecord : fs.recordVote b.peerId b.approve b.reason b.votedAt with
    | none => exact ih h hphase
    | some fs' =>
      have hphase' : fs'.phase = .propose := by
        obtain ⟨-, -, rfl⟩ := recordVote_eq_some hrecord
        exact hphase
      obtain ⟨hsound, hextends⟩ := ih (h.recordVote hphase hrecord) hphase'
      exact ⟨hsound, (extends_recordVote hrecord).trans hextends⟩

/-- Each of them can approve. -/
theorem approveCount_recordVotes (now : DateTime) {ids : List String} (hnodup : ids.Nodup)
    (hsub : ∀ id ∈ ids, id ∈ fs.unvoted) :
    (fs.recordVotes (ids.map (⟨·, true, none, now⟩))).approveCount =
      fs.approveCount + ids.length := by
  induction ids generalizing fs with
  | nil => rfl
  | cons id ids ih =>
    obtain ⟨hfresh, hnodup⟩ := List.nodup_cons.mp hnodup
    obtain ⟨hid, hsub⟩ := List.forall_mem_cons.mp hsub
    rw [recordVotes, List.map_cons, List.foldl_cons, recordVote_of_unvoted hid, Option.getD_some,
      ← recordVotes, ih hnodup fun id' hid' => ?_]
    · have hcount : (fs.votes ++ [(⟨id, true, none, now⟩ : FleetVote)]).countP (·.approve) =
          fs.approveCount + 1 := List.countP_append
      rw [approveCount, hcount, List.length_cons]
      omega
    · have hne : id' ≠ id := fun h => hfresh (h ▸ hid')
      obtain ⟨hmember, hunvoted⟩ := Finset.mem_sdiff.mp (hsub id' hid')
      refine Finset.mem_sdiff.mpr ⟨?_, ?_⟩
      · rw [members, setStatus_ids]
        exact hmember
      · rw [voters, List.map_append, List.toFinset_append, Finset.mem_union, not_or]
        exact ⟨hunvoted, by simpa using hne⟩

/-- What is within reach is what further votes can bring about. -/
theorem canReach_iff_votes (h : fs.Sound) (hphase : fs.phase = .propose) :
    fs.CanReach ↔ ∃ ballots, (fs.recordVotes ballots).hasQuorum = true := by
  constructor
  · rintro ⟨approving, hsub, hquorum⟩
    refine ⟨approving.toList.map (⟨·, true, none, fs.createdAt⟩), decide_eq_true ?_⟩
    have hcount := approveCount_recordVotes fs.createdAt approving.nodup_toList fun id hid =>
      hsub (Finset.mem_toList.mp hid)
    have hunion := Finset.card_union_le fs.approvers approving
    rw [(recordVotes_spec h hphase _).2.quorumRequired, hcount, Finset.length_toList]
    rw [h.approvers_card] at hunion
    omega
  · rintro ⟨ballots, hquorum⟩
    obtain ⟨hsound, hextends⟩ := recordVotes_spec h hphase ballots
    generalize fs.recordVotes ballots = fs' at hquorum hsound hextends
    refine ⟨fs'.approvers \ fs.approvers, fun peerId hpeer => ?_, ?_⟩
    · obtain ⟨happrover, hnot⟩ := Finset.mem_sdiff.mp hpeer
      obtain ⟨hmember, v, hv, rfl, happrove⟩ := Finset.mem_filter.mp happrover
      rw [hextends.ids] at hmember
      refine Finset.mem_sdiff.mpr ⟨hmember, fun hvoter => hnot ?_⟩
      -- An earlier vote of the participant is the only one, and so the approving one.
      obtain ⟨w, hw, hid⟩ := List.mem_map.mp (List.mem_toFinset.mp hvoter)
      obtain rfl := List.inj_on_of_nodup_map hsound.once (hextends.votes.subset hw) hv hid
      exact Finset.mem_filter.mpr ⟨hmember, w, hw, rfl, happrove⟩
    · have hle := of_decide_eq_true hquorum
      rw [hextends.quorumRequired, ← hsound.approvers_card] at hle
      refine hle.trans (Finset.card_le_card ?_)
      rw [Finset.union_sdiff_self_eq_union]
      exact Finset.subset_union_right

/-! ### Vetoes -/

/-- **Whatever is proposed and however it is voted on**, the proposal counts as vetoed exactly when
the quorum is out of reach, if and only if participants that are named repeatedly do no harm. -/
theorem veto_exact_iff (id plan proposer : String) (peerIds : List String)
    (quorumPercent : Option UInt8) (timeoutSecs : Option UInt64) (now : DateTime)
    (ballots : List Ballot) :
    ((new id plan proposer peerIds quorumPercent timeoutSecs now).recordVotes ballots).VetoExact ↔
      ((new id plan proposer peerIds quorumPercent timeoutSecs now).recordVotes
        ballots).RepeatsHarmless :=
  (recordVotes_spec (sound_new ..) rfl ballots).1.vetoExact_iff

/-- On a list of distinct participants a veto is always exact. -/
theorem veto_exact_of_nodup (id plan proposer : String) {peerIds : List String}
    (hnodup : peerIds.Nodup) (quorumPercent : Option UInt8) (timeoutSecs : Option UInt64)
    (now : DateTime) (ballots : List Ballot) :
    ((new id plan proposer peerIds quorumPercent timeoutSecs now).recordVotes
      ballots).VetoExact := by
  obtain ⟨hsound, hextends⟩ := recordVotes_spec
    (sound_new id plan proposer peerIds quorumPercent timeoutSecs now) rfl ballots
  have hids : (new id plan proposer peerIds quorumPercent timeoutSecs now).participants.map
      (·.peerId) = peerIds := by
    rw [new, List.map_map]
    exact List.map_id' _
  rw [hsound.vetoExact_iff, RepeatsHarmless, members, participantCount,
    ← List.length_map (·.peerId), hextends.ids, hids, List.toFinset_card_of_nodup hnodup]
  exact Nat.lt_or_ge _ _ |>.symm

end FleetSwitch

/-- In every switch that the coordinator holds, after any requests. -/
theorem veto_exact_run (inputs : List FleetInput) :
    ∀ t ∈ Machine.trace fleetNext inputs .new, ∀ fs ∈ t.after.switches.rows,
      fs.VetoExact ↔ fs.RepeatsHarmless := by
  intro t ht fs hfs
  exact (sound_run inputs t ht fs hfs).vetoExact_iff

/-- A proposal to one host, which is named twice: no vote can bring the two approvals that it
needs, and it does not count as vetoed. -/
theorem namedTwice_not_vetoed :
    ¬ ∀ id plan proposer peerIds quorumPercent timeoutSecs now ballots,
      ((FleetSwitch.new id plan proposer peerIds quorumPercent timeoutSecs now).recordVotes
        ballots).VetoExact := by
  intro h
  have hsound := FleetSwitch.sound_new "s" "upgrade nginx" "local" ["node-a", "node-a"] none none
    ⟨0, DateTime.zero_inRange⟩
  have hharmless := hsound.vetoExact_iff.mp (h _ _ _ _ _ _ _ [])
  revert hharmless
  decide +kernel

end OsModa.Watch
