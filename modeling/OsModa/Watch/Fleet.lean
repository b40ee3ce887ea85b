import Mathlib.Data.Finset.Card
import Mathlib.Data.Rat.Floor
import OsModa.Base.Machine
import OsModa.Base.Table
import OsModa.Base.Time

/-!
The fleet coordinator: proposals of a switch over several hosts, and the votes on them.

A switch counts a vote of a participant once, and is executed when a vote completes its
quorum; `Sound` is what its votes and its phase have to do with each other, and no request
breaks it (`quorum_safe`). The phases themselves go backwards: a vote after the timeout
aborts a switch whatever its phase, and a rollback asks for no phase at all. Apart from
such requests they only move forward (`phases_forward_iff`).
-/

namespace OsModa.Watch

open OsModa.Machine

/-! ### A fleet switch -/

/-- Fleet-wide SafeSwitch coordination phases. -/
inductive FleetPhase where
  | propose
  | vote
  | execute
  | verify
  | committed
  | rolledBack (reason : String)
  | aborted (reason : String)
  deriving DecidableEq

/-- A vote from a fleet participant. -/
structure FleetVote where
  peerId : String
  approve : Bool
  reason : Option String
  votedAt : DateTime

/-- Status of a participant in a fleet switch. -/
inductive ParticipantStatus where
  | pending
  | voted
  | executing
  | healthy
  | failed (reason : String)

structure FleetParticipant where
  peerId : String
  status : ParticipantStatus

/-- A fleet-wide SafeSwitch session. -/
structure FleetSwitch where
  id : String
  plan : String
  proposer : String
  participants : List FleetParticipant
  votes : List FleetVote
  quorumPercent : UInt8
  phase : FleetPhase
  createdAt : DateTime
  timeoutSecs : UInt64
  resultSummary : Option String

def defaultFleetTimeoutSecs : UInt64 := 300

def defaultQuorumPercent : UInt8 := 51

namespace FleetSwitch

/-- Create a new fleet switch proposal. -/
def new (id plan proposer : String) (peerIds : List String) (quorumPercent : Option UInt8)
    (timeoutSecs : Option UInt64) (now : DateTime) : FleetSwitch where
  id := id
  plan := plan
  proposer := proposer
  participants := peerIds.map (⟨·, .pending⟩)
  votes := []
  quorumPercent := quorumPercent.getD defaultQuorumPercent
  phase := .propose
  createdAt := now
  timeoutSecs := timeoutSecs.getD defaultFleetTimeoutSecs
  resultSummary := none

variable (fs : FleetSwitch)

def participantCount : Nat := fs.participants.length

/-- Number of votes required for quorum. -/
def quorumRequired : Nat :=
  max ⌈(fs.participantCount : ℚ) * fs.quorumPercent.toNat / 100⌉₊ 1

/-- Number of approve votes received. -/
def approveCount : Nat := fs.votes.countP (·.approve)

/-- Number of deny votes received. -/
def denyCount : Nat := fs.votes.countP (!·.approve)

/-- Check if quorum has been reached. -/
def hasQuorum : Bool := fs.quorumRequired ≤ fs.approveCount

/-- Check if the proposal is vetoed (enough denies to make quorum impossible). -/
def isVetoed : Bool :=
  let remaining := fs.participantCount - fs.votes.length
  fs.approveCount + remaining < fs.quorumRequired

/-- Check if the fleet switch has timed out. -/
def isTimedOut (now : DateTime) : Bool :=
  fs.createdAt.elapsed now fs.timeoutSecs

/-- The status of the first participant with that id. -/
def setStatus (peerId : String) (status : ParticipantStatus) :
    List FleetParticipant → List FleetParticipant
  | [] => []
  | p :: ps =>
    if p.peerId = peerId then { p with status := status } :: ps
    else p :: setStatus peerId status ps

/-- Record a vote from a participant; `none` for a vote that is not recorded. -/
def recordVote (peerId : String) (approve : Bool) (reason : Option String) (now : DateTime) :
    Option FleetSwitch :=
  -- Check for duplicate vote
  if fs.votes.any (·.peerId = peerId) then none
  -- Check if peer is a participant
  else if !fs.participants.any (·.peerId = peerId) then none
  else some { fs with
    votes := fs.votes ++ [⟨peerId, approve, reason, now⟩]
    participants := setStatus peerId .voted fs.participants }

/-- Advance phase to Execute (after quorum). -/
def advanceToExecute : FleetSwitch :=
  if fs.hasQuorum then
    { fs with
      phase := .execute
      participants := fs.participants.map fun p =>
        if fs.votes.any fun v => v.peerId = p.peerId && v.approve then { p with status := .executing }
        else p }
  else fs

/-- Rollback the fleet switch. -/
def rollback (reason : String) : FleetSwitch :=
  { fs with phase := .rolledBack reason, resultSummary := some ("rolled back: " ++ reason) }

/-- Abort the fleet switch. -/
def abort (reason : String) : FleetSwitch :=
  { fs with phase := .aborted reason, resultSummary := some ("aborted: " ++ reason) }

end FleetSwitch

/-! ### The coordinator and its requests -/

/-- Fleet coordinator that manages fleet-wide switches. -/
structure FleetCoordinator where
  switches : Table FleetSwitch.id

def FleetCoordinator.new : FleetCoordinator := ⟨.empty⟩

structure FleetProposeRequest where
  plan : String
  peerIds : List String
  quorumPercent : Option UInt8
  timeoutSecs : Option UInt64

structure FleetVoteRequest where
  peerId : String
  approve : Bool
  reason : Option String

/-- The phase is sent as its debug text. -/
structure FleetSwitchResponse where
  id : String
  plan : String
  proposer : String
  phase : FleetPhase
  participantCount : Nat
  approveCount : Nat
  denyCount : Nat
  quorumRequired : Nat
  hasQuorum : Bool
  resultSummary : Option String

def FleetSwitchResponse.ofSwitch (fs : FleetSwitch) : FleetSwitchResponse :=
  ⟨fs.id, fs.plan, fs.proposer, fs.phase, fs.participantCount, fs.approveCount, fs.denyCount,
    fs.quorumRequired, fs.hasQuorum, fs.resultSummary⟩

/-- A status code and a body. -/
abbrev FleetReply := Except (Nat × String) FleetSwitchResponse

/-- A request of the local API. A proposal draws the id of its switch. -/
inductive FleetRequest where
  | propose (id : String) (request : FleetProposeRequest)
  | status (id : String)
  | vote (id : String) (request : FleetVoteRequest)
  | rollback (id : String)

structure FleetInput where
  request : FleetRequest
  now : DateTime

namespace FleetCoordinator

variable (c : FleetCoordinator)

/-- POST /fleet/propose -/
def fleetProposeHandler (id : String) (req : FleetProposeRequest) (now : DateTime) :
    FleetReply × FleetCoordinator :=
  if req.peerIds.isEmpty then (.error (400, "peer_ids must not be empty"), c)
  else
    let fs := FleetSwitch.new id req.plan "local" req.peerIds req.quorumPercent req.timeoutSecs now
    (.ok (.ofSwitch fs), ⟨c.switches.put fs⟩)

/-- GET /fleet/status/{id} -/
def fleetStatusHandler (id : String) : FleetReply :=
  match c.switches.find? id with
  | none => .error (404, "fleet switch not found")
  | some fs => .ok (.ofSwitch fs)

/-- What becomes of a switch by a recorded vote. -/
def afterVote (fs : FleetSwitch) : FleetSwitch :=
  if fs.hasQuorum then fs.advanceToExecute
  else if fs.isVetoed then fs.abort "proposal vetoed — insufficient approvals possible"
  else fs

/-- POST /fleet/vote/{id}, from the switch on. -/
def voteOn (fs : FleetSwitch) (req : FleetVoteRequest) (now : DateTime) :
    Except (Nat × String) Unit × FleetSwitch :=
  if fs.isTimedOut now then
    (.error (410, "fleet switch timed out"), fs.abort "timeout — voting period expired")
  else if fs.phase ≠ .propose then (.error (409, "fleet switch is not in proposal phase"), fs)
  else
    match fs.recordVote req.peerId req.approve req.reason now with
    | none => (.error (409, "duplicate vote or not a participant"), fs)
    | some fs => (.ok (), afterVote fs)

/-- An id that a vote is refused for. -/
def badPeerId (peerId : String) : Bool := peerId.isEmpty || 256 < peerId.utf8ByteSize

/-- POST /fleet/vote/{id} — cast a vote on a fleet switch. -/
def fleetVoteHandler (id : String) (req : FleetVoteRequest) (now : DateTime) :
    FleetReply × FleetCoordinator :=
  if badPeerId req.peerId then (.error (400, "invalid peer_id"), c)
  else
    match c.switches.find? id with
    | none => (.error (404, "fleet switch not found"), c)
    | some fs =>
      let out := voteOn fs req now
      (out.1.map fun _ => .ofSwitch out.2, ⟨c.switches.put out.2⟩)

/-- POST /fleet/rollback/{id} — force rollback a fleet switch. -/
def fleetRollbackHandler (id : String) : FleetReply × FleetCoordinator :=
  match c.switches.find? id with
  | none => (.error (404, "fleet switch not found"), c)
  | some fs =>
    let fs := fs.rollback "manual rollback requested"
    (.ok (.ofSwitch fs), ⟨c.switches.put fs⟩)

end FleetCoordinator

def fleetNext (input : FleetInput) (c : FleetCoordinator) : FleetReply × FleetCoordinator :=
  match input.request with
  | .propose id req => c.fleetProposeHandler id req input.now
  | .status id => (c.fleetStatusHandler id, c)
  | .vote id req => c.fleetVoteHandler id req input.now
  | .rollback id => c.fleetRollbackHandler id

abbrev FleetStep := Step FleetCoordinator FleetInput FleetReply

/-! ### What a request does to a switch -/

namespace FleetSwitch

variable {fs fs' : FleetSwitch}

@[simp] theorem setStatus_ids (peerId : String) (status : ParticipantStatus)
    (ps : List FleetParticipant) :
    (setStatus peerId status ps).map (·.peerId) = ps.map (·.peerId) := by
  induction ps with
  | nil => rfl
  | cons p ps ih =>
    rw [setStatus]
    split
    · rfl
    · rw [List.map_cons, ih, List.map_cons]

@[simp] theorem advanceToExecute_id (fs : FleetSwitch) : fs.advanceToExecute.id = fs.id := by
  unfold advanceToExecute
  split <;> rfl

@[simp] theorem advanceToExecute_votes (fs : FleetSwitch) : fs.advanceToExecute.votes = fs.votes := by
  unfold advanceToExecute
  split <;> rfl

@[simp] theorem advanceToExecute_quorumPercent (fs : FleetSwitch) :
    fs.advanceToExecute.quorumPercent = fs.quorumPercent := by
  unfold advanceToExecute
  split <;> rfl

@[simp] theorem advanceToExecute_ids (fs : FleetSwitch) :
    fs.advanceToExecute.participants.map (·.peerId) = fs.participants.map (·.peerId) := by
  unfold advanceToExecute
  split
  · rw [List.map_map]
    refine List.map_congr_left ?_
    intro p _
    rw [Function.comp_apply]
    split <;> rfl
  · rfl

/-- A vote that is recorded is the first of a participant. -/
theorem recordVote_eq_some {peerId : String} {approve : Bool} {reason : Option String}
    {now : DateTime} (h : fs.recordVote peerId approve reason now = some fs') :
    peerId ∉ fs.votes.map (·.peerId) ∧ peerId ∈ fs.participants.map (·.peerId) ∧
      fs' = { fs with
        votes := fs.votes ++ [⟨peerId, approve, reason, now⟩]
        participants := setStatus peerId .voted fs.participants } := by
  unfold recordVote at h
  split at h
  · cases h
  · rename_i hfresh
    split at h
    · cases h
    · rename_i hmember
      refine ⟨?_, ?_, (Option.some.inj h).symm⟩
      · simpa using hfresh
      · simpa using hmember

end FleetSwitch

namespace FleetCoordinator

open FleetSwitch

/-- A vote aborts a switch after the timeout, or it is recorded on one that is proposed, or
it changes nothing. -/
theorem voteOn_cases (fs : FleetSwitch) (req : FleetVoteRequest) (now : DateTime) :
    (fs.isTimedOut now = true ∧ (voteOn fs req now).2 = fs.abort "timeout — voting period expired") ∨
    (fs.isTimedOut now = false ∧ (voteOn fs req now).2 = fs) ∨
    (fs.isTimedOut now = false ∧ fs.phase = .propose ∧ ∃ fs',
      fs.recordVote req.peerId req.approve req.reason now = some fs' ∧
        (voteOn fs req now).2 = afterVote fs') := by
  unfold voteOn
  split
  · rename_i htimeout
    exact .inl ⟨htimeout, rfl⟩
  · rename_i htimeout
    have hintime : fs.isTimedOut now = false := by simpa using htimeout
    split
    · exact .inr (.inl ⟨hintime, rfl⟩)
    · rename_i hphase
      cases hrecord : fs.recordVote req.peerId req.approve req.reason now with
      | none => exact .inr (.inl ⟨hintime, rfl⟩)
      | some fs' => exact .inr (.inr ⟨hintime, not_not.mp hphase, fs', rfl, rfl⟩)

/-- A recorded vote leaves the switch proposed, executes it on a quorum, or aborts it. -/
theorem afterVote_cases (fs : FleetSwitch) :
    afterVote fs = fs ∨ (fs.hasQuorum = true ∧ afterVote fs = fs.advanceToExecute) ∨
      afterVote fs = fs.abort "proposal vetoed — insufficient approvals possible" := by
  unfold afterVote
  split
  · exact .inr (.inl ⟨‹_›, rfl⟩)
  · split
    · exact .inr (.inr rfl)
    · exact .inl rfl

theorem afterVote_id (fs : FleetSwitch) : (afterVote fs).id = fs.id := by
  obtain h | ⟨-, h⟩ | h := afterVote_cases fs
  · rw [h]
  · rw [h, advanceToExecute_id]
  · rw [h]
    rfl

theorem voteOn_id (fs : FleetSwitch) (req : FleetVoteRequest) (now : DateTime) :
    (voteOn fs req now).2.id = fs.id := by
  obtain ⟨-, h⟩ | ⟨-, h⟩ | ⟨-, -, fs', hrecord, h⟩ := voteOn_cases fs req now
  · rw [h]
    rfl
  · rw [h]
  · obtain ⟨-, -, rfl⟩ := recordVote_eq_some hrecord
    rw [h, afterVote_id]

end FleetCoordinator

open FleetCoordinator

/-- What a request does to the switch with an id: a proposal puts a new one there, a vote or
a rollback goes to the one that is there. -/
def FleetRequest.effect (id : String) (now : DateTime) :
    FleetRequest → Option FleetSwitch → Option FleetSwitch
  | .propose id' req, found =>
    if id' = id ∧ req.peerIds.isEmpty = false then
      some (.new id' req.plan "local" req.peerIds req.quorumPercent req.timeoutSecs now)
    else found
  | .status _, found => found
  | .vote id' req, found =>
    if id' = id ∧ badPeerId req.peerId = false then found.map fun fs => (voteOn fs req now).2
    else found
  | .rollback id', found =>
    if id' = id then found.map (·.rollback "manual rollback requested") else found

theorem fleetNext_find? (input : FleetInput) (c : FleetCoordinator) (id : String) :
    (fleetNext input c).2.switches.find? id =
      input.request.effect id input.now (c.switches.find? id) := by
  obtain ⟨request, now⟩ := input
  cases request with
  | propose id' req =>
    simp only [fleetNext, fleetProposeHandler, FleetRequest.effect]
    cases req.peerIds.isEmpty with
    | true => simp only [if_true, Bool.true_eq_false, and_false, if_false]
    | false =>
      simp only [Bool.false_eq_true, if_false, and_true]
      exact Table.find?_put c.switches _ id
  | status id' => rfl
  | vote id' req =>
    simp only [fleetNext, fleetVoteHandler, FleetRequest.effect]
    cases badPeerId req.peerId with
    | true => simp only [if_true, Bool.true_eq_false, and_false, if_false]
    | false =>
      simp only [Bool.false_eq_true, if_false, and_true]
      cases hfind : c.switches.find? id' with
      | none => exact Table.find?_map_of_none hfind _ id
      | some fs =>
        exact Table.find?_put_map (f := fun fs => (voteOn fs req now).2) hfind
          (voteOn_id fs req now) id
  | rollback id' =>
    simp only [fleetNext, fleetRollbackHandler, FleetRequest.effect]
    cases hfind : c.switches.find? id' with
    | none => exact Table.find?_map_of_none hfind _ id
    | some fs =>
      exact Table.find?_put_map (f := (·.rollback "manual rollback requested")) hfind rfl id

/-! ### The quorum -/

namespace FleetSwitch

/-- The participants with an approving vote. -/
def approvers (fs : FleetSwitch) : Finset String :=
  (fs.participants.map (·.peerId)).toFinset.filter fun peerId =>
    ∃ v ∈ fs.votes, v.peerId = peerId ∧ v.approve = true

/-- Every vote is the only one of a participant, and a switch that is executed has its
quorum. -/
structure Sound (fs : FleetSwitch) : Prop where
  once : (fs.votes.map (·.peerId)).Nodup
  member : ∀ v ∈ fs.votes, v.peerId ∈ fs.participants.map (·.peerId)
  quorum : fs.phase = .execute → fs.quorumRequired ≤ fs.approveCount

variable {fs fs' : FleetSwitch}

theorem sound_new (id plan proposer : String) (peerIds : List String) (quorumPercent : Option UInt8)
    (timeoutSecs : Option UInt64) (now : DateTime) :
    (new id plan proposer peerIds quorumPercent timeoutSecs now).Sound :=
  ⟨List.nodup_nil, fun _ hv => absurd hv List.not_mem_nil, fun h => FleetPhase.noConfusion h⟩

namespace Sound

/-- The votes are those of distinct participants. -/
theorem approveCount_le (h : fs.Sound) : fs.approveCount ≤ fs.approvers.card := by
  have hnodup : ((fs.votes.filter (·.approve)).map (·.peerId)).Nodup :=
    h.once.sublist (List.filter_sublist.map _)
  have hsub : ((fs.votes.filter (·.approve)).map (·.peerId)).toFinset ⊆ fs.approvers := by
    intro peerId hpeer
    obtain ⟨v, hv, rfl⟩ := List.mem_map.mp (List.mem_toFinset.mp hpeer)
    obtain ⟨hvote, happrove⟩ := List.mem_filter.mp hv
    exact Finset.mem_filter.mpr
      ⟨List.mem_toFinset.mpr (h.member v hvote), v, hvote, rfl, happrove⟩
  have hcard := Finset.card_le_card hsub
  rw [List.toFinset_card_of_nodup hnodup, List.length_map, ← List.countP_eq_length_filter] at hcard
  exact hcard

/-- No more votes than participants, so that a veto is counted without underflow. -/
theorem votes_length_le (h : fs.Sound) : fs.votes.length ≤ fs.participantCount := by
  have hsub : fs.votes.map (·.peerId) ⊆ fs.participants.map (·.peerId) := by
    intro peerId hpeer
    obtain ⟨v, hv, rfl⟩ := List.mem_map.mp hpeer
    exact h.member v hv
  have hlen := (List.subperm_of_subset h.once hsub).length_le
  rwa [List.length_map, List.length_map] at hlen

theorem abort (h : fs.Sound) (reason : String) : (fs.abort reason).Sound :=
  ⟨h.once, h.member, nofun⟩

theorem rollback (h : fs.Sound) (reason : String) : (fs.rollback reason).Sound :=
  ⟨h.once, h.member, nofun⟩

theorem recordVote (h : fs.Sound) (hphase : fs.phase = .propose) {peerId : String} {approve : Bool}
    {reason : Option String} {now : DateTime}
    (hrecord : fs.recordVote peerId approve reason now = some fs') : fs'.Sound := by
  obtain ⟨hfresh, hmember, rfl⟩ := recordVote_eq_some hrecord
  refine ⟨?_, ?_, ?_⟩
  · rw [List.map_append, List.map_singleton]
    exact List.nodup_append_comm.mp (List.nodup_cons.mpr ⟨hfresh, h.once⟩)
  · intro v hv
    rw [setStatus_ids]
    obtain hv | hv := List.mem_append.mp hv
    · exact h.member v hv
    · obtain rfl := List.mem_singleton.mp hv
      exact hmember
  · intro hexecute
    exact absurd (hphase.symm.trans hexecute) (by decide)

theorem advanceToExecute (h : fs.Sound) (hquorum : fs.hasQuorum = true) :
    fs.advanceToExecute.Sound := by
  refine ⟨?_, ?_, fun _ => ?_⟩
  · rw [advanceToExecute_votes]
    exact h.once
  · rw [advanceToExecute_votes, advanceToExecute_ids]
    exact h.member
  · have hrequired : fs.advanceToExecute.quorumRequired = fs.quorumRequired := by
      have hlen := congrArg List.length (advanceToExecute_ids fs)
      rw [List.length_map, List.length_map] at hlen
      rw [quorumRequired, participantCount, hlen, advanceToExecute_quorumPercent]
      rfl
    rw [hrequired, approveCount, advanceToExecute_votes]
    exact of_decide_eq_true hquorum

theorem afterVote (h : fs.Sound) : (FleetCoordinator.afterVote fs).Sound := by
  obtain hafter | ⟨hquorum, hafter⟩ | hafter := afterVote_cases fs
  · rw [hafter]
    exact h
  · rw [hafter]
    exact h.advanceToExecute hquorum
  · rw [hafter]
    exact h.abort _

theorem voteOn (h : fs.Sound) (req : FleetVoteRequest) (now : DateTime) :
    (FleetCoordinator.voteOn fs req now).2.Sound := by
  obtain ⟨-, hvote⟩ | ⟨-, hvote⟩ | ⟨-, hphase, fs', hrecord, hvote⟩ := voteOn_cases fs req now
  · rw [hvote]
    exact h.abort _
  · rw [hvote]
    exact h
  · rw [hvote]
    exact (h.recordVote hphase hrecord).afterVote

end Sound

end FleetSwitch

open FleetSwitch

/-- Every request keeps every switch sound. -/
theorem sound_step (input : FleetInput) (c : FleetCoordinator)
    (h : ∀ fs ∈ c.switches.rows, fs.Sound) : ∀ fs ∈ (fleetNext input c).2.switches.rows, fs.Sound := by
  intro fs hfs
  have hfind := Table.mem_rows_iff.mp hfs
  rw [fleetNext_find?] at hfind
  have hfound : ∀ fs', c.switches.find? fs.id = some fs' → fs'.Sound :=
    fun fs' hfs' => h fs' (List.mem_of_find?_eq_some hfs')
  unfold FleetRequest.effect at hfind
  split at hfind
  · split at hfind
    · obtain rfl := Option.some.inj hfind
      exact sound_new ..
    · exact hfound fs hfind
  · exact hfound fs hfind
  · split at hfind
    · obtain ⟨fs', hfs', rfl⟩ := Option.map_eq_some_iff.mp hfind
      exact (hfound fs' hfs').voteOn _ _
    · exact hfound fs hfind
  · split at hfind
    · obtain ⟨fs', hfs', rfl⟩ := Option.map_eq_some_iff.mp hfind
      exact (hfound fs' hfs').rollback _
    · exact hfound fs hfind

/-- Every switch that the coordinator comes to hold is sound. -/
theorem sound_run (inputs : List FleetInput) :
    ∀ t ∈ trace fleetNext inputs .new, ∀ fs ∈ t.after.switches.rows, fs.Sound := by
  intro t ht
  have hnew : ∀ fs ∈ FleetCoordinator.new.switches.rows, fs.Sound :=
    fun _ hfs => absurd hfs List.not_mem_nil
  exact (trace_invariant (I := fun c : FleetCoordinator => ∀ fs ∈ c.switches.rows, fs.Sound)
    sound_step hnew ht).2

/-- After every step, a switch in the Execute phase has approving votes of its quorum of
distinct participants; and every vote is a participant's, who has no other. -/
def QuorumSafe (run : List FleetStep) : Prop :=
  ∀ t ∈ run, ∀ fs ∈ t.after.switches.rows,
    (fs.phase = .execute →
      max ⌈(fs.participants.length : ℚ) * fs.quorumPercent.toNat / 100⌉₊ 1 ≤ fs.approvers.card) ∧
    (∀ v ∈ fs.votes, v.peerId ∈ fs.participants.map (·.peerId)) ∧
    ∀ peerId, fs.votes.countP (·.peerId = peerId) ≤ 1

theorem quorum_safe (inputs : List FleetInput) : QuorumSafe (trace fleetNext inputs .new) := by
  intro t ht fs hfs
  have hsound := sound_run inputs t ht fs hfs
  refine ⟨fun hexecute => (hsound.quorum hexecute).trans hsound.approveCount_le, hsound.member,
    fun peerId => ?_⟩
  have hcount := List.nodup_iff_count_le_one.mp hsound.once peerId
  rw [List.count, List.countP_map] at hcount
  exact hcount

/-! ### The phases -/

/-- A phase goes on to another, or stays, whatever the reason given for it. -/
inductive FleetPhase.Forward : FleetPhase → FleetPhase → Prop where
  | stay (p : FleetPhase) : Forward p p
  | stayAborted (r r' : String) : Forward (.aborted r) (.aborted r')
  | stayRolledBack (r r' : String) : Forward (.rolledBack r) (.rolledBack r')
  | executed : Forward .propose .execute
  | aborted (r : String) : Forward .propose (.aborted r)
  | withdrawn (r : String) : Forward .propose (.rolledBack r)
  | committed : Forward .execute .committed
  | reverted (r : String) : Forward .execute (.rolledBack r)

/-- A vote after the timeout may abort these. -/
def FleetPhase.abortable : FleetPhase → Bool
  | .propose | .aborted _ => true
  | _ => false

/-- A rollback may take these back. -/
def FleetPhase.revertible : FleetPhase → Bool
  | .propose | .execute | .rolledBack _ => true
  | _ => false

/-- The request is not a proposal that draws the id again. -/
def FleetRequest.Spares (id : String) : FleetRequest → Prop
  | .propose id' _ => id' ≠ id
  | _ => True

/-- No switch goes backwards in the step. -/
def PhasesForward (t : FleetStep) : Prop :=
  ∀ id fs, t.input.request.Spares id → t.before.switches.find? id = some fs →
    ∃ fs', t.after.switches.find? id = some fs' ∧ fs.phase.Forward fs'.phase

/-- A vote comes before the timeout, unless it may abort the switch, and a rollback comes
before the end. -/
def Timely (t : FleetStep) : Prop :=
  match t.input.request with
  | .vote key req => ∀ fs, t.before.switches.find? key = some fs → badPeerId req.peerId = false →
    fs.isTimedOut t.input.now = true → fs.phase.abortable = true
  | .rollback key => ∀ fs, t.before.switches.find? key = some fs → fs.phase.revertible = true
  | .propose .. | .status _ => True

theorem FleetPhase.forward_aborted_iff {p : FleetPhase} {r : String} :
    p.Forward (.aborted r) ↔ p.abortable = true := by
  constructor
  · intro h
    cases h <;> rfl
  · intro h
    cases p with
    | propose => exact .aborted r
    | aborted r' => exact .stayAborted r' r
    | vote | execute | verify | committed | rolledBack => cases h

theorem FleetPhase.forward_rolledBack_iff {p : FleetPhase} {r : String} :
    p.Forward (.rolledBack r) ↔ p.revertible = true := by
  constructor
  · intro h
    cases h <;> rfl
  · intro h
    cases p with
    | propose => exact .withdrawn r
    | execute => exact .reverted r
    | rolledBack r' => exact .stayRolledBack r' r
    | vote | verify | committed | aborted => cases h

/-- A vote that is recorded moves a proposed switch forward. -/
theorem forward_afterVote {fs fs' : FleetSwitch} (hphase : fs.phase = .propose)
    (hsame : fs'.phase = fs.phase) : fs.phase.Forward (afterVote fs').phase := by
  obtain hafter | ⟨hquorum, hafter⟩ | hafter := afterVote_cases fs'
  · rw [hafter, hsame]
    exact .stay _
  · rw [hafter, hphase, advanceToExecute, if_pos hquorum]
    exact .executed
  · rw [hafter, hphase]
    exact .aborted _

/-- A vote moves a switch forward unless it aborts, after the timeout, one that it may not
abort. -/
theorem forward_voteOn_iff (fs : FleetSwitch) (req : FleetVoteRequest) (now : DateTime) :
    fs.phase.Forward (voteOn fs req now).2.phase ↔
      (fs.isTimedOut now = true → fs.phase.abortable = true) := by
  obtain ⟨htimeout, hvote⟩ | ⟨htimeout, hvote⟩ | ⟨htimeout, hphase, fs', hrecord, hvote⟩ :=
    voteOn_cases fs req now
  · rw [hvote, htimeout]
    exact FleetPhase.forward_aborted_iff.trans ⟨fun h _ => h, fun h => h rfl⟩
  · rw [hvote, htimeout]
    exact ⟨fun _ h => absurd h (by decide), fun _ => .stay _⟩
  · obtain ⟨-, -, rfl⟩ := recordVote_eq_some hrecord
    rw [hvote, htimeout]
    exact ⟨fun _ h => absurd h (by decide), fun _ => forward_afterVote hphase rfl⟩

theorem phasesForward_step_iff (input : FleetInput) (c : FleetCoordinator) :
    PhasesForward (stepOf fleetNext input c) ↔ Timely (stepOf fleetNext input c) := by
  obtain ⟨request, now⟩ := input
  unfold PhasesForward Timely
  simp only [stepOf_before, stepOf_input, stepOf_after, fleetNext_find?]
  cases request with
  | propose id' req =>
    refine ⟨fun _ => trivial, fun _ id fs hspares hfind => ⟨fs, ?_, .stay _⟩⟩
    rw [FleetRequest.effect, if_neg fun h => hspares h.1]
    exact hfind
  | status id' => exact ⟨fun _ => trivial, fun _ id fs _ hfind => ⟨fs, hfind, .stay _⟩⟩
  | vote id' req =>
    constructor
    · intro hforward fs hfind hgood
      obtain ⟨fs', hfs', hphase⟩ := hforward id' fs trivial hfind
      rw [FleetRequest.effect, if_pos ⟨rfl, hgood⟩, hfind] at hfs'
      obtain rfl := Option.some.inj hfs'
      exact (forward_voteOn_iff fs req now).mp hphase
    · intro htimely id fs _ hfind
      rw [FleetRequest.effect]
      split
      · rename_i h
        obtain ⟨rfl, hgood⟩ := h
        rw [hfind]
        exact ⟨_, rfl, (forward_voteOn_iff fs req now).mpr (htimely fs hfind hgood)⟩
      · exact ⟨fs, hfind, .stay _⟩
  | rollback id' =>
    constructor
    · intro hforward fs hfind
      obtain ⟨fs', hfs', hphase⟩ := hforward id' fs trivial hfind
      rw [FleetRequest.effect, if_pos rfl, hfind] at hfs'
      obtain rfl := Option.some.inj hfs'
      exact FleetPhase.forward_rolledBack_iff.mp hphase
    · intro htimely id fs _ hfind
      rw [FleetRequest.effect]
      split
      · rename_i h
        obtain rfl := h
        rw [hfind]
        exact ⟨_, rfl, FleetPhase.forward_rolledBack_iff.mpr (htimely fs hfind)⟩
      · exact ⟨fs, hfind, .stay _⟩

/-- In every run, the phases only move forward if and only if no vote after the timeout finds
its switch executed or rolled back, and no rollback finds it aborted (or in one of the phases
that the coordinator never sets). -/
theorem phases_forward_iff (inputs : List FleetInput) :
    (∀ t ∈ trace fleetNext inputs .new, PhasesForward t) ↔
      ∀ t ∈ trace fleetNext inputs .new, Timely t :=
  all_good_iff (I := fun _ => True) (fun input c _ => phasesForward_step_iff input c)
    (fun _ _ _ _ => trivial) inputs trivial

/-! A switch of one host that is approved, and voted on again when it has timed out. -/

def atSecond (n : Nat) (h : n < 1000) : DateTime :=
  ⟨n * 1000000000, by unfold minNanos maxNanos; omega⟩

def approved : List FleetInput :=
  [⟨.propose "f1" ⟨"upgrade nginx", ["a"], none, none⟩, atSecond 0 (by decide)⟩,
    ⟨.vote "f1" ⟨"a", true, none⟩, atSecond 1 (by decide)⟩]

def lateVote : FleetInput := ⟨.vote "f1" ⟨"a", true, none⟩, atSecond 300 (by decide)⟩

/-- The late vote aborts the switch that is being executed. -/
theorem lateVote_aborts_executed :
    ¬ ∀ inputs, ∀ t ∈ trace fleetNext inputs .new, PhasesForward t := by
  intro h
  have hlate : stepOf fleetNext lateVote (final fleetNext approved .new) ∈
      trace fleetNext (approved ++ [lateVote]) .new := by
    rw [trace_append]
    exact List.mem_append_right _ (List.mem_singleton_self _)
  have hexecuted : ((final fleetNext approved .new).switches.find? "f1").any (fun fs =>
      fs.isTimedOut lateVote.now && !fs.phase.abortable) = true := by decide +kernel
  obtain ⟨fs, hfind, hfs⟩ := (Option.any_eq_true ..).mp hexecuted
  obtain ⟨htimeout, hphase⟩ := (Bool.and_eq_true ..).mp hfs
  have habortable : fs.phase.abortable = true :=
    (phasesForward_step_iff lateVote _).mp (h _ _ hlate) fs hfind rfl htimeout
  rw [habortable] at hphase
  cases hphase

end OsModa.Watch
