import OsModa.Base.Time
import OsModa.Mesh.Daemon

/-!
Invite codes and how often they are accepted.

That a code was presented is remembered by its hash until the daemon restarts, and the peer
that it names may be gone from the list by then. So a code is accepted again when it comes
back after a restart before it has expired, unless one of the two still refuses it
(`single_use_iff`). It is remembered before the peer is looked at, so that a code that is
refused for its peer is used up all the same (`all_or_nothing_iff`).
-/

namespace OsModa.Mesh

open OsModa.Text OsModa.Machine

/-- An invite as it is encoded. -/
structure EncodedInvite extends InvitePayload where
  expiresAt : String

/-- The packages that read an invite code. -/
structure InviteLibs where
  sha256Hex : String → String
  /-- `URL_SAFE_NO_PAD.decode` -/
  base64Decode : String → Except String (List UInt8)
  utf8Error : List UInt8 → String
  parseInvite : String → Except String EncodedInvite
  parseRfc3339 : String → Except String DateTime

namespace InviteLibs

variable (L : InviteLibs)

/-- The invite that a code stands for, whatever the time. -/
def readCode (code : String) : Except String EncodedInvite :=
  (L.base64Decode code).bind fun bytes =>
  (orError (String.fromUTF8? ⟨bytes.toArray⟩) (L.utf8Error bytes)).bind fun json =>
  L.parseInvite json

/-- Decode an invite from a base64url string. Validates expiry. -/
def decode (code : String) (clock : DateTime) : Except String InvitePayload :=
  (L.readCode code).bind fun payload =>
  ((L.parseRfc3339 payload.expiresAt).mapError ("invalid expires_at: " ++ ·)).bind fun expires =>
  if expires < clock then .error ("invite has expired (expired at " ++ payload.expiresAt ++ ")")
  else .ok payload.toInvitePayload

end InviteLibs

def DaemonOp.isAcceptInvite : DaemonOp → Bool
  | .acceptInvite .. => true
  | _ => false

/-- An input of the daemon, with invites as the codes that come in. The clock is read when a
code is decoded, `now` when the peer is listed. -/
inductive InviteInput where
  | accept (code : String) (clock : DateTime) (now : String) (saves : Bool)
  | other (input : DaemonInput) (h : input.op.isAcceptInvite = false)

namespace InviteInput

def toInput (L : InviteLibs) : InviteInput → DaemonInput
  | accept code clock now saves => ⟨.acceptInvite (L.sha256Hex code) (L.decode code clock), now, saves⟩
  | other input _ => input

def isRestart : InviteInput → Prop
  | other input _ => input.op = .restart
  | accept .. => False

end InviteInput

/-- One step of the daemon, with invites as codes. -/
def inviteNext (L : InviteLibs) (i : InviteInput) (d : Daemon) : List DaemonEffect × Daemon :=
  daemonNext (i.toInput L) d

abbrev InviteStep := Step Daemon InviteInput (List DaemonEffect)

/-- A code is presented, and a peer is accepted for it. -/
def Accepts (code : String) (t : InviteStep) : Prop :=
  (∃ clock now saves, t.input = .accept code clock now saves) ∧ ∃ id, .invited (.ok id) ∈ t.output

/-- No code is accepted at two steps. -/
def SingleUse (run : List InviteStep) : Prop :=
  ∀ past t mid u future, run = past ++ t :: (mid ++ u :: future) →
    ∀ code, Accepts code t → ¬ Accepts code u

/-- The code has been accepted, and the daemon has restarted since. -/
def AcceptedBeforeRestart (past : List InviteStep) (code : String) : Prop :=
  ∃ pre t mid r post, past = pre ++ t :: (mid ++ r :: post) ∧ Accepts code t ∧ r.input.isRestart

/-- A code that was accepted before a restart is presented while it can be decoded, for the
first time since the restart, and its peer is not in the list. -/
def Revived (L : InviteLibs) (past : List InviteStep) (t : InviteStep) (code : String) : Prop :=
  AcceptedBeforeRestart past code ∧
    ∃ clock now saves payload, t.input = .accept code clock now saves ∧
      L.decode code clock = .ok payload ∧ L.sha256Hex code ∉ t.before.usedInvites ∧
      t.before.isListed payload.instanceId = false

/-! ### One step -/

/-- A code always stands for the same invite. -/
theorem InviteLibs.decode_eq {L : InviteLibs} {code : String} {clock : DateTime}
    {payload : InvitePayload} (h : L.decode code clock = .ok payload) :
    ∃ encoded, L.readCode code = .ok encoded ∧ encoded.toInvitePayload = payload := by
  obtain ⟨encoded, hread, h⟩ := bind_eq_ok.mp h
  obtain ⟨expires, -, h⟩ := bind_eq_ok.mp h
  split at h
  · cases h
  · exact ⟨encoded, hread, Except.ok.inj h⟩

theorem InviteLibs.decode_unique {L : InviteLibs} {code : String} {clock clock' : DateTime}
    {payload payload' : InvitePayload} (h : L.decode code clock = .ok payload)
    (h' : L.decode code clock' = .ok payload') : payload = payload' := by
  obtain ⟨encoded, hread, rfl⟩ := decode_eq h
  obtain ⟨encoded', hread', rfl⟩ := decode_eq h'
  rw [hread] at hread'
  rw [Except.ok.inj hread']

/-- When an invite is accepted. -/
theorem invited_iff (d : Daemon) (now : String) (saves : Bool) (hash : String)
    (payload : Except String InvitePayload) :
    (∃ id, .invited (.ok id) ∈ (d.inviteAcceptHandler now saves hash payload).1) ↔
      ∃ p, payload = .ok p ∧ hash ∉ d.usedInvites ∧ d.isListed p.instanceId = false ∧
        sliceTo p.instanceId.toList 8 ≠ none := by
  cases payload with
  | error e => simp [Daemon.inviteAcceptHandler]
  | ok p =>
    have hlisted : ({ d with usedInvites := hash :: d.usedInvites } : Daemon).isListed
        p.instanceId = d.isListed p.instanceId := rfl
    simp only [Daemon.inviteAcceptHandler, hlisted, Except.ok.injEq, exists_eq_left']
    by_cases hused : hash ∈ d.usedInvites
    · simp [hused]
    · cases hl : d.isListed p.instanceId with
      | true => simp [hused]
      | false =>
        cases hshort : sliceTo p.instanceId.toList 8 with
        | none => simp [hused]
        | some short => simp [hused]

theorem savePeers_usedInvites (d : Daemon) (saves : Bool) :
    (d.savePeers saves).usedInvites = d.usedInvites := by
  cases saves <;> rfl

theorem dropPeer_usedInvites (d : Daemon) (id : String) (saves : Bool) :
    (d.dropPeer id saves).usedInvites = d.usedInvites := by
  rw [Daemon.dropPeer, savePeers_usedInvites]
  rfl

theorem inviteAcceptHandler_usedInvites (d : Daemon) (now : String) (saves : Bool) (hash : String)
    (payload : Except String InvitePayload) :
    (d.inviteAcceptHandler now saves hash payload).2.usedInvites = d.usedInvites ∨
      (d.inviteAcceptHandler now saves hash payload).2.usedInvites = hash :: d.usedInvites := by
  cases payload with
  | error e => exact .inl rfl
  | ok p =>
    unfold Daemon.inviteAcceptHandler
    dsimp only
    split
    · exact .inl rfl
    · split
      · exact .inr rfl
      · split
        · exact .inr rfl
        · exact .inr (savePeers_usedInvites ..)

theorem acceptInbound_usedInvites (d : Daemon) (now : String) (saves : Bool)
    (remote : MeshPublicIdentity) : (d.acceptInbound now saves remote).2.usedInvites = d.usedInvites := by
  unfold Daemon.acceptInbound
  dsimp only
  split
  · rfl
  · split
    · rfl
    · split
      · rfl
      · exact savePeers_usedInvites ..

theorem peerDisconnectHandler_usedInvites (d : Daemon) (saves : Bool) (id : String) :
    (d.peerDisconnectHandler saves id).2.usedInvites = d.usedInvites := by
  unfold Daemon.peerDisconnectHandler
  dsimp only
  split
  · exact savePeers_usedInvites ..
  · rfl

theorem dialStep_usedInvites (d : Daemon) (now : String) (task : Nat) (event : DialEvent) :
    (d.dialStep now task event).usedInvites = d.usedInvites := by
  unfold Daemon.dialStep
  split
  · rfl
  · split <;> first | rfl | (split <;> rfl)

theorem recvMsg_usedInvites (d : Daemon) (now : String) (handle : Nat) (msg : MeshMessage) :
    (d.recvMsg now handle msg).2.usedInvites = d.usedInvites := by
  unfold Daemon.recvMsg
  split
  · rfl
  · dsimp only
    split <;> rfl

theorem recvError_usedInvites (d : Daemon) (saves : Bool) (handle : Nat) :
    (d.recvError saves handle).usedInvites = d.usedInvites := by
  unfold Daemon.recvError
  split
  · rfl
  · exact dropPeer_usedInvites ..

theorem probe_usedInvites (d : Daemon) (saves : Bool) (entry : Entry) (sent : Bool) :
    (d.probe saves entry sent).usedInvites = d.usedInvites := by
  unfold Daemon.probe
  split
  · rfl
  · split
    · dsimp only
      split
      · rfl
      · exact dropPeer_usedInvites ..
    · rfl

/-- Only a restart forgets the codes that were presented. -/
theorem usedInvites_kept {input : DaemonInput} (hop : input.op ≠ .restart) (d : Daemon) {hash : String}
    (h : hash ∈ d.usedInvites) : hash ∈ (daemonNext input d).2.usedInvites := by
  obtain ⟨op, now, saves⟩ := input
  cases op with
  | acceptInvite hash' payload =>
    rcases inviteAcceptHandler_usedInvites d now saves hash' payload with heq | heq
    · exact heq.symm ▸ h
    · exact heq.symm ▸ List.mem_cons_of_mem _ h
  | deletePeer id => exact (peerDisconnectHandler_usedInvites d saves id).symm ▸ h
  | inbound remote => exact (acceptInbound_usedInvites d now saves remote).symm ▸ h
  | dial task event => exact (dialStep_usedInvites d now task event).symm ▸ h
  | receives handle msg => exact (recvMsg_usedInvites d now handle msg).symm ▸ h
  | recvFails handle => exact (recvError_usedInvites d saves handle).symm ▸ h
  | healthTick old =>
    change hash ∈ (d.collectStale old).usedInvites
    unfold Daemon.collectStale
    split <;> exact h
  | probed entry sent => exact (probe_usedInvites d saves entry sent).symm ▸ h
  | reconnect =>
    change hash ∈ d.reconnectPeers.usedInvites
    unfold Daemon.reconnectPeers
    split <;> exact h
  | restart => exact absurd rfl hop

/-! ### Runs -/

section Runs

variable {L : InviteLibs}

/-- When a step accepts a code. -/
theorem accepts_stepOf_iff {code : String} {i : InviteInput} {d : Daemon} :
    Accepts code (stepOf (inviteNext L) i d) ↔ ∃ clock now saves p, i = .accept code clock now saves ∧
      L.decode code clock = .ok p ∧ L.sha256Hex code ∉ d.usedInvites ∧
      d.isListed p.instanceId = false ∧ sliceTo p.instanceId.toList 8 ≠ none := by
  constructor
  · rintro ⟨⟨clock, now, saves, hinput⟩, hid⟩
    obtain rfl : i = .accept code clock now saves := hinput
    obtain ⟨p, hp⟩ := (invited_iff d now saves _ _).mp hid
    exact ⟨clock, now, saves, p, rfl, hp⟩
  · rintro ⟨clock, now, saves, p, rfl, hp⟩
    exact ⟨⟨clock, now, saves, rfl⟩, (invited_iff d now saves _ _).mpr ⟨p, hp⟩⟩

/-- A code that was accepted is remembered. -/
theorem used_of_accepts {code : String} {i : InviteInput} {d : Daemon}
    (h : Accepts code (stepOf (inviteNext L) i d)) :
    L.sha256Hex code ∈ (inviteNext L i d).2.usedInvites := by
  obtain ⟨clock, now, saves, p, rfl, hdecode, hused, hlisted, hshort⟩ := accepts_stepOf_iff.mp h
  change _ ∈ (d.inviteAcceptHandler now saves (L.sha256Hex code) (L.decode code clock)).2.usedInvites
  obtain ⟨short, hshort⟩ := Option.ne_none_iff_exists'.mp hshort
  have hlisted' : ({ d with usedInvites := L.sha256Hex code :: d.usedInvites } : Daemon).isListed
      p.instanceId = false := hlisted
  simp only [Daemon.inviteAcceptHandler, hdecode, if_neg hused, hlisted', hshort,
    Bool.false_eq_true, if_false, savePeers_usedInvites, List.mem_cons_self]

/-- As long as the daemon does not restart, it is. -/
theorem used_final {hash : String} {inputs : List InviteInput} {d : Daemon}
    (h : hash ∈ d.usedInvites) (hno : ∀ i ∈ inputs, ¬ i.isRestart) :
    hash ∈ (final (inviteNext L) inputs d).usedInvites := by
  induction inputs generalizing d with
  | nil => exact h
  | cons i inputs ih =>
    obtain ⟨hi, hno⟩ := List.forall_mem_cons.mp hno
    refine ih (usedInvites_kept ?_ d h) hno
    cases i with
    | accept code clock now saves => exact fun hop => nomatch hop
    | other input hother => exact hi

/-- In every run, codes are single-use if and only if none is presented again that a restart
has made acceptable again. -/
theorem single_use_iff (L : InviteLibs) (inputs : List InviteInput) :
    SingleUse (trace (inviteNext L) inputs .fresh) ↔
      ∀ past t future, trace (inviteNext L) inputs .fresh = past ++ t :: future →
        ∀ code, ¬ Revived L past t code := by
  constructor
  · rintro hsingle past u future hrun code ⟨⟨pre, t, mid, r, post, rfl, haccepts, -⟩, clock, now,
      saves, p, hinput, hdecode, hused, hlisted⟩
    rw [List.append_assoc, List.cons_append] at hrun
    refine hsingle pre t (mid ++ r :: post) u future hrun code haccepts ?_
    have hfirst := (trace_eq_cons (trace_eq_append hrun).2.symm).1
    rw [hfirst] at haccepts
    obtain ⟨clock', now', saves', p', -, hdecode', -, -, hshort⟩ := accepts_stepOf_iff.mp haccepts
    obtain rfl := InviteLibs.decode_unique hdecode hdecode'
    have hlast : u ∈ trace (inviteNext L) inputs .fresh := by
      rw [hrun]
      simp
    obtain ⟨_, _, -, hstep⟩ := mem_trace_split hlast
    rw [hstep] at hused hlisted ⊢
    exact accepts_stepOf_iff.mpr ⟨clock, now, saves, p, hinput, hdecode, hused, hlisted, hshort⟩
  · intro hrevived past t mid u future hrun code ht hu
    have hsplit : trace (inviteNext L) inputs .fresh = (past ++ t :: mid) ++ u :: future := by
      rw [hrun, List.append_assoc, List.cons_append]
    have htail := trace_eq_cons (trace_eq_append hrun).2.symm
    have hmid := trace_eq_append htail.2.symm
    have hlast := (trace_eq_cons hmid.2.symm).1
    have hbefore : u.before = final (inviteNext L) (mid.map Step.input) t.after := by
      rw [hlast]
      rfl
    rw [hlast] at hu
    obtain ⟨clock, now, saves, p, hinput, hdecode, hused, hlisted, -⟩ := accepts_stepOf_iff.mp hu
    -- Without a restart in between, the code would be remembered.
    have hrestart : ∃ r ∈ mid, r.input.isRestart := by
      by_contra hno
      push Not at hno
      refine hused (used_final ?_ ?_)
      · rw [htail.1] at ht ⊢
        exact used_of_accepts ht
      · intro i hi
        obtain ⟨r, hr, rfl⟩ := List.mem_map.mp hi
        exact hno r hr
    obtain ⟨r, hr, hisRestart⟩ := hrestart
    obtain ⟨before, after, rfl⟩ := List.append_of_mem hr
    refine hrevived _ u future hsplit code ⟨⟨past, t, before, r, after, rfl, ht, hisRestart⟩, clock,
      now, saves, p, hinput, hdecode, ?_⟩
    rw [hbefore]
    exact ⟨hused, hlisted⟩

end Runs

/-! ### Requests that fail -/

/-- The request does not panic, and where it returns an error, the peers, the codes that were
presented and the file of the peers are as they were. -/
structure AllOrNothing (t : InviteStep) : Prop where
  returns : .panicked ∉ t.output
  unchanged : ∀ e, .invited (.error e) ∈ t.output → t.after.peers = t.before.peers ∧
    t.after.usedInvites = t.before.usedInvites ∧ t.after.saved = t.before.saved

/-- A code that decodes has been presented before, or its peer is new and has an id whose first
eight bytes end at a character. -/
def Admissible (L : InviteLibs) (d : Daemon) (code : String) (clock : DateTime) : Prop :=
  ∀ p, L.decode code clock = .ok p → L.sha256Hex code ∈ d.usedInvites ∨
    d.isListed p.instanceId = false ∧ IsCharBoundary p.instanceId.toList 8

/-- What becomes of a code that decodes. -/
theorem inviteAcceptHandler_cases (d : Daemon) (now : String) (saves : Bool) (hash : String)
    (p : InvitePayload) :
    (hash ∈ d.usedInvites ∧ d.inviteAcceptHandler now saves hash (.ok p) =
      ([.invited (.error (409, "invite already used"))], d)) ∨
    (hash ∉ d.usedInvites ∧ d.isListed p.instanceId = true ∧
      d.inviteAcceptHandler now saves hash (.ok p) =
        ([.invited (.error (409, "peer already known"))],
          { d with usedInvites := hash :: d.usedInvites })) ∨
    (hash ∉ d.usedInvites ∧ d.isListed p.instanceId = false ∧
      ¬ IsCharBoundary p.instanceId.toList 8 ∧
      (d.inviteAcceptHandler now saves hash (.ok p)).1 = [.panicked]) ∨
    (hash ∉ d.usedInvites ∧ d.isListed p.instanceId = false ∧
      IsCharBoundary p.instanceId.toList 8 ∧
      (d.inviteAcceptHandler now saves hash (.ok p)).1 = [.invited (.ok p.instanceId)]) := by
  have hlisted : ({ d with usedInvites := hash :: d.usedInvites } : Daemon).isListed
      p.instanceId = d.isListed p.instanceId := rfl
  unfold Daemon.inviteAcceptHandler
  dsimp only
  by_cases hused : hash ∈ d.usedInvites
  · exact .inl ⟨hused, if_pos hused⟩
  · rw [if_neg hused, hlisted]
    cases hknown : d.isListed p.instanceId with
    | true => exact .inr (.inl ⟨hused, rfl, rfl⟩)
    | false =>
      rw [← sliceTo_isSome_iff]
      cases sliceTo p.instanceId.toList 8 with
      | none => exact .inr (.inr (.inl ⟨hused, rfl, Bool.false_ne_true, rfl⟩))
      | some short => exact .inr (.inr (.inr ⟨hused, rfl, rfl, rfl⟩))

/-- For every code and in every state, a request to accept it is all or nothing and does not panic
if and only if a code that decodes was presented before, or its peer is new and has an id whose
first eight bytes end at a character. -/
theorem all_or_nothing_iff (L : InviteLibs) (code : String) (clock : DateTime) (now : String)
    (saves : Bool) (d : Daemon) :
    AllOrNothing (stepOf (inviteNext L) (.accept code clock now saves) d) ↔
      Admissible L d code clock := by
  have hstep : stepOf (inviteNext L) (.accept code clock now saves) d =
      ⟨d, .accept code clock now saves,
        (d.inviteAcceptHandler now saves (L.sha256Hex code) (L.decode code clock)).1,
        (d.inviteAcceptHandler now saves (L.sha256Hex code) (L.decode code clock)).2⟩ := rfl
  rw [hstep]
  unfold Admissible
  cases hdecode : L.decode code clock with
  | error e =>
    refine iff_of_true ⟨?_, fun _ _ => ⟨rfl, rfl, rfl⟩⟩ fun p hp => nomatch hp
    simp [Daemon.inviteAcceptHandler]
  | ok p =>
    have hcondition : (∀ q, Except.ok p = (Except.ok q : Except String InvitePayload) →
        L.sha256Hex code ∈ d.usedInvites ∨
          d.isListed q.instanceId = false ∧ IsCharBoundary q.instanceId.toList 8) ↔
        L.sha256Hex code ∈ d.usedInvites ∨
          d.isListed p.instanceId = false ∧ IsCharBoundary p.instanceId.toList 8 :=
      ⟨fun h => h p rfl, fun h q hq => Except.ok.inj hq ▸ h⟩
    rw [hcondition]
    obtain ⟨hused, hout⟩ | ⟨hunused, hknown, hout⟩ | ⟨hunused, -, hshort, hout⟩ |
      ⟨-, hnew, hlong, hout⟩ := inviteAcceptHandler_cases d now saves (L.sha256Hex code) p
    · rw [hout]
      exact iff_of_true ⟨by simp, fun _ _ => ⟨rfl, rfl, rfl⟩⟩ (.inl hused)
    · rw [hout]
      refine iff_of_false (fun h => ?_) ?_
      · -- The list of codes is longer by one.
        have hsame := (h.unchanged _ (List.mem_singleton_self _)).2.1
        exact absurd (congrArg List.length hsame) (Nat.succ_ne_self _)
      · rintro (hused | ⟨hnew, -⟩)
        · exact hunused hused
        · exact absurd (hknown.symm.trans hnew) (by decide)
    · refine iff_of_false (fun h => h.returns ?_) fun h => h.elim hunused fun h => hshort h.2
      exact hout ▸ List.mem_singleton_self _
    · refine iff_of_true ⟨?_, fun e he => ?_⟩ (.inr ⟨hnew, hlong⟩)
      · simp [hout]
      · simp [hout] at he

/-! An invite that is presented again after its peer was deleted and the daemon restarted. -/

/-- Codes in the clear: a code is the id of its peer, and is good for the first hour. -/
def openLibs : InviteLibs where
  sha256Hex code := code
  base64Decode code := .ok (Encoding.utf8 code.toList)
  utf8Error _ := "invalid utf-8 sequence"
  parseInvite id := .ok ⟨⟨"10.0.0.2:18800", "", "", id⟩, "1970-01-01T01:00:00+00:00"⟩
  parseRfc3339 _ := .ok ⟨3600 * 1000000000, DateTime.hour_inRange⟩

def acceptsBob : InviteInput :=
  .accept "bob12345" ⟨0, DateTime.zero_inRange⟩ "1970-01-01T00:00:00+00:00" true

def deletesBob : InviteInput := .other (inputOf (.deletePeer "bob12345")) rfl

def restarts : InviteInput := .other (inputOf .restart) rfl

/-- An id of five bytes panics, and a code that is refused for a peer that is listed is used up. -/
theorem bob_not_all_or_nothing :
    ¬ AllOrNothing (stepOf (inviteNext openLibs)
      (.accept "bob12" ⟨0, DateTime.zero_inRange⟩ "1970-01-01T00:00:00+00:00" true) .fresh) ∧
    ¬ AllOrNothing (stepOf (inviteNext openLibs) acceptsBob
      (final (inviteNext openLibs) [acceptsBob, restarts] .fresh)) := by
  constructor
  · exact fun h => h.returns (List.mem_singleton_self _)
  · intro h
    have hsame := (h.unchanged (409, "peer already known") (List.mem_singleton_self _)).2.1
    exact absurd (congrArg List.length hsame) (by decide)

/-- It is accepted twice. -/
theorem bob_invited_twice :
    ¬ ∀ L inputs, SingleUse (trace (inviteNext L) inputs .fresh) := by
  intro h
  have hdecode : openLibs.decode "bob12345" ⟨0, DateTime.zero_inRange⟩ =
      .ok ⟨"10.0.0.2:18800", "", "", "bob12345"⟩ := by rfl
  refine h openLibs [acceptsBob, deletesBob, restarts, acceptsBob] [] _ [_, _] _ [] rfl "bob12345"
    (accepts_stepOf_iff.mpr ?_) (accepts_stepOf_iff.mpr ?_)
  · exact ⟨_, _, _, _, rfl, hdecode, by decide, rfl, by decide⟩
  · exact ⟨_, _, _, _, rfl, hdecode, by decide, rfl, by decide⟩

end OsModa.Mesh
