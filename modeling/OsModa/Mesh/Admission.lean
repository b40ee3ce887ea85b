import OsModa.Base.IpAddr
import OsModa.Base.RateLimit
import OsModa.Mesh.PeerTable
import Mathlib.Algebra.Order.Group.Int

/-!
Which inbound connections the mesh daemon takes up.

Three limits stand in front of the peer table: attempts are counted for each address in windows
of a minute, at most thirty-two handshakes run at a time, and a remote that is not known takes one
of eight places. The counter of an address depends on its own attempts alone (`ipAttempts_eq`),
and it counts attempts that the second limit turns away.
-/

namespace OsModa.Mesh

open OsModa.Net OsModa.Machine OsModa.RateLimit

/-! ### The accept loop -/

/-- Maximum concurrent handshakes to prevent resource exhaustion from DoS. -/
def maxConcurrentHandshakes : Nat := 32

/-- Maximum handshake attempts per IP within the rate limit window. -/
def maxAttemptsPerIp : Nat := 5

/-- Rate limit window for per-IP handshake attempts, in nanoseconds. -/
def attemptWindow : Int := 60 * 10 ^ 9

/-- An entry of `ip_attempts`. -/
structure Attempts where
  ip : IpAddr
  window : FixedWindow Int
  deriving DecidableEq

/-- The accept loop with the daemon that it files connections in. -/
structure AcceptLoop where
  ipAttempts : Table Attempts.ip
  /-- The tasks that hold a permit of the semaphore. -/
  running : List Nat
  /-- The tasks that have been spawned. -/
  spawned : Nat
  daemon : Daemon

inductive AcceptInput where
  /-- A connection comes in, at a reading of the monotonic clock. -/
  | accepts (ip : IpAddr) (now : Int)
  /-- A task gets to the end of its handshake: with the identity of the remote, or with none if
  the handshake failed or ran out of time. -/
  | handshakeEnds (task : Nat) (remote : Option MeshPublicIdentity) (now : String) (saves : Bool)
  /-- Another task or handler of the daemon, or a restart of it. -/
  | other (input : DaemonInput)

inductive AcceptEffect where
  | rateLimited
  | tooManyHandshakes
  | begins (task : Nat)
  | daemon (effects : List DaemonEffect)
  | idle

def AcceptEffect.isRateLimited : AcceptEffect → Bool
  | .rateLimited => true
  | _ => false

def AcceptEffect.isBegins : AcceptEffect → Bool
  | .begins _ => true
  | _ => false

namespace AcceptLoop

variable (a : AcceptLoop)

def fresh : AcceptLoop := ⟨.empty, [], 0, .fresh⟩

/-- The window of an address, if it has one. -/
def windowOf? (ip : IpAddr) : Option (FixedWindow Int) :=
  (a.ipAttempts.find? ip).map Attempts.window

/-- What `tcp_accept_loop` does with a connection. -/
def accept (ip : IpAddr) (now : Int) : AcceptEffect × AcceptLoop :=
  let window := hitFrom attemptWindow (a.windowOf? ip) now
  let a := { a with ipAttempts := a.ipAttempts.put ⟨ip, window⟩ }
  if window.hits > maxAttemptsPerIp then (.rateLimited, a)
  -- Acquire semaphore permit
  else if a.running.length ≥ maxConcurrentHandshakes then (.tooManyHandshakes, a)
  else (.begins a.spawned, { a with running := a.running ++ [a.spawned], spawned := a.spawned + 1 })

/-- The task files its connection and ends, and its permit is free again. -/
def handshakeEnds (task : Nat) (remote : Option MeshPublicIdentity) (now : String) (saves : Bool) :
    AcceptEffect × AcceptLoop :=
  if task ∈ a.running then
    let a := { a with running := a.running.erase task }
    match remote with
    | none => (.idle, a)
    | some remote =>
      let (effects, daemon) := daemonNext ⟨.inbound remote, now, saves⟩ a.daemon
      (.daemon effects, { a with daemon })
  else (.idle, a)

/-- A step of the rest of the daemon. It completes no inbound handshake, and a new process has no
tasks yet and has seen no attempts. -/
def otherStep (input : DaemonInput) : AcceptEffect × AcceptLoop :=
  let (effects, daemon) := daemonNext input a.daemon
  match input.op with
  | .inbound _ => (.idle, a)
  | .restart => (.daemon effects, { fresh with spawned := a.spawned, daemon })
  | _ => (.daemon effects, { a with daemon })

end AcceptLoop

def acceptNext : AcceptInput → AcceptLoop → AcceptEffect × AcceptLoop
  | .accepts ip now, a => a.accept ip now
  | .handshakeEnds task remote now saves, a => a.handshakeEnds task remote now saves
  | .other input, a => a.otherStep input

abbrev AcceptStep := Step AcceptLoop AcceptInput AcceptEffect

/-! ### The attempts of one address -/

/-- A connection from the address. -/
def AcceptInput.isFrom (ip : IpAddr) : AcceptInput → Bool
  | .accepts from_ _ => from_ = ip
  | _ => false

/-- When the connection came in. -/
def AcceptInput.time : AcceptInput → Int
  | .accepts _ now => now
  | _ => 0

def fromIp (ip : IpAddr) (t : AcceptStep) : Bool := t.input.isFrom ip

def acceptedAt (t : AcceptStep) : Int := t.input.time

/-- A new process of the daemon starts. -/
def AcceptInput.restarts : AcceptInput → Bool
  | .other ⟨.restart, _, _⟩ => true
  | _ => false

section Address

variable {a : AcceptLoop} {ip : IpAddr}

theorem windowOf?_accept (from_ : IpAddr) (now : Int) :
    (a.accept from_ now).2.windowOf? ip =
      if from_ = ip then some (hitFrom attemptWindow (a.windowOf? from_) now)
      else a.windowOf? ip := by
  have hput : ((a.ipAttempts.put ⟨from_, hitFrom attemptWindow (a.windowOf? from_) now⟩).find? ip).map
      Attempts.window = if from_ = ip then some (hitFrom attemptWindow (a.windowOf? from_) now)
        else a.windowOf? ip := by
    rw [Table.find?_put]
    split
    · rfl
    · rfl
  unfold AcceptLoop.accept
  dsimp only
  split
  · exact hput
  · split
    · exact hput
    · exact hput

theorem windowOf?_handshakeEnds (task : Nat) (remote : Option MeshPublicIdentity) (now : String)
    (saves : Bool) : (a.handshakeEnds task remote now saves).2.windowOf? ip = a.windowOf? ip := by
  unfold AcceptLoop.handshakeEnds
  split
  · cases remote with
    | none => rfl
    | some remote => rfl
  · rfl

theorem windowOf?_otherStep {input : DaemonInput} (h : (AcceptInput.other input).restarts = false) :
    (a.otherStep input).2.windowOf? ip = a.windowOf? ip := by
  obtain ⟨op, now, saves⟩ := input
  cases op with
  | restart => cases h
  | _ => rfl

/-- While the process lives, the window of an address comes from its own attempts. -/
theorem windowOf?_eq (inputs : List AcceptInput) (hlife : ∀ i ∈ inputs, i.restarts = false) :
    ∀ ip, (final acceptNext inputs .fresh).windowOf? ip =
      windowOf acceptedAt attemptWindow ((trace acceptNext inputs .fresh).filter (fromIp ip)) := by
  rw [← List.nil_append (trace acceptNext inputs .fresh)]
  refine history_invariant_of
    (R := fun h a => ∀ ip, a.windowOf? ip = windowOf acceptedAt attemptWindow (h.filter (fromIp ip)))
    (C := fun _ (t : AcceptStep) => t.input.restarts = false) ?_ inputs (fun _ => rfl) ?_
  · intro i h a hbefore hi ip
    rw [List.filter_append]
    cases i with
    | accepts from_ now =>
      refine (windowOf?_accept from_ now).trans ?_
      by_cases hip : from_ = ip
      · subst hip
        have hfrom : [stepOf acceptNext (.accepts from_ now) a].filter (fromIp from_) =
            [stepOf acceptNext (.accepts from_ now) a] := by simp [fromIp, AcceptInput.isFrom]
        rw [if_pos rfl, hfrom, windowOf_concat, ← hbefore]
        rfl
      · have hnot : [stepOf acceptNext (.accepts from_ now) a].filter (fromIp ip) = [] := by
          simp [fromIp, AcceptInput.isFrom, hip]
        rw [if_neg hip, hnot, List.append_nil]
        exact hbefore ip
    | handshakeEnds task remote now saves =>
      rw [List.filter_cons_of_neg (by simp [fromIp, AcceptInput.isFrom]), List.filter_nil, List.append_nil, ← hbefore]
      exact windowOf?_handshakeEnds task remote now saves
    | other input =>
      rw [List.filter_cons_of_neg (by simp [fromIp, AcceptInput.isFrom]), List.filter_nil, List.append_nil, ← hbefore]
      exact windowOf?_otherStep hi
  · intro past t future hsplit
    refine hlife _ ?_
    rw [← trace_map_input acceptNext inputs .fresh, hsplit]
    exact List.mem_map_of_mem (List.mem_append_right _ List.mem_cons_self)

/-- What the accept loop answers. -/
theorem accept_effect (ip : IpAddr) (now : Int) :
    ((a.accept ip now).1.isRateLimited = true ↔
      maxAttemptsPerIp < (hitFrom attemptWindow (a.windowOf? ip) now).hits) ∧
    ((a.accept ip now).1.isBegins = true →
      (hitFrom attemptWindow (a.windowOf? ip) now).hits ≤ maxAttemptsPerIp) := by
  unfold AcceptLoop.accept
  dsimp only
  split
  · rename_i hover
    exact ⟨iff_of_true rfl hover, nofun⟩
  · rename_i hunder
    split
    · exact ⟨iff_of_false Bool.false_ne_true hunder, nofun⟩
    · exact ⟨iff_of_false Bool.false_ne_true hunder, fun _ => not_lt.mp hunder⟩

end Address

section Run

variable {inputs : List AcceptInput}

/-- The state before a step of a run from the start. -/
theorem before_eq_final {past future : List AcceptStep} {t : AcceptStep}
    (hsplit : trace acceptNext inputs .fresh = past ++ t :: future) :
    t = stepOf acceptNext t.input (final acceptNext (past.map Step.input) .fresh) ∧
      past = trace acceptNext (past.map Step.input) .fresh := by
  obtain ⟨hpast, hrest⟩ := trace_eq_append hsplit
  exact ⟨(trace_eq_cons hrest.symm).1, hpast⟩

/-- The window that a connection falls into, from the attempts of its address. -/
def attemptsAt (ip : IpAddr) (past : List AcceptStep) (now : Int) : Nat :=
  (hitFrom attemptWindow (windowOf acceptedAt attemptWindow (past.filter (fromIp ip))) now).hits

theorem accepted_effect {ip : IpAddr} (hlife : ∀ i ∈ inputs, i.restarts = false)
    {past future : List AcceptStep} {t : AcceptStep}
    (hsplit : trace acceptNext inputs .fresh = past ++ t :: future) (hip : fromIp ip t = true) :
    (t.output.isRateLimited = true ↔ maxAttemptsPerIp < attemptsAt ip past (acceptedAt t)) ∧
      (t.output.isBegins = true → attemptsAt ip past (acceptedAt t) ≤ maxAttemptsPerIp) := by
  obtain ⟨ht, hpast⟩ := before_eq_final hsplit
  have hlifePast : ∀ i ∈ past.map Step.input, i.restarts = false := by
    intro i hi
    refine hlife i ?_
    rw [← trace_map_input acceptNext inputs .fresh, hsplit, List.map_append]
    exact List.mem_append_left _ hi
  have hwindow := windowOf?_eq (past.map Step.input) hlifePast ip
  rw [← hpast] at hwindow
  cases hinput : t.input with
  | accepts from_ now =>
    rw [fromIp, hinput] at hip
    obtain rfl := of_decide_eq_true hip
    have houtput : t.output = ((final acceptNext (past.map Step.input) .fresh).accept from_ now).1 := by
      rw [ht, stepOf_output, hinput]
      rfl
    have hat : acceptedAt t = now := by rw [acceptedAt, hinput]; rfl
    rw [houtput, hat, attemptsAt, ← hwindow]
    exact accept_effect from_ now
  | _ =>
    rw [fromIp, hinput] at hip
    cases hip

/-- The connections of an address come in one after the other. -/
theorem acceptedAt_sorted {ip : IpAddr}
    (hclock : ((inputs.filter (·.isFrom ip)).map AcceptInput.time).Pairwise (· ≤ ·)) :
    (((trace acceptNext inputs .fresh).filter (fromIp ip)).map acceptedAt).Pairwise (· ≤ ·) := by
  rw [← trace_map_input acceptNext inputs .fresh, List.filter_map, List.map_map] at hclock
  exact hclock

/-- **Attempts of one address.** In the life of a process, whether a connection is turned away for
the rate of its address depends on the attempts of that address alone, and no address gets more
than ten handshakes in the span of a minute. -/
theorem accept_ten_a_minute (hlife : ∀ i ∈ inputs, i.restarts = false) (ip : IpAddr)
    (hclock : ((inputs.filter (·.isFrom ip)).map AcceptInput.time).Pairwise (· ≤ ·)) :
    (∀ past t future, trace acceptNext inputs .fresh = past ++ t :: future → fromIp ip t = true →
      (t.output.isRateLimited = true ↔ maxAttemptsPerIp < attemptsAt ip past (acceptedAt t))) ∧
    ∀ start, inWindow acceptedAt attemptWindow (fun t => t.output.isBegins) start
      ((trace acceptNext inputs .fresh).filter (fromIp ip)) ≤ 2 * maxAttemptsPerIp := by
  refine ⟨fun past t future hsplit hip => (accepted_effect hlife hsplit hip).1, ?_⟩
  refine inWindow_le_of_hits (by decide) (acceptedAt_sorted hclock) ?_
  intro past t future hsplit hbegins
  obtain ⟨before, after, hrun, rfl, hafter⟩ := List.filter_eq_append_iff.mp hsplit
  obtain ⟨between, rest, rfl, hnone, hip, -⟩ := List.filter_eq_cons_iff.mp hafter
  have hwhole : trace acceptNext inputs .fresh = (before ++ between) ++ t :: rest := by
    rw [hrun, List.append_assoc]
  have hle := (accepted_effect hlife hwhole hip).2 hbegins
  have hquiet : between.filter (fromIp ip) = [] := List.filter_eq_nil_iff.mpr hnone
  rw [attemptsAt, List.filter_append, hquiet, List.append_nil] at hle
  exact hle

end Run

/-- Two connections of one address in a second. -/
theorem accept_ten_a_minute_twice :
    let ip : IpAddr := .v4 ⟨10, 0, 0, 2⟩
    inWindow acceptedAt attemptWindow (fun t => t.output.isBegins) 0
      ((trace acceptNext [.accepts ip 0, .accepts ip (10 ^ 9)] .fresh).filter (fromIp ip)) ≤
        2 * maxAttemptsPerIp :=
  (accept_ten_a_minute (by decide) _ (by decide)).2 0

/-! ### Places for remotes that are not known -/

/-- The peers without an endpoint. -/
def strangers (peers : List PeerInfo) : Nat := peers.countP fun p => p.endpoint = ""

/-- An invite that names no endpoint. -/
def DaemonOp.invitesStranger : DaemonOp → Bool
  | .acceptInvite _ (.ok payload) => payload.endpoint = ""
  | _ => false

section Strangers

variable {d : Daemon} {n : Nat}

theorem strangers_updatePeer {f : PeerInfo → PeerInfo} (hf : ∀ p, (f p).endpoint = p.endpoint)
    (id : String) (peers : List PeerInfo) : strangers (updatePeer id f peers) = strangers peers := by
  induction peers with
  | nil => rfl
  | cons p peers ih =>
    rw [updatePeer]
    split
    · rw [strangers, strangers, List.countP_cons, List.countP_cons, hf]
    · rw [strangers, strangers, List.countP_cons, List.countP_cons]
      exact congrArg (· + _) ih

theorem strangers_invite (now : String) (saves : Bool) (hash : String)
    (payload : Except String InvitePayload) :
    strangers (d.inviteAcceptHandler now saves hash payload).2.peers ≤
      strangers d.peers + if (DaemonOp.acceptInvite hash payload).invitesStranger then 1 else 0 := by
  unfold Daemon.inviteAcceptHandler
  split
  · exact Nat.le_add_right _ _
  · rename_i payload
    split
    · exact Nat.le_add_right _ _
    · dsimp only
      split
      · exact Nat.le_add_right _ _
      · split
        · exact Nat.le_add_right _ _
        · rw [Daemon.savePeers_peers, strangers, List.countP_append, List.countP_singleton]
          exact le_refl _

theorem strangers_inbound (now : String) (saves : Bool) (remote : MeshPublicIdentity) :
    strangers (d.acceptInbound now saves remote).2.peers ≤
      max (strangers d.peers) maxUnknownInboundPeers := by
  unfold Daemon.acceptInbound
  dsimp only
  split
  · exact le_max_left _ _
  · rename_i htaken
    split
    · exact (strangers_updatePeer (by intro p; rfl) _ _).trans_le (le_max_left _ _)
    · rename_i hunlisted
      have hroom : strangers d.peers < maxUnknownInboundPeers := by
        by_contra hfull
        exact htaken ⟨hunlisted, not_lt.mp hfull⟩
      split
      · exact le_max_left _ _
      · rw [Daemon.savePeers_peers, strangers, List.countP_append, List.countP_singleton]
        exact le_max_of_le_right hroom

theorem strangers_dialStep (now : String) (task : Nat) (event : DialEvent) :
    strangers (d.dialStep now task event).peers = strangers d.peers := by
  unfold Daemon.dialStep
  split
  · rfl
  · split
    · rfl
    · exact strangers_updatePeer (by intro p; rfl) _ _
    · split
      · rfl
      · rfl
    · exact strangers_updatePeer (by intro p; rfl) _ _
    · exact strangers_updatePeer (by intro p; rfl) _ _
    · exact strangers_updatePeer (by intro p; rfl) _ _
    · rfl

theorem strangers_dropPeer (id : String) (saves : Bool) :
    strangers (d.dropPeer id saves).peers = strangers d.peers := by
  rw [Daemon.dropPeer_peers]
  exact strangers_updatePeer (by intro p; rfl) _ _

theorem strangers_map_disconnected (peers : List PeerInfo) :
    strangers (peers.map (·.setDisconnected)) = strangers peers := by
  rw [strangers, List.countP_map]
  rfl

/-- A step adds a stranger where there is room for one, or one that an invite names. -/
theorem strangers_step (input : DaemonInput) (hpeers : strangers d.peers ≤ n)
    (hsaved : strangers d.saved ≤ n) (hn : maxUnknownInboundPeers ≤ n) :
    strangers (daemonNext input d).2.peers ≤ n + if input.op.invitesStranger then 1 else 0 := by
  obtain ⟨op, now, saves⟩ := input
  cases op with
  | acceptInvite hash payload =>
    exact (strangers_invite now saves hash payload).trans (Nat.add_le_add_right hpeers _)
  | deletePeer id =>
    have hfilter : strangers (d.peers.filter fun p => p.id ≠ id) ≤ n :=
      (List.filter_sublist.countP_le).trans hpeers
    change strangers (d.peerDisconnectHandler saves id).2.peers ≤ n
    unfold Daemon.peerDisconnectHandler
    dsimp only
    split
    · rw [Daemon.savePeers_peers]
      exact hfilter
    · exact hfilter
  | inbound remote => exact (strangers_inbound now saves remote).trans (max_le hpeers hn)
  | dial task event => exact (strangers_dialStep now task event).trans_le hpeers
  | receives handle msg =>
    change strangers (d.recvMsg now handle msg).2.peers ≤ n
    unfold Daemon.recvMsg
    split
    · exact hpeers
    · dsimp only
      split
      · exact (strangers_updatePeer (by intro p; rfl) _ _).trans_le hpeers
      · exact hpeers
  | recvFails handle =>
    change strangers (d.recvError saves handle).peers ≤ n
    unfold Daemon.recvError
    split
    · exact hpeers
    · exact (strangers_dropPeer _ saves).trans_le hpeers
  | healthTick old =>
    change strangers (d.collectStale old).peers ≤ n
    unfold Daemon.collectStale
    split
    · exact hpeers
    · exact hpeers
  | probed entry sent =>
    change strangers (d.probe saves entry sent).peers ≤ n
    unfold Daemon.probe
    split
    · exact hpeers
    · split
      · dsimp only
        split
        · exact hpeers
        · exact (strangers_dropPeer _ saves).trans_le hpeers
      · exact hpeers
  | reconnect =>
    change strangers d.reconnectPeers.peers ≤ n
    unfold Daemon.reconnectPeers
    split
    · exact hpeers
    · exact hpeers
  | restart => exact (strangers_map_disconnected d.saved).trans_le hsaved

/-- The same of the file. -/
theorem strangers_saved_step (input : DaemonInput) (hpeers : strangers d.peers ≤ n)
    (hsaved : strangers d.saved ≤ n) (hn : maxUnknownInboundPeers ≤ n) :
    strangers (daemonNext input d).2.saved ≤ n + if input.op.invitesStranger then 1 else 0 := by
  obtain hsame | hnew := Daemon.savesPeers_step input d
  · rw [hsame]
    exact hsaved.trans (Nat.le_add_right _ _)
  · rw [hnew]
    exact strangers_step input hpeers hsaved hn

end Strangers

/-! ### Every state -/

/-- An invite is accepted that names no endpoint. -/
def AcceptInput.invitesStranger : AcceptInput → Bool
  | .other input => input.op.invitesStranger
  | _ => false

/-- What holds of the accept loop and the daemon after `k` invites that name no endpoint. -/
structure AcceptLoop.Bounded (a : AcceptLoop) (k : Nat) : Prop where
  numbered : ∀ task ∈ a.running, task < a.spawned
  distinct : a.running.Nodup
  running : a.running.length ≤ maxConcurrentHandshakes
  peers : strangers a.daemon.peers ≤ maxUnknownInboundPeers + k
  saved : strangers a.daemon.saved ≤ maxUnknownInboundPeers + k

section Bounded

variable {a : AcceptLoop} {k : Nat}

/-- A step of the daemon, with the tasks that go on. -/
theorem AcceptLoop.Bounded.daemon (h : a.Bounded k) (input : DaemonInput) {running : List Nat}
    (hsub : running.Sublist a.running) (ipAttempts : Table Attempts.ip) :
    AcceptLoop.Bounded ⟨ipAttempts, running, a.spawned, (daemonNext input a.daemon).2⟩
      (k + if input.op.invitesStranger then 1 else 0) where
  numbered task htask := h.numbered task (hsub.subset htask)
  distinct := h.distinct.sublist hsub
  running := hsub.length_le.trans h.running
  peers := by
    rw [← Nat.add_assoc]
    exact strangers_step input h.peers h.saved (Nat.le_add_right _ _)
  saved := by
    rw [← Nat.add_assoc]
    exact strangers_saved_step input h.peers h.saved (Nat.le_add_right _ _)

theorem AcceptLoop.Bounded.accept (h : a.Bounded k) (ip : IpAddr) (now : Int) :
    (a.accept ip now).2.Bounded k := by
  unfold AcceptLoop.accept
  dsimp only
  split
  · exact ⟨h.numbered, h.distinct, h.running, h.peers, h.saved⟩
  · split
    · exact ⟨h.numbered, h.distinct, h.running, h.peers, h.saved⟩
    · rename_i hpermit
      have hfresh : a.spawned ∉ a.running := fun hmem => lt_irrefl _ (h.numbered _ hmem)
      refine ⟨?_, ?_, ?_, h.peers, h.saved⟩
      · intro task htask
        obtain hmem | rfl := by simpa using htask
        · exact Nat.lt_succ_of_lt (h.numbered task hmem)
        · exact Nat.lt_succ_self _
      · exact List.nodup_append.mpr ⟨h.distinct, List.nodup_singleton _, by
          rintro x hx y hy rfl
          exact hfresh (List.mem_singleton.mp hy ▸ hx)⟩
      · rw [List.length_append, List.length_singleton]
        exact not_le.mp hpermit

theorem AcceptLoop.Bounded.step (h : a.Bounded k) (i : AcceptInput) :
    (acceptNext i a).2.Bounded (k + if i.invitesStranger then 1 else 0) := by
  cases i with
  | accepts ip now => exact h.accept ip now
  | handshakeEnds task remote now saves =>
    change (a.handshakeEnds task remote now saves).2.Bounded k
    unfold AcceptLoop.handshakeEnds
    split
    · cases remote with
      | none =>
        exact ⟨fun t ht => h.numbered t (List.mem_of_mem_erase ht), h.distinct.erase task,
          (List.erase_sublist).length_le.trans h.running, h.peers, h.saved⟩
      | some remote => exact h.daemon ⟨.inbound remote, now, saves⟩ List.erase_sublist a.ipAttempts
    · exact h
  | other input =>
    have hsame := h.daemon input (List.Sublist.refl _) a.ipAttempts
    obtain ⟨op, now, saves⟩ := input
    cases op with
    | inbound remote => exact h
    | restart => exact h.daemon ⟨.restart, now, saves⟩ (List.nil_sublist _) .empty
    | _ => exact hsame

end Bounded

end OsModa.Mesh
