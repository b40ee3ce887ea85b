import OsModa.Mesh.Daemon

/-!
How the peer list and the connection table fit together.

They are changed in one step of a task where the task means to change both, and an inbound
connection is filed under the id of a peer that is then in the list. An outbound connection is
filed under the id that the remote named while the peer that was dialled is marked, and either
may be missing from the list by then (`peers_consistent_iff`).
-/

namespace OsModa.Mesh

open OsModa.Machine MeshState

/-- No id is in the list twice, every entry is of a listed peer, and every peer that is shown
as connected has an entry. -/
structure Consistent (peers : List PeerInfo) (connections : Table Entry.peerId) : Prop where
  distinct : (peers.map PeerInfo.id).Nodup
  listed : ∀ e ∈ connections.rows, e.peerId ∈ peers.map PeerInfo.id
  connected : ∀ p ∈ peers, p.isConnected = true → connections.find? p.id ≠ none

/-! ### Changes of one peer -/

section Update

variable {peers : List PeerInfo} {id : String} {f : PeerInfo → PeerInfo}

theorem updatePeer_ids (hf : ∀ p, (f p).id = p.id) :
    (updatePeer id f peers).map PeerInfo.id = peers.map PeerInfo.id := by
  induction peers with
  | nil => rfl
  | cons p peers ih =>
    rw [updatePeer]
    split
    · rw [List.map_cons, List.map_cons, hf]
    · rw [List.map_cons, List.map_cons, ih]

/-- With distinct ids, the one peer is changed and no other. -/
theorem mem_updatePeer (hdistinct : (peers.map PeerInfo.id).Nodup) {p : PeerInfo} :
    p ∈ updatePeer id f peers ↔
      (p ∈ peers ∧ p.id ≠ id) ∨ ∃ q ∈ peers, q.id = id ∧ p = f q := by
  induction peers with
  | nil => simp [updatePeer]
  | cons first peers ih =>
    obtain ⟨hfirst, hrest⟩ := List.nodup_cons.mp hdistinct
    rw [updatePeer]
    by_cases hid : first.id = id
    · rw [if_pos hid]
      have hothers : ∀ q ∈ peers, q.id ≠ id := fun q hq heq =>
        hfirst (List.mem_map.mpr ⟨q, hq, heq.trans hid.symm⟩)
      constructor
      · intro hmem
        obtain rfl | hmem := List.mem_cons.mp hmem
        · exact .inr ⟨first, List.mem_cons_self, hid, rfl⟩
        · exact .inl ⟨List.mem_cons_of_mem _ hmem, hothers p hmem⟩
      · rintro (⟨hmem, hne⟩ | ⟨q, hq, hqid, rfl⟩)
        · obtain rfl | hmem := List.mem_cons.mp hmem
          · exact absurd hid hne
          · exact List.mem_cons_of_mem _ hmem
        · obtain rfl | hq := List.mem_cons.mp hq
          · exact List.mem_cons_self
          · exact absurd hqid (hothers q hq)
    · rw [if_neg hid, List.mem_cons, ih hrest]
      constructor
      · rintro (rfl | ⟨hmem, hne⟩ | ⟨q, hq, hqid, rfl⟩)
        · exact .inl ⟨List.mem_cons_self, hid⟩
        · exact .inl ⟨List.mem_cons_of_mem _ hmem, hne⟩
        · exact .inr ⟨q, List.mem_cons_of_mem _ hq, hqid, rfl⟩
      · rintro (⟨hmem, hne⟩ | ⟨q, hq, hqid, rfl⟩)
        · obtain rfl | hmem := List.mem_cons.mp hmem
          · exact .inl rfl
          · exact .inr (.inl ⟨hmem, hne⟩)
        · obtain rfl | hq := List.mem_cons.mp hq
          · exact absurd hqid hid
          · exact .inr (.inr ⟨q, hq, hqid, rfl⟩)

end Update

/-! ### What keeps the two together -/

section Keeps

variable {peers : List PeerInfo} {connections : Table Entry.peerId} {id : String}

/-- A peer is changed that is not shown as connected then, or has an entry. -/
theorem consistent_change (h : Consistent peers connections) {f : PeerInfo → PeerInfo}
    (hf : ∀ p, (f p).id = p.id)
    (hconnected : ∀ p ∈ peers, p.id = id → (f p).isConnected = true →
      connections.find? id ≠ none) : Consistent (updatePeer id f peers) connections where
  distinct := by rw [updatePeer_ids hf]; exact h.distinct
  listed e he := by rw [updatePeer_ids hf]; exact h.listed e he
  connected p hp hpc := by
    obtain ⟨hmem, -⟩ | ⟨q, hq, rfl, rfl⟩ := (mem_updatePeer h.distinct).mp hp
    · exact h.connected p hmem hpc
    · rw [hf]
      exact hconnected q hq rfl hpc

theorem consistent_put (h : Consistent peers connections) (hlisted : id ∈ peers.map PeerInfo.id)
    (handle : Nat) : Consistent peers (connections.put ⟨id, handle⟩) where
  distinct := h.distinct
  listed e he := by
    obtain rfl | ⟨hold, -⟩ := Table.mem_rows_put.mp he
    · exact hlisted
    · exact h.listed e hold
  connected p hp hpc := by
    rw [Table.find?_put]
    split
    · exact Option.some_ne_none _
    · exact h.connected p hp hpc

theorem nodup_push (h : (peers.map PeerInfo.id).Nodup) {p : PeerInfo}
    (hfresh : p.id ∉ peers.map PeerInfo.id) : ((peers ++ [p]).map PeerInfo.id).Nodup := by
  rw [List.map_append, List.map_singleton]
  exact List.nodup_append_comm.mp (List.nodup_cons.mpr ⟨hfresh, h⟩)

/-- A peer that is not in the list yet is added, not connected or with a connection. -/
theorem consistent_push (h : Consistent peers connections) {p : PeerInfo}
    (hfresh : p.id ∉ peers.map PeerInfo.id) (hp : p.isConnected = false) :
    Consistent (peers ++ [p]) connections where
  distinct := nodup_push h.distinct hfresh
  listed e he := by
    rw [List.map_append]
    exact List.mem_append_left _ (h.listed e he)
  connected q hq hqc := by
    obtain hold | hnew := List.mem_append.mp hq
    · exact h.connected q hold hqc
    · obtain rfl := List.mem_singleton.mp hnew
      exact absurd (hqc.symm.trans hp) (by decide)

theorem consistent_push_put (h : Consistent peers connections) {p : PeerInfo}
    (hfresh : p.id ∉ peers.map PeerInfo.id) (handle : Nat) :
    Consistent (peers ++ [p]) (connections.put ⟨p.id, handle⟩) where
  distinct := nodup_push h.distinct hfresh
  listed e he := by
    rw [List.map_append, List.mem_append]
    obtain rfl | ⟨hold, -⟩ := Table.mem_rows_put.mp he
    · exact .inr (List.mem_singleton_self _)
    · exact .inl (h.listed e hold)
  connected q hq hqc := by
    rw [Table.find?_put]
    split
    · exact Option.some_ne_none _
    · rename_i hne
      obtain hold | hnew := List.mem_append.mp hq
      · exact h.connected q hold hqc
      · obtain rfl := List.mem_singleton.mp hnew
        exact absurd rfl hne

theorem consistent_drop (h : Consistent peers connections) (id : String) :
    Consistent (updatePeer id (·.setDisconnected) peers) (connections.erase id) where
  distinct := by
    rw [updatePeer_ids (f := (·.setDisconnected)) fun _ => rfl]
    exact h.distinct
  listed e he := by
    rw [updatePeer_ids (f := (·.setDisconnected)) fun _ => rfl]
    exact h.listed e (Table.mem_rows_erase.mp he).1
  connected p hp hpc := by
    obtain ⟨hmem, hne⟩ | ⟨q, -, -, rfl⟩ := (mem_updatePeer h.distinct).mp hp
    · rw [Table.find?_erase, if_neg (Ne.symm hne)]
      exact h.connected p hmem hpc
    · cases hpc

theorem consistent_delete (h : Consistent peers connections) (id : String) :
    Consistent (peers.filter fun p => p.id ≠ id) (connections.erase id) where
  distinct := h.distinct.sublist (List.filter_sublist.map _)
  listed e he := by
    obtain ⟨hold, hne⟩ := Table.mem_rows_erase.mp he
    obtain ⟨p, hp, hid⟩ := List.mem_map.mp (h.listed e hold)
    exact List.mem_map.mpr ⟨p, by simpa [hp, hid] using hne, hid⟩
  connected p hp hpc := by
    obtain ⟨hmem, hne⟩ := List.mem_filter.mp hp
    rw [Table.find?_erase, if_neg fun heq => by simp [heq] at hne]
    exact h.connected p hmem hpc

theorem consistent_disconnected (h : (peers.map PeerInfo.id).Nodup) :
    Consistent (peers.map (·.setDisconnected)) .empty where
  distinct := by
    rw [List.map_map]
    exact h
  listed e he := absurd he List.not_mem_nil
  connected p hp hpc := by
    obtain ⟨q, -, rfl⟩ := List.mem_map.mp hp
    cases hpc

end Keeps

/-! ### One step -/

namespace Daemon

def Consistent (d : Daemon) : Prop := Mesh.Consistent d.peers d.connections

variable {d : Daemon}

theorem isListed_iff {id : String} : d.isListed id = true ↔ id ∈ d.peers.map PeerInfo.id := by
  simp [isListed]

theorem consistent_invite (h : d.Consistent) (now : String) (saves : Bool) (hash : String)
    (payload : Except String InvitePayload) :
    (d.inviteAcceptHandler now saves hash payload).2.Consistent := by
  unfold inviteAcceptHandler
  split
  · exact h
  · split
    · exact h
    · dsimp only
      split
      · exact h
      · rename_i hunlisted
        split
        · exact h
        · unfold Daemon.Consistent
          rw [savePeers_peers, savePeers_connections]
          exact consistent_push h (fun hmem => hunlisted (isListed_iff.mpr hmem)) rfl

theorem consistent_deletePeer (h : d.Consistent) (saves : Bool) (id : String) :
    (d.peerDisconnectHandler saves id).2.Consistent := by
  unfold peerDisconnectHandler
  dsimp only
  split
  · unfold Daemon.Consistent
    rw [savePeers_peers, savePeers_connections]
    exact consistent_delete h id
  · exact consistent_delete h id

theorem consistent_dropPeer (h : d.Consistent) (id : String) (saves : Bool) :
    (d.dropPeer id saves).Consistent := by
  unfold Daemon.Consistent
  rw [dropPeer_peers, dropPeer_connections]
  exact consistent_drop h id

/-- A peer is shown as failed or disconnected, or heard of. -/
theorem consistent_changePeer (h : d.Consistent) (id : String) {f : PeerInfo → PeerInfo}
    (hf : ∀ p, (f p).id = p.id) (hstate : ∀ p, (f p).isConnected = true → p.isConnected = true) :
    (d.changePeer id f).Consistent := by
  refine consistent_change h hf ?_
  intro p hp hid hpc
  rw [← hid]
  exact h.connected p hp (hstate p hpc)

theorem consistent_recvMsg (h : d.Consistent) (now : String) (handle : Nat) (msg : MeshMessage) :
    (d.recvMsg now handle msg).2.Consistent := by
  unfold recvMsg
  split
  · exact h
  · dsimp only
    split
    · exact consistent_changePeer h _ (fun _ => rfl) fun _ hpc => hpc
    · exact h

theorem consistent_recvError (h : d.Consistent) (saves : Bool) (handle : Nat) :
    (d.recvError saves handle).Consistent := by
  unfold recvError
  split
  · exact h
  · rename_i l _
    exact consistent_dropPeer (d := { d with loops := d.loops.filter (· ≠ l) }) h _ saves

theorem consistent_probe (h : d.Consistent) (saves : Bool) (entry : Entry) (sent : Bool) :
    (d.probe saves entry sent).Consistent := by
  unfold probe
  split
  · exact h
  · rename_i stale _
    split
    · dsimp only
      split
      · exact h
      · exact consistent_dropPeer (d := { d with probing := some (stale.erase entry) }) h _ saves
    · exact h

theorem consistent_collectStale (h : d.Consistent) (old : String → Bool) :
    (d.collectStale old).Consistent := by
  unfold collectStale
  split
  · exact h
  · exact h

theorem consistent_reconnectPeers (h : d.Consistent) : d.reconnectPeers.Consistent := by
  unfold reconnectPeers
  split
  · exact h
  · exact h

/-! ### Inbound connections -/

/-- The daemon takes an inbound connection of the remote. -/
def takes (d : Daemon) (remote : MeshPublicIdentity) : Prop :=
  d.isListed remote.instanceId = true ∨
    d.peers.countP (fun p => p.endpoint = "") < maxUnknownInboundPeers

/-- The remote is known, or its id can be cut for a label, or it is refused anyway. -/
def Labels (d : Daemon) (remote : MeshPublicIdentity) : Prop :=
  d.takes remote → d.isListed remote.instanceId = false → shortId remote.instanceId ≠ none

theorem consistent_inbound_iff (h : d.Consistent) (now : String) (saves : Bool)
    (remote : MeshPublicIdentity) :
    (d.acceptInbound now saves remote).2.Consistent ↔ d.Labels remote := by
  unfold acceptInbound Labels takes
  dsimp only
  split
  · rename_i hrefused
    refine iff_of_true h ?_
    intro htakes hunlisted
    obtain hlisted | hroom := htakes
    · exact absurd hlisted hrefused.1
    · exact absurd hroom (not_lt.mpr hrefused.2)
  · rename_i htaken
    split
    · rename_i hlisted
      refine iff_of_true ?_ fun _ hunlisted => absurd (hlisted.symm.trans hunlisted) (by decide)
      refine consistent_change (consistent_put h (isListed_iff.mp hlisted) _) (fun _ => rfl)
        fun _ _ _ _ => ?_
      rw [Table.find?_put_self]
      exact Option.some_ne_none _
    · rename_i hunlisted
      have hfresh : remote.instanceId ∉ d.peers.map PeerInfo.id := fun hmem =>
        hunlisted (isListed_iff.mpr hmem)
      have hroom : d.peers.countP (fun p => p.endpoint = "") < maxUnknownInboundPeers := by
        by_contra hfull
        exact htaken ⟨hunlisted, not_lt.mp hfull⟩
      cases hshort : shortId remote.instanceId with
      | none =>
        refine iff_of_false (fun hafter => ?_) fun hlabels =>
          hlabels (.inr hroom) (Bool.eq_false_iff.mpr hunlisted) rfl
        exact hfresh (hafter.listed ⟨remote.instanceId, d.made⟩ (Table.mem_rows_put.mpr (.inl rfl)))
      | some short =>
        refine iff_of_true ?_ fun _ _ => Option.some_ne_none _
        unfold Daemon.Consistent
        rw [savePeers_peers, savePeers_connections]
        exact consistent_push_put h hfresh _

/-! ### Outbound connections -/

/-- The peer that the remote named is in the list, and the one that was dialled is that peer,
or has an entry, or is not in the list. -/
structure Installs (d : Daemon) (peerId : String) (remote : MeshPublicIdentity) : Prop where
  named : d.isListed remote.instanceId = true
  dialled : d.isListed peerId = true → peerId = remote.instanceId ∨
    d.connections.find? peerId ≠ none

theorem consistent_install_iff (h : d.Consistent) (now peerId : String)
    (remote : MeshPublicIdentity) :
    (d.install now peerId remote).Consistent ↔ d.Installs peerId remote := by
  constructor
  · intro hafter
    have hids : (d.install now peerId remote).peers.map PeerInfo.id = d.peers.map PeerInfo.id :=
      updatePeer_ids fun _ => rfl
    refine ⟨?_, fun hlisted => ?_⟩
    · have hnamed := hafter.listed ⟨remote.instanceId, d.made⟩ (Table.mem_rows_put.mpr (.inl rfl))
      rw [hids] at hnamed
      exact isListed_iff.mpr hnamed
    · obtain ⟨p, hp, hid⟩ := List.mem_map.mp (isListed_iff.mp hlisted)
      have hmarked : p.setConnected now ∈ (d.install now peerId remote).peers :=
        (mem_updatePeer h.distinct).mpr (.inr ⟨p, hp, hid, rfl⟩)
      have hentry : (d.connections.put ⟨remote.instanceId, d.made⟩).find? p.id ≠ none :=
        hafter.connected (p.setConnected now) hmarked rfl
      rw [Table.find?_put, hid] at hentry
      split at hentry
      · rename_i heq
        exact .inl heq.symm
      · exact .inr hentry
  · rintro ⟨hnamed, hdialled⟩
    refine consistent_change (consistent_put h (isListed_iff.mp hnamed) _) (fun _ => rfl)
      fun p hp hid _ => ?_
    rw [Table.find?_put]
    split
    · exact Option.some_ne_none _
    · rename_i hne
      obtain rfl | hentry := hdialled (isListed_iff.mpr (List.mem_map.mpr ⟨p, hp, hid⟩))
      · exact absurd rfl hne
      · exact hentry

/-- If the step of the task installs a connection, the two ids fit. -/
def Dials (d : Daemon) (task : Nat) (event : DialEvent) : Prop :=
  ∀ dial remote, d.dials[task]? = some dial → dial.stage = .verified remote → event = .locks →
    d.Installs dial.peerId remote

theorem consistent_dialStep_iff (h : d.Consistent) (now : String) (task : Nat) (event : DialEvent) :
    (d.dialStep now task event).Consistent ↔ d.Dials task event := by
  unfold dialStep
  split
  · rename_i hnone
    refine iff_of_true h ?_
    intro dial remote hdial
    rw [hnone] at hdial
    cases hdial
  · rename_i dial hdial
    -- Only a task whose remote has been verified installs anything.
    have hquiet : ∀ d' : Daemon, d'.Consistent →
        (∀ remote, dial.stage = .verified remote → event ≠ .locks) →
        (d'.Consistent ↔ d.Dials task event) := by
      refine fun d' hd' hnot => iff_of_true hd' fun dial' remote hdial' hstage hevent => ?_
      obtain rfl := Option.some.inj (hdial'.symm.trans hdial)
      exact absurd hevent (hnot remote hstage)
    split
    · rename_i hstage
      exact hquiet _ h (by simp [hstage])
    · rename_i hstage
      exact hquiet _ (consistent_changePeer h _ (fun _ => rfl) nofun) (by simp [hstage])
    · rename_i hstage
      split
      · exact hquiet _ h (by simp [hstage])
      · exact hquiet _ h (by simp [hstage])
    · rename_i hstage
      exact hquiet _ (consistent_changePeer h _ (fun _ => rfl) nofun) (by simp [hstage])
    · rename_i remote hstage
      refine (consistent_install_iff h now dial.peerId remote).trans ⟨?_, ?_⟩
      · intro hinstalls dial' remote' hdial' hstage' _
        obtain rfl := Option.some.inj (hdial'.symm.trans hdial)
        obtain rfl := DialStage.verified.inj (hstage'.symm.trans hstage)
        exact hinstalls
      · exact fun hdials => hdials dial remote hdial hstage rfl
    · rename_i hstage
      exact hquiet _ (consistent_changePeer h _ (fun _ => rfl) nofun) (by simp [hstage])
    · rename_i hother _
      exact hquiet _ h fun remote hstage hevent => hother remote hstage hevent

/-! ### Runs -/

/-- The connection that the step files is filed under the id of a peer that is in the list, and
the peer that it shows as connected has an entry. -/
def Couples (t : DaemonStep) : Prop :=
  match t.input.op with
  | .inbound remote => t.before.Labels remote
  | .dial task event => t.before.Dials task event
  | _ => True

theorem couples_step_iff (input : DaemonInput) (h : d.Consistent)
    (hsaved : (d.saved.map PeerInfo.id).Nodup) :
    (daemonNext input d).2.Consistent ↔ Couples (stepOf daemonNext input d) := by
  obtain ⟨op, now, saves⟩ := input
  cases op with
  | acceptInvite hash payload => exact iff_of_true (consistent_invite h now saves hash payload) trivial
  | deletePeer id => exact iff_of_true (consistent_deletePeer h saves id) trivial
  | inbound remote => exact consistent_inbound_iff h now saves remote
  | dial task event => exact consistent_dialStep_iff h now task event
  | receives handle msg => exact iff_of_true (consistent_recvMsg h now handle msg) trivial
  | recvFails handle => exact iff_of_true (consistent_recvError h saves handle) trivial
  | healthTick old => exact iff_of_true (consistent_collectStale h old) trivial
  | probed entry sent => exact iff_of_true (consistent_probe h saves entry sent) trivial
  | reconnect => exact iff_of_true (consistent_reconnectPeers h) trivial
  | restart => exact iff_of_true (consistent_disconnected hsaved) trivial

/-- The file is left as it is, or the peers are written to it. -/
def SavesPeers (d d' : Daemon) : Prop := d'.saved = d.saved ∨ d'.saved = d'.peers

theorem savesPeers_savePeers {d d' : Daemon} (h : d'.saved = d.saved) (saves : Bool) :
    SavesPeers d (d'.savePeers saves) := by
  rw [SavesPeers, savePeers_peers, ← h]
  exact d'.savePeers_saved saves

theorem savesPeers_invite (d : Daemon) (now : String) (saves : Bool) (hash : String)
    (payload : Except String InvitePayload) :
    SavesPeers d (d.inviteAcceptHandler now saves hash payload).2 := by
  unfold inviteAcceptHandler
  split
  · exact .inl rfl
  · split
    · exact .inl rfl
    · dsimp only
      split
      · exact .inl rfl
      · split
        · exact .inl rfl
        · exact savesPeers_savePeers rfl saves

theorem savesPeers_inbound (d : Daemon) (now : String) (saves : Bool) (remote : MeshPublicIdentity) :
    SavesPeers d (d.acceptInbound now saves remote).2 := by
  unfold acceptInbound
  dsimp only
  split
  · exact .inl rfl
  · split
    · exact .inl rfl
    · split
      · exact .inl rfl
      · exact savesPeers_savePeers rfl saves

theorem savesPeers_dialStep (d : Daemon) (now : String) (task : Nat) (event : DialEvent) :
    SavesPeers d (d.dialStep now task event) := by
  unfold dialStep
  split
  · exact .inl rfl
  · split
    · exact .inl rfl
    · exact .inl rfl
    · split
      · exact .inl rfl
      · exact .inl rfl
    · exact .inl rfl
    · exact .inl rfl
    · exact .inl rfl
    · exact .inl rfl

theorem savesPeers_recvMsg (d : Daemon) (now : String) (handle : Nat) (msg : MeshMessage) :
    SavesPeers d (d.recvMsg now handle msg).2 := by
  unfold recvMsg
  split
  · exact .inl rfl
  · dsimp only
    split
    · exact .inl rfl
    · exact .inl rfl

theorem savesPeers_probe (d : Daemon) (saves : Bool) (entry : Entry) (sent : Bool) :
    SavesPeers d (d.probe saves entry sent) := by
  unfold probe
  split
  · exact .inl rfl
  · split
    · dsimp only
      split
      · exact .inl rfl
      · exact savesPeers_savePeers rfl saves
    · exact .inl rfl

theorem savesPeers_step (input : DaemonInput) (d : Daemon) :
    SavesPeers d (daemonNext input d).2 := by
  obtain ⟨op, now, saves⟩ := input
  cases op with
  | acceptInvite hash payload => exact savesPeers_invite d now saves hash payload
  | deletePeer id =>
    change SavesPeers d (d.peerDisconnectHandler saves id).2
    unfold peerDisconnectHandler
    dsimp only
    split
    · exact savesPeers_savePeers rfl saves
    · exact .inl rfl
  | inbound remote => exact savesPeers_inbound d now saves remote
  | dial task event => exact savesPeers_dialStep d now task event
  | receives handle msg => exact savesPeers_recvMsg d now handle msg
  | recvFails handle =>
    change SavesPeers d (d.recvError saves handle)
    unfold recvError
    split
    · exact .inl rfl
    · exact savesPeers_savePeers rfl saves
  | healthTick old =>
    change SavesPeers d (d.collectStale old)
    unfold collectStale
    split
    · exact .inl rfl
    · exact .inl rfl
  | probed entry sent => exact savesPeers_probe d saves entry sent
  | reconnect =>
    change SavesPeers d d.reconnectPeers
    unfold reconnectPeers
    split
    · exact .inl rfl
    · exact .inl rfl
  | restart => exact .inl rfl

end Daemon

/-- In every run, the peer list and the connection table are consistent in every state if and
only if every connection is filed under the id of a listed peer, and no listed peer without an
entry is shown as connected for a connection of another. -/
theorem peers_consistent_iff (inputs : List DaemonInput) :
    (∀ t ∈ trace daemonNext inputs .fresh, t.after.Consistent) ↔
      ∀ t ∈ trace daemonNext inputs .fresh, Daemon.Couples t := by
  refine all_good_iff (I := fun d => d.Consistent ∧ (d.saved.map PeerInfo.id).Nodup)
    (fun input d h => Daemon.couples_step_iff input h.1 h.2) (fun input d h hgood => ⟨hgood, ?_⟩)
    inputs ⟨⟨List.nodup_nil, nofun, nofun⟩, List.nodup_nil⟩
  obtain hsame | hnew := Daemon.savesPeers_step input d
  · rw [hsame]
    exact h.2
  · rw [hnew]
    exact hgood.distinct

/-! An invite is accepted, and its peer is deleted while it is being connected to. -/

def someInvite : DaemonInput :=
  inputOf (.acceptInvite "h1" (.ok ⟨"10.0.0.2:18800", "aa", "bb", someRemote.instanceId⟩))

def deletedWhileDialled : List DaemonInput :=
  [someInvite, inputOf (.dial 0 (.handshook someRemote)), isRemoved]

/-- The connection is filed for a peer that is not in the list. -/
theorem deletedWhileDialled_inconsistent :
    ¬ ∀ inputs, ∀ t ∈ trace daemonNext inputs .fresh, t.after.Consistent := by
  intro h
  have hlast : stepOf daemonNext (inputOf (.dial 0 .locks))
      (final daemonNext deletedWhileDialled .fresh) ∈
      trace daemonNext (deletedWhileDialled ++ [inputOf (.dial 0 .locks)]) .fresh := by
    rw [trace_append]
    exact List.mem_append_right _ (List.mem_singleton_self _)
  have hlisted := (h _ _ hlast).listed ⟨someRemote.instanceId, 0⟩ (by decide +kernel)
  revert hlisted
  decide +kernel

end OsModa.Mesh
