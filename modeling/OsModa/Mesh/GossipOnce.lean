import Mathlib.Algebra.Order.BigOperators.Group.List
import OsModa.Mesh.Flooding

/-!
Whether each daemon takes a message in once.

Each daemon stores the message under a hash of the time at which it came in, so a copy that
comes in later is a new message to it: it is stored, displayed and forwarded again. The message
is taken in once by each daemon exactly where there is only one way for the forwards to reach
it (`gossip_safe_iff`).
-/

namespace OsModa.Mesh

open OsModa.Machine OsModa.Worklist

variable {sha256 : List UInt8 → List UInt8}

/-! ### One way to each daemon -/

section OneWay

variable {nodes : Table (@RoomNode.instanceId sha256)} {s : RoomSend}

/-- The origin and the daemons that copies came to, where they take part in the room. -/
def withOrigin (nodes : Table (@RoomNode.instanceId sha256)) (s : RoomSend)
    (run : List (GossipStep sha256)) : List String :=
  (s.origin :: (delivered run).map Prod.snd).filter (takesPart nodes s)

theorem count_takesPart (ids : List String) (id : String) :
    ((s.origin :: ids).filter (takesPart nodes s)).count id =
      (if s.origin = id ∧ takesPart nodes s id = true then 1 else 0) +
        (ids.filter (takesPart nodes s)).count id := by
  rw [List.filter_cons]
  by_cases hid : s.origin = id
  · subst hid
    cases hpart : takesPart nodes s s.origin <;> simp [Nat.add_comm]
  · cases hpart : takesPart nodes s s.origin <;> simp [hid]

theorem OneWay.nodup (h : OneWay nodes s) (deliveries : List Delivery) :
    (withOrigin nodes s (s.run nodes deliveries)).Nodup := by
  obtain ⟨m, ways, hperm, hsub⟩ := (flooded_run nodes s deliveries).worked.subperm
  have hways : ((s.origin :: ways.map Prod.snd).filter (takesPart nodes s)).Nodup :=
    (h m).sublist (((hsub.map _).cons_cons _).filter _)
  exact (((hperm.map _).cons _).filter _).nodup_iff.mp hways

/-- What the request does at the origin. -/
theorem countP_start_le {p : RoomEffect → Bool} (hp : ∀ dest msg, p (.sends dest msg) = false)
    (id : String) : (if id = s.origin then (s.start nodes).1 else []).countP p ≤
      if s.origin = id ∧ takesPart nodes s id = true then 1 else 0 := by
  by_cases hid : id = s.origin
  · subst hid
    rcases start_cases nodes s with ⟨st, hfind, hshows, heffects, -, -⟩ | ⟨-, hstart⟩
    · have hpart : takesPart nodes s s.origin = true := by
        simp [takesPart, hfind, hshows]
      have hsends : ((sentTo nodes s).map fun edge => RoomEffect.sends edge.2 s.chat).countP p =
          0 := by
        simp [List.countP_eq_zero, hp]
      rw [if_pos rfl, if_pos ⟨rfl, hpart⟩, heffects, List.countP_cons, hsends]
      split <;> simp
    · rw [if_pos rfl, hstart]
      exact Nat.zero_le _
  · rw [if_neg hid]
    exact Nat.zero_le _

theorem OneWay.countP_le (h : OneWay nodes s) {p : RoomEffect → Bool}
    (hsends : ∀ dest msg, p (.sends dest msg) = false)
    (hp : ∀ f, (fullEffects nodes s f).countP p ≤ if takesPart nodes s f.dest then 1 else 0)
    (deliveries : List Delivery) (id : String) :
    (s.effectsAt nodes deliveries id).countP p ≤ 1 := by
  rw [RoomSend.effectsAt, List.countP_append]
  have hrun := countP_effectsAt_le hp (flooded_run nodes s deliveries).fits id
  have honce := List.nodup_iff_count_le_one.mp (h.nodup deliveries) id
  rw [withOrigin, count_takesPart] at honce
  rw [Nat.one_mul] at hrun
  exact (Nat.add_le_add (countP_start_le hsends id) hrun).trans honce

/-- The members that a daemon may forward to. -/
def RoomNode.degree (st : RoomNode sha256) (roomId : String) : Nat :=
  (st.roomStore.elim [] (·.getMembers roomId)).length

theorem length_forwardsTo_le (st : RoomNode sha256) (roomId source : String) :
    ((st.part roomId).forwardsTo source).length ≤ st.degree roomId := by
  rw [RoomNode.part, RoomNode.degree]
  cases st.roomStore with
  | none => exact Nat.zero_le _
  | some store => exact List.length_filter_le ..

theorem OneWay.length_visited_le (h : OneWay nodes s) (deliveries : List Delivery) :
    (visited nodes s (s.run nodes deliveries)).length ≤ nodes.rows.length := by
  have hnodup : (visited nodes s (s.run nodes deliveries)).Nodup :=
    (h.nodup deliveries).sublist ((List.sublist_cons_self ..).filter _)
  have hsubset : visited nodes s (s.run nodes deliveries) ⊆ nodes.rows.map RoomNode.instanceId := by
    intro id hid
    have hpart := (List.mem_filter.mp hid).2
    rw [takesPart, Option.any_eq_true] at hpart
    obtain ⟨st, hfind, -⟩ := hpart
    exact List.mem_map.mpr ⟨st, List.mem_of_find?_eq_some hfind, Table.key_of_find? hfind⟩
  exact (hnodup.subperm hsubset).length_le.trans_eq (List.length_map ..)

theorem OneWay.finite (h : OneWay nodes s) (deliveries : List Delivery) :
    ((s.start nodes).1 ++ (s.run nodes deliveries).flatMap GossipStep.effects).countP
        RoomEffect.isSend ≤
      (sentTo nodes s).length +
        (nodes.rows.map (·.degree s.roomId)).sum * nodes.rows.length := by
  rw [List.countP_append]
  refine Nat.add_le_add ?_ ?_
  · rcases start_cases nodes s with ⟨st, -, -, heffects, -, -⟩ | ⟨-, hstart⟩
    · rw [heffects, List.countP_cons_of_neg (by decide)]
      exact List.countP_le_length.trans_eq (List.length_map ..)
    · rw [hstart]
      exact Nat.zero_le _
  · have hp : ∀ f, (fullEffects nodes s f).countP RoomEffect.isSend ≤
        if takesPart nodes s f.dest then (nodes.rows.map (·.degree s.roomId)).sum else 0 := by
      refine countP_fullEffects_le ?_
      intro st hst source
      rw [countP_sends]
      cases hshows : (st.part s.roomId).shows with
      | false => exact Nat.zero_le _
      | true =>
        have hsum := List.single_le_sum (fun _ _ => Nat.zero_le _) _
          (List.mem_map_of_mem (f := (·.degree s.roomId)) hst)
        exact (length_forwardsTo_le ..).trans hsum
    exact (countP_effects_le hp (flooded_run nodes s deliveries).fits).trans
      (Nat.mul_le_mul_left _ (h.length_visited_le deliveries))

theorem OneWay.gossipSafe (h : OneWay nodes s) : GossipSafe nodes s where
  stored := by
    refine h.countP_le (fun _ _ => rfl) (countP_fullEffects_le fun st _ source => ?_)
    rw [countP_persisted]
    cases (st.part s.roomId).keeps <;> simp
  displayed := by
    refine h.countP_le (fun _ _ => rfl) (countP_fullEffects_le fun st _ source => ?_)
    rw [countP_displayed]
    cases (st.part s.roomId).shows <;> simp
  finite := ⟨_, h.finite⟩

end OneWay

/-! ### More than one way -/

section Converse

variable {nodes : Table (@RoomNode.instanceId sha256)} {s : RoomSend}

/-- For each daemon there are two times as of which the message is new to it, with different
hashes if it can be stored. -/
def TwoReadings (nodes : Table (@RoomNode.instanceId sha256)) (s : RoomSend) : Prop :=
  ∀ st ∈ nodes.rows, ∃ t₁ t₂, st.isNew (s.said t₁) = true ∧ st.isNew (s.said t₂) = true ∧
    ((st.part s.roomId).keeps = true →
      messageHash sha256 (s.said t₁) ≠ messageHash sha256 (s.said t₂))

/-- A row that is stored uses up one reading at most. -/
theorem readings_left (b₁ b₂ e₁ e₂ : Bool) (h : e₁ = true → e₂ = true → False) :
    b₁.toNat + b₂.toNat ≤ (b₁ && !e₁).toNat + (b₂ && !e₂).toNat + 1 := by
  cases b₁ <;> cases b₂ <;> cases e₁ <;> cases e₂ <;> simp_all

theorem isNew_start (m : Said) {id : String} {st st' : RoomNode sha256}
    (hfind : nodes.find? id = some st)
    (hfind' : (s.start nodes).2.nodes.find? id = some st') : st'.isNew m = st.isNew m := by
  rcases start_cases nodes s with ⟨origin, horigin, -, -, -, hnodes⟩ | ⟨-, hstart⟩
  · rw [hnodes, Table.find?_put_map (f := fun st =>
      st.display s.roomId ⟨st.instanceId, s.text, s.now⟩) horigin rfl, hfind] at hfind'
    split at hfind' <;> cases hfind' <;> rfl
  · rw [hstart, hfind] at hfind'
    cases hfind'
    rfl

/-- The readings of a daemon that are left, and the rows that it has stored. -/
structure Readings (s : RoomSend) (id : String) (keeps : Bool) (t₁ t₂ : String)
    (run : List (GossipStep sha256)) (net : GossipNet sha256) : Prop where
  kept : keeps = true → ∀ st, net.nodes.find? id = some st →
    2 ≤ (st.isNew (s.said t₁)).toNat + (st.isNew (s.said t₂)).toNat +
      (run.flatMap (GossipStep.effectsAt · id)).countP RoomEffect.isPersisted
  shown : keeps = false → ∀ st, net.nodes.find? id = some st → st.isNew (s.said t₁) = true

/-- In a step, a daemon stores nothing, or one row, the hash of which is then taken. -/
theorem isNew_deliver {net : GossipNet sha256} (h : Spreading nodes s net) (d : Delivery)
    {id : String} {st₀ st' : RoomNode sha256} (hfind₀ : nodes.find? id = some st₀)
    (hfind' : (deliver d net).2.nodes.find? id = some st') :
    ∃ st, net.nodes.find? id = some st ∧
      ((∀ m, st'.isNew m = st.isNew m) ∨
        (st₀.part s.roomId).keeps = true ∧
          (GossipStep.effectsAt (stepOf deliver d net) id).countP RoomEffect.isPersisted = 1 ∧
          ∀ m, st'.isNew m =
            (st.isNew m && !(messageHash sha256 (s.said d.now) = messageHash sha256 m))) := by
  cases hf : net.inFlight[d.index]? with
  | none =>
    rw [deliver_of_none hf] at hfind'
    exact ⟨st', hfind', .inl fun _ => rfl⟩
  | some f =>
    obtain ⟨houtput, -, hnodes⟩ := deliver_eq h hf
    rw [hnodes id] at hfind'
    by_cases hid : f.dest = id
    · rw [if_pos hid, Option.map_eq_some_iff] at hfind'
      obtain ⟨st, hfind, rfl⟩ := hfind'
      refine ⟨st, hfind, ?_⟩
      have hparts := h.parts id
      rw [hfind, hfind₀, Option.map_some, Option.map_some] at hparts
      have hpart : st.part s.roomId = st₀.part s.roomId := Option.some.inj hparts
      have hnew : net.isNew s f d.now = st.isNew (s.said d.now) := by
        rw [GossipNet.isNew, hid, hfind]
        rfl
      by_cases hstored : st.isNew (s.said d.now) = true ∧ (st₀.part s.roomId).keeps = true
      · refine .inr ⟨hstored.2, ?_, fun m => ?_⟩
        · rw [GossipStep.effectsAt, stepOf_output, houtput, hnew, hstored.1]
          dsimp only
          rw [if_pos hid, if_pos rfl, fullEffects, hid, hfind₀]
          dsimp only
          rw [countP_persisted, hstored.2]
          rfl
        · rw [RoomNode.handleRoomMessage_isNew, hpart, hstored.2]
          rw [show st.isNew ⟨s.origin, s.text, d.now⟩ = true from hstored.1]
          rfl
      · refine .inl ?_
        intro m
        rw [not_and, Bool.not_eq_true] at hstored
        rw [RoomNode.handleRoomMessage_isNew, hpart]
        cases hm : st.isNew ⟨s.origin, s.text, d.now⟩ with
        | false => simp
        | true => simp [hstored hm]
    · rw [if_neg hid] at hfind'
      exact ⟨st', hfind', .inl fun _ => rfl⟩

theorem Readings.deliver {id : String} {st₀ : RoomNode sha256} {t₁ t₂ : String}
    {run : List (GossipStep sha256)} {net : GossipNet sha256}
    (h : Readings s id (st₀.part s.roomId).keeps t₁ t₂ run net) (hspreading : Spreading nodes s net)
    (hfind₀ : nodes.find? id = some st₀)
    (hhash : (st₀.part s.roomId).keeps = true →
      messageHash sha256 (s.said t₁) ≠ messageHash sha256 (s.said t₂)) (d : Delivery) :
    Readings s id (st₀.part s.roomId).keeps t₁ t₂ (run ++ [stepOf Mesh.deliver d net])
      (Mesh.deliver d net).2 := by
  constructor
  · intro hkeeps st' hfind'
    obtain ⟨st, hfind, hsame | ⟨-, hcount, hstored⟩⟩ :=
      isNew_deliver hspreading d hfind₀ hfind'
    · have hkept := h.kept hkeeps st hfind
      rw [hsame, hsame, List.flatMap_append, List.countP_append]
      omega
    · have hkept := h.kept hkeeps st hfind
      have hleft := readings_left (st.isNew (s.said t₁)) (st.isNew (s.said t₂))
        (messageHash sha256 (s.said d.now) = messageHash sha256 (s.said t₁))
        (messageHash sha256 (s.said d.now) = messageHash sha256 (s.said t₂))
        fun h₁ h₂ => hhash hkeeps
          ((of_decide_eq_true h₁).symm.trans (of_decide_eq_true h₂))
      rw [hstored, hstored, List.flatMap_append, List.countP_append, List.flatMap_singleton, hcount]
      omega
  · intro hkeeps st' hfind'
    obtain ⟨st, hfind, hsame | ⟨hstores, -⟩⟩ := isNew_deliver hspreading d hfind₀ hfind'
    · rw [hsame]
      exact h.shown hkeeps st hfind
    · rw [hkeeps] at hstores
      cases hstores

/-- Where no daemon stores the message twice, there is always a time as of which it is new. -/
theorem exists_isNew (hsafe : GossipSafe nodes s) (hreadings : TwoReadings nodes s)
    (deliveries : List Delivery) {id : String} {st : RoomNode sha256}
    (hfind : (final deliver deliveries (s.start nodes).2).nodes.find? id = some st) :
    ∃ now, st.isNew (s.said now) = true := by
  have hparts := (flooded_run nodes s deliveries).spreading.parts id
  rw [hfind, Option.map_some] at hparts
  obtain ⟨st₀, hfind₀, -⟩ := Option.map_eq_some_iff.mp hparts.symm
  obtain ⟨t₁, t₂, hnew₁, hnew₂, hhash⟩ := hreadings st₀ (List.mem_of_find?_eq_some hfind₀)
  have hstart : Spreading nodes s (s.start nodes).2 ∧
      Readings s id (st₀.part s.roomId).keeps t₁ t₂ [] (s.start nodes).2 := by
    refine ⟨spreading_start, fun _ st' hst' => ?_, fun _ st' hst' => ?_⟩
    · rw [isNew_start _ hfind₀ hst', isNew_start _ hfind₀ hst', hnew₁, hnew₂]
      simp
    · rw [isNew_start _ hfind₀ hst', hnew₁]
  obtain ⟨-, hkept, hshown⟩ := history_invariant
    (R := fun run net => Spreading nodes s net ∧
      Readings s id (st₀.part s.roomId).keeps t₁ t₂ run net)
    (fun d run net h => ⟨h.1.deliver d, h.2.deliver h.1 hfind₀ hhash d⟩) deliveries hstart
  cases hkeeps : (st₀.part s.roomId).keeps with
  | false => exact ⟨t₁, hshown hkeeps st hfind⟩
  | true =>
    have hleft := hkept hkeeps st hfind
    have honce := hsafe.stored deliveries id
    rw [RoomSend.effectsAt, List.countP_append] at honce
    rw [List.nil_append] at hleft
    have hone : 1 ≤ (st.isNew (s.said t₁)).toNat + (st.isNew (s.said t₂)).toNat := by
      have hrun : ((s.run nodes deliveries).flatMap (GossipStep.effectsAt · id)).countP
          RoomEffect.isPersisted ≤ 1 := by omega
      rw [RoomSend.run] at hrun
      omega
    cases h₁ : st.isNew (s.said t₁) with
    | true => exact ⟨t₁, h₁⟩
    | false =>
      cases h₂ : st.isNew (s.said t₂) with
      | true => exact ⟨t₂, h₂⟩
      | false =>
        rw [h₁, h₂] at hone
        exact absurd hone (by decide)

/-- What the deliveries of a run did, one after the other. -/
def outputs (nodes : Table (@RoomNode.instanceId sha256)) (s : RoomSend)
    (deliveries : List Delivery) : List (Flight × List RoomEffect) :=
  (s.run nodes deliveries).filterMap Step.output

/-- The next copy can always come in at a time at which it has all effects. -/
theorem exists_delivery (hsafe : GossipSafe nodes s) (hreadings : TwoReadings nodes s)
    {deliveries : List Delivery} {f : Flight} {left : List Flight}
    (hflights : (final deliver deliveries (s.start nodes).2).inFlight = f :: left) :
    ∃ d, (final deliver (deliveries ++ [d]) (s.start nodes).2).inFlight =
        left ++ flightsOf f.dest (fullEffects nodes s f) ∧
      outputs nodes s (deliveries ++ [d]) =
        outputs nodes s deliveries ++ [(f, fullEffects nodes s f)] := by
  have hspreading := (flooded_run nodes s deliveries).spreading
  have hfull : ∃ now, (if (final deliver deliveries (s.start nodes).2).isNew s f now
      then fullEffects nodes s f else []) = fullEffects nodes s f := by
    cases hfind : (final deliver deliveries (s.start nodes).2).nodes.find? f.dest with
    | none =>
      have hnone : nodes.find? f.dest = none := by
        have hparts := hspreading.parts f.dest
        rw [hfind] at hparts
        exact Option.map_eq_none_iff.mp hparts.symm
      refine ⟨"", ?_⟩
      rw [fullEffects, hnone]
      split <;> rfl
    | some st =>
      obtain ⟨now, hnew⟩ := exists_isNew hsafe hreadings deliveries hfind
      refine ⟨now, if_pos ?_⟩
      rw [GossipNet.isNew, hfind]
      exact hnew
  obtain ⟨now, hnow⟩ := hfull
  refine ⟨⟨0, now⟩, ?_⟩
  have hfirst : (final deliver deliveries (s.start nodes).2).inFlight[0]? = some f := by
    rw [hflights]
    rfl
  obtain ⟨houtput, hleft, -⟩ := deliver_eq (d := ⟨0, now⟩) hspreading hfirst
  rw [hnow] at houtput hleft
  constructor
  · rw [final_append]
    rw [hflights] at hleft
    exact hleft
  · rw [outputs, RoomSend.run, trace_append, List.filterMap_append]
    refine congrArg (_ ++ ·) ?_
    simp [houtput]

/-- What is delivered of a flight in full. -/
def inFull (nodes : Table (@RoomNode.instanceId sha256)) (s : RoomSend) (f : Flight) :
    Flight × List RoomEffect := (f, fullEffects nodes s f)

theorem exists_deliveries (hsafe : GossipSafe nodes s) (hreadings : TwoReadings nodes s)
    (flights : List Flight) : ∀ {deliveries : List Delivery} {left : List Flight},
    (final deliver deliveries (s.start nodes).2).inFlight = flights ++ left →
      ∃ deliveries', (final deliver deliveries' (s.start nodes).2).inFlight.map Flight.edge =
          left.map Flight.edge ++ (flights.map Flight.edge).flatMap (forwardedTo nodes s) ∧
        outputs nodes s deliveries' =
          outputs nodes s deliveries ++ flights.map (inFull nodes s) := by
  induction flights with
  | nil =>
    intro deliveries left hflights
    refine ⟨deliveries, ?_, (List.append_nil _).symm⟩
    rw [hflights]
    simp
  | cons f flights ih =>
    intro deliveries left hflights
    rw [List.cons_append] at hflights
    obtain ⟨d, hnext, houtput⟩ := exists_delivery hsafe hreadings hflights
    rw [List.append_assoc] at hnext
    obtain ⟨deliveries', hend, houtputs⟩ := ih hnext
    refine ⟨deliveries', ?_, ?_⟩
    · rw [hend, List.map_append, edges_fullEffects]
      simp
    · rw [houtputs, houtput, List.append_assoc]
      rfl

/-- The copies can come in step by step, all of them in full. -/
theorem exists_levels (hsafe : GossipSafe nodes s) (hreadings : TwoReadings nodes s) (n : Nat) :
    ∃ (deliveries : List Delivery) (flights : List Flight),
      outputs nodes s deliveries = flights.map (inFull nodes s) ∧
      ∀ k, (flights.map Flight.edge ++ ((final deliver deliveries (s.start nodes).2).inFlight.map
          Flight.edge).flatMap (reach (forwardedTo nodes s) k)).Perm
        ((sentTo nodes s).flatMap (reach (forwardedTo nodes s) (n + k))) := by
  induction n with
  | zero =>
    refine ⟨[], [], rfl, fun k => ?_⟩
    rw [final_nil, edges_start, Nat.zero_add]
    exact .refl _
  | succ n ih =>
    obtain ⟨deliveries, flights, houtputs, hperm⟩ := ih
    obtain ⟨deliveries', hend, houtputs'⟩ := exists_deliveries hsafe hreadings _
      (List.append_nil (final deliver deliveries (s.start nodes).2).inFlight).symm
    refine ⟨deliveries', flights ++ (final deliver deliveries (s.start nodes).2).inFlight, ?_,
      fun k => ?_⟩
    · rw [houtputs', houtputs, List.map_append]
    · rw [hend, List.map_nil, List.nil_append, List.map_append, List.append_assoc]
      have hstep := hperm (k + 1)
      rw [← Nat.add_assoc, Nat.add_right_comm] at hstep
      exact .trans (.append_left _ (flatMap_reach_succ ..).symm) hstep

theorem flatMap_effectsAt (deliveries : List Delivery) (id : String) :
    (s.run nodes deliveries).flatMap (GossipStep.effectsAt · id) =
      (outputs nodes s deliveries).flatMap fun o => if o.1.dest = id then o.2 else [] := by
  rw [outputs]
  induction s.run nodes deliveries with
  | nil => rfl
  | cons t run ih =>
    rw [List.flatMap_cons, ih, List.filterMap_cons, GossipStep.effectsAt]
    cases t.output <;> rfl

/-- What is done at a daemon, if each copy that comes to it makes for one. -/
theorem countP_inFull {p : RoomEffect → Bool} {id : String}
    (hp : ∀ f : Flight, f.dest = id → (fullEffects nodes s f).countP p = 1)
    (flights : List Flight) :
    ((flights.map (inFull nodes s)).flatMap fun o => if o.1.dest = id then o.2 else []).countP p =
      (flights.map Flight.dest).count id := by
  induction flights with
  | nil => rfl
  | cons f flights ih =>
    rw [List.map_cons, List.flatMap_cons, List.countP_append, ih, List.map_cons, List.count_cons,
      Nat.add_comm]
    refine congrArg ((flights.map Flight.dest).count id + ·) ?_
    by_cases hid : f.dest = id
    · simp [inFull, hid, hp f hid]
    · simp [inFull, hid]

/-- A run in which every copy has all effects tells how often each daemon is reached. -/
theorem countP_effectsAt_inFull {p : RoomEffect → Bool} {id : String}
    (hp : ∀ f : Flight, f.dest = id → (fullEffects nodes s f).countP p = 1)
    {deliveries : List Delivery} {flights : List Flight}
    (houtputs : outputs nodes s deliveries = flights.map (inFull nodes s)) :
    (s.effectsAt nodes deliveries id).countP p =
      (if id = s.origin then (s.start nodes).1 else []).countP p +
        (flights.map Flight.dest).count id := by
  rw [RoomSend.effectsAt, List.countP_append, flatMap_effectsAt, houtputs, countP_inFull hp]

section Full

variable {deliveries : List Delivery} {flights : List Flight} {id : String} {st : RoomNode sha256}

theorem fullEffects_eq (hfind : nodes.find? id = some st) {f : Flight} (hf : f.dest = id) :
    fullEffects nodes s f = (st.part s.roomId).effects f.source s.chat := by
  rw [fullEffects, hf, hfind]

/-- A daemon that displays the message gets one copy, or none if it has displayed the request. -/
theorem GossipSafe.displayed_le (hsafe : GossipSafe nodes s)
    (houtputs : outputs nodes s deliveries = flights.map (inFull nodes s))
    (hfind : nodes.find? id = some st) (hshows : (st.part s.roomId).shows = true) :
    (if id = s.origin then (s.start nodes).1 else []).countP RoomEffect.isDisplayed +
      (flights.map Flight.dest).count id ≤ 1 := by
  have hcount := countP_effectsAt_inFull (p := RoomEffect.isDisplayed) (fun f hf => by
    rw [fullEffects_eq hfind hf, countP_displayed, hshows, if_pos rfl]) houtputs
  rw [← hcount]
  exact hsafe.displayed deliveries id

theorem GossipSafe.stored_le (hsafe : GossipSafe nodes s)
    (houtputs : outputs nodes s deliveries = flights.map (inFull nodes s))
    (hfind : nodes.find? id = some st) (hkeeps : (st.part s.roomId).keeps = true) :
    (flights.map Flight.dest).count id ≤ 1 := by
  have hcount := countP_effectsAt_inFull (p := RoomEffect.isPersisted) (fun f hf => by
    rw [fullEffects_eq hfind hf, countP_persisted, hkeeps, if_pos rfl]) houtputs
  have honce := hsafe.stored deliveries id
  omega

end Full

theorem GossipSafe.oneWay (hsafe : GossipSafe nodes s) (hreadings : TwoReadings nodes s) :
    OneWay nodes s := by
  intro n
  obtain ⟨deliveries, flights, houtputs, hperm⟩ := exists_levels hsafe hreadings n
  have hreached : (reached nodes s n).Perm (flights.map Flight.dest) := by
    have hflights := hperm 0
    rw [flatMap_reach_zero, List.append_nil, Nat.add_zero] at hflights
    have hdests := (hflights.map Prod.snd).symm
    rw [List.map_map] at hdests
    exact hdests
  rw [List.nodup_iff_count_le_one]
  intro id
  rw [count_takesPart]
  cases hpart : takesPart nodes s id with
  | false =>
    have hnone : id ∉ (reached nodes s n).filter (takesPart nodes s) := fun hmem => by
      rw [(List.mem_filter.mp hmem).2] at hpart
      cases hpart
    rw [List.count_eq_zero.mpr hnone]
    simp
  | true =>
    rw [List.count_filter hpart, hreached.count_eq]
    obtain ⟨st, hfind, htakes⟩ := Option.any_eq_true _ _ |>.mp hpart
    by_cases horigin : s.origin = id
    · subst horigin
      rw [if_pos ⟨rfl, rfl⟩]
      rcases start_cases nodes s with ⟨st', hfind', hshows, heffects, -, -⟩ | ⟨hnone, -⟩
      · have hone := hsafe.displayed_le houtputs hfind' hshows
        rw [if_pos rfl, heffects, List.countP_cons_of_pos (by decide)] at hone
        omega
      · have hempty : reached nodes s n = [] := by
          rw [reached, hnone]
          rfl
        rw [← hreached.count_eq, hempty]
        rfl
    · rw [if_neg fun h => horigin h.1, Nat.zero_add]
      rcases (Bool.or_eq_true ..).mp htakes with hshows | hkeeps
      · exact Nat.le_of_add_left_le (hsafe.displayed_le houtputs hfind hshows)
      · exact hsafe.stored_le houtputs hfind hkeeps

/-- The message is taken in once by each daemon, and is forwarded only so often, where there is
one way to each daemon. Where there is another way, it is not, unless the clocks and hashes
leave a daemon without two times to take it in. -/
theorem gossip_safe_iff (nodes : Table (@RoomNode.instanceId sha256)) (s : RoomSend) :
    (OneWay nodes s → GossipSafe nodes s) ∧
      (TwoReadings nodes s → GossipSafe nodes s → OneWay nodes s) :=
  ⟨OneWay.gossipSafe, fun hreadings hsafe => hsafe.oneWay hreadings⟩

end Converse

/-! Three daemons in a row, and in a ring. -/

section Three

/-- A daemon with an empty store, in a room of three. -/
def gossiper (name : String) (peers : List String) : RoomNode id where
  instanceId := name
  connections := peers
  rooms := [⟨"r1", peers, []⟩]
  roomStore := some
    { (RoomStore.absent : RoomStore id) with
      rooms := ["r1"]
      members := ⟨["ann", "bob", "cid"].map (⟨"r1", ·, "2026-03-01T00:00:00Z"⟩), by decide⟩ }

def row : Table (@RoomNode.instanceId id) :=
  ⟨[gossiper "ann" ["bob"], gossiper "bob" ["ann", "cid"], gossiper "cid" ["bob"]], by decide⟩

def ring : Table (@RoomNode.instanceId id) :=
  ⟨[gossiper "ann" ["bob", "cid"], gossiper "bob" ["ann", "cid"], gossiper "cid" ["ann", "bob"]],
    by decide⟩

def hello : RoomSend := ⟨"ann", "r1", "hello", "2026-03-01T00:00:00Z"⟩

theorem row_oneWay : OneWay row hello := by
  intro n
  have hsent : sentTo row hello = [("ann", "bob")] := by decide +kernel
  have hfirst : forwardedTo row hello ("ann", "bob") = [("bob", "cid")] := by decide +kernel
  have hsecond : forwardedTo row hello ("bob", "cid") = [] := by decide +kernel
  have hreached : ∀ n, reached row hello (n + 2) = ["bob", "cid"] := by
    intro n
    simp only [reached, hsent, reach, hfirst, hsecond, List.flatMap_cons, List.flatMap_nil,
      List.append_nil, List.map_cons, List.map_nil]
  refine List.Nodup.filter _ ?_
  rcases n with _ | _ | n
  · decide +kernel
  · decide +kernel
  · rw [hreached]
    decide

theorem row_twoReadings : TwoReadings row hello := by
  have hnew : ∀ st ∈ row.rows, st.isNew (hello.said "2026-03-01T00:00:01Z") = true ∧
      st.isNew (hello.said "2026-03-01T00:00:02Z") = true := by decide +kernel
  intro st hst
  obtain ⟨hfirst, hsecond⟩ := hnew st hst
  exact ⟨_, _, hfirst, hsecond, fun _ => by decide +kernel⟩

/-- In a row, the message gets to each daemon once. -/
theorem row_safe : GossipSafe row hello ∧ OneWay row hello := by
  have hsafe := (gossip_safe_iff row hello).1 row_oneWay
  exact ⟨hsafe, (gossip_safe_iff row hello).2 row_twoReadings hsafe⟩

/-- In a ring, a daemon gets it from both sides, at two times. -/
theorem ring_not_safe : ¬ GossipSafe ring hello := by
  intro hsafe
  have hstored := hsafe.stored [⟨0, "2026-03-01T00:00:01Z"⟩, ⟨0, "2026-03-01T00:00:01Z"⟩,
    ⟨0, "2026-03-01T00:00:02Z"⟩] "cid"
  exact absurd hstored (by decide +kernel)

end Three

end OsModa.Mesh
