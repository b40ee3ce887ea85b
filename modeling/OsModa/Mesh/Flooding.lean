import OsModa.Base.Machine
import OsModa.Base.Worklist
import OsModa.Mesh.Gossip

/-!
One message that is sent to a room, and forwarded from daemon to daemon.

A network is its daemons and the copies on their way, any of which may come in next. What a copy
does depends on the part that its destination takes in the room and on nothing else, except that
it does nothing where the store has the message already. So a run works off the ways by which
the copies can go (`Flooded`).
-/

namespace OsModa.Mesh

open OsModa.Machine OsModa.Worklist

variable {sha256 : List UInt8 → List UInt8}

/-! ### The network -/

/-- A message on its way over a connection. -/
structure Flight where
  source : String
  dest : String
  msg : MeshMessage

def Flight.edge (f : Flight) : String × String := (f.source, f.dest)

/-- The daemons, and the messages on their way. -/
structure GossipNet (sha256 : List UInt8 → List UInt8) where
  nodes : Table (@RoomNode.instanceId sha256)
  inFlight : List Flight

/-- What a daemon sends. -/
def flightsOf (source : String) (effects : List RoomEffect) : List Flight :=
  effects.filterMap fun
    | .sends dest msg => some ⟨source, dest, msg⟩
    | _ => none

/-- One of the messages on their way comes in, at a time by the clock of its destination. -/
structure Delivery where
  index : Nat
  now : String

def deliver (d : Delivery) (net : GossipNet sha256) :
    Option (Flight × List RoomEffect) × GossipNet sha256 :=
  match net.inFlight[d.index]? with
  | none => (none, net)
  | some f =>
    let left := net.inFlight.eraseIdx d.index
    match net.nodes.find? f.dest, f.msg with
    | some st, .chat sender text (some roomId) =>
      let (effects, st) := st.handleRoomMessage roomId sender text f.source d.now
      (some (f, effects), ⟨net.nodes.put st, left ++ flightsOf f.dest effects⟩)
    | _, _ => (some (f, []), ⟨net.nodes, left⟩)

/-- A `POST /room/send` at a daemon, at a time by its clock. -/
structure RoomSend where
  origin : String
  roomId : String
  text : String
  now : String

def RoomSend.chat (s : RoomSend) : MeshMessage := .chat s.origin s.text (some s.roomId)

/-- The message, as it is stored at a time. -/
def RoomSend.said (s : RoomSend) (now : String) : Said := ⟨s.origin, s.text, now⟩

/-- The request is handled, and nothing else was on its way. -/
def RoomSend.start (s : RoomSend) (nodes : Table (@RoomNode.instanceId sha256)) :
    List RoomEffect × GossipNet sha256 :=
  match nodes.find? s.origin with
  | none => ([], ⟨nodes, []⟩)
  | some st =>
    match st.roomSendHandler s.roomId s.text s.now with
    | (.error _, _) => ([], ⟨nodes, []⟩)
    | (.ok effects, st) => (effects, ⟨nodes.put st, flightsOf s.origin effects⟩)

abbrev GossipStep (sha256 : List UInt8 → List UInt8) : Type :=
  Step (GossipNet sha256) Delivery (Option (Flight × List RoomEffect))

def GossipStep.effectsAt (t : GossipStep sha256) (id : String) : List RoomEffect :=
  match t.output with
  | some (f, effects) => if f.dest = id then effects else []
  | none => []

def GossipStep.effects (t : GossipStep sha256) : List RoomEffect :=
  match t.output with
  | some (_, effects) => effects
  | none => []

section Runs

variable (nodes : Table (@RoomNode.instanceId sha256)) (s : RoomSend)

/-- The deliveries after the request. -/
def RoomSend.run (deliveries : List Delivery) : List (GossipStep sha256) :=
  trace deliver deliveries (s.start nodes).2

/-- What a daemon does with the message, from the request on. -/
def RoomSend.effectsAt (deliveries : List Delivery) (id : String) : List RoomEffect :=
  (if id = s.origin then (s.start nodes).1 else []) ++
    (s.run nodes deliveries).flatMap (GossipStep.effectsAt · id)

/-- Each daemon stores the message at most once, and displays it at most once, in whatever
order the copies come in, and by whatever clocks; and there are only so many copies. -/
structure GossipSafe : Prop where
  stored : ∀ deliveries id,
    (s.effectsAt nodes deliveries id).countP RoomEffect.isPersisted ≤ 1
  displayed : ∀ deliveries id,
    (s.effectsAt nodes deliveries id).countP RoomEffect.isDisplayed ≤ 1
  finite : ∃ bound, ∀ deliveries, ((s.start nodes).1 ++
    (s.run nodes deliveries).flatMap GossipStep.effects).countP RoomEffect.isSend ≤ bound

/-! ### The ways of the forwards -/

/-- The daemon stores or displays messages of the room. -/
def takesPart (id : String) : Bool :=
  (nodes.find? id).any fun st => (st.part s.roomId).shows || (st.part s.roomId).keeps

/-- To whom the origin sends the message. -/
def sentTo : List (String × String) :=
  match nodes.find? s.origin with
  | none => []
  | some st =>
    match st.findRoom s.roomId with
    | none => []
    | some room => (room.members.filter fun id => id ∈ st.connections).map (s.origin, ·)

/-- To whom a daemon forwards the message when it has it from a peer. -/
def forwardedTo (edge : String × String) : List (String × String) :=
  match nodes.find? edge.2 with
  | none => []
  | some st =>
    if (st.part s.roomId).shows then ((st.part s.roomId).forwardsTo edge.1).map (edge.2, ·) else []

/-- The daemons to which the message comes in less than so many steps, once for each way. -/
def reached (n : Nat) : List String :=
  ((sentTo nodes s).flatMap (reach (forwardedTo nodes s) n)).map Prod.snd

/-- There is only one way to each daemon that takes part in the room, and none to the origin. -/
def OneWay : Prop := ∀ n, ((s.origin :: reached nodes s n).filter (takesPart nodes s)).Nodup

end Runs

/-! ### One delivery -/

section Steps

variable {nodes : Table (@RoomNode.instanceId sha256)} {s : RoomSend}

/-- All that a delivery may do. -/
def fullEffects (nodes : Table (@RoomNode.instanceId sha256)) (s : RoomSend) (f : Flight) :
    List RoomEffect :=
  match nodes.find? f.dest with
  | none => []
  | some st => (st.part s.roomId).effects f.source s.chat

theorem flightsOf_append (source : String) (es es' : List RoomEffect) :
    flightsOf source (es ++ es') = flightsOf source es ++ flightsOf source es' :=
  List.filterMap_append

theorem flightsOf_sends (source : String) (dests : List String) (msg : MeshMessage) :
    flightsOf source (dests.map (.sends · msg)) = dests.map fun dest => ⟨source, dest, msg⟩ := by
  rw [flightsOf, List.filterMap_map]
  exact congrFun List.filterMap_eq_map' dests

theorem flightsOf_effects (p : RoomPart) (source dest : String) (msg : MeshMessage) :
    flightsOf dest (p.effects source msg) =
      if p.shows then (p.forwardsTo source).map fun id => ⟨dest, id, msg⟩ else [] := by
  rw [RoomPart.effects, flightsOf_append]
  have hstored : flightsOf dest (if p.keeps then [.persisted] else []) = [] := by
    split <;> rfl
  rw [hstored, List.nil_append]
  split
  · exact flightsOf_sends ..
  · rfl

theorem edges_fullEffects (f : Flight) :
    (flightsOf f.dest (fullEffects nodes s f)).map Flight.edge = forwardedTo nodes s f.edge := by
  rw [fullEffects, forwardedTo, show f.edge.2 = f.dest from rfl]
  cases nodes.find? f.dest with
  | none => rfl
  | some st =>
    dsimp only
    rw [flightsOf_effects]
    split
    · rw [List.map_map]
      rfl
    · rfl

theorem msg_of_mem_flightsOf {f g : Flight} (h : g ∈ flightsOf f.dest (fullEffects nodes s f)) :
    g.msg = s.chat := by
  rw [fullEffects] at h
  cases hfind : nodes.find? f.dest with
  | none =>
    rw [hfind] at h
    cases h
  | some st =>
    rw [hfind] at h
    dsimp only at h
    rw [flightsOf_effects] at h
    split at h
    · obtain ⟨dest, -, rfl⟩ := List.mem_map.mp h
      rfl
    · cases h

/-- What does not change in a run: how the daemons take part, and that nothing but copies of
the message is on its way. -/
structure Spreading (nodes : Table (@RoomNode.instanceId sha256)) (s : RoomSend)
    (net : GossipNet sha256) : Prop where
  parts : ∀ id, (net.nodes.find? id).map (·.part s.roomId) =
    (nodes.find? id).map (·.part s.roomId)
  carried : ∀ f ∈ net.inFlight, f.msg = s.chat

/-- The destination has not got the message yet, as of the time by its clock. -/
def GossipNet.isNew (net : GossipNet sha256) (s : RoomSend) (f : Flight) (now : String) : Bool :=
  (net.nodes.find? f.dest).any (·.isNew (s.said now))

/-- A daemon handles a copy as the one at the start would, if it is new to it. -/
theorem handled_effects {net : GossipNet sha256} (h : Spreading nodes s net) {f : Flight}
    {st : RoomNode sha256} (hfind : net.nodes.find? f.dest = some st) (now : String) :
    (st.handleRoomMessage s.roomId s.origin s.text f.source now).1 =
      if net.isNew s f now then fullEffects nodes s f else [] := by
  have hparts := h.parts f.dest
  rw [hfind, Option.map_some] at hparts
  obtain ⟨st₀, hfind₀, hpart⟩ := Option.map_eq_some_iff.mp hparts.symm
  rw [RoomNode.handleRoomMessage_effects, GossipNet.isNew, hfind, Option.any_some, fullEffects,
    hfind₀]
  dsimp only
  rw [hpart]
  rfl

/-- What a delivery does when there is something to deliver. -/
theorem deliver_eq {net : GossipNet sha256} (h : Spreading nodes s net) {d : Delivery}
    {f : Flight} (hf : net.inFlight[d.index]? = some f) :
    let effects := if net.isNew s f d.now then fullEffects nodes s f else []
    (deliver d net).1 = some (f, effects) ∧
      (deliver d net).2.inFlight = net.inFlight.eraseIdx d.index ++ flightsOf f.dest effects ∧
      ∀ id, (deliver d net).2.nodes.find? id =
        if f.dest = id then (net.nodes.find? id).map fun st =>
          (st.handleRoomMessage s.roomId s.origin s.text f.source d.now).2
        else net.nodes.find? id := by
  have hmsg := h.carried f (List.mem_of_getElem? hf)
  rw [deliver, hf]
  dsimp only
  rw [hmsg]
  cases hfind : net.nodes.find? f.dest with
  | none =>
    have hold : net.isNew s f d.now = false := by
      rw [GossipNet.isNew, hfind]
      rfl
    rw [hold]
    refine ⟨rfl, (List.append_nil _).symm, fun id => ?_⟩
    exact Table.find?_map_of_none hfind _ id
  | some st =>
    have heffects := handled_effects h hfind d.now
    dsimp only [RoomSend.chat]
    rw [heffects]
    refine ⟨rfl, rfl, fun id => ?_⟩
    have hid := (st.handleRoomMessage_ids s.roomId s.origin s.text
      f.source d.now).1
    exact Table.find?_put_map (f := fun st =>
      (st.handleRoomMessage s.roomId s.origin s.text f.source d.now).2) hfind hid id

/-- A delivery where there is nothing to deliver. -/
theorem deliver_of_none {net : GossipNet sha256} {d : Delivery}
    (hf : net.inFlight[d.index]? = none) : deliver d net = (none, net) := by
  rw [deliver, hf]

theorem Spreading.deliver {net : GossipNet sha256} (h : Spreading nodes s net) (d : Delivery) :
    Spreading nodes s (Mesh.deliver d net).2 := by
  cases hf : net.inFlight[d.index]? with
  | none =>
    rw [deliver_of_none hf]
    exact h
  | some f =>
    obtain ⟨-, hflights, hnodes⟩ := deliver_eq h hf
    constructor
    · intro id
      rw [hnodes id, ← h.parts id]
      split
      · rw [Option.map_map]
        refine congrArg (Option.map · (net.nodes.find? id)) (funext fun st => ?_)
        exact RoomNode.handleRoomMessage_part ..
      · rfl
    · intro g hg
      rw [hflights] at hg
      rcases List.mem_append.mp hg with hleft | hnew
      · exact h.carried g (List.mem_of_mem_eraseIdx hleft)
      · split at hnew
        · exact msg_of_mem_flightsOf hnew
        · cases hnew

/-- The request is handled, or there is no such room. -/
theorem start_cases (nodes : Table (@RoomNode.instanceId sha256)) (s : RoomSend) :
    (∃ st, nodes.find? s.origin = some st ∧ (st.part s.roomId).shows = true ∧
        (s.start nodes).1 =
          .displayed :: (sentTo nodes s).map (fun edge => .sends edge.2 s.chat) ∧
        (s.start nodes).2.inFlight =
          (sentTo nodes s).map (fun edge => ⟨edge.1, edge.2, s.chat⟩) ∧
        (s.start nodes).2.nodes =
          nodes.put (st.display s.roomId ⟨st.instanceId, s.text, s.now⟩)) ∨
      (sentTo nodes s = [] ∧ s.start nodes = ([], ⟨nodes, []⟩)) := by
  rw [RoomSend.start, sentTo]
  cases hfind : nodes.find? s.origin with
  | none => exact .inr ⟨rfl, rfl⟩
  | some st =>
    have hid : st.instanceId = s.origin := Table.key_of_find? hfind
    dsimp only [RoomNode.roomSendHandler]
    cases hroom : st.findRoom s.roomId with
    | none => exact .inr ⟨rfl, rfl⟩
    | some room =>
      refine .inl ⟨st, rfl, ?_, ?_, ?_, rfl⟩
      · rw [RoomNode.part, hroom]
        rfl
      · dsimp only
        rw [List.map_map, hid]
        rfl
      · dsimp only
        rw [List.map_map, hid, flightsOf, List.filterMap_cons]
        exact flightsOf_sends ..

theorem spreading_start : Spreading nodes s (s.start nodes).2 := by
  rcases start_cases nodes s with ⟨st, hfind, -, -, hflights, hnodes⟩ | ⟨-, hstart⟩
  · constructor
    · intro id
      rw [hnodes, Table.find?_put_map (f := fun st =>
        st.display s.roomId ⟨st.instanceId, s.text, s.now⟩) hfind rfl id]
      split
      · rw [Option.map_map]
        refine congrArg (Option.map · (nodes.find? id)) (funext fun st => ?_)
        exact RoomNode.part_display ..
      · rfl
    · intro f hf
      rw [hflights] at hf
      obtain ⟨edge, -, rfl⟩ := List.mem_map.mp hf
      rfl
  · rw [hstart]
    exact ⟨fun _ => rfl, fun _ hf => absurd hf List.not_mem_nil⟩

theorem edges_start : (s.start nodes).2.inFlight.map Flight.edge = sentTo nodes s := by
  rcases start_cases nodes s with ⟨st, -, -, -, hflights, -⟩ | ⟨hnone, hstart⟩
  · rw [hflights, List.map_map]
    exact List.map_id _
  · rw [hstart, hnone]
    rfl

end Steps

/-! ### Runs -/

section Runs

variable {nodes : Table (@RoomNode.instanceId sha256)} {s : RoomSend}

/-- The ways by which the copies of a run came. -/
def delivered (run : List (GossipStep sha256)) : List (String × String) :=
  run.filterMap fun t => t.output.map fun (f, _) => f.edge

/-- A step has all effects that its delivery may have, or none. -/
def GossipStep.Fits (nodes : Table (@RoomNode.instanceId sha256)) (s : RoomSend)
    (t : GossipStep sha256) : Prop :=
  ∀ f effects, t.output = some (f, effects) → effects = [] ∨ effects = fullEffects nodes s f

/-- The copies are worked off, each of which leads to further ones. -/
structure Flooded (nodes : Table (@RoomNode.instanceId sha256)) (s : RoomSend)
    (run : List (GossipStep sha256)) (net : GossipNet sha256) : Prop where
  spreading : Spreading nodes s net
  worked : Worked (forwardedTo nodes s) (sentTo nodes s) (delivered run)
    (net.inFlight.map Flight.edge)
  fits : ∀ t ∈ run, t.Fits nodes s

theorem Flooded.deliver {run : List (GossipStep sha256)} {net : GossipNet sha256}
    (h : Flooded nodes s run net) (d : Delivery) :
    Flooded nodes s (run ++ [stepOf Mesh.deliver d net]) (Mesh.deliver d net).2 := by
  refine ⟨h.spreading.deliver d, ?_, ?_⟩
  · cases hf : net.inFlight[d.index]? with
    | none =>
      rw [delivered, List.filterMap_append, ← delivered, deliver_of_none hf]
      simpa [deliver_of_none hf] using h.worked
    | some f =>
      obtain ⟨houtput, hflights, -⟩ := deliver_eq h.spreading hf
      obtain ⟨hindex, hget⟩ := List.getElem?_eq_some_iff.mp hf
      have hsplit : net.inFlight =
          net.inFlight.take d.index ++ f :: net.inFlight.drop (d.index + 1) := by
        rw [← hget, List.getElem_cons_drop, List.take_append_drop]
      have hworked := h.worked
      rw [hsplit, List.map_append, List.map_cons] at hworked
      have hleft : ((flightsOf f.dest (if net.isNew s f d.now then fullEffects nodes s f
          else [])).map Flight.edge).Sublist (forwardedTo nodes s f.edge) := by
        split
        · rw [edges_fullEffects]
        · exact List.nil_sublist _
      rw [hflights, List.map_append, List.eraseIdx_eq_take_drop_succ, List.map_append]
      have hdone : delivered (run ++ [stepOf Mesh.deliver d net]) = delivered run ++ [f.edge] := by
        rw [delivered, List.filterMap_append, ← delivered]
        simp [houtput]
      rw [hdone]
      exact hworked.work hleft
  · intro t ht
    rcases List.mem_append.mp ht with hold | hnew
    · exact h.fits t hold
    · obtain rfl := List.mem_singleton.mp hnew
      intro f effects houtput
      cases hf : net.inFlight[d.index]? with
      | none =>
        rw [stepOf_output, deliver_of_none hf] at houtput
        cases houtput
      | some f' =>
        rw [stepOf_output, (deliver_eq h.spreading hf).1] at houtput
        obtain ⟨rfl, rfl⟩ := Prod.mk.inj (Option.some.inj houtput)
        split
        · exact .inr rfl
        · exact .inl rfl

theorem flooded_run (nodes : Table (@RoomNode.instanceId sha256)) (s : RoomSend)
    (deliveries : List Delivery) :
    Flooded nodes s (s.run nodes deliveries) (final deliver deliveries (s.start nodes).2) := by
  have hstart : Flooded nodes s [] (s.start nodes).2 :=
    ⟨spreading_start, by rw [edges_start]; exact .start, fun _ ht => absurd ht List.not_mem_nil⟩
  exact history_invariant (R := Flooded nodes s) (fun d run net h => h.deliver d) deliveries hstart

end Runs

/-! ### Counting -/

section Counting

variable {nodes : Table (@RoomNode.instanceId sha256)} {s : RoomSend}

theorem countP_persisted (p : RoomPart) (source : String) (msg : MeshMessage) :
    (p.effects source msg).countP RoomEffect.isPersisted = if p.keeps then 1 else 0 := by
  have hsends : ((p.forwardsTo source).map (RoomEffect.sends · msg)).countP
      RoomEffect.isPersisted = 0 := by
    simp [List.countP_eq_zero, RoomEffect.isPersisted]
  rw [RoomPart.effects, List.countP_append]
  cases p.keeps <;> cases p.shows <;> simp [RoomEffect.isPersisted, hsends]

theorem countP_displayed (p : RoomPart) (source : String) (msg : MeshMessage) :
    (p.effects source msg).countP RoomEffect.isDisplayed = if p.shows then 1 else 0 := by
  have hsends : ((p.forwardsTo source).map (RoomEffect.sends · msg)).countP
      RoomEffect.isDisplayed = 0 := by
    simp [List.countP_eq_zero, RoomEffect.isDisplayed]
  rw [RoomPart.effects, List.countP_append]
  cases p.keeps <;> cases p.shows <;> simp [RoomEffect.isDisplayed, List.countP_cons, hsends]

theorem countP_sends (p : RoomPart) (source : String) (msg : MeshMessage) :
    (p.effects source msg).countP RoomEffect.isSend =
      if p.shows then (p.forwardsTo source).length else 0 := by
  have hsends : ((p.forwardsTo source).map (RoomEffect.sends · msg)).countP
      RoomEffect.isSend = (p.forwardsTo source).length := by
    rw [List.countP_map]
    exact List.countP_eq_length.mpr fun _ _ => rfl
  rw [RoomPart.effects, List.countP_append]
  cases p.keeps <;> cases p.shows <;> simp [RoomEffect.isSend, hsends]

/-- The daemons that take part in the room, once for each copy that came to them. -/
def visited (nodes : Table (@RoomNode.instanceId sha256)) (s : RoomSend)
    (run : List (GossipStep sha256)) : List String :=
  ((delivered run).map Prod.snd).filter (takesPart nodes s)

theorem visited_cons (t : GossipStep sha256) (run : List (GossipStep sha256)) :
    visited nodes s (t :: run) =
      (match t.output with
        | none => []
        | some (f, _) => if takesPart nodes s f.dest then [f.dest] else []) ++
        visited nodes s run := by
  rw [visited, delivered, List.filterMap_cons]
  cases t.output with
  | none => rfl
  | some o =>
    rw [Option.map_some]
    dsimp only
    rw [List.map_cons, List.filter_cons, show o.1.edge.2 = o.1.dest from rfl]
    split <;> rfl

variable {p : RoomEffect → Bool} {k : Nat}

theorem GossipStep.Fits.countP_le {t : GossipStep sha256} (h : t.Fits nodes s)
    (hp : ∀ f, (fullEffects nodes s f).countP p ≤ if takesPart nodes s f.dest then k else 0)
    {f : Flight} {effects : List RoomEffect} (houtput : t.output = some (f, effects)) :
    effects.countP p ≤ if takesPart nodes s f.dest then k else 0 := by
  rcases h f effects houtput with rfl | rfl
  · exact Nat.zero_le _
  · exact hp f

/-- What is done at some of the daemons, if a copy that comes to one makes for no more than
`k`. -/
theorem countP_flatMap_le {does : GossipStep sha256 → List RoomEffect} {q : String → Bool}
    (hnone : ∀ t, t.output = none → does t = [])
    (hdoes : ∀ t f effects, t.output = some (f, effects) →
      does t = if q f.dest then effects else [])
    (hp : ∀ f, (fullEffects nodes s f).countP p ≤ if takesPart nodes s f.dest then k else 0)
    {run : List (GossipStep sha256)} (hfits : ∀ t ∈ run, t.Fits nodes s) :
    (run.flatMap does).countP p ≤ k * (visited nodes s run).countP q := by
  induction run with
  | nil => exact Nat.zero_le _
  | cons t run ih =>
    obtain ⟨hfirst, hrest⟩ := List.forall_mem_cons.mp hfits
    rw [List.flatMap_cons, List.countP_append, visited_cons, List.countP_append, Nat.mul_add]
    refine Nat.add_le_add ?_ (ih hrest)
    cases houtput : t.output with
    | none =>
      rw [hnone t houtput]
      exact Nat.zero_le _
    | some o =>
      obtain ⟨f, effects⟩ := o
      have hcount := hfirst.countP_le hp houtput
      rw [hdoes t f effects houtput]
      dsimp only
      split
      · rename_i hq
        refine hcount.trans ?_
        split
        · simp [hq]
        · exact Nat.zero_le _
      · exact Nat.zero_le _

theorem countP_effectsAt_le
    (hp : ∀ f, (fullEffects nodes s f).countP p ≤ if takesPart nodes s f.dest then k else 0)
    {run : List (GossipStep sha256)} (hfits : ∀ t ∈ run, t.Fits nodes s) (id : String) :
    (run.flatMap (GossipStep.effectsAt · id)).countP p ≤ k * (visited nodes s run).count id := by
  refine countP_flatMap_le (fun t ht => ?_) (fun t f effects ht => ?_) hp hfits
  · rw [GossipStep.effectsAt, ht]
  · rw [GossipStep.effectsAt, ht]
    simp

theorem countP_effects_le
    (hp : ∀ f, (fullEffects nodes s f).countP p ≤ if takesPart nodes s f.dest then k else 0)
    {run : List (GossipStep sha256)} (hfits : ∀ t ∈ run, t.Fits nodes s) :
    (run.flatMap GossipStep.effects).countP p ≤ k * (visited nodes s run).length := by
  rw [← List.countP_true]
  refine countP_flatMap_le (fun t ht => ?_) (fun t f effects ht => ?_) hp hfits
  · rw [GossipStep.effects, ht]
  · rw [GossipStep.effects, ht]
    rfl

theorem countP_fullEffects_le
    (hp : ∀ st ∈ nodes.rows, ∀ source, ((st.part s.roomId).effects source s.chat).countP p ≤
      if (st.part s.roomId).shows || (st.part s.roomId).keeps then k else 0) (f : Flight) :
    (fullEffects nodes s f).countP p ≤ if takesPart nodes s f.dest then k else 0 := by
  rw [fullEffects, takesPart]
  cases hfind : nodes.find? f.dest with
  | none => exact Nat.zero_le _
  | some st => exact hp st (List.mem_of_find?_eq_some hfind) f.source

end Counting

end OsModa.Mesh
