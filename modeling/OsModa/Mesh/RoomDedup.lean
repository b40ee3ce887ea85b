import OsModa.Base.Machine
import OsModa.Mesh.RoomStore

/-!
Runs of `store_message`, and which calls count as repetitions.

The hash that has to be unique is that of a text made of the sender, the content and the
timestamp, and it is unique in the whole table. So a run takes exactly the repeated messages for
repeated where no two of its messages share that text (`dedup_exact_iff`).
-/

namespace OsModa.Mesh

open OsModa.Encoding OsModa.Machine

/-- A call of `store_message`. -/
structure RoomCall where
  roomId : String
  said : Said
  deriving DecidableEq

variable {sha256 : List UInt8 → List UInt8}

def RoomCall.hash (sha256 : List UInt8 → List UInt8) (c : RoomCall) : String :=
  messageHash sha256 c.said

def storeNext (c : RoomCall) (s : RoomStore sha256) : Except String Bool × RoomStore sha256 :=
  s.storeMessage c.roomId c.said

abbrev StoreStep (sha256 : List UInt8 → List UInt8) :=
  Step (RoomStore sha256) RoomCall (Except String Bool)

namespace RoomStore

/-- The messages that are stored, with their rooms. -/
def stored (s : RoomStore sha256) : List RoomCall :=
  s.messages.rows.map fun m => ⟨m.roomId, m.toSaid⟩

end RoomStore

/-- A call is reported as a duplicate, and stores nothing, if its message has been stored in its
room before; any other call stores its message. -/
structure DedupExact (t : StoreStep sha256) : Prop where
  verdict : t.output = .ok (decide (t.input ∉ t.before.stored))
  rows : t.after.stored =
    t.before.stored ++ if t.input ∈ t.before.stored then [] else [t.input]

/-- No two messages have the same hash. -/
def HashesApart (sha256 : List UInt8 → List UInt8) (calls : List RoomCall) : Prop :=
  ∀ c ∈ calls, ∀ d ∈ calls, c.hash sha256 = d.hash sha256 → c = d

section Runs

variable {s : RoomStore sha256} {c : RoomCall}

/-- A hash is taken by the message that is stored under it. -/
theorem isNew_eq_false_iff (m : Said) :
    s.isNew m = false ↔ ∃ d ∈ s.stored, d.hash sha256 = messageHash sha256 m := by
  have hhash : ∀ r ∈ s.messages.rows,
      RoomCall.hash sha256 ⟨r.roomId, r.toSaid⟩ = r.msgHash := fun r hr => (s.hashed r hr).symm
  rw [RoomStore.isNew, Option.isNone_eq_false_iff, Option.isSome_iff_exists]
  constructor
  · rintro ⟨r, hfind⟩
    have hr : r ∈ s.messages.rows := List.mem_of_find?_eq_some hfind
    exact ⟨_, List.mem_map_of_mem hr, (hhash r hr).trans (Table.key_of_find? hfind)⟩
  · rintro ⟨d, hd, hsame⟩
    obtain ⟨r, hr, rfl⟩ := List.mem_map.mp hd
    refine ⟨r, ?_⟩
    rw [← hsame, hhash r hr]
    exact Table.mem_rows_iff.mp hr

/-- Stored messages of one hash are one. -/
theorem stored_hashesApart (s : RoomStore sha256) : HashesApart sha256 s.stored := by
  intro c hc d hd hsame
  obtain ⟨r, hr, rfl⟩ := List.mem_map.mp hc
  obtain ⟨r', hr', rfl⟩ := List.mem_map.mp hd
  have hkey : r.msgHash = r'.msgHash :=
    (s.hashed r hr).trans (hsame.trans (s.hashed r' hr').symm)
  rw [Table.eq_of_key hr hr' hkey]

/-- What a call does in a room that is there. -/
theorem storeNext_cases (hroom : c.roomId ∈ s.rooms) :
    (s.isNew c.said = true ∧ (storeNext c s).1 = .ok true ∧
      (storeNext c s).2.stored = s.stored ++ [c]) ∨
    (s.isNew c.said = false ∧ storeNext c s = (.ok false, s)) := by
  have hthere : s.hasRoom c.roomId = true := by simp [RoomStore.hasRoom, hroom]
  obtain ⟨hnew, -, messages, hinsert, hstore⟩ | ⟨hold, hstore⟩ | ⟨-, hno, -⟩ :=
    s.storeMessage_cases c.roomId c.said
  · refine .inl ⟨hnew, by rw [storeNext, hstore], ?_⟩
    rw [storeNext, hstore]
    change messages.rows.map _ = _
    rw [Table.rows_insert? hinsert, List.map_append]
    rfl
  · exact .inr ⟨hold, hstore⟩
  · exact absurd (hthere.symm.trans hno) (by decide)

/-- **One call.** -/
theorem dedupExact_step_iff (hroom : c.roomId ∈ s.rooms) :
    DedupExact (stepOf storeNext c s) ↔
      ∀ d ∈ s.stored, d.hash sha256 = c.hash sha256 → d = c := by
  obtain ⟨hnew, hout, hafter⟩ | ⟨hold, hstore⟩ := storeNext_cases hroom
  · have hfree : ∀ d ∈ s.stored, d.hash sha256 ≠ c.hash sha256 := by
      intro d hd hsame
      have htaken := (isNew_eq_false_iff c.said).mpr ⟨d, hd, hsame⟩
      exact absurd (hnew.symm.trans htaken) (by decide)
    have hfirst : c ∉ s.stored := fun hc => hfree c hc rfl
    refine iff_of_true ⟨?_, ?_⟩ fun d hd hsame => absurd hsame (hfree d hd)
    · simp only [stepOf_output, stepOf_input, stepOf_before, hout, hfirst, not_false_eq_true,
        decide_true]
    · simp only [stepOf_after, stepOf_input, stepOf_before, hafter, hfirst, if_false]
  · obtain ⟨d, hd, hsame⟩ := (isNew_eq_false_iff c.said).mp hold
    have honly : (∀ d ∈ s.stored, d.hash sha256 = c.hash sha256 → d = c) ↔ c ∈ s.stored := by
      constructor
      · intro h
        exact h d hd hsame ▸ hd
      · intro hc d' hd' hsame'
        exact stored_hashesApart s d' hd' c hc hsame'
    rw [honly]
    constructor
    · rintro ⟨hverdict, -⟩
      simp only [stepOf_output, stepOf_input, stepOf_before, hstore, Except.ok.injEq] at hverdict
      by_contra hc
      exact absurd (hverdict.trans (decide_eq_true hc)) (by decide)
    · intro hc
      constructor
      · simp only [stepOf_output, stepOf_input, stepOf_before, hstore, hc, not_true_eq_false,
          decide_false]
      · simp only [stepOf_after, stepOf_input, stepOf_before, hstore, hc, if_true, List.append_nil]

theorem storeNext_rooms (c : RoomCall) (s : RoomStore sha256) : (storeNext c s).2.rooms = s.rooms :=
  RoomStore.storeMessage_shape.2.1

/-- After a call that is taken for what it is, the table and the calls to come hold the same
messages as the table and all the calls did. -/
theorem mem_stored_storeNext (hroom : c.roomId ∈ s.rooms)
    (hstep : ∀ d ∈ s.stored, d.hash sha256 = c.hash sha256 → d = c) (d : RoomCall) :
    d ∈ (storeNext c s).2.stored ↔ d = c ∨ d ∈ s.stored := by
  obtain ⟨-, -, hafter⟩ | ⟨hold, hstore⟩ := storeNext_cases hroom
  · rw [hafter, List.mem_append, List.mem_singleton, or_comm]
  · obtain ⟨d', hd', hsame⟩ := (isNew_eq_false_iff c.said).mp hold
    have hc : c ∈ s.stored := hstep d' hd' hsame ▸ hd'
    rw [hstore]
    exact ⟨.inr, fun h => h.elim (fun h => h ▸ hc) id⟩

/-- In every run of calls on rooms that are there, each call is reported as a duplicate and
stores nothing if and only if its message was stored in its room before, exactly if no two of
the messages, stored before or in the run, have the same hash. -/
theorem dedup_exact_iff (calls : List RoomCall) (s : RoomStore sha256)
    (hrooms : ∀ c ∈ calls, c.roomId ∈ s.rooms) :
    (∀ t ∈ trace storeNext calls s, DedupExact t) ↔ HashesApart sha256 (s.stored ++ calls) := by
  induction calls generalizing s with
  | nil =>
    rw [List.append_nil]
    exact iff_of_true (fun t ht => absurd ht List.not_mem_nil) (stored_hashesApart s)
  | cons c calls ih =>
    obtain ⟨hroom, hrest⟩ := List.forall_mem_cons.mp hrooms
    have hrest' : ∀ d ∈ calls, d.roomId ∈ (storeNext c s).2.rooms := by
      rw [storeNext_rooms]
      exact hrest
    rw [trace_cons, List.forall_mem_cons, dedupExact_step_iff hroom, ih _ hrest']
    have hsame : (∀ d ∈ s.stored, d.hash sha256 = c.hash sha256 → d = c) →
        ∀ d, d ∈ (storeNext c s).2.stored ++ calls ↔ d ∈ s.stored ++ c :: calls := by
      intro hstep d
      rw [List.mem_append, List.mem_append, List.mem_cons, mem_stored_storeNext hroom hstep]
      tauto
    unfold HashesApart
    constructor
    · rintro ⟨hstep, hapart⟩ d hd d' hd'
      exact hapart d ((hsame hstep d).mpr hd) d' ((hsame hstep d').mpr hd')
    · intro hapart
      have hstep : ∀ d ∈ s.stored, d.hash sha256 = c.hash sha256 → d = c := fun d hd =>
        hapart d (List.mem_append_left _ hd) c
          (List.mem_append_right _ List.mem_cons_self)
      exact ⟨hstep, fun d hd d' hd' => hapart d ((hsame hstep d).mp hd) d' ((hsame hstep d').mp hd')⟩

end Runs

/-- Without collisions of the hash function, two messages have the same hash where the joined
texts are the same. The room is no part of them, and a delimiter may come from either side. -/
theorem hash_eq_iff (hinjective : Function.Injective sha256) (c d : RoomCall) :
    c.hash sha256 = d.hash sha256 ↔
      c.said.sender ++ "|" ++ c.said.content ++ "|" ++ c.said.timestamp =
        d.said.sender ++ "|" ++ d.said.content ++ "|" ++ d.said.timestamp := by
  unfold RoomCall.hash messageHash
  rw [String.ofList_inj, hexEncode_injective.eq_iff, hinjective.eq_iff, utf8_injective.eq_iff,
    String.toList_inj]

example : messageHash sha256 ⟨"a|b", "c", "t"⟩ = messageHash sha256 ⟨"a", "b|c", "t"⟩ := rfl

/-! Messages in two rooms. -/

def twoRooms (sha256 : List UInt8 → List UInt8) : RoomStore sha256 :=
  { RoomStore.absent with rooms := ["ops", "dev"] }

def restarting (roomId timestamp : String) : RoomCall :=
  ⟨roomId, "node-a", "restarting", timestamp⟩

/-- The same message at two times in one room, the second time repeated. -/
def repeated : List RoomCall :=
  [restarting "ops" "08:00", restarting "ops" "09:00", restarting "ops" "09:00"]

theorem restarting_exact :
    (∀ c ∈ repeated, c.roomId ∈ (twoRooms id).rooms) ∧
      ∀ t ∈ trace storeNext repeated (twoRooms id), DedupExact t := by
  have hrooms : ∀ c ∈ repeated, c.roomId ∈ (twoRooms id).rooms := by decide
  have happart : HashesApart id ((twoRooms id).stored ++ repeated) := by
    unfold HashesApart
    decide +kernel
  exact ⟨hrooms, (dedup_exact_iff _ _ hrooms).mpr happart⟩

/-- The same message in two rooms. -/
def crossposted : List RoomCall := [restarting "ops" "08:00", restarting "dev" "08:00"]

theorem crossposted_rooms (sha256 : List UInt8 → List UInt8) :
    ∀ c ∈ crossposted, c.roomId ∈ (twoRooms sha256).rooms :=
  List.forall_mem_cons.mpr ⟨List.mem_cons_self, List.forall_mem_singleton.mpr
    (List.mem_cons_of_mem _ (List.mem_singleton_self _))⟩

/-- It is stored in the first and dropped in the second, whatever the hash function. -/
theorem crosspost_dropped : ¬ ∃ sha256, (∀ c ∈ crossposted, c.roomId ∈ (twoRooms sha256).rooms) →
    ∀ t ∈ trace storeNext crossposted (twoRooms sha256), DedupExact t := by
  rintro ⟨sha256, h⟩
  have hrooms := crossposted_rooms sha256
  replace h := h hrooms
  obtain ⟨hops, hdev⟩ := List.forall_mem_cons.mp hrooms
  rw [List.forall_mem_singleton] at hdev
  rw [crossposted, trace_cons, trace_cons, List.forall_mem_cons, List.forall_mem_cons] at h
  have hsecond := (dedupExact_step_iff (by rwa [storeNext_rooms])).mp h.2.1
  have hstored : restarting "ops" "08:00" ∈
      (storeNext (restarting "ops" "08:00") (twoRooms sha256)).2.stored :=
    (mem_stored_storeNext hops (fun d hd => absurd hd List.not_mem_nil) _).mpr (.inl rfl)
  have hsame : restarting "ops" "08:00" = restarting "dev" "08:00" := hsecond _ hstored rfl
  exact absurd hsame (by decide)

end OsModa.Mesh
