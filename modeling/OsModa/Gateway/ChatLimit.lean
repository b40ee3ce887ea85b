import OsModa.Gateway.CrossChat
import OsModa.Gateway.ChatHandles

/-!
The cap on the number of live chats, over runs of client requests.

The cap is looked at where a name makes a chat, and nowhere else: a key that is registered and a
chat that is taken out of the archive are not counted. Runs stay under it exactly as long as such
requests come while there is room (`limited_iff`).
-/

namespace OsModa.Gateway.CrossChat

open OsModa.Js OsModa.Machine OsModa.Gateway.ChatRegistry

/-- The number of chats that are not archived. -/
def live (chats : ChatRegistry) : Nat := chats.countWhere fun c => !c.archived

/-- The key that a frame falls back to. -/
def fallbackKey (sessionKey : JsString) : JsString :=
  if sessionKey = [] then utf16 "ws-default" else sessionKey

/-- No chat is added, or the one Main chat is. -/
def AddsMainOnly (before after : ChatRegistry) : Prop :=
  after.rows.map Chat.key = before.rows.map Chat.key ∨
    (∀ d ∈ before.rows, d.slug ≠ utf16 "main") ∧
      ∃ c ∈ after.rows, c.slug = utf16 "main" ∧ isLegacyMainKey c.key = true ∧
        after.rows.map Chat.key = before.rows.map Chat.key ++ [c.key]

/-- What is to hold of a step: the cap is kept, and a frame of a client mints no chat. -/
structure Limited (t : ServerStep) : Prop where
  capped : live t.after.chats ≤ maxChats
  minted : ∀ chatId sessionKey agentId text now clock outcome,
    t.input = .begin (.web chatId sessionKey) agentId text now clock outcome →
      AddsMainOnly t.before.chats t.after.chats

section Requests

variable (tables : CaseTables) (s : ChatRegistry)

/-- A key is registered, or there is room for another chat. -/
def HasRoom (key : JsString) : Prop := hasKey s key = true ∨ live s < maxChats

/-- What the registry must be before a turn. -/
def SourceFits : TurnSource → Prop
  | .web chatId sessionKey =>
    (chatId ≠ [] ∧ (resolve tables s chatId).isSome = true) ∨
      hasKey s (fallbackKey sessionKey) = true ∨
        live s < maxChats ∧ isLegacyMainKey (fallbackKey sessionKey) = true ∧
          ∀ d ∈ s.rows, d.slug ≠ utf16 "main"
  | .telegram chatId => HasRoom s chatId
  | .api sessionKey => HasRoom s (if sessionKey = [] then utf16 "main" else sessionKey)
  | .loop _ => True

/-- What the registry must be before another request. -/
def RequestFits : RegistryRequest → Prop
  | .create name => trim name = [] → HasRoom s (utf16 "ws-default")
  | .rename _ _ => True
  | .setArchived key archived =>
    archived = true ∨ live s < maxChats ∨ ∀ c ∈ s.rows, c.key = key → c.archived = false
  | .createLoop sessionKey _ _ => HasRoom s sessionKey

def InputFits : ServerInput → Prop
  | .begin source _ _ _ _ _ => SourceFits tables s source
  | .request request _ => RequestFits s request
  | .row _ _ _ _ | .finish _ _ => True

end Requests

/-! ### The number of live chats -/

variable {tables : CaseTables} {s : ChatRegistry}

theorem live_change {f : Chat → Chat} (hf : ∀ c, (f c).key = c.key)
    (harchived : ∀ c, (f c).archived = c.archived) (key : JsString) :
    live (change s key f hf) = live s := by
  rw [live, Table.countWhere, rows_change, List.countP_map, live, Table.countWhere]
  refine congrArg (List.countP · s.rows) (funext fun c => ?_)
  rw [Function.comp_apply]
  split
  · rw [harchived]
  · rfl

theorem live_touch (key : JsString) (now : Nat) : live (touch s key now) = live s := by
  rw [touch]
  apply live_change
  intro c
  rfl

theorem live_rename (key name : JsString) : live (rename s key name) = live s := by
  rw [rename]
  apply live_change
  intro c
  rfl

theorem live_setCursor (chatKey peerKey : JsString) (seq : Nat) :
    live (setCursor s chatKey peerKey seq) = live s := by
  rw [setCursor]
  split
  · rfl
  · apply live_change
    intro c
    rfl

theorem live_commit (chatKey : JsString) (advance : List (JsString × Nat)) :
    live (commit s chatKey advance) = live s := by
  rw [commit]
  induction advance generalizing s with
  | nil => rfl
  | cons a advance ih => rw [List.foldl_cons, ih, live_setCursor]

/-- A new chat is live. -/
theorem live_put {chat : Chat} (hfree : s.find? chat.key = none) (hlive : chat.archived = false) :
    live (s.put chat) = live s + 1 := by
  rw [live, Table.countWhere_put_of_none hfree, hlive, live]
  rfl

theorem live_register (key : JsString) (agentId name : Option JsString) (now : Nat) :
    live (register tables s key agentId name now).2 =
      if hasKey s key = true then live s else live s + 1 := by
  rw [register]
  cases hfind : s.find? key with
  | some existing => rw [if_pos (hasKey_of_find? hfind), live_touch]
  | none =>
    rw [if_neg (by rw [hasKey_of_find?_eq_none hfind]; exact Bool.false_ne_true)]
    exact live_put hfind rfl

/-- Registering keeps the cap exactly if there is room for the key. -/
theorem live_register_le_iff (hcap : live s ≤ maxChats) (key : JsString)
    (agentId name : Option JsString) (now : Nat) :
    live (register tables s key agentId name now).2 ≤ maxChats ↔ HasRoom s key := by
  rw [live_register, HasRoom]
  split
  · rename_i htaken
    exact iff_of_true hcap (.inl htaken)
  · rename_i hfree
    rw [or_iff_right hfree, Nat.succ_le_iff]

/-- Taking a chat out of the archive. -/
theorem live_setArchived_le_iff (hcap : live s ≤ maxChats) (key : JsString) (archived : Bool) :
    live (setArchived s key archived) ≤ maxChats ↔
      RequestFits s (.setArchived key archived) := by
  rw [RequestFits]
  cases hfind : s.find? key with
  | none =>
    have hother : ∀ c ∈ s.rows, c.key ≠ key := fun c hc hkey =>
      Table.find?_eq_none.mp hfind (hkey ▸ List.mem_map_of_mem hc)
    have hsame : live (setArchived s key archived) = live s := by
      rw [live, Table.countWhere, setArchived, rows_change, List.map_congr_left (g := id), List.map_id]
      · rfl
      · intro c hc
        rw [if_neg (hother c hc), id]
    exact iff_of_true (hsame.trans_le hcap) (.inr (.inr fun c hc hkey => absurd hkey (hother c hc)))
  | some c =>
    have hrow : ∀ d ∈ s.rows, d.key = key → d = c := fun d hd hkey =>
      Table.eq_of_key hd (List.mem_of_find?_eq_some hfind)
        (hkey.trans (Table.key_of_find? hfind).symm)
    have hcount : live (setArchived s key archived) + (if c.archived then 0 else 1) =
        live s + (if archived then 0 else 1) := by
      have h := Table.countWhere_updateWhere hfind (fun c => { c with archived := archived })
        (fun _ => rfl) fun c => !c.archived
      have hbit : ∀ b : Bool, (if (!b) = true then 1 else 0) = if b = true then 0 else 1 := by
        intro b
        cases b <;> rfl
      rw [hbit, hbit] at h
      exact h
    have hall : (∀ d ∈ s.rows, d.key = key → d.archived = false) ↔ c.archived = false := by
      constructor
      · intro h
        exact h c (List.mem_of_find?_eq_some hfind) (Table.key_of_find? hfind)
      · intro h d hd hkey
        rw [hrow d hd hkey, h]
    rw [hall]
    cases archived <;> cases hold : c.archived <;> simp [hold] at hcount ⊢ <;> omega

theorem live_resolveOrCreate_le_iff (hcap : live s ≤ maxChats) {name : JsString} {now : Nat}
    {c : Chat} {s' : ChatRegistry} (h : resolveOrCreate tables s name now = .ok (c, s')) :
    live s' ≤ maxChats ↔ RequestFits s (.create name) := by
  rw [resolveOrCreate] at h
  rw [RequestFits]
  dsimp only at h
  split at h
  · rename_i hblank
    have hresult := Except.ok.inj h
    have hiff := @live_register_le_iff tables _ hcap (utf16 "ws-default") none none now
    rw [hresult] at hiff
    rw [hiff]
    simp [hblank]
  · rename_i hraw
    have hcreate : (trim name = [] → HasRoom s (utf16 "ws-default")) := fun hblank =>
      absurd hblank hraw
    split at h
    · obtain ⟨-, rfl⟩ := Prod.mk.inj (Except.ok.inj h)
      exact iff_of_true ((live_touch _ _).trans_le hcap) hcreate
    · split at h
      · obtain ⟨-, rfl⟩ := Prod.mk.inj (Except.ok.inj h)
        exact iff_of_true ((live_touch _ _).trans_le hcap) hcreate
      · split at h
        · cases h
        · rename_i hroom
          obtain ⟨-, rfl⟩ := Prod.mk.inj (Except.ok.inj h)
          refine iff_of_true ?_ hcreate
          have hfree : s.find? (freeKey s (slugify tables (trim name))) = none := by
            have hkey := hasKey_freeKey (s := s) (slugify tables (trim name))
            rw [hasKey, Option.isSome_eq_false_iff] at hkey
            exact Option.isNone_iff_eq_none.mp hkey
          rw [live_put hfree rfl]
          exact Nat.not_le.mp hroom

theorem live_handleRequest_le_iff (hcap : live s ≤ maxChats) (now : Nat)
    (request : RegistryRequest) :
    live (handleRequest tables now s request) ≤ maxChats ↔ RequestFits s request := by
  cases request with
  | create name =>
    rw [handleRequest]
    split
    · rename_i hmade
      exact live_resolveOrCreate_le_iff hcap hmade
    · rename_i hfull
      refine iff_of_true hcap ?_
      intro hblank
      rw [resolveOrCreate] at hfull
      simp only [hblank, if_true] at hfull
      cases hfull
  | rename key name => exact iff_of_true ((live_rename key name).trans_le hcap) trivial
  | setArchived key archived => exact live_setArchived_le_iff hcap key archived
  | createLoop sessionKey agentId name => exact live_register_le_iff hcap _ _ _ now

/-! ### Frames of a client -/

theorem keys_change {f : Chat → Chat} (hf : ∀ c, (f c).key = c.key) (key : JsString) :
    (change s key f hf).rows.map Chat.key = s.rows.map Chat.key := by
  rw [rows_change, List.map_map]
  refine List.map_congr_left ?_
  intro c _
  rw [Function.comp_apply]
  split
  · exact hf c
  · rfl

theorem keys_touch (key : JsString) (now : Nat) :
    (touch s key now).rows.map Chat.key = s.rows.map Chat.key := by
  rw [touch, keys_change]

theorem rows_register_of_none {key : JsString} (hfree : hasKey s key = false)
    (agentId name : Option JsString) (now : Nat) :
    ∃ c, c.key = key ∧ c.slug = (registerNames tables s key (name.filter (· ≠ []))).2 ∧
      (register tables s key agentId name now).2.rows = s.rows ++ [c] := by
  rw [register]
  cases hfind : s.find? key with
  | some existing =>
    rw [hasKey_of_find? hfind] at hfree
    cases hfree
  | none =>
    refine ⟨_, ?_, ?_, Table.rows_put_of_none hfind⟩
    · rfl
    · rfl

/-- The chat of a frame is Main, or there before. -/
theorem addsMainOnly_register_iff (key : JsString) (now : Nat) :
    AddsMainOnly s (touch (register tables s key none none now).2 key now) ↔
      hasKey s key = true ∨
        isLegacyMainKey key = true ∧ ∀ d ∈ s.rows, d.slug ≠ utf16 "main" := by
  rw [AddsMainOnly, keys_touch]
  cases hkey : hasKey s key with
  | true =>
    refine iff_of_true (.inl ?_) (.inl rfl)
    obtain ⟨c, hc⟩ := Option.isSome_iff_exists.mp hkey
    rw [register, hc]
    exact keys_touch key now
  | false =>
    obtain ⟨c, rfl, hslug, hrows⟩ := @rows_register_of_none tables _ _ hkey none none now
    rw [hrows, List.map_append, List.map_singleton]
    constructor
    · rintro (heq | ⟨hmain, d, -, -, hlegacy, heq⟩)
      · have hlength := congrArg List.length heq
        simp at hlength
      · rw [← List.singleton_inj.mp (List.append_cancel_left heq)] at hlegacy
        exact .inr ⟨hlegacy, hmain⟩
    · rintro (hfalse | ⟨hlegacy, hmain⟩)
      · cases hfalse
      · have hnone : hasMain s = false := by
          rw [hasMain, bySlug_eq_none.mpr hmain, Option.isSome_none]
        have hnames : registerNames tables s c.key none = (utf16 "Main", utf16 "main") := by
          rw [registerNames, hlegacy, hnone]
          rfl
        have hslugMain : c.slug = utf16 "main" := by
          rw [hslug]
          exact congrArg Prod.snd hnames
        refine .inr ⟨hmain, { c with lastActive := now }, ?_, hslugMain, hlegacy, rfl⟩
        rw [touch, rows_change, hrows, List.map_append, List.map_singleton, if_pos rfl]
        exact List.mem_append_right _ List.mem_cons_self

theorem limited_web_iff (hcap : live s ≤ maxChats) (chatId sessionKey agentId : JsString)
    (now : Nat) :
    live (openChat tables (.web chatId sessionKey) agentId now s).2 ≤ maxChats ∧
        AddsMainOnly s (openChat tables (.web chatId sessionKey) agentId now s).2 ↔
      SourceFits tables s (.web chatId sessionKey) := by
  rw [openChat, SourceFits]
  cases hfound : if chatId = [] then none else resolve tables s chatId with
  | some existing =>
    have hgiven : chatId ≠ [] := by
      rintro rfl
      cases hfound
    rw [if_neg hgiven] at hfound
    refine iff_of_true ⟨(live_touch _ _).trans_le hcap, .inl (keys_touch _ _)⟩ (.inl ⟨hgiven, ?_⟩)
    rw [hfound, Option.isSome_some]
  | none =>
    have hnone : ¬ (chatId ≠ [] ∧ (resolve tables s chatId).isSome = true) := by
      rintro ⟨hgiven, hsome⟩
      rw [if_neg hgiven] at hfound
      rw [hfound] at hsome
      cases hsome
    rw [or_iff_right hnone]
    generalize hkey : fallbackKey sessionKey = key
    rw [fallbackKey] at hkey
    dsimp only
    rw [hkey, live_touch, live_register_le_iff hcap, addsMainOnly_register_iff, HasRoom]
    tauto

theorem live_openChat_le_iff (hcap : live s ≤ maxChats) {source : TurnSource}
    (hsource : ∀ chatId sessionKey, source ≠ .web chatId sessionKey) (agentId : JsString)
    (now : Nat) :
    live (openChat tables source agentId now s).2 ≤ maxChats ↔ SourceFits tables s source := by
  cases source with
  | web chatId sessionKey => exact absurd rfl (hsource chatId sessionKey)
  | telegram chatId =>
    rw [openChat, SourceFits]
    dsimp only
    rw [live_touch, live_register_le_iff hcap]
  | api sessionKey =>
    rw [openChat, SourceFits]
    dsimp only
    rw [live_register_le_iff hcap]
  | loop sessionKey => exact iff_of_true hcap trivial

/-! ### Runs -/

/-- The step lemma. -/
theorem limited_stepOf_iff (input : ServerInput) (s : Server) (hcap : live s.chats ≤ maxChats) :
    Limited (stepOf (serverNext tables) input s) ↔ InputFits tables s.chats input := by
  have hquiet : (∀ chatId sessionKey agentId text now clock outcome,
      input ≠ .begin (.web chatId sessionKey) agentId text now clock outcome) →
      (Limited (stepOf (serverNext tables) input s) ↔
        live (serverNext tables input s).2.chats ≤ maxChats) := by
    intro hweb
    constructor
    · intro h
      exact h.capped
    · intro h
      exact ⟨h, fun _ _ _ _ _ _ _ hinput => absurd hinput (hweb _ _ _ _ _ _ _)⟩
  cases input with
  | begin source agentId text now clock outcome =>
    by_cases hsource : ∀ chatId sessionKey, source ≠ .web chatId sessionKey
    · rw [hquiet fun chatId sessionKey _ _ _ _ _ h => hsource chatId sessionKey (by cases h; rfl)]
      exact live_openChat_le_iff hcap hsource agentId now
    · push Not at hsource
      obtain ⟨chatId, sessionKey, rfl⟩ := hsource
      refine Iff.trans ?_ (limited_web_iff hcap chatId sessionKey agentId now)
      constructor
      · intro h
        exact ⟨h.capped, h.minted _ _ _ _ _ _ _ rfl⟩
      · rintro ⟨hlive, hminted⟩
        refine ⟨hlive, fun chatId' sessionKey' _ _ _ _ _ hinput => ?_⟩
        cases hinput
        exact hminted
  | row id row clock outcome =>
    rw [hquiet fun _ _ _ _ _ _ _ h => by cases h]
    refine iff_of_true ?_ trivial
    have hchats : (serverNext tables (.row id row clock outcome) s).2.chats = s.chats := by
      rw [serverNext, writeRow]
      split <;> rfl
    exact hchats ▸ hcap
  | finish id delivered =>
    rw [hquiet fun _ _ _ _ _ _ _ h => by cases h]
    refine iff_of_true ?_ trivial
    rw [serverNext, finishTurn]
    split
    · cases delivered with
      | true => exact (live_commit _ _).trans_le hcap
      | false => exact hcap
    · exact hcap
  | request request now =>
    rw [hquiet fun _ _ _ _ _ _ _ h => by cases h]
    exact live_handleRequest_le_iff hcap now request

/-- The cap is kept, and frames mint no chats, exactly as long as keys are registered and chats are
taken out of the archive only while there is room, and frames name chats that there are. -/
theorem limited_iff (tables : CaseTables) (inputs : List ServerInput) :
    (∀ t ∈ trace (serverNext tables) inputs .fresh, Limited t) ↔
      ∀ t ∈ trace (serverNext tables) inputs .fresh, InputFits tables t.before.chats t.input := by
  have hfresh : live Server.fresh.chats ≤ maxChats := Nat.zero_le _
  exact @all_good_iff _ _ _ _ (fun s : Server => live s.chats ≤ maxChats) Limited
    (fun t : ServerStep => InputFits tables t.before.chats t.input) limited_stepOf_iff
    (fun _ _ _ h => h.capped) inputs _ hfresh

/-- A turn for every number below `n`, each with a key of its own. -/
def manyTurns (n : Nat) : List ServerInput :=
  (List.range n).map fun i => .begin (.api (numbered [] i)) [] [] 0 [] .written

theorem chats_manyTurns (n : Nat) :
    (final (serverNext tables) (manyTurns n) .fresh).chats.rows.map Chat.key =
        (List.range n).map (numbered []) ∧
      live (final (serverNext tables) (manyTurns n) .fresh).chats = n := by
  induction n with
  | zero => exact ⟨rfl, rfl⟩
  | succ n ih =>
    obtain ⟨hkeys, hlive⟩ := ih
    have hsplit : manyTurns (n + 1) =
        manyTurns n ++ [.begin (.api (numbered [] n)) [] [] 0 [] .written] := by
      rw [manyTurns, manyTurns, List.range_succ, List.map_append, List.map_singleton]
    rw [hsplit, final_append]
    generalize final (serverNext tables) (manyTurns n) .fresh = s at hkeys hlive
    have hfree : hasKey s.chats (numbered [] n) = false := by
      rw [Bool.eq_false_iff, ne_eq, hasKey_iff, hkeys, List.mem_map]
      rintro ⟨i, hi, heq⟩
      have hnumber := numeral_injective (List.cons.inj heq).2
      rw [hnumber] at hi
      exact List.not_mem_range_self hi
    have hafter : (final (serverNext tables)
        [.begin (.api (numbered [] n)) [] [] 0 [] .written] s).chats =
        (register tables s.chats (numbered [] n) none none 0).2 := rfl
    obtain ⟨c, hkey, -, hrows⟩ := @rows_register_of_none tables _ _ hfree none none 0
    rw [hafter, live_register, hfree, hrows, List.map_append, List.map_singleton, hkey, hkeys, hlive,
      List.range_succ, List.map_append, List.map_singleton]
    exact ⟨rfl, rfl⟩

/-- Turns with keys of their own exceed the cap, and a frame with a key of its own makes a chat. -/
theorem cap_is_passed :
    ¬ (∀ inputs, ∀ t ∈ trace (serverNext .ascii) inputs .fresh, live t.after.chats ≤ maxChats) ∧
      ¬ ∀ inputs, ∀ t ∈ trace (serverNext .ascii) inputs .fresh,
        ∀ chatId sessionKey agentId text now clock outcome,
          t.input = .begin (.web chatId sessionKey) agentId text now clock outcome →
            AddsMainOnly t.before.chats t.after.chats := by
  constructor
  · intro h
    have hkeep : ∀ i s, live s.chats ≤ maxChats →
        live (stepOf (serverNext .ascii) i s).after.chats ≤ maxChats →
          live (serverNext .ascii i s).2.chats ≤ maxChats := fun _ _ _ hafter => hafter
    have hfinal := @final_invariant_of _ _ _ (serverNext .ascii) (fun s => live s.chats ≤ maxChats)
      (fun t => live t.after.chats ≤ maxChats) hkeep (manyTurns (maxChats + 1)) .fresh
      (Nat.zero_le _) (h _)
    rw [(chats_manyTurns _).2] at hfinal
    exact absurd hfinal (Nat.not_succ_le_self maxChats)
  · intro h
    rcases h [.begin (.web [] (utf16 "a")) (utf16 "osmoda") (utf16 "hi") 0 [] .written] _ (.head _)
      _ _ _ _ _ _ _ rfl with heq | ⟨-, c, hc, -, hlegacy, -⟩
    · revert heq
      decide +kernel
    · revert c
      decide +kernel

end OsModa.Gateway.CrossChat
