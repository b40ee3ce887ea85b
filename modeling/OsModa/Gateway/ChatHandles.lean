import OsModa.Base.Debounced
import OsModa.Base.Machine
import OsModa.Gateway.ChatNames

/-!
Which chats the registry leads back to, by their handles and by the names they show.

A new chat takes a key, a handle and a name, and each of them is looked up among the others'; a
chat that is renamed keeps its handle. The registry stays unambiguous exactly as long as no step
takes what leads elsewhere (`unambiguous_iff`).
-/

namespace OsModa.Gateway

open OsModa.Encoding OsModa.Js OsModa.Machine

/-- The operations of the registry. -/
inductive RegistryOp where
  | register (key : JsString) (agentId name : Option JsString) (now : Nat)
  | resolveOrCreate (idOrName : JsString) (now : Nat)
  | rename (key name : JsString)
  | setArchived (key : JsString) (archived : Bool)
  | touch (key : JsString) (now : Nat)
  | setCursor (chatKey peerKey : JsString) (seq : Nat)
  /-- The timer fires. -/
  | save (written : Bool)
  | reload

/-- The registry, with the file that it is saved to. -/
abbrev ChatStore := Debounced ChatRegistry

namespace ChatStore

/-- There is no file yet. -/
def fresh : ChatStore := .loaded .empty

end ChatStore

section Operations

variable (tables : CaseTables)

/-- A change of a chat is saved if there is the chat. -/
def changeChat (key : JsString) (after : ChatRegistry) (d : ChatStore) : ChatStore :=
  d.change (ChatRegistry.hasKey d.memory key) after

def registryNext (op : RegistryOp) (d : ChatStore) : Unit × ChatStore :=
  match op with
  | .register key agentId name now =>
    ((), d.change true (ChatRegistry.register tables d.memory key agentId name now).2)
  | .resolveOrCreate idOrName now =>
    match ChatRegistry.resolveOrCreate tables d.memory idOrName now with
    | .ok (_, chats) => ((), d.change true chats)
    | .error _ => ((), d)
  | .rename key name => ((), changeChat key (ChatRegistry.rename d.memory key name) d)
  | .setArchived key archived => ((), changeChat key (ChatRegistry.setArchived d.memory key archived) d)
  | .touch key now => ((), changeChat key (ChatRegistry.touch d.memory key now) d)
  | .setCursor chatKey peerKey seq =>
    ((), changeChat chatKey (ChatRegistry.setCursor d.memory chatKey peerKey seq) d)
  | .save written => ((), d.save written)
  | .reload => ((), d.reload)

end Operations

namespace ChatRegistry

variable (tables : CaseTables) (s : ChatRegistry)

/-! ### Names that lead to a chat -/

/-- Every chat is led to by its handle and by its name. -/
structure Unambiguous : Prop where
  nodup_slugs : (s.rows.map Chat.slug).Nodup
  by_slug : ∀ c ∈ s.rows, resolve tables s c.slug = some c
  by_name : ∀ c ∈ s.rows, resolve tables s c.name = some c
  /-- No second chat is made for a name. -/
  creates_none : ∀ c ∈ s.rows, ∀ now chat s', resolveOrCreate tables s c.name now = .ok (chat, s') →
    s'.rows.length = s.rows.length

/-- A name is taken for the chat with a key and a handle: it is the key, or the key of no chat,
and its slug is the handle. -/
def Names (key slug x : JsString) : Prop :=
  trim x ≠ [] ∧ (trim x = key ∨ hasKey s (trim x) = false ∧ slugify tables (trim x) = slug)

/-- A new chat can take a key, a name and a handle: no chat has the handle, it and the name are
taken for the new chat, and what other chats go by is not the new key. -/
structure Fits (key name slug : JsString) : Prop where
  free : ∀ d ∈ s.rows, d.slug ≠ slug
  names_slug : Names tables s key slug slug
  names_name : Names tables s key slug name
  hides_none : ∀ d ∈ s.rows, key ≠ trim d.slug ∧ key ≠ trim d.name

/-- The same for a chat that gets a number where its handle is taken. -/
def FitsNumbered (key name slug : JsString) : Prop :=
  if (∀ d ∈ s.rows, d.slug ≠ slug) then Fits tables s key name slug
  else Fits tables s key name (numbered slug (s.rows.length + 1))

/-- When a key can be registered. -/
def RegisterFits (key : JsString) (name : Option JsString) : Prop :=
  hasKey s key = true ∨
    match name.filter (· ≠ []) with
    | some name => FitsNumbered tables s key (name.take maxName) (slugify tables name)
    | none =>
      if isLegacyMainKey key = true ∧ ∀ d ∈ s.rows, d.slug ≠ utf16 "main" then
        Fits tables s key (utf16 "Main") (utf16 "main")
      else FitsNumbered tables s key key (slugify tables key)

/-- What the state must be before an operation. -/
def OpFits : RegistryOp → Prop
  | .register key _ name _ => RegisterFits tables s key name
  | .resolveOrCreate idOrName _ =>
    let raw := trim idOrName
    if raw = [] then RegisterFits tables s (utf16 "ws-default") none
    else hasKey s raw = true ∨ (∃ d ∈ s.rows, d.slug = slugify tables raw) ∨
      maxChats ≤ s.countWhere (fun c => !c.archived) ∨
      Fits tables s (freeKey s (slugify tables raw)) (raw.take maxName) (slugify tables raw)
  | .rename key name => ∀ c ∈ s.rows, c.key = key →
      Names tables s c.key c.slug ((if name = [] then c.name else name).take maxName)
  | _ => True

variable {tables} {s}

theorem bySlug_eq_none {slug : JsString} : bySlug s slug = none ↔ ∀ d ∈ s.rows, d.slug ≠ slug := by
  simp [bySlug]

theorem bySlug_eq_some_iff (hslugs : (s.rows.map Chat.slug).Nodup) {c : Chat} (hc : c ∈ s.rows)
    {slug : JsString} : bySlug s slug = some c ↔ slug = c.slug := by
  constructor
  · intro h
    have hslug : decide (c.slug = slug) = true :=
      List.find?_some (p := fun c : Chat => decide (c.slug = slug)) h
    exact (of_decide_eq_true hslug).symm
  · rintro rfl
    cases hfind : bySlug s c.slug with
    | none => exact absurd rfl (bySlug_eq_none.mp hfind c hc)
    | some d =>
      have hslug : decide (d.slug = c.slug) = true :=
        List.find?_some (p := fun d : Chat => decide (d.slug = c.slug)) hfind
      rw [List.inj_on_of_nodup_map hslugs (List.mem_of_find?_eq_some hfind) hc
        (of_decide_eq_true hslug)]

/-- What a name leads to, where handles are unique. -/
theorem resolve_eq_some_iff (hslugs : (s.rows.map Chat.slug).Nodup) {c : Chat} (hc : c ∈ s.rows)
    {x : JsString} : resolve tables s x = some c ↔ Names tables s c.key c.slug x := by
  rw [resolve, Names]
  split
  · rename_i hblank
    simp [hblank]
  · rename_i hraw
    cases hfind : s.find? (trim x) with
    | some d =>
      have htaken : hasKey s (trim x) = true := by rw [hasKey, hfind, Option.isSome_some]
      have hkey : d.key = trim x := Table.key_of_find? hfind
      rw [Option.some_or, htaken]
      constructor
      · rintro h
        rw [← Option.some.inj h]
        exact ⟨hraw, .inl hkey.symm⟩
      · rintro ⟨-, heq | ⟨hfalse, -⟩⟩
        · rw [Table.eq_of_key (List.mem_of_find?_eq_some hfind) hc (hkey.trans heq)]
        · cases hfalse
    | none =>
      have hfree : hasKey s (trim x) = false := by rw [hasKey, hfind, Option.isSome_none]
      have hother : trim x ≠ c.key := by
        rintro heq
        rw [Table.find?_eq_none, heq] at hfind
        exact hfind (List.mem_map_of_mem hc)
      rw [Option.none_or, bySlug_eq_some_iff hslugs hc]
      simp [hraw, hother, hfree]

theorem length_change {f : Chat → Chat} (hf : ∀ c, (f c).key = c.key) (key : JsString) :
    (change s key f hf).rows.length = s.rows.length := by
  simp [change, Table.updateWhere]

/-- A name that leads to a chat makes none. -/
theorem length_of_resolve {x : JsString} {c chat : Chat} {s' : ChatRegistry} {now : Nat}
    (h : resolve tables s x = some c) (hmade : resolveOrCreate tables s x now = .ok (chat, s')) :
    s'.rows.length = s.rows.length := by
  rw [resolve] at h
  rw [resolveOrCreate] at hmade
  dsimp only at h hmade
  split at hmade
  · rename_i hblank
    rw [if_pos hblank] at h
    cases h
  · rename_i hraw
    rw [if_neg hraw] at h
    split at hmade
    · obtain ⟨-, rfl⟩ := Prod.mk.inj (Except.ok.inj hmade)
      exact length_change _ _
    · rename_i hfind
      rw [hfind, Option.none_or] at h
      rw [h] at hmade
      obtain ⟨-, rfl⟩ := Prod.mk.inj (Except.ok.inj hmade)
      exact length_change _ _

/-- Handles are unique, and every chat's handle and name are taken for it. -/
theorem unambiguous_iff_names : Unambiguous tables s ↔ (s.rows.map Chat.slug).Nodup ∧
    ∀ c ∈ s.rows, Names tables s c.key c.slug c.slug ∧ Names tables s c.key c.slug c.name := by
  constructor
  · intro h
    refine ⟨h.nodup_slugs, fun c hc => ⟨?_, ?_⟩⟩
    · exact (resolve_eq_some_iff h.nodup_slugs hc).mp (h.by_slug c hc)
    · exact (resolve_eq_some_iff h.nodup_slugs hc).mp (h.by_name c hc)
  · rintro ⟨hslugs, hnames⟩
    have hname : ∀ c ∈ s.rows, resolve tables s c.name = some c := fun c hc =>
      (resolve_eq_some_iff hslugs hc).mpr (hnames c hc).2
    refine ⟨hslugs, fun c hc => ?_, hname, fun c hc now chat s' hmade => ?_⟩
    · exact (resolve_eq_some_iff hslugs hc).mpr (hnames c hc).1
    · exact length_of_resolve (hname c hc) hmade

/-! ### What a step keeps -/

theorem names_congr {s' : ChatRegistry} (h : ∀ key, hasKey s' key = hasKey s key)
    (key slug x : JsString) : Names tables s' key slug x ↔ Names tables s key slug x := by
  rw [Names, Names, h]

theorem rows_change {f : Chat → Chat} (hf : ∀ c, (f c).key = c.key) (key : JsString) :
    (change s key f hf).rows = s.rows.map fun c => if c.key = key then f c else c := by
  simp [change, Table.updateWhere]

/-- A change that leaves the handles alone. -/
theorem unambiguous_change (h : Unambiguous tables s) {f : Chat → Chat}
    (hf : ∀ c, (f c).key = c.key) (hslug : ∀ c, (f c).slug = c.slug) (key : JsString) :
    Unambiguous tables (change s key f hf) ↔
      ∀ c ∈ s.rows, c.key = key → Names tables s c.key c.slug (f c).name := by
  obtain ⟨hslugs, hnames⟩ := unambiguous_iff_names.mp h
  have hsame : (change s key f hf).rows.map Chat.slug = s.rows.map Chat.slug := by
    rw [rows_change, List.map_map]
    refine List.map_congr_left ?_
    intro c _
    rw [Function.comp_apply]
    split
    · exact hslug c
    · rfl
  rw [unambiguous_iff_names, hsame, rows_change, List.forall_mem_map]
  simp only [names_congr (hasKey_change hf key)]
  constructor
  · rintro ⟨-, hafter⟩ c hc hkey
    have hchat := (hafter c hc).2
    rwa [if_pos hkey, hf, hslug] at hchat
  · intro hchanged
    refine ⟨hslugs, fun c hc => ?_⟩
    split
    · rename_i hkey
      rw [hf, hslug]
      exact ⟨(hnames c hc).1, hchanged c hc hkey⟩
    · exact hnames c hc

/-- A change that leaves handles and names alone. -/
theorem unambiguous_change_of_name (h : Unambiguous tables s) {f : Chat → Chat}
    (hf : ∀ c, (f c).key = c.key) (hslug : ∀ c, (f c).slug = c.slug)
    (hname : ∀ c, (f c).name = c.name) (key : JsString) :
    Unambiguous tables (change s key f hf) := by
  rw [unambiguous_change h hf hslug key]
  intro c hc _
  rw [hname]
  exact ((unambiguous_iff_names.mp h).2 c hc).2

/-- A name that is taken for a chat, after another chat is stored. -/
theorem names_put {chat d : Chat} (hfree : hasKey s chat.key = false) (hd : d ∈ s.rows)
    (x : JsString) : Names tables (s.put chat) d.key d.slug x ↔
      Names tables s d.key d.slug x ∧ chat.key ≠ trim x := by
  have hother : chat.key ≠ d.key := by
    intro heq
    rw [heq, Bool.eq_false_iff, ne_eq, hasKey_iff] at hfree
    exact hfree (List.mem_map_of_mem hd)
  rw [Names, Names, hasKey_put]
  constructor
  · rintro ⟨hraw, heq | ⟨hnone, hslug⟩⟩
    · exact ⟨⟨hraw, .inl heq⟩, heq ▸ hother⟩
    · rw [Bool.or_eq_false_iff, decide_eq_false_iff_not] at hnone
      exact ⟨⟨hraw, .inr ⟨hnone.2, hslug⟩⟩, hnone.1⟩
  · rintro ⟨⟨hraw, heq | ⟨hnone, hslug⟩⟩, hne⟩
    · exact ⟨hraw, .inl heq⟩
    · refine ⟨hraw, .inr ⟨?_, hslug⟩⟩
      rw [hnone, Bool.or_false, decide_eq_false hne]

/-- A name that is taken for the chat that is stored. -/
theorem names_put_self {chat : Chat} (slug x : JsString) :
    Names tables (s.put chat) chat.key slug x ↔ Names tables s chat.key slug x := by
  rw [Names, Names, hasKey_put]
  by_cases heq : trim x = chat.key
  · simp [heq]
  · simp [heq, Ne.symm heq]

/-- A new chat. -/
theorem unambiguous_put (h : Unambiguous tables s) {chat : Chat}
    (hfree : hasKey s chat.key = false) :
    Unambiguous tables (s.put chat) ↔ Fits tables s chat.key chat.name chat.slug := by
  obtain ⟨hslugs, hnames⟩ := unambiguous_iff_names.mp h
  have hnone : s.find? chat.key = none := by
    rw [hasKey, Option.isSome_eq_false_iff] at hfree
    exact Option.isNone_iff_eq_none.mp hfree
  have hnodup : ((s.rows ++ [chat]).map Chat.slug).Nodup ↔ ∀ d ∈ s.rows, d.slug ≠ chat.slug := by
    rw [List.map_append, List.map_singleton, List.nodup_append]
    simp [hslugs]
  rw [unambiguous_iff_names, Table.rows_put_of_none hnone, hnodup, List.forall_mem_append,
    List.forall_mem_singleton, names_put_self, names_put_self]
  constructor
  · rintro ⟨hdistinct, hold, hslug, hname⟩
    refine ⟨hdistinct, hslug, hname, fun d hd => ⟨?_, ?_⟩⟩
    · exact ((names_put hfree hd _).mp (hold d hd).1).2
    · exact ((names_put hfree hd _).mp (hold d hd).2).2
  · rintro ⟨hdistinct, hslug, hname, hhides⟩
    refine ⟨hdistinct, fun d hd => ⟨?_, ?_⟩, hslug, hname⟩
    · exact (names_put hfree hd _).mpr ⟨(hnames d hd).1, (hhides d hd).1⟩
    · exact (names_put hfree hd _).mpr ⟨(hnames d hd).2, (hhides d hd).2⟩

theorem hasKey_of_find? {key : JsString} {c : Chat} (h : s.find? key = some c) :
    hasKey s key = true := by
  rw [hasKey, h, Option.isSome_some]

theorem hasKey_of_find?_eq_none {key : JsString} (h : s.find? key = none) :
    hasKey s key = false := by
  rw [hasKey, h, Option.isSome_none]

theorem unambiguous_touch (h : Unambiguous tables s) (key : JsString) (now : Nat) :
    Unambiguous tables (touch s key now) := by
  rw [touch]
  apply unambiguous_change_of_name h <;> (intro c; rfl)

theorem unambiguous_setArchived (h : Unambiguous tables s) (key : JsString) (archived : Bool) :
    Unambiguous tables (setArchived s key archived) := by
  rw [setArchived]
  apply unambiguous_change_of_name h <;> (intro c; rfl)

theorem unambiguous_setCursor (h : Unambiguous tables s) (chatKey peerKey : JsString) (seq : Nat) :
    Unambiguous tables (setCursor s chatKey peerKey seq) := by
  rw [setCursor]
  split
  · exact h
  · apply unambiguous_change_of_name h <;> (intro c; rfl)

theorem unambiguous_rename (h : Unambiguous tables s) (key name : JsString) :
    Unambiguous tables (rename s key name) ↔ OpFits tables s (.rename key name) := by
  rw [rename, OpFits]
  apply unambiguous_change h
  intro c
  rfl

/-- The number that a handle gets if it is taken. -/
theorem fits_deduped {key name slug : JsString} :
    Fits tables s key name (deduped s slug) ↔ FitsNumbered tables s key name slug := by
  rw [deduped, FitsNumbered]
  by_cases hfree : ∀ d ∈ s.rows, d.slug ≠ slug
  · rw [if_pos hfree, bySlug_eq_none.mpr hfree]
    simp
  · have htaken : (bySlug s slug).isSome = true := by
      rw [Option.isSome_iff_ne_none, ne_eq, bySlug_eq_none]
      exact hfree
    rw [if_neg hfree, if_pos htaken]

theorem unambiguous_register (h : Unambiguous tables s) (key : JsString)
    (agentId name : Option JsString) (now : Nat) :
    Unambiguous tables (register tables s key agentId name now).2 ↔
      RegisterFits tables s key name := by
  rw [register, RegisterFits]
  cases hfind : s.find? key with
  | some existing =>
    rw [hasKey_of_find? hfind]
    exact iff_of_true (unambiguous_touch h key now) (.inl rfl)
  | none =>
    have hfree : hasKey s key = false := hasKey_of_find?_eq_none hfind
    dsimp only
    rw [unambiguous_put h hfree, hfree]
    simp only [Bool.false_eq_true, false_or, newChat, registerNames]
    cases name.filter (· ≠ []) with
    | some name => exact fits_deduped
    | none =>
      have hmain : (isLegacyMainKey key && !hasMain s) = true ↔
          isLegacyMainKey key = true ∧ ∀ d ∈ s.rows, d.slug ≠ utf16 "main" := by
        rw [Bool.and_eq_true, Bool.not_eq_true', hasMain, Option.isSome_eq_false_iff,
          Option.isNone_iff_eq_none, bySlug_eq_none]
      dsimp only
      by_cases hlegacy : isLegacyMainKey key = true ∧ ∀ d ∈ s.rows, d.slug ≠ utf16 "main"
      · rw [if_pos hlegacy, if_pos (hmain.mpr hlegacy)]
      · rw [if_neg hlegacy, if_neg (mt hmain.mp hlegacy)]
        exact fits_deduped

/-- One operation, other than of the file. -/
theorem unambiguous_resolveOrCreate (h : Unambiguous tables s) {x : JsString} {now : Nat}
    {chat : Chat} {s' : ChatRegistry} (hmade : resolveOrCreate tables s x now = .ok (chat, s')) :
    Unambiguous tables s' ↔ OpFits tables s (.resolveOrCreate x now) := by
  rw [resolveOrCreate] at hmade
  rw [OpFits]
  dsimp only at hmade ⊢
  split at hmade
  · rename_i hblank
    have hresult := Except.ok.inj hmade
    rw [if_pos hblank, ← unambiguous_register h _ none none now, hresult]
  · rename_i hraw
    rw [if_neg hraw]
    split at hmade
    · rename_i hfind
      obtain ⟨-, rfl⟩ := Prod.mk.inj (Except.ok.inj hmade)
      exact iff_of_true (unambiguous_touch h _ now) (.inl (hasKey_of_find? hfind))
    · rename_i hfind
      have hfree : hasKey s (trim x) = false := hasKey_of_find?_eq_none hfind
      split at hmade
      · rename_i found hslug
        obtain ⟨-, rfl⟩ := Prod.mk.inj (Except.ok.inj hmade)
        refine iff_of_true (unambiguous_touch h _ now) (.inr (.inl ?_))
        by_contra hnone
        push Not at hnone
        rw [bySlug_eq_none.mpr hnone] at hslug
        cases hslug
      · rename_i hslug
        have hnone := bySlug_eq_none.mp hslug
        split at hmade
        · cases hmade
        · rename_i hroom
          obtain ⟨-, rfl⟩ := Prod.mk.inj (Except.ok.inj hmade)
          rw [unambiguous_put h (hasKey_freeKey _), hfree]
          have htaken : ¬ ∃ d ∈ s.rows, d.slug = slugify tables (trim x) := by
            push Not
            exact hnone
          simp [htaken, hroom, newChat]

end ChatRegistry

/-! ### Runs -/

open ChatRegistry

variable {tables : CaseTables}

abbrev RegistryStep := Step ChatStore RegistryOp Unit

theorem unambiguous_empty : Unambiguous tables .empty := by
  rw [unambiguous_iff_names]
  simp [Table.empty]

/-- The step lemma. -/
theorem unambiguous_next (op : RegistryOp) (d : ChatStore) (h : d.Both (Unambiguous tables)) :
    Unambiguous tables (registryNext tables op d).2.memory ↔ OpFits tables d.memory op := by
  cases op with
  | register key agentId name now => exact unambiguous_register h.1 key agentId name now
  | resolveOrCreate x now =>
    rw [registryNext]
    split
    · rename_i hmade
      exact unambiguous_resolveOrCreate h.1 hmade
    · rename_i hfull
      refine iff_of_true h.1 ?_
      rw [resolveOrCreate] at hfull
      rw [OpFits]
      dsimp only at hfull ⊢
      split at hfull
      · cases hfull
      · rename_i hraw
        rw [if_neg hraw]
        split at hfull
        · cases hfull
        · split at hfull
          · cases hfull
          · split at hfull
            · rename_i hroom
              exact .inr (.inr (.inl hroom))
            · cases hfull
  | rename key name => exact unambiguous_rename h.1 key name
  | setArchived key archived => exact iff_of_true (unambiguous_setArchived h.1 key archived) trivial
  | touch key now => exact iff_of_true (unambiguous_touch h.1 key now) trivial
  | setCursor chatKey peerKey seq =>
    exact iff_of_true (unambiguous_setCursor h.1 chatKey peerKey seq) trivial
  | save written => exact iff_of_true h.1 trivial
  | reload => exact iff_of_true h.2 trivial

/-- The file is a registry that was in memory. -/
theorem both_next (op : RegistryOp) (d : ChatStore) (h : d.Both (Unambiguous tables))
    (hafter : Unambiguous tables (registryNext tables op d).2.memory) :
    (registryNext tables op d).2.Both (Unambiguous tables) := by
  cases op with
  | save written => exact h.save written
  | reload => exact h.reload
  | resolveOrCreate x now =>
    rw [registryNext] at hafter ⊢
    split at hafter
    · exact h.change hafter
    · exact h
  | _ => exact h.change hafter

/-- The registry is unambiguous in every state of a run exactly when no step takes a key, a handle
or a name that leads elsewhere. -/
theorem unambiguous_iff (tables : CaseTables) (ops : List RegistryOp) :
    (∀ t ∈ trace (registryNext tables) ops .fresh, Unambiguous tables t.after.memory) ↔
      ∀ t ∈ trace (registryNext tables) ops .fresh, OpFits tables t.before.memory t.input := by
  have hfresh : ChatStore.fresh.Both (Unambiguous tables) := ⟨unambiguous_empty, unambiguous_empty⟩
  exact @all_good_iff _ _ _ _ (Debounced.Both (Unambiguous tables))
    (fun t : RegistryStep => Unambiguous tables t.after.memory)
    (fun t : RegistryStep => OpFits tables t.before.memory t.input)
    unambiguous_next both_next ops _ hfresh

/-- The number that a taken handle gets is not looked up: `x` becomes `x-3`, which is taken. -/
theorem number_is_taken : ¬ ∀ ops, ∀ t ∈ trace (registryNext .ascii) ops .fresh,
    Unambiguous .ascii t.after.memory := by
  intro h
  have hslugs := (h [.resolveOrCreate (utf16 "x-3") 0, .resolveOrCreate (utf16 "x") 0,
    .register (utf16 "x") none none 0] _ (.tail _ (.tail _ (.head _)))).nodup_slugs
  revert hslugs
  decide +kernel

end OsModa.Gateway
