import OsModa.Gateway.Chats

/-!
Which names lead to one chat.

Names are told apart by their slugs, of which other scripts than the Latin one leave nothing and
long names only the beginning, and by the keys of chats, which names are taken for first
(`different_chats_iff`).
-/

namespace OsModa.Gateway

open OsModa.Encoding OsModa.Js

namespace ChatRegistry

variable {tables : CaseTables} {s : ChatRegistry}

/-- The key of the first chat with a slug. -/
def slugKey (s : ChatRegistry) (slug : JsString) : Option JsString := (bySlug s slug).map Chat.key

/-- The key of the one original conversation. -/
def mainKey : JsString := utf16 "ws-default"

/-- The first name leads to a chat, and the second, after it, to the same one. A blank name is
taken for the key of the original conversation. -/
def SameChat (tables : CaseTables) (s : ChatRegistry) (x y : JsString) : Prop :=
  let a := trim x
  let b := trim y
  if a = [] then
    b = [] ∨ b = mainKey ∨
      (hasKey s b = false ∧ (slugKey s (slugify tables b) = some mainKey ∨
        slugKey s (slugify tables b) = none ∧ hasKey s mainKey = false ∧
          slugify tables b = (registerNames tables s mainKey none).2))
  else if b = [] then
    a = mainKey ∧ hasKey s a = true ∨
      hasKey s a = false ∧ slugKey s (slugify tables a) = some mainKey
  else
    a = b ∨
    -- Neither is a key, and they have one slug, or the second is the key that the first is given.
    hasKey s a = false ∧ hasKey s b = false ∧ slugify tables a = slugify tables b ∨
    hasKey s a = false ∧ slugKey s (slugify tables a) = none ∧ b = freeKey s (slugify tables a) ∨
    -- One is a key, and the other has the slug of its chat.
    hasKey s a = true ∧ hasKey s b = false ∧ slugKey s (slugify tables b) = some a ∨
    hasKey s a = false ∧ hasKey s b = true ∧ slugKey s (slugify tables a) = some b

/-! ### What changes of the registry keep -/

theorem hasKey_iff {key : JsString} : hasKey s key = true ↔ key ∈ s.rows.map Chat.key := by
  rw [hasKey, Option.isSome_iff_ne_none, ne_eq, Table.find?_eq_none, not_not]

theorem hasKey_change {f : Chat → Chat} (hf : ∀ c, (f c).key = c.key) (key key' : JsString) :
    hasKey (change s key f hf) key' = hasKey s key' := by
  rw [hasKey, change, Table.find?_updateWhere, Option.isSome_map, hasKey]

/-- What no change of slugs can tell apart. -/
theorem slugKey_change {f : Chat → Chat} (hf : ∀ c, (f c).key = c.key)
    (hslug : ∀ c, (f c).slug = c.slug) (key slug : JsString) :
    slugKey (change s key f hf) slug = slugKey s slug := by
  have hsame : ((fun c : Chat => decide (c.slug = slug)) ∘ fun c => if c.key = key then f c else c) =
      fun c => decide (c.slug = slug) := by
    funext c
    rw [Function.comp_apply]
    split
    · rw [hslug]
    · rfl
  have hrows : (change s key f hf).rows = s.rows.map fun c => if c.key = key then f c else c := by
    simp [change, Table.updateWhere]
  rw [slugKey, bySlug, hrows, List.find?_map, hsame, Option.map_map, slugKey, bySlug]
  refine congrArg (Option.map · _) (funext fun c => ?_)
  rw [Function.comp_apply]
  split
  · exact hf c
  · rfl

theorem hasKey_touch (key : JsString) (now : Nat) (key' : JsString) :
    hasKey (touch s key now) key' = hasKey s key' := by
  rw [touch, hasKey_change]

theorem slugKey_touch (key : JsString) (now : Nat) (slug : JsString) :
    slugKey (touch s key now) slug = slugKey s slug := by
  rw [touch, slugKey_change]
  intro c
  rfl

theorem hasKey_put {chat : Chat} (key : JsString) :
    hasKey (s.put chat) key = (decide (chat.key = key) || hasKey s key) := by
  rw [hasKey, Table.find?_put, hasKey]
  split
  · rename_i h
    simp [h]
  · rename_i h
    simp [h]

theorem slugKey_put {chat : Chat} (hfree : hasKey s chat.key = false) (slug : JsString) :
    slugKey (s.put chat) slug =
      (slugKey s slug).or (if chat.slug = slug then some chat.key else none) := by
  have hnone : s.find? chat.key = none := by
    rw [hasKey, Option.isSome_eq_false_iff] at hfree
    exact Option.isNone_iff_eq_none.mp hfree
  rw [slugKey, bySlug, Table.rows_put_of_none hnone, List.find?_append, Option.map_or, slugKey, bySlug]
  congr 1
  by_cases hslug : chat.slug = slug <;> simp [hslug]

theorem numeral_injective : Function.Injective numeral := by
  intro n m h
  have hdecoded := congrArg decode? h
  rw [numeral, numeral, decode?_utf16, decode?_utf16, String.toList_ofList, String.toList_ofList]
    at hdecoded
  exact decimal_injective (Option.some.inj hdecoded)

theorem candidates_injective (slug : JsString) : Function.Injective (candidates slug) := by
  intro n m h
  cases n with
  | zero =>
    cases m with
    | zero => rfl
    | succ m =>
      have hlength := congrArg List.length h
      simp [candidates, chatKeyForSlug, numbered] at hlength
  | succ n =>
    cases m with
    | zero =>
      have hlength := congrArg List.length h
      simp [candidates, chatKeyForSlug, numbered] at hlength
    | succ m =>
      have hsuffix := List.append_cancel_left (List.append_cancel_left h)
      have hnumber := numeral_injective (List.cons.inj hsuffix).2
      omega

/-- A chat that is made has a key of its own. -/
theorem hasKey_freeKey (slug : JsString) : hasKey s (freeKey s slug) = false := by
  cases hfind : ((List.range (s.rows.length + 1)).map (candidates slug)).find?
      (fun key => !hasKey s key) with
  | some key =>
    rw [freeKey, hfind, Option.getD_some]
    simpa using List.find?_some hfind
  | none =>
    -- More keys than there are chats would be taken.
    rw [List.find?_eq_none] at hfind
    have hsub : ((List.range (s.rows.length + 1)).map (candidates slug)) ⊆ s.rows.map Chat.key := by
      intro key hkey
      have htaken := hfind key hkey
      exact hasKey_iff.mp (by simpa using htaken)
    have hnodup : ((List.range (s.rows.length + 1)).map (candidates slug)).Nodup :=
      List.nodup_range.map (candidates_injective slug)
    have hlength := (List.subperm_of_subset hnodup hsub).length_le
    simp only [List.length_map, List.length_range] at hlength
    omega

theorem hasKey_of_slugKey {slug key : JsString} (h : slugKey s slug = some key) :
    hasKey s key = true := by
  obtain ⟨c, hc, rfl⟩ := Option.map_eq_some_iff.mp h
  exact hasKey_iff.mpr (List.mem_map_of_mem (List.mem_of_find?_eq_some hc))

/-! ### What a name leads to -/

/-- How a name leads to the chat with a key, and what keys and slugs there are then. -/
inductive LeadsTo (tables : CaseTables) (s : ChatRegistry) (x : JsString) :
    JsString → ChatRegistry → Prop
  | blank {s' : ChatRegistry} : trim x = [] →
      (∀ key, hasKey s' key = (decide (mainKey = key) || hasKey s key)) →
      (∀ slug, slugKey s' slug = (slugKey s slug).or
        (if hasKey s mainKey = false ∧ (registerNames tables s mainKey none).2 = slug then
          some mainKey else none)) →
      LeadsTo tables s x mainKey s'
  | byKey {s' : ChatRegistry} : trim x ≠ [] → hasKey s (trim x) = true →
      (∀ key, hasKey s' key = hasKey s key) → (∀ slug, slugKey s' slug = slugKey s slug) →
      LeadsTo tables s x (trim x) s'
  | bySlug {s' : ChatRegistry} {k : JsString} : trim x ≠ [] → hasKey s (trim x) = false →
      slugKey s (slugify tables (trim x)) = some k →
      (∀ key, hasKey s' key = hasKey s key) → (∀ slug, slugKey s' slug = slugKey s slug) →
      LeadsTo tables s x k s'
  | created {s' : ChatRegistry} : trim x ≠ [] → hasKey s (trim x) = false →
      slugKey s (slugify tables (trim x)) = none →
      (∀ key, hasKey s' key =
        (decide (freeKey s (slugify tables (trim x)) = key) || hasKey s key)) →
      (∀ slug, slugKey s' slug = (slugKey s slug).or
        (if slugify tables (trim x) = slug then some (freeKey s (slugify tables (trim x)))
          else none)) →
      LeadsTo tables s x (freeKey s (slugify tables (trim x))) s'

theorem register_mainKey (now : Nat) :
    (register tables s mainKey none none now).1.key = mainKey ∧
      (∀ key, hasKey (register tables s mainKey none none now).2 key =
        (decide (mainKey = key) || hasKey s key)) ∧
      ∀ slug, slugKey (register tables s mainKey none none now).2 slug = (slugKey s slug).or
        (if hasKey s mainKey = false ∧ (registerNames tables s mainKey none).2 = slug then
          some mainKey else none) := by
  rw [register]
  cases hfind : s.find? mainKey with
  | some existing =>
    have htaken : hasKey s mainKey = true := by rw [hasKey, hfind, Option.isSome_some]
    have hkey : existing.key = mainKey := Table.key_of_find? hfind
    refine ⟨hkey, fun key => ?_, fun slug => ?_⟩
    · rw [hasKey_touch]
      by_cases hkey : mainKey = key
      · subst hkey
        simp [htaken]
      · simp [hkey]
    · rw [slugKey_touch, htaken]
      simp
  | none =>
    have hfree : hasKey s mainKey = false := by rw [hasKey, hfind, Option.isSome_none]
    refine ⟨rfl, fun key => hasKey_put key, fun slug => ?_⟩
    refine (slugKey_put hfree slug).trans ?_
    rw [hfree]
    simp [newChat]

theorem leadsTo_of_resolveOrCreate {x : JsString} {now : Nat} {c : Chat} {s' : ChatRegistry}
    (h : resolveOrCreate tables s x now = .ok (c, s')) : LeadsTo tables s x c.key s' := by
  rw [resolveOrCreate] at h
  dsimp only at h
  split at h
  · rename_i hblank
    obtain ⟨hkey, hkeys, hslugs⟩ := @register_mainKey tables s now
    have hresult : register tables s mainKey none none now = (c, s') := Except.ok.inj h
    rw [hresult] at hkey hkeys hslugs
    rw [hkey]
    exact .blank hblank hkeys hslugs
  · rename_i hraw
    split at h
    · rename_i byKey hfind
      obtain ⟨rfl, rfl⟩ := Prod.mk.inj (Except.ok.inj h)
      have hkey : byKey.key = trim x := Table.key_of_find? hfind
      change LeadsTo tables s x byKey.key _
      rw [hkey]
      refine .byKey hraw ?_ (hasKey_touch _ _) (slugKey_touch _ _)
      rw [hasKey, hfind, Option.isSome_some]
    · rename_i hfind
      have hfree : hasKey s (trim x) = false := by rw [hasKey, hfind, Option.isSome_none]
      split at h
      · rename_i found hslug
        obtain ⟨rfl, rfl⟩ := Prod.mk.inj (Except.ok.inj h)
        refine .bySlug hraw hfree ?_ (hasKey_touch _ _) (slugKey_touch _ _)
        rw [slugKey, hslug, Option.map_some]
      · rename_i hslug
        split at h
        · cases h
        · obtain ⟨rfl, rfl⟩ := Prod.mk.inj (Except.ok.inj h)
          refine .created hraw hfree ?_ (fun key => hasKey_put key)
            fun slug => slugKey_put (hasKey_freeKey _) slug
          rw [slugKey, hslug, Option.map_none]

/-- When a name leads to a chat that is there. -/
theorem LeadsTo.key_eq_iff {y k key : JsString} {s' : ChatRegistry} (h : LeadsTo tables s y k s')
    (hkey : hasKey s key = true) :
    k = key ↔ if trim y = [] then key = mainKey else trim y = key ∨
      hasKey s (trim y) = false ∧ slugKey s (slugify tables (trim y)) = some key := by
  have hother : hasKey s (trim y) = false → trim y ≠ key := by
    rintro hfree rfl
    rw [hkey] at hfree
    cases hfree
  cases h with
  | blank hblank => rw [if_pos hblank, eq_comm]
  | byKey hraw htaken =>
    rw [if_neg hraw, htaken]
    simp
  | bySlug hraw hfree hslug =>
    rw [if_neg hraw, hslug, Option.some.injEq]
    simp [hfree, hother hfree]
  | created hraw hfree hslug =>
    rw [if_neg hraw, hslug]
    have hne : freeKey s (slugify tables (trim y)) ≠ key := by
      rintro rfl
      rw [hasKey_freeKey] at hkey
      cases hkey
    simp [hother hfree, hne]

/-- A chat has one slug. -/
theorem slugKey_unique {slug slug' key : JsString} (h : slugKey s slug = some key)
    (h' : slugKey s slug' = some key) : slug = slug' := by
  obtain ⟨c, hc, hkey⟩ := Option.map_eq_some_iff.mp h
  obtain ⟨c', hc', hkey'⟩ := Option.map_eq_some_iff.mp h'
  have hsame : c = c' := Table.eq_of_key (List.mem_of_find?_eq_some hc)
    (List.mem_of_find?_eq_some hc') (hkey.trans hkey'.symm)
  have hslug : decide (c.slug = slug) = true :=
    List.find?_some (p := fun c : Chat => decide (c.slug = slug)) hc
  have hslug' : decide (c'.slug = slug') = true :=
    List.find?_some (p := fun c : Chat => decide (c.slug = slug')) hc'
  rw [← of_decide_eq_true hslug, ← of_decide_eq_true hslug', hsame]

/-- A new chat is not the original conversation. -/
theorem freeKey_ne_mainKey (slug : JsString) : freeKey s slug ≠ mainKey := by
  have hchat : ∃ rest, freeKey s slug = 99 :: rest := by
    rw [freeKey]
    cases hfind : ((List.range (s.rows.length + 1)).map (candidates slug)).find?
        (fun key => !hasKey s key) with
    | none => exact ⟨_, rfl⟩
    | some key =>
      obtain ⟨n, -, rfl⟩ := List.mem_map.mp (List.mem_of_find?_eq_some hfind)
      cases n <;> exact ⟨_, rfl⟩
  obtain ⟨rest, hrest⟩ := hchat
  rw [hrest]
  intro h
  exact absurd (List.cons.inj h).1 (by decide)

theorem LeadsTo.sameChat_iff {x y k k' : JsString} {s' s'' : ChatRegistry}
    (hx : LeadsTo tables s x k s') (hy : LeadsTo tables s' y k' s'') :
    k' = k ↔ SameChat tables s x y := by
  cases hx with
  | blank hblank hkeys hslugs =>
    have hmain : hasKey s' mainKey = true := by rw [hkeys, decide_eq_true rfl, Bool.true_or]
    rw [hy.key_eq_iff hmain, SameChat, if_pos hblank, hkeys, hslugs]
    by_cases hb : trim y = []
    · simp [hb]
    · by_cases hkey : trim y = mainKey
      · simp [hkey]
      · have hcomm := @eq_comm _ (registerNames tables s mainKey none).2 (slugify tables (trim y))
        cases slugKey s (slugify tables (trim y)) <;> simp [hb, hkey, Ne.symm hkey, hcomm]
  | byKey hraw htaken hkeys hslugs =>
    rw [hy.key_eq_iff ((hkeys _).trans htaken), SameChat, if_neg hraw, hkeys, hslugs, htaken]
    by_cases hb : trim y = []
    · simp [hb]
    · simp [hb, @eq_comm _ (trim y)]
  | bySlug hraw hfree hslug hkeys hslugs =>
    have hkey := hasKey_of_slugKey hslug
    rw [hy.key_eq_iff ((hkeys _).trans hkey), SameChat, if_neg hraw, hkeys, hslugs, hfree, hslug]
    by_cases hb : trim y = []
    · simp [hb]
    · rw [if_neg hb, if_neg hb]
      constructor
      · rintro (rfl | ⟨hfree', hslug'⟩)
        · exact .inr (.inr (.inr (.inr ⟨rfl, hkey, rfl⟩)))
        · exact .inr (.inl ⟨rfl, hfree', slugKey_unique hslug hslug'⟩)
      · rintro (heq | ⟨-, hfree', heq⟩ | ⟨-, hnone, -⟩ | ⟨hfalse, -⟩ | ⟨-, -, heq⟩)
        · rw [← heq]
          exact .inr ⟨hfree, hslug⟩
        · rw [← heq]
          exact .inr ⟨hfree', hslug⟩
        · cases hnone
        · cases hfalse
        · exact .inl (Option.some.inj heq).symm
  | created hraw hfree hslug hkeys hslugs =>
    have hnew : hasKey s' (freeKey s (slugify tables (trim x))) = true := by
      rw [hkeys, decide_eq_true rfl, Bool.true_or]
    rw [hy.key_eq_iff hnew, SameChat, if_neg hraw, hkeys, hslugs, hfree, hslug]
    by_cases hb : trim y = []
    · simp [hb, freeKey_ne_mainKey]
    · rw [if_neg hb, if_neg hb]
      constructor
      · rintro (heq | ⟨hfree', hslug'⟩)
        · exact .inr (.inr (.inl ⟨rfl, rfl, heq⟩))
        · rw [Bool.or_eq_false_iff] at hfree'
          refine .inr (.inl ⟨rfl, hfree'.2, ?_⟩)
          cases hfound : slugKey s (slugify tables (trim y)) with
          | some key =>
            rw [hfound] at hslug'
            obtain rfl := Option.some.inj hslug'
            have htaken := hasKey_of_slugKey hfound
            rw [hasKey_freeKey] at htaken
            cases htaken
          | none =>
            rw [hfound, Option.none_or] at hslug'
            by_contra hne
            rw [if_neg hne] at hslug'
            cases hslug'
      · -- The slug that was new is that of the new chat.
        have hsame : hasKey s (trim y) = false → slugify tables (trim x) = slugify tables (trim y) →
            trim y = freeKey s (slugify tables (trim x)) ∨
              (decide (freeKey s (slugify tables (trim x)) = trim y) || hasKey s (trim y)) = false ∧
                (slugKey s (slugify tables (trim y))).or
                  (if slugify tables (trim x) = slugify tables (trim y) then
                    some (freeKey s (slugify tables (trim x))) else none) =
                  some (freeKey s (slugify tables (trim x))) := by
          intro hfree' heq
          by_cases hkey : trim y = freeKey s (slugify tables (trim x))
          · exact .inl hkey
          · refine .inr ⟨?_, ?_⟩
            · rw [hfree', Bool.or_false, decide_eq_false (Ne.symm hkey)]
            · rw [if_pos heq, ← heq, hslug, Option.none_or]
        rintro (heq | ⟨-, hfree', heq⟩ | ⟨-, -, heq⟩ | ⟨hfalse, -⟩ | ⟨-, -, hnone⟩)
        · exact hsame (heq ▸ hfree) (heq ▸ rfl)
        · exact hsame hfree' heq
        · exact .inl heq
        · cases hfalse
        · cases hnone

/-- Two names lead to different chats, from whatever registry, if and only if they do not name one
chat. -/
theorem different_chats_iff (tables : CaseTables) (s s' s'' : ChatRegistry) (x y : JsString)
    (now now' : Nat) (c d : Chat) (hx : resolveOrCreate tables s x now = .ok (c, s'))
    (hy : resolveOrCreate tables s' y now' = .ok (d, s'')) :
    c.key ≠ d.key ↔ ¬ SameChat tables s x y := by
  rw [ne_comm, ne_eq, (leadsTo_of_resolveOrCreate hx).sameChat_iff (leadsTo_of_resolveOrCreate hy)]

/-! ### Names of one script and of another -/

/-- The chat that a new name makes. -/
def chatOf (key name : String) : Chat :=
  newChat (utf16 key) (utf16 name) (slugify .ascii (utf16 name)) (utf16 "osmoda") 0

/-- Two names in Latin letters. -/
theorem alpha_beta : (chatOf "chat-alpha" "alpha").key ≠ (chatOf "chat-beta" "beta").key ↔
    ¬ SameChat .ascii .empty (utf16 "alpha") (utf16 "beta") :=
  different_chats_iff .ascii .empty (Table.put .empty (chatOf "chat-alpha" "alpha")) _ _ _ 0 0 _ _
    rfl rfl

/-- Its letters and digits, whatever their case. -/
def lettersAndDigits (tables : CaseTables) (isLetterOrDigit : UInt16 → Bool) (name : JsString) :
    JsString :=
  (tables.toLowerCase name).filter isLetterOrDigit

/-- Letters and digits of ASCII, and Cyrillic letters. -/
def isCyrillicOrAscii (a : UInt16) : Bool :=
  isSlugUnit a || (65 ≤ a && a ≤ 90) || (0x400 ≤ a && a ≤ 0x4FF)

/-- Two names in Cyrillic letters lead to one chat. -/
theorem cyrillic_names_share :
    ¬ ∀ (s s' s'' : ChatRegistry) (x y : JsString) (now now' : Nat) (c d : Chat),
      lettersAndDigits .ascii isCyrillicOrAscii x ≠ lettersAndDigits .ascii isCyrillicOrAscii y →
      resolveOrCreate .ascii s x now = .ok (c, s') →
      resolveOrCreate .ascii s' y now' = .ok (d, s'') → c.key ≠ d.key := by
  intro h
  refine h .empty _ _ (utf16 "проект") (utf16 "заметки") 0 0 (chatOf "chat-chat" "проект")
    (chatOf "chat-chat" "проект") ?_ rfl rfl rfl
  decide +kernel

end ChatRegistry

end OsModa.Gateway
