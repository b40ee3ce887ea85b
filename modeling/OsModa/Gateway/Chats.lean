import Mathlib.Data.List.Sort
import OsModa.Base.Js
import OsModa.Base.JsMap

/-!
The registry of the gateway's named chats.

A chat is its key: the half of the session key and the name of the transcript that frames carry.
A name leads to a chat by the key, if it is one, and by its slug otherwise; only a name that
leads nowhere makes a new chat.
-/

namespace OsModa.Gateway

open OsModa.Encoding OsModa.Js

structure Chat where
  /-- The chat's identity. -/
  key : JsString
  name : JsString
  /-- Slugified name (resolution handle). -/
  slug : JsString
  /-- Which agent owns this chat's transcript — for cross-channel awareness. -/
  agentId : JsString
  createdAt : Nat
  lastActive : Nat
  archived : Bool
  /-- Last-seen transcript seq of each peer chat. -/
  cursors : JsMap JsString Nat

abbrev ChatRegistry := Table Chat.key

def maxName : Nat := 60

/-- Cap the number of live (non-archived) chats per server. -/
def maxChats : Nat := 500

/-! ### Slugs -/

/-- `[a-z0-9]` -/
def isSlugUnit (a : UInt16) : Bool := (97 ≤ a && a ≤ 122) || (48 ≤ a && a ≤ 57)

/-- `replace(/[^a-z0-9]+/g, "-")`; `inRun` says that the unit before was replaced. -/
def dashFrom (inRun : Bool) : JsString → JsString
  | [] => []
  | a :: s =>
    if isSlugUnit a then a :: dashFrom false s
    else if inRun then dashFrom true s
    else 45 :: dashFrom true s

/-- `replace(/^-+|-+$/g, "")` -/
def trimDashes (s : JsString) : JsString :=
  ((s.dropWhile (· = 45)).reverse.dropWhile (· = 45)).reverse

/-- Lowercase, [a-z0-9-], collapsed/trimmed. -/
def slugify (tables : CaseTables) (name : JsString) : JsString :=
  let slug := (trimDashes (dashFrom false (trim (tables.toLowerCase name)))).take 48
  if slug = [] then utf16 "chat" else slug

/-- A brand-new named chat's sessionKey. -/
def chatKeyForSlug (slug : JsString) : JsString := utf16 "chat-" ++ slug

/-- Is this a legacy/canonical "main" key (pre-named-chats)? -/
def isLegacyMainKey (key : JsString) : Bool :=
  key = utf16 "ws-default" || (utf16 "spawn-").isPrefixOf key || key = utf16 "main" ||
    key = utf16 "chat-main"

/-- The text of a number. -/
def numeral (n : Nat) : JsString := utf16 (String.ofList (decimal n))

/-- A slug with a number. -/
def numbered (slug : JsString) (n : Nat) : JsString := slug ++ 45 :: numeral n

namespace ChatRegistry

variable (tables : CaseTables) (s : ChatRegistry)

/-! ### Lookup -/

def bySlug (slug : JsString) : Option Chat := s.rows.find? fun c => c.slug = slug

def hasMain : Bool := (bySlug s (utf16 "main")).isSome

def hasKey (key : JsString) : Bool := (s.find? key).isSome

/-- NON-MUTATING resolve: find an existing chat by exact key or slug. -/
def resolve (idOrName : JsString) : Option Chat :=
  let raw := trim idOrName
  if raw = [] then none else (s.find? raw).or (bySlug s (slugify tables raw))

/-! ### Changes of a chat -/

/-- A chat is changed where it is. -/
def change (key : JsString) (f : Chat → Chat) (hf : ∀ c, (f c).key = c.key) : ChatRegistry :=
  s.updateWhere (fun c => c.key = key) f hf

def touch (key : JsString) (now : Nat) : ChatRegistry :=
  change s key (fun c => { c with lastActive := now }) fun _ => rfl

def rename (key name : JsString) : ChatRegistry :=
  change s key (fun c => { c with name := (if name = [] then c.name else name).take maxName })
    fun _ => rfl

def setArchived (key : JsString) (archived : Bool) : ChatRegistry :=
  change s key (fun c => { c with archived := archived }) fun _ => rfl

/-- Cross-chat awareness cursor: last transcript seq of the peer that the chat has already been
shown; `none` stands for the sentinel -1. -/
def getCursor (chatKey peerKey : JsString) : Option Nat :=
  (s.find? chatKey).bind fun c => JsMap.get? c.cursors peerKey

/-- The property `__proto__` of an object does not take a number. -/
def setCursor (chatKey peerKey : JsString) (seq : Nat) : ChatRegistry :=
  if peerKey = utf16 "__proto__" then s
  else change s chatKey (fun c => { c with cursors := JsMap.set c.cursors peerKey seq }) fun _ => rfl

/-- Newest first; chats that were active at the same time stay in their order. -/
def list (includeArchived : Bool) : List Chat :=
  (s.rows.filter fun c => includeArchived || !c.archived).insertionSort
    fun a b => b.lastActive ≤ a.lastActive

/-! ### New chats -/

/-- A slug, or one with the number of the new chat if it is taken. -/
def deduped (slug : JsString) : JsString :=
  if (bySlug s slug).isSome then numbered slug (s.rows.length + 1) else slug

/-- Name and slug of a chat that is registered. -/
def registerNames (key : JsString) : Option JsString → JsString × JsString
  | some name => (name.take maxName, deduped s (slugify tables name))
  | none =>
    if isLegacyMainKey key && !hasMain s then (utf16 "Main", utf16 "main")
    else (key, deduped s (slugify tables key))

/-- A chat that has just been made. -/
def newChat (key name slug agentId : JsString) (now : Nat) : Chat :=
  ⟨key, name, slug, agentId, now, now, false, .empty⟩

/-- Lazily register a sessionKey. An option that is missing or empty is not there. -/
def register (key : JsString) (agentId name : Option JsString) (now : Nat) : Chat × ChatRegistry :=
  match s.find? key with
  | some existing => ({ existing with lastActive := now }, touch s key now)
  | none =>
    let (name, slug) := registerNames tables s key (name.filter (· ≠ []))
    let chat := newChat key name slug ((agentId.filter (· ≠ [])).getD (utf16 "osmoda")) now
    (chat, s.put chat)

/-- The keys that a slug is given in turn. -/
def candidates (slug : JsString) : Nat → JsString
  | 0 => chatKeyForSlug slug
  | n + 1 => chatKeyForSlug (numbered slug (n + 2))

/-- The first of them that is free; one is, before there are more than there are chats. -/
def freeKey (slug : JsString) : JsString :=
  (((List.range (s.rows.length + 1)).map (candidates slug)).find? fun key => !hasKey s key).getD
    (chatKeyForSlug slug)

/-- Resolve a chatId (which may be an exact key, a slug, or a display name) to a chat — creating
a new named chat if it doesn't exist yet. -/
def resolveOrCreate (idOrName : JsString) (now : Nat) : Except String (Chat × ChatRegistry) :=
  let raw := trim idOrName
  if raw = [] then .ok (register tables s (utf16 "ws-default") none none now)
  else
    match s.find? raw with
    -- 1) exact key
    | some byKey => .ok ({ byKey with lastActive := now }, touch s raw now)
    | none =>
      let slug := slugify tables raw
      match bySlug s slug with
      -- 2) by slug
      | some bySlugMatch => .ok ({ bySlugMatch with lastActive := now }, touch s bySlugMatch.key now)
      | none =>
        -- 3) create a new named chat — bounded by MAX_CHATS.
        if s.countWhere (fun c => !c.archived) ≥ maxChats then
          .error "chat limit reached (500); archive some chats first"
        else
          let chat := newChat (freeKey s slug) (raw.take maxName) slug (utf16 "osmoda") now
          .ok (chat, s.put chat)

end ChatRegistry

end OsModa.Gateway
