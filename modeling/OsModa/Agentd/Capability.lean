import OsModa.Base.Time
import OsModa.Agentd.Ledger

/-!
agentd's capability tokens: `mint_capability` signs who may do what and until when
with HMAC-SHA256, and `verify_capability` recomputes the code from a presented token.

HMAC-SHA256 and chrono's parser of RFC 3339 are parameters. That the code cannot be
forged is taken as the usual game says it: nobody presents the code of a text that
the engine has not signed (`Forged`). What a token then proves depends on the text
alone, four fields joined by `|` of which the third is a list joined by `,`.

Main result: a presented token is one of the minted ones exactly when every minted
token that is still live can be read back from its text in one way
(`unforgeable_iff_plain`).
-/

namespace OsModa.Agentd

open OsModa.Encoding

/-! ### Identifiers -/

/-- The 16 bytes that `Uuid::new_v4` draws. -/
abbrev Uuid := { bytes : List UInt8 // bytes.length = 16 }

/-- `Uuid::to_string`: hexadecimal groups of 4, 2, 2, 2 and 6 bytes. -/
def Uuid.text (id : Uuid) : String :=
  String.ofList (hexEncode (id.val.take 4) ++ '-' :: (hexEncode ((id.val.drop 4).take 2) ++ '-' ::
    (hexEncode ((id.val.drop 6).take 2) ++ '-' :: (hexEncode ((id.val.drop 8).take 2) ++ '-' ::
      hexEncode (id.val.drop 10)))))

/-! ### Tokens -/

/-- A capability token that grants specific permissions to a sandboxed process. -/
structure CapabilityToken where
  id : String
  grantedTo : String
  permissions : List String
  createdAt : String
  expiresAt : String
  signature : String
  deriving DecidableEq, Repr

/-- `permissions.join(",")`. -/
def joinPermissions (permissions : List String) : List Char :=
  [','].intercalate (permissions.map String.toList)

/-- The signed text. -/
def signInput (id grantedTo : String) (permissions : List String) (expiresAt : String) : List Char :=
  id.toList ++ '|' :: (grantedTo.toList ++ '|' ::
    (joinPermissions permissions ++ '|' :: expiresAt.toList))

def CapabilityToken.signInput (t : CapabilityToken) : List Char :=
  Agentd.signInput t.id t.grantedTo t.permissions t.expiresAt

/-- What one request to mint is given, with the identifier it draws and the clock
reading it takes. -/
structure MintCall where
  now : DateTime
  id : Uuid
  grantedTo : String
  permissions : List String
  ttlSecs : UInt64

section Engine

variable (hmacSha256 : List UInt8 → List UInt8 → List UInt8)
  (parseRfc3339 : String → Option DateTime) (hmacKey : Bytes32)

/-- HMAC-SHA256 of a string, in hexadecimal. -/
def hmacSign (input : List Char) : String :=
  String.ofList (hexEncode (hmacSha256 hmacKey.val (utf8 input)))

/-- Mint a capability token; `none` where the expiry is out of range, so that
chrono panics. -/
def mintCapability (call : MintCall) : Option CapabilityToken :=
  (call.now.addSeconds call.ttlSecs.toInt64.toInt).map fun expiry =>
    let expiresAt := expiry.toRfc3339
    ⟨call.id.text, call.grantedTo, call.permissions, call.now.toRfc3339, expiresAt,
      hmacSign hmacSha256 hmacKey
        (signInput call.id.text call.grantedTo call.permissions expiresAt)⟩

/-- Verify a capability token's signature and expiry. -/
def verifyCapability (now : DateTime) (token : CapabilityToken) : Except String Bool :=
  match parseRfc3339 token.expiresAt with
  | none => .error "invalid expires_at timestamp"
  | some expires =>
    if expires < now then .ok false
    else .ok (hmacSign hmacSha256 hmacKey token.signInput == token.signature)

/-- The tokens of a run of requests. -/
def mintAll (calls : List MintCall) : List CapabilityToken :=
  calls.filterMap (mintCapability hmacSha256 hmacKey)

/-! ### What acceptance should mean -/

/-- The token carries the code of a text that none of the minted tokens was signed
with. -/
def Forged (minted : List CapabilityToken) (t : CapabilityToken) : Prop :=
  hmacSign hmacSha256 hmacKey t.signInput = t.signature ∧ ∀ m ∈ minted, m.signInput ≠ t.signInput

/-- An accepted token that is no forgery was minted, with this identifier, grantee,
list of permissions and expiry. -/
def Unforgeable (now : DateTime) (minted : List CapabilityToken) : Prop :=
  ∀ t, ¬ Forged hmacSha256 hmacKey minted t →
    verifyCapability hmacSha256 parseRfc3339 hmacKey now t = .ok true →
    ∃ m ∈ minted, m.id = t.id ∧ m.grantedTo = t.grantedTo ∧ m.permissions = t.permissions ∧
      m.expiresAt = t.expiresAt

end Engine

/-- The expiry can be read and has not passed. -/
def Live (parseRfc3339 : String → Option DateTime) (now : DateTime) (m : CapabilityToken) : Prop :=
  ∃ expires, parseRfc3339 m.expiresAt = some expires ∧ ¬ expires < now

/-- The grantee is free of `|`, and there is exactly one permission, not empty and
free of both separators. -/
def Plain (m : CapabilityToken) : Prop :=
  '|' ∉ m.grantedTo.toList ∧
    ∃ p, m.permissions = [p] ∧ p ≠ "" ∧ ',' ∉ p.toList ∧ '|' ∉ p.toList

/-! ### The fields that the engine writes -/

theorem not_mem_hexEncode {c : Char} (hc : c.isAlphanum = false) (bytes : List UInt8) :
    c ∉ hexEncode bytes := by
  intro h
  have := isAlphanum_of_mem_hexEncode h
  rw [hc] at this
  cases this

theorem pipe_not_mem_uuid (id : Uuid) : '|' ∉ id.text.toList := by
  have hhex : ∀ bytes, '|' ∉ hexEncode bytes := not_mem_hexEncode (by decide)
  have hdash : '|' ≠ '-' := by decide
  simp [Uuid.text, hhex, hdash]

theorem pipe_not_mem_padded (width n : Nat) : '|' ∉ (DateTime.padded width n).toList := by
  have hdigits : '|' ∉ Nat.toDigits 10 n := by
    intro h
    have hdigit : ('|' : Char).isDigit = true := isDigit_of_mem_decimal h
    revert hdigit
    decide
  have hzero : '|' ≠ '0' := by decide
  simp [DateTime.padded, hdigits, hzero]

theorem pipe_not_mem_yearText (year : Int) : '|' ∉ (DateTime.yearText year).toList := by
  have hpad := pipe_not_mem_padded
  unfold DateTime.yearText
  split_ifs <;> simp [hpad]

theorem pipe_not_mem_subsecText (nano : Nat) : '|' ∉ (DateTime.subsecText nano).toList := by
  have hpad := pipe_not_mem_padded
  unfold DateTime.subsecText
  split_ifs <;> simp [hpad]

theorem pipe_not_mem_toRfc3339 (t : DateTime) : '|' ∉ t.toRfc3339.toList := by
  simp [DateTime.toRfc3339, pipe_not_mem_padded, pipe_not_mem_yearText, pipe_not_mem_subsecText]

/-! ### Reading a signed text back -/

@[simp] theorem joinPermissions_singleton (p : String) : joinPermissions [p] = p.toList := by
  simp [joinPermissions]

/-- A nonempty text without commas is the joined form of one list only. -/
theorem eq_singleton_of_join {permissions : List String} {p : String} (hne : p ≠ "")
    (hcomma : ',' ∉ p.toList) (h : joinPermissions permissions = p.toList) : permissions = [p] := by
  match permissions with
  | [] =>
    have hnil : p.toList = [] := h.symm
    exact absurd (String.toList_eq_nil_iff.mp hnil) hne
  | [q] =>
    have hq : q.toList = p.toList := by simpa [joinPermissions] using h
    rw [String.toList_inj.mp hq]
  | q :: r :: rest =>
    refine absurd ?_ hcomma
    rw [← h]
    simp [joinPermissions, List.intercalate]

/-- Every other list has a joined form that another list shares. -/
theorem exists_same_join {permissions : List String}
    (h : ¬ ∃ p, permissions = [p] ∧ p ≠ "" ∧ ',' ∉ p.toList) :
    ∃ others, others ≠ permissions ∧ joinPermissions others = joinPermissions permissions := by
  match permissions with
  | [] => exact ⟨[""], by simp, by simp [joinPermissions]⟩
  | [p] =>
    by_cases hempty : p = ""
    · exact ⟨[], by simp, by simp [joinPermissions, hempty]⟩
    · have hcomma : ',' ∈ p.toList := by
        by_contra hno
        exact h ⟨p, rfl, hempty, hno⟩
      obtain ⟨a, b, hab⟩ := List.append_of_mem hcomma
      refine ⟨[String.ofList a, String.ofList b], by simp, ?_⟩
      simp [joinPermissions, List.intercalate, List.intersperse, hab]
  | q :: r :: rest =>
    exact ⟨[String.ofList (joinPermissions (q :: r :: rest))], by simp, by simp [joinPermissions]⟩

/-- A text with two separators splits into three. -/
theorem exists_three_parts {g j : List Char} (h : '|' ∈ g ∨ '|' ∈ j) :
    ∃ x y z, g ++ '|' :: j = x ++ '|' :: (y ++ '|' :: z) := by
  rcases h with h | h
  · obtain ⟨a, b, rfl⟩ := List.append_of_mem h
    exact ⟨a, b, j, by simp⟩
  · obtain ⟨a, b, rfl⟩ := List.append_of_mem h
    exact ⟨g, a, b, rfl⟩

/-- The expiry is what follows the last separator. -/
theorem expiresAt_eq_of_signInput {m t : CapabilityToken} (hm : '|' ∉ m.expiresAt.toList)
    (ht : '|' ∉ t.expiresAt.toList) (h : t.signInput = m.signInput) :
    t.expiresAt = m.expiresAt := by
  have hlast : ∀ c : CapabilityToken, c.signInput = (c.id.toList ++ '|' :: (c.grantedTo.toList ++
      '|' :: joinPermissions c.permissions)) ++ '|' :: c.expiresAt.toList := by
    intro c
    simp [CapabilityToken.signInput, signInput]
  rw [hlast, hlast] at h
  refine String.toList_inj.mp (append_sep_inj_right ?_ h).2
  rw [List.count_eq_zero_of_not_mem ht, List.count_eq_zero_of_not_mem hm]

/-- A plain token is the only reading of its text. -/
theorem Plain.eq_of_signInput {m t : CapabilityToken} (hm : Plain m) (hid : '|' ∉ m.id.toList)
    (hexp : '|' ∉ m.expiresAt.toList) (h : t.signInput = m.signInput) :
    m.id = t.id ∧ m.grantedTo = t.grantedTo ∧ m.permissions = t.permissions ∧
      m.expiresAt = t.expiresAt := by
  obtain ⟨hto, p, hperms, hne, hcomma, hp⟩ := hm
  have hjoin : joinPermissions m.permissions = p.toList := by simp [hperms, joinPermissions]
  have hcount : ∀ s : List Char, '|' ∉ s → s.count '|' = 0 := fun s hs =>
    List.count_eq_zero_of_not_mem hs
  -- Three separators in all: none is left for the fields of the other reading.
  have htotal := congrArg (List.count '|') h
  unfold CapabilityToken.signInput signInput at h htotal
  rw [hjoin] at h htotal
  simp only [List.count_append, List.count_cons_self, hcount _ hid, hcount _ hto, hcount _ hp,
    hcount _ hexp] at htotal
  obtain ⟨h1, h⟩ := append_sep_inj (by rw [hcount _ hid]; omega) h
  obtain ⟨h2, h⟩ := append_sep_inj (by rw [hcount _ hto]; omega) h
  obtain ⟨h3, h4⟩ := append_sep_inj (by rw [hcount _ hp]; omega) h
  exact ⟨(String.toList_inj.mp h1).symm, (String.toList_inj.mp h2).symm,
    hperms.trans (eq_singleton_of_join hne hcomma h3).symm, (String.toList_inj.mp h4).symm⟩

section Engine

variable (hmacSha256 : List UInt8 → List UInt8 → List UInt8)
  (parseRfc3339 : String → Option DateTime) (hmacKey : Bytes32)

/-- What is known about a minted token. -/
theorem mintCapability_eq_some {call : MintCall} {m : CapabilityToken}
    (h : mintCapability hmacSha256 hmacKey call = some m) :
    m.id = call.id.text ∧ '|' ∉ m.expiresAt.toList ∧
      m.signature = hmacSign hmacSha256 hmacKey m.signInput := by
  obtain ⟨expiry, -, rfl⟩ := Option.map_eq_some_iff.mp h
  exact ⟨rfl, pipe_not_mem_toRfc3339 expiry, rfl⟩

/-- Tokens minted with different identifiers are determined by them. -/
theorem eq_of_id_eq {calls : List MintCall} (hids : (calls.map (·.id.text)).Nodup)
    {m m' : CapabilityToken} (hm : m ∈ mintAll hmacSha256 hmacKey calls)
    (hm' : m' ∈ mintAll hmacSha256 hmacKey calls) (h : m.id = m'.id) : m = m' := by
  obtain ⟨call, hcall, hmint⟩ := List.mem_filterMap.mp hm
  obtain ⟨call', hcall', hmint'⟩ := List.mem_filterMap.mp hm'
  have hid := (mintCapability_eq_some hmacSha256 hmacKey hmint).1
  have hid' := (mintCapability_eq_some hmacSha256 hmacKey hmint').1
  obtain rfl : call = call' := List.inj_on_of_nodup_map hids hcall hcall' (by rw [← hid, h, hid'])
  exact Option.some.inj (hmint.symm.trans hmint')

/-- What acceptance checks. -/
theorem verify_eq_ok_true {now : DateTime} {t : CapabilityToken}
    (h : verifyCapability hmacSha256 parseRfc3339 hmacKey now t = .ok true) :
    Live parseRfc3339 now t ∧ hmacSign hmacSha256 hmacKey t.signInput = t.signature := by
  unfold verifyCapability at h
  cases hparse : parseRfc3339 t.expiresAt with
  | none => simp [hparse] at h
  | some expires =>
    simp only [hparse] at h
    split at h
    · cases h
    · rename_i hlate
      exact ⟨⟨expires, hparse, hlate⟩, by simpa using h⟩

/-- A live token's text and code are accepted with any fields that give this text
and this expiry. -/
theorem verify_of_live {now : DateTime} {m t : CapabilityToken} (hlive : Live parseRfc3339 now m)
    (hsign : m.signature = hmacSign hmacSha256 hmacKey m.signInput)
    (htext : t.signInput = m.signInput) (hexp : t.expiresAt = m.expiresAt)
    (hcode : t.signature = m.signature) :
    verifyCapability hmacSha256 parseRfc3339 hmacKey now t = .ok true := by
  obtain ⟨expires, hparse, hlate⟩ := hlive
  simp [verifyCapability, hexp, hparse, hlate, htext, hcode, hsign]

/-- **Unforgeability.** With identifiers that do not repeat, the accepted tokens are
the minted ones exactly when every minted token that is live is plain. Of chrono's
parser this uses that no timestamp contains a `|`. -/
theorem unforgeable_iff_plain (hparse : ∀ s, '|' ∈ s.toList → parseRfc3339 s = none)
    (calls : List MintCall) (hids : (calls.map (·.id.text)).Nodup) (now : DateTime) :
    Unforgeable hmacSha256 parseRfc3339 hmacKey now (mintAll hmacSha256 hmacKey calls) ↔
      ∀ m ∈ mintAll hmacSha256 hmacKey calls, Live parseRfc3339 now m → Plain m := by
  constructor
  · intro hsound m hm hlive
    obtain ⟨call, -, hmint⟩ := List.mem_filterMap.mp hm
    obtain ⟨hid, -, hsign⟩ := mintCapability_eq_some hmacSha256 hmacKey hmint
    -- Another reading of the text is accepted, so it must be a minted token.
    have hother : ∀ t : CapabilityToken, t.signInput = m.signInput → t.expiresAt = m.expiresAt →
        t.signature = m.signature → ∃ m' ∈ mintAll hmacSha256 hmacKey calls,
          m'.id = t.id ∧ m'.permissions = t.permissions := by
      intro t htext hexp hcode
      obtain ⟨m', hm', hid', -, hperms, -⟩ := hsound t (fun hf => hf.2 m hm htext.symm)
        (verify_of_live hmacSha256 parseRfc3339 hmacKey hlive hsign htext hexp hcode)
      exact ⟨m', hm', hid', hperms⟩
    have hpipes : ¬ ('|' ∈ m.grantedTo.toList ∨ '|' ∈ joinPermissions m.permissions) := by
      intro hpipe
      obtain ⟨x, y, z, hxyz⟩ := exists_three_parts hpipe
      obtain ⟨m', hm', hid', -⟩ := hother ⟨String.ofList (m.id.toList ++ '|' :: x), String.ofList y,
        [String.ofList z], m.createdAt, m.expiresAt, m.signature⟩
        (by
          have hrest := congrArg (· ++ '|' :: m.expiresAt.toList) hxyz
          simp only [List.append_assoc, List.cons_append] at hrest
          simp [CapabilityToken.signInput, signInput, hrest, joinPermissions_singleton])
        rfl rfl
      obtain ⟨call', -, hmint'⟩ := List.mem_filterMap.mp hm'
      refine pipe_not_mem_uuid call'.id ?_
      rw [← (mintCapability_eq_some hmacSha256 hmacKey hmint').1, hid']
      simp
    rw [not_or] at hpipes
    refine ⟨hpipes.1, ?_⟩
    by_contra hnot
    have hmany : ¬ ∃ p, m.permissions = [p] ∧ p ≠ "" ∧ ',' ∉ p.toList := by
      rintro ⟨p, hp, hne, hcomma⟩
      exact hnot ⟨p, hp, hne, hcomma, by simpa [hp, joinPermissions] using hpipes.2⟩
    obtain ⟨others, hne, hjoin⟩ := exists_same_join hmany
    obtain ⟨m', hm', hid', hperms⟩ := hother { m with permissions := others }
      (by simp [CapabilityToken.signInput, signInput, hjoin]) rfl rfl
    obtain rfl : m' = m := eq_of_id_eq hmacSha256 hmacKey hids hm' hm hid'
    exact hne hperms.symm
  · intro hplain t hforged haccept
    obtain ⟨⟨expires, hexpires, hlate⟩, hcode⟩ :=
      verify_eq_ok_true hmacSha256 parseRfc3339 hmacKey haccept
    obtain ⟨m, hm, htext⟩ : ∃ m ∈ mintAll hmacSha256 hmacKey calls, m.signInput = t.signInput := by
      by_contra hnone
      exact hforged ⟨hcode, fun m hm h => hnone ⟨m, hm, h⟩⟩
    obtain ⟨call, -, hmint⟩ := List.mem_filterMap.mp hm
    obtain ⟨hid, hexp, -⟩ := mintCapability_eq_some hmacSha256 hmacKey hmint
    have hbare : '|' ∉ t.expiresAt.toList := by
      intro hpipe
      rw [hparse _ hpipe] at hexpires
      cases hexpires
    have hsame := expiresAt_eq_of_signInput hexp hbare htext.symm
    have hlive : Live parseRfc3339 now m := ⟨expires, hsame ▸ hexpires, hlate⟩
    exact ⟨m, hm, (hplain m hm hlive).eq_of_signInput (hid ▸ pipe_not_mem_uuid call.id) hexp
      htext.symm⟩

end Engine

/-! ### A permission with a comma in it -/

/-- A request made at time 0, for an hour. -/
def mintAtZero (permissions : List String) : MintCall where
  now := ⟨0, DateTime.zero_inRange⟩
  id := ⟨[0, 0, 0, 0, 0, 0, 0x40, 0, 0x80, 0, 0, 0, 0, 0, 0, 0], rfl⟩
  grantedTo := "app"
  permissions := permissions
  ttlSecs := 3600

/-- HMAC-SHA256 under `testKey` on the two texts that are signed below, and no code
elsewhere. -/
def hmacOfMinted (_ : List UInt8) : List UInt8 → List UInt8 :=
  knownDigests
    [(utf8 "00000000-0000-4000-8000-000000000000|app|fs:/srv,network|1970-01-01T01:00:00+00:00".toList,
      [0xc1, 0xfc, 0xe0, 0x93, 0xfe, 0x67, 0x25, 0x2f, 0x22, 0x77, 0xc2, 0x14, 0x83, 0x59, 0x53,
       0x72, 0xcc, 0xd7, 0x12, 0x0a, 0xa1, 0x26, 0x44, 0xc4, 0x3c, 0xe9, 0x5c, 0x9c, 0x60, 0xdd,
       0xab, 0x3f]),
     (utf8 "00000000-0000-4000-8000-000000000000|app|network|1970-01-01T01:00:00+00:00".toList,
      [0x67, 0x57, 0x2c, 0xd6, 0x59, 0x63, 0x75, 0x14, 0xc2, 0xbc, 0x5d, 0xd5, 0x93, 0x66, 0x75,
       0xfd, 0x57, 0xb3, 0x2e, 0xb1, 0x23, 0xe7, 0x2e, 0xf7, 0x27, 0x63, 0xfe, 0x2f, 0x1d, 0xe1,
       0x5e, 0x95])]

/-- The key of the engine's tests. -/
def testKey : Bytes32 := ⟨List.replicate 32 42, rfl⟩

/-- chrono's reading of the one expiry that the requests above produce. -/
def parseOneHour (s : String) : Option DateTime :=
  if s = "1970-01-01T01:00:00+00:00" then some ⟨3600 * 1000000000, DateTime.hour_inRange⟩ else none

theorem parseOneHour_pipe (s : String) (h : '|' ∈ s.toList) : parseOneHour s = none := by
  unfold parseOneHour
  rw [if_neg]
  rintro rfl
  revert h
  decide

/-- A run that mints one plain permission is sound. -/
theorem mintNetwork_unforgeable :
    Unforgeable hmacOfMinted parseOneHour testKey ⟨0, by decide⟩
      (mintAll hmacOfMinted testKey [mintAtZero ["network"]]) := by
  refine (unforgeable_iff_plain hmacOfMinted parseOneHour testKey parseOneHour_pipe
    [mintAtZero ["network"]] (List.nodup_singleton _) ⟨0, by decide⟩).mpr ?_
  intro m hm _
  obtain ⟨call, hcall, hmint⟩ := List.mem_filterMap.mp hm
  obtain rfl := List.mem_singleton.mp hcall
  obtain ⟨expiry, -, rfl⟩ := Option.map_eq_some_iff.mp hmint
  have hgrantee : '|' ∉ "app".toList := by decide
  exact ⟨hgrantee, "network", rfl, by decide, by decide, by decide⟩

/-- A token minted for the one permission `fs:/srv,network` is accepted as a token
for the two permissions `fs:/srv` and `network`. -/
theorem splitPermission_accepted :
    ∃ m t : CapabilityToken,
      mintAll hmacOfMinted testKey [mintAtZero ["fs:/srv,network"]] = [m] ∧
      t = { m with permissions := ["fs:/srv", "network"] } ∧
      ¬ Forged hmacOfMinted testKey [m] t ∧
      verifyCapability hmacOfMinted parseOneHour testKey ⟨0, by decide⟩ t = .ok true ∧
      t.permissions ≠ m.permissions := by
  refine ⟨⟨"00000000-0000-4000-8000-000000000000", "app", ["fs:/srv,network"],
    "1970-01-01T00:00:00+00:00", "1970-01-01T01:00:00+00:00",
    "c1fce093fe67252f2277c21483595372ccd7120aa12644c43ce95c9c60ddab3f"⟩, _, ?_, rfl, ?_, ?_, ?_⟩
  · decide +kernel
  · exact fun h => h.2 _ List.mem_cons_self (by decide)
  · decide +kernel
  · decide

end OsModa.Agentd
