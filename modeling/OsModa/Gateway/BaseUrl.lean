import OsModa.Base.IpText
import OsModa.Base.Regex
import OsModa.Egress.Tunnel

/-!
Which hosts a credential probe may be sent to.

`isSafeBaseUrl` looks at the text of the host. The texts of the internal IPv4 addresses, of the
IPv6 loopback address and of the unique local addresses are among those that it rejects; those
of the unspecified IPv6 address, of the link-local ones and of mapped IPv4 addresses are not
(`isSafeBaseUrl_internal_iff`).

`new URL` is a parameter: any parser whose results have the hosts of the URL standard, where an
address is written by its serializer.
-/

namespace OsModa.Gateway

open OsModa.Net OsModa.Egress OsModa.Regex

/-! ### URLs -/

inductive UrlHost where
  | domain (text : List Char)
  | ipv4 (ip : Ipv4Addr)
  | ipv6 (ip : Ipv6Addr)

/-- What of a parsed URL the probe reads. -/
structure Url where
  protocol : String
  host : UrlHost

namespace Url

/-- `URL.prototype.hostname`. -/
def hostname (url : Url) : List Char :=
  match url.host with
  | .domain text => text
  | .ipv4 ip => ip.toText
  | .ipv6 ip => '[' :: ip.toText ++ [']']

/-- The address that the host is a literal of. -/
def address? (url : Url) : Option IpAddr :=
  match url.host with
  | .domain _ => none
  | .ipv4 ip => some (.v4 ip)
  | .ipv6 ip => some (.v6 ip)

end Url

/-! ### The check -/

/-- A literal text. -/
def literal (s : String) : Regex Char := .all (s.toList.map fun c => .one (· = c))

/-- A literal text under the flag `i`, given in lower case. -/
def literalI (s : String) : Regex Char := .all (s.toList.map fun c => .one (·.toLower = c))

def range (lo hi : Char) : Regex Char := .one fun c => lo ≤ c && c ≤ hi

/-- `\w`. -/
def isWordChar (c : Char) : Bool := c.isAlphanum || c = '_'

/-- Loopback, link-local, and the AWS/GCP metadata endpoint. -/
def restrictedPrefixes : List String :=
  ["localhost", "127.", "169.254.", "0.0.0.0", "::1", "[::1]", "[fc", "[fd",
    "metadata.google.internal", "169.254.169.254"]

def restrictedHost : Regex Char := .any (restrictedPrefixes.map literalI)

/-- The second octet of 172.16.0.0/12. -/
def secondOctet : Regex Char :=
  .any [.seq (literal "1") (range '6' '9'), .seq (literal "2") (range '0' '9'),
    .seq (literal "3") (range '0' '1')]

/-- RFC1918 by exact-prefix match on literal IPs. -/
def privateNetwork : Regex Char :=
  .any [literal "10.", literal "192.168.",
    .all [literal "172.", secondOctet, literal "."]]

def isSafeBaseUrl (newUrl : List Char → Option Url) (raw : List Char) : Except String Url :=
  match newUrl raw with
  | none => .error "invalid_url"
  | some url =>
    if url.protocol ≠ "https:" then .error "base_url must be https"
    else if restrictedHost.testStart isWordChar url.hostname then
      .error "base_url resolves to a restricted host"
    else if privateNetwork.testStart isWordChar url.hostname then
      .error "base_url resolves to a private network"
    else .ok url

/-! ### Texts that are rejected -/

section Texts

variable {s : String} {before : Option Char} {m rest text : List Char}

theorem matches_literal : Matches isWordChar (literal s) before m rest ↔ m = s.toList := by
  refine matches_all_one.trans ?_
  simp only [decide_eq_true_eq]
  rw [← List.forall₂_eq_eq_eq]
  exact ⟨fun h => h.flip, fun h => h.flip⟩

theorem matches_literalI :
    Matches isWordChar (literalI s) before m rest ↔ m.map Char.toLower = s.toList := by
  refine matches_all_one.trans ?_
  simp only [decide_eq_true_eq]
  rw [← List.forall₂_eq_eq_eq, List.forall₂_map_left_iff]
  exact ⟨fun h => h.flip, fun h => h.flip⟩

/-- A host is restricted if and only if it begins with one of these texts, up to case. -/
theorem restricted_iff : restrictedHost.testStart isWordChar text = true ↔
    ∃ s ∈ restrictedPrefixes, s.toList <+: text.map Char.toLower := by
  rw [testStart_iff]
  constructor
  · rintro ⟨m, y, rfl, hm⟩
    obtain ⟨r, hr, hm⟩ := matches_any.mp hm
    obtain ⟨s, hs, rfl⟩ := List.mem_map.mp hr
    refine ⟨s, hs, y.map Char.toLower, ?_⟩
    rw [List.map_append, matches_literalI.mp hm]
  · rintro ⟨s, hs, y, hy⟩
    obtain ⟨m, rest, htext, hm, -⟩ := List.map_eq_append_iff.mp hy.symm
    refine ⟨m, rest, htext, matches_any.mpr ⟨literalI s, List.mem_map_of_mem hs, ?_⟩⟩
    exact matches_literalI.mpr hm

theorem restricted_of_append (hs : s ∈ restrictedPrefixes) (htext : text = s.toList ++ rest) :
    restrictedHost.testStart isWordChar text = true := by
  have hlower : restrictedPrefixes.all fun s => s.toList.map Char.toLower = s.toList := by decide
  refine restricted_iff.mpr ⟨s, hs, rest.map Char.toLower, ?_⟩
  rw [htext, List.map_append, of_decide_eq_true (List.all_eq_true.mp hlower s hs)]

/-- A private network begins with the digit one. -/
theorem head_of_private (h : privateNetwork.testStart isWordChar text = true) :
    text.head? = some '1' := by
  obtain ⟨m, y, rfl, hm⟩ := testStart_iff.mp h
  obtain ⟨r, hr, hm⟩ := matches_any.mp hm
  simp only [List.mem_cons, List.not_mem_nil, or_false] at hr
  rcases hr with rfl | rfl | rfl
  · rw [matches_literal.mp hm]
    rfl
  · rw [matches_literal.mp hm]
    rfl
  · obtain ⟨_, m, rfl, hfirst, -⟩ := matches_all_cons.mp hm
    rw [matches_literal.mp hfirst]
    rfl

theorem private_of_append (hs : s ∈ ["10.", "192.168."]) (htext : text = s.toList ++ rest) :
    privateNetwork.testStart isWordChar text = true := by
  refine testStart_iff.mpr ⟨s.toList, rest, htext, matches_any.mpr ⟨literal s, ?_, ?_⟩⟩
  · rcases List.mem_pair.mp hs with rfl | rfl <;> simp
  · exact matches_literal.mpr rfl

theorem matches_literal_range {lo hi d : Char} (hd : lo ≤ d ∧ d ≤ hi) :
    Matches isWordChar (.seq (literal s) (range lo hi)) before (s.toList ++ [d]) rest :=
  ⟨s.toList, [d], rfl, matches_literal.mpr rfl, d, by simpa using hd, rfl⟩

theorem matches_secondOctet {n : Nat} (h : 16 ≤ n ∧ n ≤ 31) :
    Matches isWordChar secondOctet before (Nat.toDigits 10 n) rest := by
  have hdigits : Nat.toDigits 10 n = Nat.toDigits 10 (n / 10) ++ [Nat.digitChar (n % 10)] :=
    Nat.toDigits_of_base_le (Nat.lt_of_sub_eq_succ rfl) (by omega)
  have hdigit : ∀ k < 10, ('0' ≤ Nat.digitChar k ∧ Nat.digitChar k ≤ '9') ∧
      (6 ≤ k → '6' ≤ Nat.digitChar k) ∧ (k ≤ 1 → Nat.digitChar k ≤ '1') := by decide
  obtain ⟨⟨hzero, hnine⟩, hsix, hone⟩ := hdigit (n % 10) (Nat.mod_lt _ (Nat.succ_pos 9))
  have htens : n / 10 = 1 ∨ n / 10 = 2 ∨ n / 10 = 3 := by omega
  rw [hdigits, secondOctet, matches_any]
  rcases htens with htens | htens | htens <;> rw [htens]
  · exact ⟨_, List.mem_cons_self, matches_literal_range (s := "1") ⟨hsix (by omega), hnine⟩⟩
  · exact ⟨_, List.mem_cons_of_mem _ List.mem_cons_self,
      matches_literal_range (s := "2") ⟨hzero, hnine⟩⟩
  · exact ⟨_, List.mem_cons_of_mem _ (List.mem_cons_of_mem _ List.mem_cons_self),
      matches_literal_range (s := "3") ⟨hzero, hone (by omega)⟩⟩

theorem private_of_octet {n : Nat} (h : 16 ≤ n ∧ n ≤ 31)
    (htext : text = "172.".toList ++ (Nat.toDigits 10 n ++ '.' :: rest)) :
    privateNetwork.testStart isWordChar text = true := by
  refine testStart_iff.mpr ⟨"172.".toList ++ (Nat.toDigits 10 n ++ ".".toList), rest, ?_,
    matches_any.mpr ⟨.all [literal "172.", secondOctet, literal "."], by simp, ?_⟩⟩
  · rw [htext]
    simp
  · refine matches_all_cons.mpr ⟨_, _, rfl, matches_literal.mpr rfl, ?_⟩
    exact matches_all_cons.mpr ⟨_, _, rfl, matches_secondOctet h, matches_literal.mpr rfl⟩

end Texts

/-! ### Addresses -/

/-- The two tests of the host. -/
def rejectsHost (text : List Char) : Bool :=
  restrictedHost.testStart isWordChar text || privateNetwork.testStart isWordChar text

/-- The internal addresses whose texts begin with none of the texts that are rejected. -/
def Unfiltered : IpAddr → Prop
  | .v4 _ => False
  | .v6 ip =>
    Ipv6Addr.unspecifiedBlock.Contains ip.value ∨ Ipv6Addr.linkLocalBlock.Contains ip.value ∨
      ∃ v4, InternalV4 v4 ∧ ip = Ipv6Addr.mapped v4

theorem rejects_v4 {ip : Ipv4Addr} (h : InternalV4 ip) : rejectsHost ip.toText = true := by
  obtain ⟨a, b, c, d⟩ := ip
  unfold InternalV4 at h
  rw [← Ipv4Addr.isLoopback_iff, ← Ipv4Addr.isPrivate_iff, ← Ipv4Addr.isLinkLocal_iff,
    ← Ipv4Addr.isUnspecified_iff] at h
  have htext : Ipv4Addr.toText ⟨a, b, c, d⟩ =
      Nat.toDigits 10 a.toNat ++ '.' :: (Nat.toDigits 10 b.toNat ++
        '.' :: (Nat.toDigits 10 c.toNat ++ '.' :: Nat.toDigits 10 d.toNat)) :=
    Ipv4Addr.toText_eq _
  unfold rejectsHost
  rw [Bool.or_eq_true, htext]
  generalize Nat.toDigits 10 c.toNat ++ '.' :: Nat.toDigits 10 d.toNat = low at htext ⊢
  rcases h with hloop | hprivate | hlocal | hzero
  · simp only [Ipv4Addr.isLoopback, beq_iff_eq] at hloop
    subst hloop
    exact .inl (restricted_of_append (s := "127.") (by decide) rfl)
  · simp only [Ipv4Addr.isPrivate, Bool.or_eq_true, Bool.and_eq_true, beq_iff_eq,
      decide_eq_true_eq] at hprivate
    refine .inr ?_
    rcases hprivate with (hten | ⟨⟨ha, hlo⟩, hhi⟩) | ⟨ha, hb⟩
    · subst hten
      exact private_of_append (s := "10.") (by decide) rfl
    · subst ha
      exact private_of_octet (n := b.toNat)
        ⟨UInt8.le_iff_toNat_le.mp hlo, UInt8.le_iff_toNat_le.mp hhi⟩ rfl
    · subst ha hb
      exact private_of_append (s := "192.168.") (by decide) rfl
  · simp only [Ipv4Addr.isLinkLocal, Bool.and_eq_true, beq_iff_eq] at hlocal
    obtain ⟨rfl, rfl⟩ := hlocal
    exact .inl (restricted_of_append (s := "169.254.") (by decide) rfl)
  · simp only [Ipv4Addr.isUnspecified, beq_iff_eq] at hzero
    rw [← htext, hzero]
    decide

/-- The first piece of an address is above the other 112 bits. -/
theorem value_div (ip : Ipv6Addr) : ip.value / 2 ^ 112 = ip.s0.toNat := by
  have h1 := ip.s1.toNat_lt
  have h2 := ip.s2.toNat_lt
  have h3 := ip.s3.toNat_lt
  have h4 := ip.s4.toNat_lt
  have h5 := ip.s5.toNat_lt
  have h6 := ip.s6.toNat_lt
  have h7 := ip.s7.toNat_lt
  simp only [Ipv6Addr.value, List.foldl_cons, List.foldl_nil]
  omega

/-- The first two digits of an address whose first piece has four. -/
theorem toText_of_piece {ip : Ipv6Addr} {hi : Nat} (h : ip.s0.toNat / 256 = hi) (hpos : 0 < hi) :
    ∃ rest, ip.toText = Nat.toDigits 16 hi ++ rest := by
  have hne : ip.s0 ≠ 0 := by
    intro hzero
    rw [hzero] at h
    exact hpos.ne h
  obtain ⟨rest, hrest⟩ := Ipv6Addr.toText_of_ne_zero hne
  exact ⟨_, by rw [hrest, toDigits_of_sq_le (by omega), h, List.append_assoc]⟩

theorem rejects_v6 {ip : Ipv6Addr} (h : Ipv6Addr.loopbackBlock.Contains ip.value ∨
    Ipv6Addr.uniqueLocalBlock.Contains ip.value) :
    rejectsHost ('[' :: ip.toText ++ [']']) = true := by
  unfold rejectsHost
  rw [Bool.or_eq_true]
  refine .inl ?_
  rcases h with hloop | hlocal
  · rw [← Ipv6Addr.isLoopback_iff, Ipv6Addr.isLoopback, beq_iff_eq] at hloop
    rw [hloop]
    decide
  · have hbounds := Block.contains_iff.mp hlocal
    have hvalue := value_div ip
    have hpiece : ip.s0.toNat / 256 = 0xfc ∨ ip.s0.toNat / 256 = 0xfd := by
      simp only [Ipv6Addr.uniqueLocalBlock] at hbounds
      omega
    rcases hpiece with hpiece | hpiece
    · obtain ⟨rest, hrest⟩ := toText_of_piece hpiece (by decide)
      rw [hrest]
      exact restricted_of_append (s := "[fc") (by decide) rfl
    · obtain ⟨rest, hrest⟩ := toText_of_piece hpiece (by decide)
      rw [hrest]
      exact restricted_of_append (s := "[fd") (by decide) rfl

/-- A bracket is rejected for the texts in brackets only. -/
theorem accepts_bracket {text : List Char}
    (h : ∀ s ∈ ["[::1]", "[fc", "[fd"], ¬ s.toList <+: '[' :: text.map Char.toLower) :
    rejectsHost ('[' :: text) = false := by
  unfold rejectsHost
  rw [Bool.or_eq_false_iff, Bool.eq_false_iff, Bool.eq_false_iff]
  constructor
  · intro hrestricted
    obtain ⟨s, hs, hprefix⟩ := restricted_iff.mp hrestricted
    have hothers : ∀ s ∈ restrictedPrefixes,
        s ∈ ["[::1]", "[fc", "[fd"] ∨ s.toList ≠ [] ∧ s.toList.head? ≠ some '[' := by
      decide
    rcases hothers s hs with hbracket | ⟨hne, hhead⟩
    · exact h s hbracket hprefix
    · rcases List.prefix_cons_iff.mp hprefix with hnil | ⟨t, hcons, -⟩
      · exact hne hnil
      · rw [hcons] at hhead
        exact hhead rfl
  · intro hprivate
    have hhead := head_of_private hprivate
    cases hhead

theorem accepts_unfiltered {ip : Ipv6Addr} (h : Unfiltered (.v6 ip)) :
    rejectsHost ('[' :: ip.toText ++ [']']) = false := by
  rcases h with hzero | hlocal | ⟨v4, -, rfl⟩
  · rw [← Ipv6Addr.isUnspecified_iff, Ipv6Addr.isUnspecified, beq_iff_eq] at hzero
    rw [hzero]
    decide
  · have hbounds := Block.contains_iff.mp hlocal
    have hvalue := value_div ip
    have hpiece : ip.s0.toNat / 256 = 0xfe := by
      simp only [Ipv6Addr.linkLocalBlock] at hbounds
      omega
    obtain ⟨rest, hrest⟩ := toText_of_piece hpiece (by decide)
    have hdigits : Nat.toDigits 16 0xfe = ['f', 'e'] := by decide
    rw [hrest, hdigits]
    refine accepts_bracket ?_
    simp
  · rw [Ipv6Addr.toText_mapped]
    refine accepts_bracket ?_
    simp

/-- An internal address is rejected if and only if it is not among the unfiltered ones. -/
theorem rejectsHost_iff {url : Url} {ip : IpAddr} (hip : url.address? = some ip)
    (h : Internal ip) : rejectsHost url.hostname = true ↔ ¬ Unfiltered ip := by
  obtain ⟨protocol, host⟩ := url
  cases host with
  | domain text => cases hip
  | ipv4 v4 =>
    obtain rfl := Option.some.inj hip
    exact iff_of_true (rejects_v4 h) id
  | ipv6 v6 =>
    obtain rfl := Option.some.inj hip
    constructor
    · intro hrejects hunfiltered
      exact Bool.false_ne_true ((accepts_unfiltered hunfiltered).symm.trans hrejects)
    · intro hfiltered
      obtain hloop | hzero | hunique | hlocal | hmapped := h
      · exact rejects_v6 (.inl hloop)
      · exact absurd (.inl hzero) hfiltered
      · exact rejects_v6 (.inr hunique)
      · exact absurd (.inr (.inl hlocal)) hfiltered
      · exact absurd (.inr (.inr hmapped)) hfiltered

theorem internal_of_unfiltered {ip : IpAddr} (h : Unfiltered ip) : Internal ip := by
  cases ip with
  | v4 ip => exact h.elim
  | v6 ip =>
    obtain hzero | hlocal | hmapped := h
    · exact .inr (.inl hzero)
    · exact .inr (.inr (.inr (.inl hlocal)))
    · exact .inr (.inr (.inr (.inr hmapped)))

theorem isSafeBaseUrl_eq_ok_iff {newUrl : List Char → Option Url} {raw : List Char} {url : Url} :
    isSafeBaseUrl newUrl raw = .ok url ↔
      newUrl raw = some url ∧ url.protocol = "https:" ∧ rejectsHost url.hostname = false := by
  unfold isSafeBaseUrl rejectsHost
  cases newUrl raw with
  | none => simp
  | some parsed =>
    rw [Option.some_inj]
    constructor
    · intro hok
      dsimp only at hok
      split_ifs at hok with hprotocol hrestricted hprivate
      obtain rfl := Except.ok.inj hok
      rw [Bool.not_eq_true] at hrestricted hprivate
      exact ⟨rfl, not_not.mp hprotocol, by rw [hrestricted, hprivate]; rfl⟩
    · rintro ⟨rfl, hprotocol, hpasses⟩
      obtain ⟨hrestricted, hprivate⟩ := Bool.or_eq_false_iff.mp hpasses
      simp [hprotocol, hrestricted, hprivate]

/-- **What the check of a base URL keeps out.** No URL that is accepted has an internal address
for its host, if and only if the URL is not an https one with the unspecified IPv6 address, a
link-local IPv6 address or a mapped internal IPv4 address. -/
theorem isSafeBaseUrl_internal_iff (newUrl : List Char → Option Url) (raw : List Char) :
    (∀ url ip, isSafeBaseUrl newUrl raw = .ok url → url.address? = some ip → ¬ Internal ip) ↔
      ∀ url ip, newUrl raw = some url → url.protocol = "https:" → url.address? = some ip →
        ¬ Unfiltered ip := by
  constructor
  · intro h url ip hurl hprotocol hip hunfiltered
    have hinternal := internal_of_unfiltered hunfiltered
    refine h url ip (isSafeBaseUrl_eq_ok_iff.mpr ⟨hurl, hprotocol, ?_⟩) hip hinternal
    rw [Bool.eq_false_iff, Ne, rejectsHost_iff hip hinternal]
    exact not_not_intro hunfiltered
  · intro h url ip hok hip hinternal
    obtain ⟨hurl, hprotocol, hpasses⟩ := isSafeBaseUrl_eq_ok_iff.mp hok
    have hrejects := (rejectsHost_iff hip hinternal).mpr (h url ip hurl hprotocol hip)
    rw [hpasses] at hrejects
    cases hrejects

/-- `https://[::ffff:127.0.0.1]/` is accepted: the loopback address, mapped. -/
theorem mappedLoopback_accepted :
    ¬ ∀ (newUrl : List Char → Option Url) (raw : List Char) (url : Url) (ip : IpAddr),
      isSafeBaseUrl newUrl raw = .ok url → url.address? = some ip → ¬ Internal ip := by
  intro h
  have hloopback : InternalV4 ⟨127, 0, 0, 1⟩ := .inl (by decide)
  have hunfiltered : Unfiltered (.v6 (.mapped ⟨127, 0, 0, 1⟩)) := .inr (.inr ⟨_, hloopback, rfl⟩)
  let url : Url := ⟨"https:", .ipv6 (.mapped ⟨127, 0, 0, 1⟩)⟩
  have haccepted : isSafeBaseUrl (fun _ => some url) "https://[::ffff:127.0.0.1]/".toList = .ok url :=
    isSafeBaseUrl_eq_ok_iff.mpr ⟨rfl, rfl, accepts_unfiltered hunfiltered⟩
  exact h _ _ url _ haccepted rfl (internal_of_unfiltered hunfiltered)

end OsModa.Gateway
