import OsModa.Gateway.CredentialTurns
import OsModa.Base.Machine

/-!
Runs of turns over the credentials: cooldowns are honoured as long as no agent's credential is
parked while another one could take its place, and a turn goes on once at most, with another
credential (`cooldowns_honoured`).
-/

namespace OsModa.Gateway

open OsModa.Js OsModa.Machine

/-! ### Runs -/

abbrev CredentialStep := Step CredentialGateway CredentialInput (List SessionStart)

/-- No session is started with a credential in cooldown while another one of its provider and type
is not. -/
def HonoursCooldowns (t : CredentialStep) : Prop :=
  ∀ input, t.input = .turn input → ∀ start ∈ t.output,
    start.credential.isCooldown input.readAt = true → ∀ c ∈ t.before.file.credentials,
      c.id ≠ start.credential.id → c.sameKind start.credential = true →
        c.isCooldown input.readAt = true

/-- The credential that a request, an update or a tick finds is not parked, or no other could take
its place. -/
def FindsUsable (t : CredentialStep) : Prop :=
  ∀ input, t.input = .turn input → input.op.resumes = none →
    ∀ c, t.before.found input = some c → c.isCooldown input.readAt = true →
      t.before.file.pickFallback c input.readAt = none

/-- A turn goes on once at most, and not with the credential that has failed. -/
structure RetriesOnce (starts : List SessionStart) : Prop where
  once : ∀ session, starts.countP (·.retryOf = some session) ≤ 1
  failed : ∀ start ∈ starts, ∀ session, start.retryOf = some session →
    ∃ failed ∈ starts, failed.session = .gateway session
  other : ∀ start ∈ starts, ∀ session, start.retryOf = some session →
    ∀ failed ∈ starts, failed.session = .gateway session →
      failed.retryOf = none ∧ start.credential.id ≠ failed.credential.id

/-- What the sessions that were started are to the turns that are read. -/
structure Accounted (starts : List SessionStart) (s : CredentialGateway) : Prop where
  held : ∀ start ∈ starts, ∀ n, start.session = .gateway n →
    n < s.gateway.nextSession ∧ s.active.lookup n = some start.credential
  started : ∀ n c, s.active.lookup n = some c → ∃ start ∈ starts, start.session = .gateway n
  read : ∀ n turn, s.gateway.streaming.find? n = some turn → n < s.gateway.nextSession ∧
    ∀ start ∈ starts, start.session = .gateway n → start.retryOf.isSome = true →
      turn.retried = true
  ended : ∀ start ∈ starts, ∀ n, start.retryOf = some n →
    n < s.gateway.nextSession ∧ s.gateway.streaming.find? n = none
  once : RetriesOnce starts

section Accounted

variable {table : List (String × Price)} {tables : CaseTables} {maxLoops : Nat}
variable {starts begun : List SessionStart} {s s' : CredentialGateway}

theorem find?_of_oldTurn {g g' : GatewayState} {n : Nat} (h : g.OldTurn g' n)
    (hnone : g.streaming.find? n = none) : g'.streaming.find? n = none := by
  cases hfind : g'.streaming.find? n with
  | none => rfl
  | some turn' =>
    obtain ⟨turn, hturn, -⟩ := h turn' hfind
    rw [hnone] at hturn
    cases hturn

/-- Starts that are no second passes keep that turns go on once. -/
theorem RetriesOnce.append_first (h : RetriesOnce starts)
    (hfirst : ∀ start ∈ begun, start.retryOf = none)
    (hnew : ∀ start ∈ begun, ∀ first ∈ starts, ∀ n, first.retryOf = some n →
      start.session ≠ .gateway n) : RetriesOnce (starts ++ begun) := by
  have hold : ∀ start ∈ starts ++ begun, ∀ n, start.retryOf = some n → start ∈ starts := by
    intro start hstart n hretry
    rcases List.mem_append.mp hstart with hstart | hstart
    · exact hstart
    · rw [hfirst start hstart] at hretry
      cases hretry
  refine ⟨fun n => ?_, fun start hstart n hretry => ?_, fun start hstart n hretry failed hfailed hn => ?_⟩
  · have hnone : begun.countP (·.retryOf = some n) = 0 :=
      List.countP_eq_zero.mpr fun start hstart => by simp [hfirst start hstart]
    rw [List.countP_append, hnone]
    exact h.once n
  · obtain ⟨failed, hfailed, hn⟩ := h.failed start (hold start hstart n hretry) n hretry
    exact ⟨failed, List.mem_append_left _ hfailed, hn⟩
  · rcases List.mem_append.mp hfailed with hfailed | hfailed
    · exact h.other start (hold start hstart n hretry) n hretry failed hfailed hn
    · exact absurd hn (hnew failed hfailed start (hold start hstart n hretry) n hretry)

/-- So does the second pass of a turn that has had none, with another credential than the first. -/
theorem RetriesOnce.append_again (h : RetriesOnce starts) {new : SessionStart} {session : Nat}
    (hretry : new.retryOf = some session)
    (hfirst : ∀ start ∈ starts, start.retryOf ≠ some session)
    (hstarted : ∃ start ∈ starts, start.session = .gateway session)
    (hother : ∀ start ∈ starts, start.session = .gateway session →
      start.retryOf = none ∧ new.credential.id ≠ start.credential.id)
    (hnew : ∀ start ∈ starts ++ [new], ∀ n, start.retryOf = some n → new.session ≠ .gateway n) :
    RetriesOnce (starts ++ [new]) := by
  have hsession : ∀ n, new.retryOf = some n → n = session := by
    intro n hn
    rw [hretry] at hn
    exact (Option.some.inj hn).symm
  refine ⟨fun n => ?_, fun start hstart n hn => ?_, fun start hstart n hn failed hfailed hgateway => ?_⟩
  · rw [List.countP_append]
    by_cases hnone : starts.countP (·.retryOf = some n) = 0
    · rw [hnone, Nat.zero_add]
      exact List.countP_le_length
    · have hzero : [new].countP (·.retryOf = some n) = 0 := by
        refine List.countP_eq_zero.mpr fun start hstart hn => hnone ?_
        obtain rfl := List.mem_singleton.mp hstart
        obtain rfl := hsession n (of_decide_eq_true hn)
        exact List.countP_eq_zero.mpr fun start hstart hn =>
          hfirst start hstart (of_decide_eq_true hn)
      rw [hzero]
      exact h.once n
  · rcases List.mem_append.mp hstart with hstart | hstart
    · obtain ⟨failed, hfailed, hgateway⟩ := h.failed start hstart n hn
      exact ⟨failed, List.mem_append_left _ hfailed, hgateway⟩
    · obtain rfl := List.mem_singleton.mp hstart
      obtain rfl := hsession n hn
      obtain ⟨failed, hfailed, hgateway⟩ := hstarted
      exact ⟨failed, List.mem_append_left _ hfailed, hgateway⟩
  · rcases List.mem_append.mp hfailed with hbefore | hlast
    · rcases List.mem_append.mp hstart with hstart | hstart
      · exact h.other start hstart n hn failed hbefore hgateway
      · obtain rfl := List.mem_singleton.mp hstart
        obtain rfl := hsession n hn
        exact hother failed hbefore hgateway
    · obtain rfl := List.mem_singleton.mp hlast
      exact absurd hgateway (hnew start hstart n hn)

/-- A step that begins no session of the gateway. -/
theorem Accounted.quiet (h : Accounted starts s)
    (hloops : ∀ start ∈ begun, start.retryOf = none ∧ ∃ k, start.session = .loop k)
    (hactive : s'.active = s.active) (hnext : s'.gateway.nextSession = s.gateway.nextSession)
    (hold : ∀ n, s.gateway.OldTurn s'.gateway n) : Accounted (starts ++ begun) s' := by
  have hgateway : ∀ start ∈ starts ++ begun, ∀ n, start.session = .gateway n → start ∈ starts := by
    intro start hstart n hn
    rcases List.mem_append.mp hstart with hstart | hstart
    · exact hstart
    · obtain ⟨k, hk⟩ := (hloops start hstart).2
      rw [hk] at hn
      cases hn
  refine ⟨fun start hstart n hn => ?_, fun n c hc => ?_, fun n turn' hturn' => ?_,
    fun start hstart n hretry => ?_, ?_⟩
  · rw [hactive, hnext]
    exact h.held start (hgateway start hstart n hn) n hn
  · rw [hactive] at hc
    obtain ⟨start, hstart, hn⟩ := h.started n c hc
    exact ⟨start, List.mem_append_left _ hstart, hn⟩
  · obtain ⟨turn, hturn, hretried⟩ := hold n turn' hturn'
    obtain ⟨hlt, hread⟩ := h.read n turn hturn
    rw [hnext, hretried]
    exact ⟨hlt, fun start hstart hn => hread start (hgateway start hstart n hn) hn⟩
  · rcases List.mem_append.mp hstart with hstart | hstart
    · obtain ⟨hlt, hnone⟩ := h.ended start hstart n hretry
      rw [hnext]
      exact ⟨hlt, find?_of_oldTurn (hold n) hnone⟩
    · rw [(hloops start hstart).1] at hretry
      cases hretry
  · refine h.once.append_first (fun start hstart => (hloops start hstart).1) ?_
    intro start hstart first _ n _ hn
    obtain ⟨k, hk⟩ := (hloops start hstart).2
    rw [hk] at hn
    cases hn

/-- What a step that begins a session keeps, whatever turn it is for. -/
theorem Accounted.opened (h : Accounted starts s) {c : StoredCredential} {retryOf : Option Nat}
    (hactive : s'.active = (s.gateway.nextSession, c) :: s.active)
    (hnext : s'.gateway.nextSession = s.gateway.nextSession + 1)
    (hold : ∀ n, n ≠ s.gateway.nextSession → s.gateway.OldTurn s'.gateway n)
    (hnew : ∀ turn', s'.gateway.streaming.find? s.gateway.nextSession = some turn' →
      retryOf.isSome = true → turn'.retried = true)
    (hended : ∀ n, retryOf = some n →
      n < s.gateway.nextSession + 1 ∧ s'.gateway.streaming.find? n = none)
    (honce : RetriesOnce (starts ++ [⟨.gateway s.gateway.nextSession, c, retryOf⟩])) :
    Accounted (starts ++ [⟨.gateway s.gateway.nextSession, c, retryOf⟩]) s' := by
  have hfresh : ∀ start ∈ starts, start.session ≠ .gateway s.gateway.nextSession := fun start hstart hn =>
    Nat.lt_irrefl _ (h.held start hstart _ hn).1
  refine ⟨fun start hstart n hn => ?_, fun n c' hc => ?_, fun n turn' hturn' => ?_,
    fun start hstart n hretry => ?_, honce⟩
  · rw [hactive, hnext]
    rcases List.mem_append.mp hstart with hstart | hstart
    · obtain ⟨hlt, hlookup⟩ := h.held start hstart n hn
      rw [List.lookup_cons, beq_false_of_ne (Nat.ne_of_lt hlt)]
      exact ⟨Nat.lt_succ_of_lt hlt, hlookup⟩
    · obtain rfl := List.mem_singleton.mp hstart
      obtain rfl := SessionId.gateway.inj hn
      rw [List.lookup_cons, beq_self_eq_true]
      exact ⟨Nat.lt_succ_self _, rfl⟩
  · rw [hactive, List.lookup_cons] at hc
    split at hc
    · rename_i hn
      exact ⟨_, List.mem_append_right _ (List.mem_singleton_self _), by rw [eq_of_beq hn]⟩
    · obtain ⟨start, hstart, hn⟩ := h.started n c' hc
      exact ⟨start, List.mem_append_left _ hstart, hn⟩
  · rw [hnext]
    by_cases hn : n = s.gateway.nextSession
    · subst hn
      refine ⟨Nat.lt_succ_self _, fun start hstart hsession hretry => ?_⟩
      rcases List.mem_append.mp hstart with hstart | hstart
      · exact absurd hsession (hfresh start hstart)
      · obtain rfl := List.mem_singleton.mp hstart
        exact hnew turn' hturn' hretry
    · obtain ⟨turn, hturn, hretried⟩ := hold n hn turn' hturn'
      obtain ⟨hlt, hread⟩ := h.read n turn hturn
      refine ⟨Nat.lt_succ_of_lt hlt, fun start hstart hsession => ?_⟩
      rcases List.mem_append.mp hstart with hstart | hstart
      · rw [hretried]
        exact hread start hstart hsession
      · obtain rfl := List.mem_singleton.mp hstart
        exact absurd (SessionId.gateway.inj hsession).symm hn
  · rw [hnext]
    rcases List.mem_append.mp hstart with hstart | hstart
    · obtain ⟨hlt, hnone⟩ := h.ended start hstart n hretry
      exact ⟨Nat.lt_succ_of_lt hlt, find?_of_oldTurn (hold n (Nat.ne_of_lt hlt)) hnone⟩
    · obtain rfl := List.mem_singleton.mp hstart
      exact hended n hretry

/-- A turn that goes on is one that was read, with a credential that is not the next one. -/
theorem Accounted.retriesOnce_again (h : Accounted starts s) {session : Nat} {c : StoredCredential}
    {turn : Turn} (hfind : s.gateway.streaming.find? session = some turn)
    (hfirst : turn.retried = false) {failed : StoredCredential}
    (hfailed : s.active.lookup session = some failed) (hother : c.id ≠ failed.id) :
    RetriesOnce (starts ++ [⟨.gateway s.gateway.nextSession, c, some session⟩]) := by
  obtain ⟨hlt, hread⟩ := h.read session turn hfind
  refine h.once.append_again rfl (fun start hstart hretry => ?_) (h.started session failed hfailed)
    (fun start hstart hsession => ⟨?_, ?_⟩) (fun start hstart n hretry hnew => ?_)
  · have hended := (h.ended start hstart session hretry).2
    rw [hfind] at hended
    cases hended
  · cases hretried : start.retryOf with
    | none => rfl
    | some n =>
      have hagain := hread start hstart hsession (by rw [hretried]; rfl)
      rw [hfirst] at hagain
      cases hagain
  · have hheld := (h.held start hstart session hsession).2
    rw [hfailed] at hheld
    rw [← Option.some.inj hheld]
    exact hother
  · obtain rfl := SessionId.gateway.inj hnew
    rcases List.mem_append.mp hstart with hstart | hstart
    · exact Nat.lt_irrefl _ (h.ended start hstart _ hretry).1
    · obtain rfl := List.mem_singleton.mp hstart
      obtain rfl := Option.some.inj hretry
      exact Nat.lt_irrefl _ hlt

theorem Accounted.turn (h : Accounted starts s) (input : TurnInput) :
    Accounted (starts ++ (s.turn table tables maxLoops input).1)
      (s.turn table tables maxLoops input).2 := by
  have hbegins := @CredentialGateway.turn_begins table tables maxLoops s input
  generalize s.turn table tables maxLoops input = out at hbegins ⊢
  cases hbegins with
  | nothing hstarts hactive hnext hold =>
    rw [hstarts]
    exact h.quiet (fun start hstart => by cases hstart) hactive hnext hold
  | loopTurn hop c hfound hstarts hactive hnext hold =>
    refine h.quiet (fun start hstart => ?_) hactive hnext hold
    obtain ⟨k, rfl⟩ := hstarts start hstart
    exact ⟨rfl, k, rfl⟩
  | first hop c hfound hstarts hactive hnext hold =>
    rw [hstarts]
    refine h.opened hactive hnext hold (fun _ _ hretry => by cases hretry)
      (fun _ hretry => by cases hretry) (h.once.append_first (fun start hstart => ?_) ?_)
    · rw [List.mem_singleton.mp hstart]
    · intro start hstart first hfirst n hretry hn
      rw [List.mem_singleton.mp hstart] at hn
      have hlt := (h.ended first hfirst n hretry).1
      rw [SessionId.gateway.inj hn] at hlt
      exact Nat.lt_irrefl n hlt
  | again session hop c hfound turn hfind hfirst hstarts hactive hnext hold hgone hnew =>
    rw [hstarts]
    obtain ⟨failed, hfailed, hother, -⟩ := CredentialGateway.of_fallback hfound
    have hlt := (h.read session turn hfind).1
    refine h.opened hactive hnext hold (fun turn' hturn' _ => hnew turn' hturn')
      (fun n hretry => ?_) (h.retriesOnce_again hfind hfirst hfailed hother)
    obtain rfl := Option.some.inj hretry
    exact ⟨Nat.lt_succ_of_lt hlt, hgone (Nat.ne_of_lt hlt)⟩

/-- The step lemma. -/
theorem Accounted.step (h : Accounted starts s) (input : CredentialInput) :
    Accounted (starts ++ (s.step table tables maxLoops input).1)
      (s.step table tables maxLoops input).2 := by
  cases input with
  | turn input => exact h.turn input
  | store op =>
    exact h.quiet (fun start hstart => by cases hstart) rfl rfl (s.gateway.oldTurn_of_eq rfl)

end Accounted

section Runs

variable {table : List (String × Price)} {tables : CaseTables} {maxLoops : Nat}

theorem accounted_boot (usage : Buckets) (loops : Table Loop.id) (file : CredentialsFile) :
    Accounted [] (.boot usage loops file) :=
  ⟨fun _ h => (by cases h), fun _ _ h => (by cases h), fun _ _ h => (by cases h),
    fun _ h => (by cases h), fun _ => Nat.zero_le 1, fun _ h => (by cases h),
    fun _ h => (by cases h)⟩

/-- The run lemma. -/
theorem accounted_run (usage : Buckets) (loops : Table Loop.id) (file : CredentialsFile)
    (inputs : List CredentialInput) :
    Accounted ((trace (CredentialGateway.step table tables maxLoops) inputs
        (.boot usage loops file)).flatMap Step.output)
      (final (CredentialGateway.step table tables maxLoops) inputs (.boot usage loops file)) := by
  refine @history_invariant _ _ _ (CredentialGateway.step table tables maxLoops)
    (fun h s => Accounted (h.flatMap Step.output) s) (fun input h s hs => ?_) inputs []
    (.boot usage loops file) (accounted_boot usage loops file)
  rw [List.flatMap_append, List.flatMap_singleton]
  exact hs.step input

theorem honours_step {s : CredentialGateway} {input : CredentialInput}
    (h : FindsUsable (stepOf (CredentialGateway.step table tables maxLoops) input s)) :
    HonoursCooldowns (stepOf (CredentialGateway.step table tables maxLoops) input s) := by
  rintro input' rfl start hstart hcooldown
  have husable := h input' rfl
  have hpick : ∀ c, input'.op.resumes = none → s.found input' = some c → start.credential = c →
      ∀ c ∈ s.file.credentials, c.id ≠ start.credential.id →
        c.sameKind start.credential = true → c.isCooldown input'.readAt = true := by
    rintro c hop hfound rfl
    exact CredentialsFile.pickFallback_eq_none.mp (husable hop _ hfound hcooldown)
  have hbegins := @CredentialGateway.turn_begins table tables maxLoops s input'
  change start ∈ (s.turn table tables maxLoops input').1 at hstart
  generalize s.turn table tables maxLoops input' = out at hbegins hstart
  cases hbegins with
  | nothing hstarts hactive hnext hold =>
    rw [hstarts] at hstart
    cases hstart
  | loopTurn hop c hfound hstarts hactive hnext hold =>
    obtain ⟨k, rfl⟩ := hstarts start hstart
    exact hpick c hop hfound rfl
  | first hop c hfound hstarts hactive hnext hold =>
    rw [hstarts] at hstart
    obtain rfl := List.mem_singleton.mp hstart
    exact hpick c hop hfound rfl
  | again session hop c hfound turn hfind hfirst hstarts hactive hnext hold hgone hnew =>
    rw [hstarts] at hstart
    obtain rfl := List.mem_singleton.mp hstart
    obtain ⟨-, -, -, hhealthy⟩ := CredentialGateway.of_fallback hfound
    rw [hhealthy] at hcooldown
    cases hcooldown

end Runs

/-- In a run whose requests find usable credentials only, no credential in cooldown is used in the
place of a healthy one, and turns go on once at most, with another credential. -/
theorem cooldowns_honoured (table : List (String × Price)) (tables : CaseTables) (maxLoops : Nat)
    (usage : Buckets) (loops : Table Loop.id) (file : CredentialsFile)
    (inputs : List CredentialInput)
    (h : ∀ t ∈ trace (CredentialGateway.step table tables maxLoops) inputs
      (.boot usage loops file), FindsUsable t) :
    (∀ t ∈ trace (CredentialGateway.step table tables maxLoops) inputs (.boot usage loops file),
      HonoursCooldowns t) ∧
    RetriesOnce ((trace (CredentialGateway.step table tables maxLoops) inputs
      (.boot usage loops file)).flatMap Step.output) := by
  refine ⟨fun t ht => ?_, (accounted_run usage loops file inputs).once⟩
  obtain ⟨past, -, -, hstep⟩ := mem_trace_split ht
  have husable := h t ht
  rw [hstep] at husable ⊢
  exact honours_step husable

/-! ### A credential that runs out -/

/-- Two credentials of one kind, the first of them the agent's. -/
def twoCredentials : CredentialsFile where
  defaultId := some (utf16 "c1")
  credentials := [stored "c1", stored "c2"]
where
  stored (id : String) : StoredCredential :=
    ⟨utf16 id, .string (utf16 id), some (.string (utf16 "anthropic")),
      some (.string (utf16 "api_key")), .string [], none, [], none, none, none⟩

def atZero (input : GatewayInput) : CredentialInput := .turn ⟨input, [], 0⟩

/-- The agent's credential runs out, and its turn goes on with the other one. -/
def retriedInputs : List CredentialInput := (secondPass ++ [startOfSecondPass]).map atZero

/-- Then a turn comes over the API, to the same agent. -/
def nextTurn : CredentialInput :=
  atZero ⟨.agentTurn ⟨foundAssistant, utf16 "hello", utf16 "api", none⟩, atEpoch⟩

theorem findsUsable_of_resumes {t : CredentialStep} {input : TurnInput} {session : Nat}
    (hinput : t.input = .turn input) (hop : input.op.resumes = some session) : FindsUsable t := by
  intro input' hinput' hop'
  rw [hinput] at hinput'
  rw [← CredentialInput.turn.inj hinput', hop] at hop'
  cases hop'

theorem findsUsable_retriedInputs :
    ∀ t ∈ trace (CredentialGateway.step prices .ascii defaultMaxLoops) retriedInputs
      (.boot .empty .empty twoCredentials), FindsUsable t := by
  intro t ht
  rcases List.mem_cons.mp ht with rfl | ht
  · rintro input hinput - c hfound -
    obtain rfl := CredentialInput.turn.inj hinput
    cases hfound
  rcases List.mem_cons.mp ht with rfl | ht
  · rintro input hinput - c hfound hcooldown
    obtain rfl := CredentialInput.turn.inj hinput
    obtain rfl := Option.some.inj hfound
    cases hcooldown
  rcases List.mem_cons.mp ht with rfl | ht
  · exact findsUsable_of_resumes rfl rfl
  rcases List.mem_cons.mp ht with rfl | ht
  · exact findsUsable_of_resumes rfl rfl
  rcases List.mem_pair.mp ht with rfl | rfl
  · exact findsUsable_of_resumes rfl rfl
  · exact findsUsable_of_resumes rfl rfl

/-- The second session of the turn is started with the other credential. -/
theorem cooldowns_honoured_retried :
    ((trace (CredentialGateway.step prices .ascii defaultMaxLoops) retriedInputs
        (.boot .empty .empty twoCredentials)).flatMap Step.output).map
          (fun start => (start.credential.id, start.retryOf)) =
        [(utf16 "c1", none), (utf16 "c2", some 0)] ∧
      (∀ t ∈ trace (CredentialGateway.step prices .ascii defaultMaxLoops) retriedInputs
        (.boot .empty .empty twoCredentials), HonoursCooldowns t) ∧
      RetriesOnce ((trace (CredentialGateway.step prices .ascii defaultMaxLoops) retriedInputs
        (.boot .empty .empty twoCredentials)).flatMap Step.output) :=
  ⟨by decide +kernel, cooldowns_honoured prices .ascii defaultMaxLoops .empty .empty twoCredentials
    retriedInputs findsUsable_retriedInputs⟩

def afterRetry : CredentialStep :=
  stepOf (CredentialGateway.step prices .ascii defaultMaxLoops) nextTurn
    (final (CredentialGateway.step prices .ascii defaultMaxLoops) retriedInputs
      (.boot .empty .empty twoCredentials))

/-- The turn that comes next is started with the credential that has been parked. -/
theorem parked_credential_used : ¬ ∀ usage loops file inputs,
    (∀ t ∈ trace (CredentialGateway.step prices .ascii defaultMaxLoops) inputs
      (.boot usage loops file), HonoursCooldowns t) ∧
    RetriesOnce ((trace (CredentialGateway.step prices .ascii defaultMaxLoops) inputs
      (.boot usage loops file)).flatMap Step.output) := by
  intro h
  have hhonours := (h .empty .empty twoCredentials (retriedInputs ++ [nextTurn])).1 afterRetry
    (by rw [trace_append]; exact List.mem_append_right _ (List.mem_singleton_self _))
  have hparked : (afterRetry.output.any fun start => start.credential.isCooldown 0 &&
      afterRetry.before.file.credentials.any fun c => c.id ≠ start.credential.id &&
        c.sameKind start.credential && !c.isCooldown 0) = true := by decide +kernel
  obtain ⟨start, hstart, hcheck⟩ := List.any_eq_true.mp hparked
  obtain ⟨hcooldown, hother⟩ := Bool.and_eq_true_iff.mp hcheck
  obtain ⟨c, hc, hcheck⟩ := List.any_eq_true.mp hother
  simp only [Bool.and_eq_true, decide_eq_true_eq, Bool.not_eq_true'] at hcheck
  obtain ⟨⟨hid, hkind⟩, hhealthy⟩ := hcheck
  have hbusy := hhonours _ rfl start hstart hcooldown c hc hid hkind
  rw [show c.isCooldown 0 = false from hhealthy] at hbusy
  cases hbusy

end OsModa.Gateway
