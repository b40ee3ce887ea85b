import OsModa.Agentd.ApprovalApi

/-!
The bridge's `shell_exec` tool and the approval gate behind it.

The tool asks agentd for an approval and reads one field of the answer. A `status` of
`pending` stops the command; any other JSON lets it run, an error report included. An
answer that is no JSON counts as an unreachable gate, and a static blocklist decides.

Main result: the condition under which a run of the tool respects the gate
(`shellExec_respects_iff`).
-/

namespace OsModa.Bridge

open OsModa.Agentd OsModa.Js

/-! ### The static blocklist -/

/-- Defense-in-depth command blocklist. -/
def dangerousCommands : List String :=
  ["rm -rf", "mkfs", "dd if=", "format", "> /dev/", "shred", "wipefs", "chmod 777", "chmod -R",
   "chown -R /", "curl | sh", "wget | sh", "curl | bash", "wget | bash", "> /dev/sd", "shutdown",
   "reboot", "halt", "init 0", "init 6", "nix-collect-garbage", "nixos-rebuild"]

/-- The class `[\\'"]`. -/
def isQuoting (a : UInt16) : Bool := a = 92 || a = 39 || a = 34

section Blocklist

variable (tables : CaseTables)

/-- Normalize a shell command for pattern matching: collapse whitespace, strip
quoting tricks. -/
def normalizeCmd (cmd : JsString) : JsString :=
  trim (squeeze ((tables.toLowerCase cmd).filter fun a => !isQuoting a))

/-- `DANGEROUS_COMMANDS.find((d) => norm.includes(d))`. The command is lower case
there, and two of the patterns are not. -/
def matched (cmd : JsString) : Option String :=
  dangerousCommands.find? fun d => includes (normalizeCmd tables cmd) (utf16 d)

/-- The command contains a pattern of the list, once both are normalized. -/
def MatchesBlocklist (cmd : JsString) : Prop :=
  ∃ d ∈ dangerousCommands, includes (normalizeCmd tables cmd) (normalizeCmd tables (utf16 d)) = true

end Blocklist

/-! ### Asking agentd -/

/-- Bytes of the request body. -/
def approvalBodyLength (cmd : JsString) : Nat :=
  "\x7b\"command\":,\"actor\":\"openclaw.agent\",\"reason\":\"shell_exec\"\x7d".length +
    stringifyLength cmd

/-- agentd at the moment of the request. When it is up, it has a gate or none, a clock
reading, an identifier to draw, and a database that can insert or cannot. -/
inductive AgentdState where
  | unreachable
  | failing (reply : HttpReply) (isError : reply.IsError)
  | up (gate : Option ApprovalGate) (now : DateTime) (id : String) (insertWorks : Bool)

/-- agentd can read the request: its body is within the limit, and a text. -/
def Readable (cmd : JsString) : Prop :=
  approvalBodyLength cmd ≤ bodyLimit ∧ ∃ s, decode? cmd = some s

section Agentd

variable (u : Text.Unicode)

/-- The answer to the tool's `POST /approval/request`. -/
def agentdRequest (agentd : AgentdState) (cmd : JsString) : HttpReply :=
  match agentd with
  | .unreachable => .dropped
  | .failing reply _ => reply
  | .up gate now id insertWorks =>
    extractJson (approvalBodyLength cmd) (decode? cmd) fun s =>
      (approvalRequestHandler u gate now id insertWorks
        ⟨String.ofList s, some "openclaw.agent", "shell_exec", none⟩).1

/-- What the gate says of a command: whether it needs an approval. There is no verdict
without a gate, and none where the gate fails. -/
def gateVerdict (agentd : AgentdState) (cmd : JsString) : Option Bool :=
  match agentd with
  | .up (some gate) now id insertWorks =>
    if approvalBodyLength cmd > bodyLimit then none
    else (decode? cmd).bind fun s =>
      if isDestructive u gate.extraPatterns (String.ofList s) then
        match requestApprovalOn insertWorks gate now id (String.ofList s) "openclaw.agent"
          "shell_exec" none with
        | (.ok _, _) => some true
        | _ => none
      else some false
  | _ => none

/-- A gate is there and counts the command as destructive. -/
def Destructive (agentd : AgentdState) (cmd : JsString) : Prop :=
  ∃ gate now id insertWorks, agentd = .up (some gate) now id insertWorks ∧
    DestructiveFor u gate cmd

end Agentd

/-! ### The tool -/

/-- How the tool reads the answer. -/
inductive Approval where
  | pending (id : Option Json)
  | proceed
  | unavailable

/-- `JSON.parse(approvalResp).status === "pending"`; both steps may throw. -/
def readApproval : HttpReply → Approval
  | .json _ .null => .unavailable
  | .json _ approval =>
    match approval.get? "status" with
    | some (.str status) => if status = "pending" then .pending (approval.get? "id") else .proceed
    | _ => .proceed
  | _ => .unavailable

structure ShellParams where
  command : JsString
  /-- Milliseconds; `none` for what `Number` does not read. -/
  timeout : Option Int

inductive ShellReply where
  | error (message : JsString)
  | pending (message : JsString) (approvalId : Option Json) (status hint : String)
  /-- The shell ran the command; the reply is its output. -/
  | ran (command : JsString) (timeout : Int)

/-- An event that the tool posts to `/memory/ingest`. -/
structure MemoryEvent where
  category : String
  subcategory : String
  actor : String
  summary : JsString
  command : JsString
  matchedPattern : Option String

/-- The calls of the last minute, this one included, by their clock readings. -/
def recentCalls (timestamps : List Int) (now : Int) : List Int :=
  (timestamps ++ [now]).dropWhile (· < now - 60000)

/-- Rate limit of shell_exec: 30 calls per 60 seconds. -/
def rateLimited (timestamps : List Int) (now : Int) : Bool :=
  (recentCalls timestamps now).length > 30

def runShell (params : ShellParams) : ShellReply × List MemoryEvent :=
  let requested := params.timeout.getD 0
  (.ran params.command (min (if requested = 0 then 30000 else requested) 120000),
    [⟨"system", "shell_exec", "openclaw.agent", utf16 "Shell: " ++ params.command.take 100,
      params.command, none⟩])

section Tool

variable (u : Text.Unicode) (tables : CaseTables)

/-- `shell_exec`, with the calls before it and the clock reading of this one. -/
def shellExec (agentd : AgentdState) (timestamps : List Int) (now : Int) (params : ShellParams) :
    ShellReply × List MemoryEvent × List Int :=
  let recent := recentCalls timestamps now
  if rateLimited timestamps now then
    (.error (utf16 "Rate limit exceeded: max 30 shell_exec calls per minute"), [], recent)
  else match readApproval (agentdRequest u agentd params.command) with
    | .pending id =>
      (.pending (utf16 "Command requires approval: " ++ params.command.take 80) id "pending"
        "Use approval_check to poll status, or approval_approve/approval_deny to decide.",
        [], recent)
    | .proceed => ((runShell params).1, (runShell params).2, recent)
    | .unavailable =>
      match matched tables params.command with
      | some d =>
        (.error (utf16 ("Command blocked: '" ++ d ++ "' is not allowed via shell_exec. Use the " ++
            "appropriate agentd API (safe_switch_begin for NixOS changes, or request user " ++
            "approval for destructive operations).")),
          [⟨"security", "dangerous_command_blocked", "openclaw.agent",
            utf16 "Dangerous command blocked: " ++ params.command.take 100, params.command, some d⟩],
          recent)
      | none => ((runShell params).1, (runShell params).2, recent)

/-- The call runs the command. -/
def Runs (agentd : AgentdState) (timestamps : List Int) (now : Int) (params : ShellParams) : Prop :=
  ∃ command timeout, (shellExec u tables agentd timestamps now params).1 = .ran command timeout

/-- The tool respects the gate: it runs a command only if the gate took it for not
destructive, or gave no verdict and the blocklist has no pattern for it; and no
destructive command runs on an error answer. -/
def Respects (agentd : AgentdState) (timestamps : List Int) (now : Int) (params : ShellParams) :
    Prop :=
  Runs u tables agentd timestamps now params →
    (gateVerdict u agentd params.command = some false ∨
      gateVerdict u agentd params.command = none ∧ ¬ MatchesBlocklist tables params.command) ∧
    ¬ (Destructive u agentd params.command ∧ (agentdRequest u agentd params.command).IsError)

/-! ### The condition -/

/-- The fallback stops a command that the blocklist has a pattern for. -/
def Caught (cmd : JsString) : Prop := MatchesBlocklist tables cmd → matched tables cmd ≠ none

/-- The condition on agentd and the command. With a gate that counts the command as
destructive, the request must be stored, or fail without an answer. -/
def Covered (agentd : AgentdState) (cmd : JsString) : Prop :=
  match agentd with
  | .unreachable => Caught tables cmd
  | .failing reply _ =>
    match readApproval reply with
    | .pending _ => True
    | .proceed => ¬ MatchesBlocklist tables cmd
    | .unavailable => Caught tables cmd
  | .up none _ _ _ =>
    (Readable cmd → ¬ MatchesBlocklist tables cmd) ∧ (¬ Readable cmd → Caught tables cmd)
  | .up (some gate) now id insertWorks =>
    (¬ DestructiveFor u gate cmd → ¬ Readable cmd → Caught tables cmd) ∧
    (DestructiveFor u gate cmd →
      (¬ Readable cmd → matched tables cmd ≠ none) ∧
      (Readable cmd → (∀ s, decode? cmd = some s → Text.byteLen s ≤ 4096) ∧
        (RequestPanics gate now → Caught tables cmd) ∧
        (¬ RequestPanics gate now → insertWorks = true ∧ gate.rows.find? id = none)))

/-! ### How the answers are read -/

variable {u tables}

theorem runs_iff {agentd : AgentdState} {timestamps : List Int} {now : Int} {params : ShellParams} :
    Runs u tables agentd timestamps now params ↔ rateLimited timestamps now = false ∧
      match readApproval (agentdRequest u agentd params.command) with
      | .pending _ => False
      | .proceed => True
      | .unavailable => matched tables params.command = none := by
  unfold Runs shellExec
  cases rateLimited timestamps now with
  | true => simp
  | false =>
    cases readApproval (agentdRequest u agentd params.command) with
    | pending id => simp
    | proceed => simp [runShell]
    | unavailable => cases matched tables params.command <;> simp [runShell]

theorem agentdRequest_of_not_readable (u : Text.Unicode) (gate : Option ApprovalGate)
    (now : DateTime) (id : String) (insertWorks : Bool) {cmd : JsString} (h : ¬ Readable cmd) :
    readApproval (agentdRequest u (.up gate now id insertWorks) cmd) = .unavailable ∧
      (agentdRequest u (.up gate now id insertWorks) cmd).IsError := by
  unfold agentdRequest extractJson
  by_cases hlen : approvalBodyLength cmd > bodyLimit
  · simp [hlen, readApproval, HttpReply.IsError]
  · cases hs : decode? cmd with
    | some s => exact absurd ⟨Nat.not_lt.mp hlen, s, hs⟩ h
    | none => simp [hlen, readApproval, HttpReply.IsError]

theorem agentdRequest_of_readable {gate : Option ApprovalGate} {now : DateTime} {id : String}
    {insertWorks : Bool} {cmd : JsString} {s : List Char} (hlen : approvalBodyLength cmd ≤ bodyLimit)
    (hs : decode? cmd = some s) :
    agentdRequest u (.up gate now id insertWorks) cmd =
      (approvalRequestHandler u gate now id insertWorks
        ⟨String.ofList s, some "openclaw.agent", "shell_exec", none⟩).1 := by
  simp [agentdRequest, extractJson, Nat.not_lt.mpr hlen, hs]

/-! ### The gate's answer to a request it can read -/

section Gate

variable {gate : ApprovalGate} {cmd : JsString} {s : List Char}

theorem destructiveFor_iff (hs : decode? cmd = some s) : DestructiveFor u gate cmd ↔
    isDestructive u gate.extraPatterns (String.ofList s) = true := by
  simp [DestructiveFor, hs]

variable (hlen : approvalBodyLength cmd ≤ bodyLimit) (hs : decode? cmd = some s)

variable (now : DateTime) (id : String) (insertWorks : Bool)

include hlen hs

/-- What is not destructive gets a verdict and the tool goes on. -/
theorem answer_of_safe (hsafe : ¬ DestructiveFor u gate cmd) :
    readApproval (agentdRequest u (.up (some gate) now id insertWorks) cmd) = .proceed ∧
      gateVerdict u (.up (some gate) now id insertWorks) cmd = some false := by
  rw [destructiveFor_iff hs] at hsafe
  rw [agentdRequest_of_readable hlen hs]
  constructor
  · simp [approvalRequestHandler, hsafe, ApprovalResponse.toJson, readApproval, Json.get?,
      List.lookup_cons]
  · simp [gateVerdict, Nat.not_lt.mpr hlen, hs, hsafe]

variable (hdestr : DestructiveFor u gate cmd)

include hdestr

/-- A destructive command gets the verdict of the request, and its reply. -/
theorem answer_of_destructive :
    agentdRequest u (.up (some gate) now id insertWorks) cmd =
      (match requestApprovalOn insertWorks gate now id (String.ofList s) "openclaw.agent"
          "shell_exec" none with
        | (.ok approval, _) => .json 201 (ApprovalResponse.ofPending approval).toJson
        | (.err e, _) => .json 500 (errorBody e)
        | (.panic, _) => .dropped) ∧
    gateVerdict u (.up (some gate) now id insertWorks) cmd =
      (match requestApprovalOn insertWorks gate now id (String.ofList s) "openclaw.agent"
          "shell_exec" none with
        | (.ok _, _) => some true
        | _ => none) := by
  rw [destructiveFor_iff hs] at hdestr
  rw [agentdRequest_of_readable hlen hs]
  constructor
  · simp only [approvalRequestHandler, hdestr, Option.getD_some, Bool.not_true, Bool.false_eq_true,
      if_false]
    split <;> simp_all
  · simp [gateVerdict, Nat.not_lt.mpr hlen, hs, hdestr]

theorem answer_of_error {e : String} {gate' : ApprovalGate}
    (hreq : requestApprovalOn insertWorks gate now id (String.ofList s) "openclaw.agent"
      "shell_exec" none = (.err e, gate')) :
    readApproval (agentdRequest u (.up (some gate) now id insertWorks) cmd) = .proceed ∧
      (agentdRequest u (.up (some gate) now id insertWorks) cmd).IsError := by
  rw [(answer_of_destructive hlen hs now id insertWorks hdestr).1, hreq]
  exact ⟨rfl, by simp [HttpReply.IsError]⟩

end Gate

/-! ### When the tool respects the gate -/

/-- What a call within the rate limit must meet, by the way the answer is read. -/
def Settles (u : Text.Unicode) (tables : CaseTables) (agentd : AgentdState) (cmd : JsString) :
    Prop :=
  (match readApproval (agentdRequest u agentd cmd) with
    | .pending _ => False
    | .proceed => True
    | .unavailable => matched tables cmd = none) →
  (gateVerdict u agentd cmd = some false ∨
    gateVerdict u agentd cmd = none ∧ ¬ MatchesBlocklist tables cmd) ∧
  ¬ (Destructive u agentd cmd ∧ (agentdRequest u agentd cmd).IsError)

theorem respects_iff {agentd : AgentdState} {timestamps : List Int} {now : Int}
    {params : ShellParams} :
    Respects u tables agentd timestamps now params ↔
      (rateLimited timestamps now = false → Settles u tables agentd params.command) := by
  unfold Respects Settles
  rw [runs_iff, and_imp]

theorem caught_iff {cmd : JsString} :
    Caught tables cmd ↔ (matched tables cmd = none → ¬ MatchesBlocklist tables cmd) :=
  ⟨fun h hnone hmatch => h hmatch hnone, fun h hmatch hnone => h hnone hmatch⟩

/-- Where no gate counts the command as destructive and none gives a verdict, only the
blocklist matters. -/
theorem settles_of_no_verdict {agentd : AgentdState} {cmd : JsString}
    (hdestr : ¬ Destructive u agentd cmd) (hverdict : gateVerdict u agentd cmd = none) :
    Settles u tables agentd cmd ↔
      match readApproval (agentdRequest u agentd cmd) with
      | .pending _ => True
      | .proceed => ¬ MatchesBlocklist tables cmd
      | .unavailable => Caught tables cmd := by
  unfold Settles
  rw [hverdict]
  cases readApproval (agentdRequest u agentd cmd) <;> simp [hdestr, caught_iff]

theorem not_destructive_of_no_gate {agentd : AgentdState} {cmd : JsString}
    (h : ∀ gate now id insertWorks, agentd ≠ .up (some gate) now id insertWorks) :
    ¬ Destructive u agentd cmd := by
  rintro ⟨gate, now, id, insertWorks, rfl, -⟩
  exact h gate now id insertWorks rfl

theorem destructive_up {gate : ApprovalGate} {now : DateTime} {id : String} {insertWorks : Bool}
    {cmd : JsString} :
    Destructive u (.up (some gate) now id insertWorks) cmd ↔ DestructiveFor u gate cmd := by
  constructor
  · rintro ⟨gate', now', id', insertWorks', heq, hdestr⟩
    cases heq
    exact hdestr
  · intro hdestr
    exact ⟨gate, now, id, insertWorks, rfl, hdestr⟩

theorem gateVerdict_of_not_readable (u : Text.Unicode) (gate : Option ApprovalGate)
    (now : DateTime) (id : String) (insertWorks : Bool) {cmd : JsString} (h : ¬ Readable cmd) :
    gateVerdict u (.up gate now id insertWorks) cmd = none := by
  cases gate with
  | none => rfl
  | some gate =>
    unfold gateVerdict
    by_cases hlen : approvalBodyLength cmd > bodyLimit
    · simp [hlen]
    · cases hs : decode? cmd with
      | none => simp
      | some s => exact absurd ⟨Nat.not_lt.mp hlen, s, hs⟩ h

/-- agentd without a gate answers every request it can read with an error report. -/
theorem settles_without_gate {now : DateTime} {id : String} {insertWorks : Bool} {cmd : JsString} :
    Settles u tables (.up none now id insertWorks) cmd ↔
      Covered u tables (.up none now id insertWorks) cmd := by
  rw [settles_of_no_verdict (not_destructive_of_no_gate (by simp)) rfl]
  by_cases hread : Readable cmd
  · have ⟨hlen, s, hs⟩ := hread
    have hproceed : readApproval (agentdRequest u (.up none now id insertWorks) cmd) = .proceed := by
      rw [agentdRequest_of_readable hlen hs]
      rfl
    simp [hproceed, Covered, hread]
  · simp [(agentdRequest_of_not_readable u none now id insertWorks hread).1, Covered, hread]

/-- An error report is read as leave to run the command. -/
theorem not_settles_of_error {gate gate' : ApprovalGate} {now : DateTime} {id e : String}
    {insertWorks : Bool} {cmd : JsString} {s : List Char}
    (hlen : approvalBodyLength cmd ≤ bodyLimit) (hs : decode? cmd = some s)
    (hdestr : DestructiveFor u gate cmd)
    (hreq : requestApprovalOn insertWorks gate now id (String.ofList s) "openclaw.agent"
      "shell_exec" none = (.err e, gate')) :
    ¬ Settles u tables (.up (some gate) now id insertWorks) cmd := by
  intro hsettles
  obtain ⟨hproceed, herror⟩ := answer_of_error hlen hs now id insertWorks hdestr hreq
  unfold Settles at hsettles
  rw [hproceed] at hsettles
  exact (hsettles trivial).2 ⟨destructive_up.mpr hdestr, herror⟩

/-- A request of a command that fits is written down, refused for want of space, or panics. -/
theorem settles_of_fits {gate : ApprovalGate} {now : DateTime} {id : String} {insertWorks : Bool}
    {cmd : JsString} {s : List Char} (hlen : approvalBodyLength cmd ≤ bodyLimit)
    (hs : decode? cmd = some s) (hdestr : DestructiveFor u gate cmd)
    (hfits : Text.byteLen (String.ofList s).toList ≤ 4096) :
    Settles u tables (.up (some gate) now id insertWorks) cmd ↔
      (RequestPanics gate now → Caught tables cmd) ∧
        (¬ RequestPanics gate now → insertWorks = true ∧ gate.rows.find? id = none) := by
  obtain ⟨hreply, hverdict⟩ := answer_of_destructive hlen hs now id insertWorks hdestr
  by_cases hpanics : RequestPanics gate now
  · have hreq : (requestApprovalOn insertWorks gate now id (String.ofList s) "openclaw.agent"
        "shell_exec" none).1 = .panic :=
      requestApprovalOn_of_panics hfits (by decide) (by decide) hpanics
    obtain ⟨gate', hcall⟩ : ∃ gate', requestApprovalOn insertWorks gate now id (String.ofList s)
        "openclaw.agent" "shell_exec" none = (.panic, gate') := ⟨_, Prod.ext hreq rfl⟩
    rw [hcall] at hreply hverdict
    unfold Settles
    rw [hverdict, hreply]
    simp [readApproval, HttpReply.IsError, hpanics, caught_iff]
  · have hreq : if insertWorks = true ∧ gate.rows.find? id = none then
        ∃ row gate', requestApprovalOn insertWorks gate now id (String.ofList s) "openclaw.agent"
          "shell_exec" none = (.ok row, gate') ∧ row.status = .pending
        else ∃ e, requestApprovalOn insertWorks gate now id (String.ofList s) "openclaw.agent"
          "shell_exec" none = (.err e, gate) :=
      requestApprovalOn_of_not_panics hfits (by decide) (by decide) hpanics
    split at hreq
    · rename_i hstored
      obtain ⟨row, gate', hok, hpending⟩ := hreq
      have hasked : readApproval (agentdRequest u (.up (some gate) now id insertWorks) cmd) =
          .pending (some (.str row.id)) := by
        rw [hreply, hok]
        simp [readApproval, ApprovalResponse.ofPending, ApprovalResponse.toJson, Json.get?,
          List.lookup_cons, hpending, ApprovalStatus.text]
      unfold Settles
      rw [hasked]
      simp [hpanics, hstored]
    · rename_i hnot
      obtain ⟨e, herr⟩ := hreq
      constructor
      · intro hsettles
        exact absurd hsettles (not_settles_of_error hlen hs hdestr herr)
      · intro h
        exact absurd (h.2 hpanics) hnot

/-- A gate counts the command as destructive and is given the request. -/
theorem settles_of_destructive {gate : ApprovalGate} {now : DateTime} {id : String}
    {insertWorks : Bool} {cmd : JsString} {s : List Char} (hread : Readable cmd)
    (hlen : approvalBodyLength cmd ≤ bodyLimit) (hs : decode? cmd = some s)
    (hdestr : DestructiveFor u gate cmd) :
    Settles u tables (.up (some gate) now id insertWorks) cmd ↔
      Covered u tables (.up (some gate) now id insertWorks) cmd := by
  by_cases hlong : 4096 < Text.byteLen s
  · have hreq : requestApprovalOn insertWorks gate now id (String.ofList s) "openclaw.agent"
        "shell_exec" none = (.err "command too long (max 4096 bytes)", gate) :=
      requestApprovalOn_of_long (by rwa [String.toList_ofList])
    constructor
    · intro hsettles
      exact absurd hsettles (not_settles_of_error hlen hs hdestr hreq)
    · intro hcovered
      exact absurd ((hcovered.2 hdestr).2 hread).1 fun hfits => Nat.not_le.mpr hlong (hfits s hs)
  · have hbound : ∀ t, decode? cmd = some t → Text.byteLen t ≤ 4096 := by
      intro t ht
      obtain rfl : s = t := Option.some.inj (hs.symm.trans ht)
      exact Nat.not_lt.mp hlong
    rw [settles_of_fits hlen hs hdestr (by rw [String.toList_ofList]; exact hbound s hs)]
    constructor
    · intro h
      exact ⟨fun hnot => absurd hdestr hnot,
        fun _ => ⟨fun hnot => absurd hread hnot, fun _ => ⟨hbound, h⟩⟩⟩
    · intro h
      exact ((h.2 hdestr).2 hread).2

/-- A gate that is given the request. -/
theorem settles_with_gate {gate : ApprovalGate} {now : DateTime} {id : String} {insertWorks : Bool}
    {cmd : JsString} :
    Settles u tables (.up (some gate) now id insertWorks) cmd ↔
      Covered u tables (.up (some gate) now id insertWorks) cmd := by
  by_cases hread : Readable cmd
  · have ⟨hlen, s, hs⟩ := hread
    by_cases hdestr : DestructiveFor u gate cmd
    · exact settles_of_destructive hread hlen hs hdestr
    · obtain ⟨hproceed, hverdict⟩ := answer_of_safe hlen hs now id insertWorks hdestr
      simp [Settles, hproceed, hverdict, Covered, hdestr, hread, destructive_up]
  · obtain ⟨hunavailable, herror⟩ := agentdRequest_of_not_readable u (some gate) now id insertWorks
      hread
    have hverdict := gateVerdict_of_not_readable u (some gate) now id insertWorks hread
    unfold Settles
    rw [hunavailable, hverdict, destructive_up]
    constructor
    · intro hsettles
      refine ⟨fun _ _ => caught_iff.mpr fun hnone => ?_, fun hdestr => ⟨fun _ hnone => ?_, ?_⟩⟩
      · obtain hsafe | ⟨-, hfree⟩ := (hsettles hnone).1
        · cases hsafe
        · exact hfree
      · exact (hsettles hnone).2 ⟨hdestr, herror⟩
      · intro hcan
        exact absurd hcan hread
    · rintro ⟨hsafe, hdestructive⟩ hnone
      have hnot : ¬ DestructiveFor u gate cmd := by
        intro hdestr
        exact (hdestructive hdestr).1 hread hnone
      exact ⟨.inr ⟨rfl, caught_iff.mp (hsafe hnot hread) hnone⟩, fun h => hnot h.1⟩

/-- **`shell_exec` respects the gate** exactly when the call is over the rate limit, or
agentd and the command meet the condition. -/
theorem shellExec_respects_iff (agentd : AgentdState) (timestamps : List Int) (now : Int)
    (params : ShellParams) :
    Respects u tables agentd timestamps now params ↔
      rateLimited timestamps now = true ∨ Covered u tables agentd params.command := by
  have hsettles : Settles u tables agentd params.command ↔ Covered u tables agentd params.command := by
    cases agentd with
    | unreachable => exact settles_of_no_verdict (not_destructive_of_no_gate (by simp)) rfl
    | failing reply isError =>
      exact settles_of_no_verdict (not_destructive_of_no_gate (by simp)) rfl
    | up gate clock id insertWorks =>
      cases gate with
      | none => exact settles_without_gate
      | some gate => exact settles_with_gate
  rw [respects_iff, hsettles]
  cases rateLimited timestamps now <;> simp

end Tool

/-! ### Error reports that let a command run -/

section Departures

def epoch : DateTime := ⟨0, DateTime.zero_inRange⟩

/-- Without a gate, agentd's error report lets `rm -rf /srv` run, which the blocklist
stops when agentd is down. With a gate whose database cannot insert, the error report
lets `reboot` run. -/
theorem errorReport_runs :
    ¬ Respects .ascii .ascii (.up none epoch "a1" true) [] 0 ⟨utf16 "rm -rf /srv", none⟩ ∧
      ¬ Respects .ascii .ascii (.up (some (.new [])) epoch "a1" false) [] 0
        ⟨utf16 "reboot", none⟩ := by
  constructor
  · intro h
    have hcovered := settles_without_gate.mp (respects_iff.mp h rfl)
    exact hcovered.1 ⟨by decide, _, decode?_utf16 _⟩ ⟨"rm -rf", by decide, by decide⟩
  · intro h
    have hcovered := settles_with_gate.mp (respects_iff.mp h rfl)
    have hdestr : DestructiveFor .ascii (.new []) (utf16 "reboot") :=
      ⟨"reboot".toList, decode?_utf16 _, by rw [String.ofList_toList]; decide⟩
    have hruns : ¬ RequestPanics (.new []) epoch := by
      rintro (hpoisoned | hexpiry)
      · cases hpoisoned
      · revert hexpiry
        decide
    have hworks := ((hcovered.2 hdestr).2 ⟨by decide, _, decode?_utf16 _⟩).2.2 hruns
    exact Bool.noConfusion hworks.1

end Departures

end OsModa.Bridge
