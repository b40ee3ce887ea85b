import OsModa.Base.Regex
import OsModa.Agentd.ApprovalApi

/-!
The PreToolUse hook of the claude-code agent, and the approval gate behind it.

Claude runs the hook before each tool call. The hook asks agentd about a Bash command
and blocks it when agentd says no. A reply that is not JSON, a dropped connection and a
timeout all count as an unreachable agentd: then a small list of catastrophic patterns
decides.

Main result: the condition under which the hook lets exactly the commands run that the
gate's policy allows (`hook_enforces_iff`).
-/

namespace OsModa.Gateway

open OsModa.Agentd OsModa.Js

/-! ### Classifying a tool call -/

def gatedTools : List String := ["Bash", "Write", "Edit", "MultiEdit", "NotebookEdit"]

/-- Paths whose modification could disable the guardrails or leak secrets. -/
def selfProtect : List String :=
  ["/var/lib/osmoda/config/credentials", "/var/lib/osmoda/config/gateway-token",
   "/var/lib/osmoda/config/claude-settings.json", "/authorized_keys", "/.ssh/", "id_ed25519",
   "id_rsa"]

/-- The fields of a tool's input that the hook reads, as strings. -/
structure ToolInput where
  command : Option JsString
  filePath : Option JsString
  notebookPath : Option JsString

inductive GatedKind where
  | skip
  | bash (command : JsString)
  | write (path : JsString)

/-- Classify a tool call into what must be checked. -/
def gatedKind (toolName : String) (toolInput : Option ToolInput) : GatedKind :=
  if toolName ∉ gatedTools then .skip
  else if toolName = "Bash" then .bash ((toolInput.bind (·.command)).getD [])
  else .write (((toolInput.bind (·.filePath)).orElse
    fun _ => toolInput.bind (·.notebookPath)).getD [])

/-- True if writing the path could disable guardrails or leak secrets. -/
def isSelfProtected (path : JsString) : Bool :=
  path ≠ [] && selfProtect.any fun p => includes path (utf16 p)

/-! ### The catastrophic backstop -/

section Patterns

/-- `\w`. -/
def isWord (a : UInt16) : Bool :=
  (48 ≤ a && a ≤ 57) || (65 ≤ a && a ≤ 90) || (97 ≤ a && a ≤ 122) || a = 95

/-- A literal text. -/
def lit (s : String) : Regex UInt16 := .all ((utf16 s).map fun a => .one (· = a))

/-- A literal text under the flag `i`, given in lower case. -/
def litI (s : String) : Regex UInt16 := .all ((utf16 s).map fun a => .one (lowerUnit · = a))

/-- `[a-z]` under the flag `i`. -/
def isLetter (a : UInt16) : Bool := 97 ≤ lowerUnit a && lowerUnit a ≤ 122

def notNewline (a : UInt16) : Bool := a ≠ 10

def spaces : Regex UInt16 := .many isSpace

/-- `\brm\s+-[a-z]*r[a-z]*f?\s+\/`, the common part of the first two patterns. -/
def rmSlash : Regex UInt16 :=
  .all [.boundary, litI "rm", .plus isSpace, lit "-", .many isLetter, litI "r", .many isLetter,
    .opt (litI "f"), .plus isSpace, lit "/"]

/-- Last-resort denylist used only when agentd is unreachable. -/
def catastrophic : List (Regex UInt16) :=
  [.seq rmSlash (.alt (.one isSpace) .atEnd),
   .seq rmSlash (lit "*"),
   .all [.boundary, litI "mkfs", .boundary],
   .all [.boundary, litI "dd", .boundary, .many notNewline, .boundary, litI "of=/dev/"],
   .all [.boundary, .any [litI "shutdown", litI "reboot", litI "halt", litI "poweroff"], .boundary],
   .all [lit ":", spaces, lit "(", spaces, lit ")", spaces, lit "\x7b", spaces, lit ":", spaces,
     lit "|", spaces, lit ":", spaces, lit "&", spaces, lit "\x7d", spaces, lit ";"],
   .all [.boundary, .any [litI "curl", litI "wget"], .boundary, .many notNewline, lit "|", spaces,
     .opt (.seq (litI "sudo") (.plus isSpace)), .opt (litI "ba"), litI "sh", .boundary],
   .all [lit ">", spaces, litI "/dev/sd", .one isLetter]]

end Patterns

/-- Local catastrophic backstop, used only when agentd is unreachable. -/
def isCatastrophic (command : JsString) : Bool :=
  command ≠ [] && catastrophic.any fun re => re.test isWord command

/-! ### The hook -/

inductive Decision where
  | allow
  | deny (reason : Json)

/-- What `checkAgentd` resolves to: the fields of agentd's reply over `ok: true`, or
`ok: false`. -/
def checkAgentd (answer : Option HttpReply) : Json :=
  match answer with
  | some (.json _ (.obj fields)) => .obj (fields ++ [("ok", .bool true)])
  | some (.json _ _) => .obj [("ok", .bool true)]
  | _ => .obj [("ok", .bool false)]

/-- The value of `a || b` for a field and a text. -/
def fieldOr (field : Option Json) (default : String) : Json :=
  if Json.truthy field then field.getD .null else .str default

structure HookInput where
  toolName : String
  toolInput : Option ToolInput

/-- The decision about one tool call; `ask` is agentd's answer about a command, `none`
when there is none within two seconds. `input` is `none` when it is not JSON. -/
def hookMain (ask : JsString → Option HttpReply) (input : Option HookInput) : Decision :=
  match input with
  | none => .allow
  | some input =>
    match gatedKind input.toolName input.toolInput with
    | .skip => .allow
    | .write path =>
      if isSelfProtected path then
        .deny (.str ("Writing '" ++ String.ofList ((decode? path).getD []) ++
          "' is guardrail-protected. Have the operator make this change, " ++
          "or request approval first (approval_request → operator approves → retry)."))
      else .allow
    | .bash command =>
      let verdict := checkAgentd (ask command)
      if Json.truthy (verdict.get? "ok") then
        if Json.truthy (verdict.get? "allow") then .allow
        else .deny (fieldOr (verdict.get? "reason")
          ("Blocked by osModa ApprovalGate: this destructive command needs an approved approval_id " ++
            "(call approval_request, have the operator approve, then retry)."))
      else if isCatastrophic command then
        .deny (.str ("osModa ApprovalGate is unreachable and this matches a catastrophic pattern — " ++
          "blocked. Retry once agentd is healthy, or request approval."))
      else .allow

/-- Bytes of `JSON.stringify({ command })`. -/
def checkBodyLength (command : JsString) : Nat :=
  "\x7b\"command\":\x7d".length + stringifyLength command

section Gate

variable (u : Text.Unicode)

/-- agentd's answer while it runs with the gate enabled; `inTime` says that it comes
within the two seconds that the hook waits. -/
def askAgentd (gate : ApprovalGate) (inTime : Bool) (command : JsString) : Option HttpReply :=
  if inTime then
    some (extractJson (checkBodyLength command) (decode? command) fun s =>
      (approvalCheckCommandHandler u (some gate) ⟨String.ofList s, none⟩).1)
  else none

/-- The hook lets a Bash command run. -/
def Lets (gate : ApprovalGate) (inTime : Bool) (command : JsString) : Prop :=
  hookMain (askAgentd u gate inTime) (some ⟨"Bash", some ⟨some command, none, none⟩⟩) = .allow

/-! ### What the gate's policy says -/

/-- There is an approved, unexpired approval of exactly this command. -/
def ApprovedFor (gate : ApprovalGate) (now : DateTime) (command : JsString) : Prop :=
  ∃ row ∈ gate.rows.rows, row.status = .approved ∧ ¬ row.expiresAt < now.toRfc3339 ∧
    decode? command = some row.command.toList

/-- agentd gives the hook a verdict: it answers in time, it can read the request, and
it does not panic while it shortens a destructive command for its message. -/
def Answers (gate : ApprovalGate) (inTime : Bool) (command : JsString) : Prop :=
  inTime = true ∧ checkBodyLength command ≤ bodyLimit ∧ ∃ s, decode? command = some s ∧
    (isDestructive u gate.extraPatterns (String.ofList s) = true →
      truncate (String.ofList s) 200 ≠ none)

/-! ### The hook against the policy -/

variable {u} {gate : ApprovalGate} {inTime : Bool} {command : JsString}

theorem hookMain_bash (ask : JsString → Option HttpReply) :
    hookMain ask (some ⟨"Bash", some ⟨some command, none, none⟩⟩) = .allow ↔
      if Json.truthy ((checkAgentd (ask command)).get? "ok") then
        Json.truthy ((checkAgentd (ask command)).get? "allow") = true
      else isCatastrophic command = false := by
  unfold hookMain gatedKind gatedTools
  simp only [List.mem_cons, true_or, not_true_eq_false, if_false, if_true, Option.bind_some,
    Option.getD_some]
  split_ifs with hok hallow hcat <;> simp_all

/-- The hook reads `ok` and `allow` from agentd's response to a check. -/
theorem verdict_ok (status : Nat) (r : ApprovalCheckResponse) :
    Json.truthy ((checkAgentd (some (.json status r.toJson))).get? "ok") = true :=
  rfl

theorem verdict_allow (status : Nat) (r : ApprovalCheckResponse) :
    Json.truthy ((checkAgentd (some (.json status r.toJson))).get? "allow") = r.allow :=
  rfl

/-- With a verdict, the commands that are not destructive run, and no others: the hook
sends no approval id. -/
theorem lets_iff_of_answers (h : Answers u gate inTime command) :
    Lets u gate inTime command ↔ ¬ DestructiveFor u gate command := by
  obtain ⟨rfl, hlen, s, hs, htrunc⟩ := h
  have hask : askAgentd u gate true command =
      some (approvalCheckCommandHandler u (some gate) ⟨String.ofList s, none⟩).1 := by
    simp [askAgentd, extractJson, Nat.not_lt.mpr hlen, hs]
  have hdestr : DestructiveFor u gate command ↔
      isDestructive u gate.extraPatterns (String.ofList s) = true := by
    simp [DestructiveFor, hs]
  rw [Lets, hookMain_bash, hask, approvalCheck_none, hdestr]
  cases hd : isDestructive u gate.extraPatterns (String.ofList s) with
  | false => simp [verdict_ok, verdict_allow]
  | true =>
    cases ht : truncate (String.ofList s) 200 with
    | none => exact absurd ht (htrunc hd)
    | some shown => simp [verdict_ok, verdict_allow]

/-- Without a verdict, everything runs that is not catastrophic. -/
theorem lets_iff_of_not_answers (h : ¬ Answers u gate inTime command) :
    Lets u gate inTime command ↔ isCatastrophic command = false := by
  have hok : Json.truthy ((checkAgentd (askAgentd u gate inTime command)).get? "ok") = false := by
    unfold askAgentd extractJson
    cases inTime with
    | false => rfl
    | true =>
      by_cases hlen : checkBodyLength command ≤ bodyLimit
      · cases hs : decode? command with
        | none => simp [Nat.not_lt.mpr hlen, checkAgentd, Json.get?, Json.truthy]
        | some s =>
          have hpanic : isDestructive u gate.extraPatterns (String.ofList s) = true ∧
              truncate (String.ofList s) 200 = none := by
            by_contra hno
            exact h ⟨rfl, hlen, s, hs, fun hd ht => hno ⟨hd, ht⟩⟩
          simp [Nat.not_lt.mpr hlen, approvalCheck_none, hpanic, checkAgentd, Json.get?, Json.truthy]
      · simp [Nat.lt_of_not_le hlen, checkAgentd, Json.get?, Json.truthy]
  rw [Lets, hookMain_bash, hok]
  simp

/-- **The hook enforces the policy** exactly when agentd gives a verdict and the command
is not a destructive one that has been approved, or gives none and the command is
catastrophic just when the policy forbids it. -/
theorem hook_enforces_iff (gate : ApprovalGate) (now : DateTime) (inTime : Bool)
    (command : JsString) :
    (Lets u gate inTime command ↔
        ¬ DestructiveFor u gate command ∨ ApprovedFor gate now command) ↔
      (Answers u gate inTime command →
        DestructiveFor u gate command → ¬ ApprovedFor gate now command) ∧
      (¬ Answers u gate inTime command → (isCatastrophic command = true ↔
        DestructiveFor u gate command ∧ ¬ ApprovedFor gate now command)) := by
  by_cases h : Answers u gate inTime command
  · rw [lets_iff_of_answers h]
    simp only [h, true_implies, not_true_eq_false, false_implies, and_true]
    tauto
  · rw [lets_iff_of_not_answers h, ← Bool.not_eq_true]
    simp only [h, false_implies, not_false_eq_true, true_implies, true_and]
    tauto

end Gate

/-! ### Where the hook departs from the policy -/

section Departures

/-- An approval of `reboot`, given one minute after the epoch. -/
def rebootGate : ApprovalGate :=
  ⟨⟨[⟨"a1", "reboot", "agent", "kernel update", "1970-01-01T00:00:00+00:00",
      "1970-01-01T00:10:00+00:00", .approved, some "1970-01-01T00:01:00+00:00", some "operator"⟩],
    by simp⟩, false, []⟩

def fiveMinutes : DateTime := ⟨300000000000, by decide⟩

/-- A `pkill` whose bytes 199 and 200 belong to one character. -/
def longPkill : String := String.ofList ("pkill ".toList ++ List.replicate 193 'a' ++ ['é'])

theorem truncate_longPkill : truncate longPkill 200 = none := by
  unfold longPkill truncate
  rw [String.toList_ofList]
  decide +kernel

theorem isDestructive_longPkill : isDestructive .ascii [] longPkill = true := by
  unfold isDestructive normalizeCommand longPkill
  rw [String.toList_ofList]
  decide +kernel

theorem isCatastrophic_longPkill : isCatastrophic (utf16 longPkill) = false := by
  unfold utf16 longPkill
  rw [String.toList_ofList]
  decide +kernel

/-- An approved `reboot` is denied after request, approval and retry; a `pkill` that
nobody approved runs because agentd panics over its text. -/
theorem hook_departs :
    (DestructiveFor .ascii rebootGate (utf16 "reboot") ∧
      ApprovedFor rebootGate fiveMinutes (utf16 "reboot") ∧
      ¬ Lets .ascii rebootGate true (utf16 "reboot")) ∧
    DestructiveFor .ascii (.new []) (utf16 longPkill) ∧
      (∀ now, ¬ ApprovedFor (.new []) now (utf16 longPkill)) ∧
      Lets .ascii (.new []) true (utf16 longPkill) := by
  have hreboot : isDestructive .ascii rebootGate.extraPatterns "reboot" = true := by decide
  have hanswers : Answers .ascii rebootGate true (utf16 "reboot") := by
    refine ⟨rfl, by decide, "reboot".toList, decode?_utf16 _, fun _ => ?_⟩
    rw [String.ofList_toList]
    decide
  have hdestr : DestructiveFor .ascii rebootGate (utf16 "reboot") :=
    ⟨"reboot".toList, decode?_utf16 _, by rwa [String.ofList_toList]⟩
  have hlong : DestructiveFor .ascii (.new []) (utf16 longPkill) :=
    ⟨longPkill.toList, decode?_utf16 _, by rw [String.ofList_toList]; exact isDestructive_longPkill⟩
  have hpanic : ¬ Answers .ascii (.new []) true (utf16 longPkill) := by
    rintro ⟨-, -, s, hs, htrunc⟩
    obtain rfl : longPkill.toList = s := by simpa using hs
    rw [String.ofList_toList] at htrunc
    exact htrunc isDestructive_longPkill truncate_longPkill
  refine ⟨⟨hdestr, ?_, ?_⟩, hlong, ?_, ?_⟩
  · exact ⟨_, List.mem_singleton.mpr rfl, rfl, by decide, decode?_utf16 _⟩
  · rw [lets_iff_of_answers hanswers]
    exact fun h => h hdestr
  · rintro now ⟨row, hrow, -⟩
    exact absurd hrow List.not_mem_nil
  · rw [lets_iff_of_not_answers hpanic]
    exact isCatastrophic_longPkill

end Departures

end OsModa.Gateway
