import OsModa.Base.Encoding
import OsModa.Base.Text
import OsModa.Base.Time

/-!
A routine: what triggers it, what it does, and when it should run.

`last_run` is kept as text; the model keeps the reading and asks whether its text is read
back. A cron expression is matched field by field against the calendar minute of a reading.
An action is validated when a routine is added, and its command or URL again when it is
executed.
-/

namespace OsModa.Routines

open OsModa.Text OsModa.Encoding

inductive Trigger where
  | cron (expression : String)
  | interval (seconds : UInt64)
  | event (eventType : String)
  deriving DecidableEq

def Trigger.isInterval : Trigger → Bool
  | .interval _ => true
  | _ => false

def Trigger.isCron : Trigger → Bool
  | .cron _ => true
  | _ => false

inductive RoutineAction where
  | healthCheck
  | serviceMonitor (units : List String)
  | logScan (priority : String)
  | memoryMaintenance
  | command (cmd : String) (args : List String)
  | webhook (url method : String) (body : Option String)
  deriving DecidableEq

structure Routine where
  id : String
  name : String
  trigger : Trigger
  action : RoutineAction
  enabled : Bool
  lastRun : Option DateTime
  runCount : UInt64
  deriving DecidableEq

/-! ### Validation -/

/-- Shell interpreters: these allow arbitrary code execution via -c. -/
def blockedBinaries : List String :=
  ["/bin/sh", "/bin/bash", "/bin/zsh", "/bin/dash", "/bin/fish", "/bin/csh", "/bin/tcsh",
    "/usr/bin/sh", "/usr/bin/bash", "/usr/bin/zsh", "/usr/bin/dash", "/usr/bin/fish",
    "/usr/bin/env", "/usr/bin/python", "/usr/bin/python3", "/usr/bin/perl", "/usr/bin/ruby",
    "/usr/bin/node", "/usr/bin/lua",
    "/run/current-system/sw/bin/sh", "/run/current-system/sw/bin/bash",
    "/run/current-system/sw/bin/zsh", "/run/current-system/sw/bin/env",
    "/run/current-system/sw/bin/python", "/run/current-system/sw/bin/python3",
    "/run/current-system/sw/bin/perl", "/run/current-system/sw/bin/ruby",
    "/run/current-system/sw/bin/node"]

def blockedBasenames : List String :=
  ["sh", "bash", "zsh", "dash", "fish", "csh", "tcsh",
    "env", "python", "python3", "perl", "ruby", "node", "lua"]

/-- `s.rsplit('/').next()`: what follows the last slash. -/
def basename (s : List Char) : List Char := (s.reverse.takeWhile (· ≠ '/')).reverse

/-- Validate that a command path is allowed. Rejects shell interpreters and requires
absolute paths. -/
def validateCommand (cmd : String) : Except String Unit :=
  if cmd.toList.head? ≠ some '/' then
    .error ("command must be an absolute path, got: " ++ cmd)
  else if cmd ∈ blockedBinaries ∨ basename cmd.toList ∈ blockedBasenames.map String.toList then
    .error ("shell interpreters are blocked for security: " ++ cmd)
  else if contains cmd.toList "..".toList then .error "command path must not contain '..'"
  else .ok ()

/-- `s.split(part).next()`: what precedes the first `part`. -/
def beforeFirst (part : List Char) : List Char → List Char
  | [] => []
  | c :: s => if part <+: c :: s then [] else c :: beforeFirst part s

/-- Validate that a webhook URL uses an allowed scheme (http/https only). -/
def validateWebhookUrl (u : Unicode) (url : String) : Except String Unit :=
  let lower := toLowercase u url.toList
  if "http://".toList <+: lower ∨ "https://".toList <+: lower then .ok ()
  else .error ("webhook URL must use http:// or https:// scheme, got: " ++
    String.ofList (beforeFirst "://".toList url.toList))

/-- Validate a systemd unit name — only safe characters allowed. -/
def validateUnitName (unit : String) : Except String Unit :=
  if unit = "" ∨ byteLen unit.toList > 256 then .error "unit name must be 1-256 characters"
  else if !unit.toList.all fun c =>
      c.isAlphanum || c = '@' || c = '.' || c = '_' || c = '-' then
    .error ("invalid characters in unit name: " ++ unit)
  else .ok ()

/-- Validate a routine action before allowing it to be registered. -/
def validateRoutineAction (u : Unicode) : RoutineAction → Except String Unit
  | .command cmd _ => validateCommand cmd
  | .webhook url _ _ => validateWebhookUrl u url
  | .serviceMonitor units => units.forM validateUnitName
  | .healthCheck | .logScan _ | .memoryMaintenance => .ok ()

/-! ### Schedules -/

/-- A number, a range or a step of a cron field; not a list of them. -/
def itemMatches (pattern : List Char) (value : Nat) : Bool :=
  if pattern = ['*'] then true
  else
    match (if ['*', '/'] <+: pattern then parseUnsigned 32 (pattern.drop 2) else none) with
    | some n => if n = 0 then false else value % n = 0
    | none =>
      match pattern.splitOn '-' with
      | [first, last] =>
        match parseUnsigned 32 first, parseUnsigned 32 last with
        | some start, some stop => start ≤ value ∧ value ≤ stop
        | _, _ => parseUnsigned 32 pattern = some value
      | _ => parseUnsigned 32 pattern = some value

/-- A pattern with a comma is no number, range or step; its parts hold none, so the
recursion of the source ends with them. -/
def fieldMatches (u : Unicode) (pattern : List Char) (value : Nat) : Bool :=
  if ',' ∈ pattern then (pattern.splitOn ',').any fun part => itemMatches (trim u part) value
  else itemMatches pattern value

/-- Minute, hour, day of the month, month and day of the week (from Sunday) of a reading. -/
def calendarFields (now : DateTime) : List Nat :=
  let secs := now.nanos / 1000000000
  let days := secs / 86400
  let (_, month, day) := DateTime.civilFromDays days
  [(secs / 60 % 60).toNat, (secs / 3600 % 24).toNat, day.toNat, month.toNat,
    ((days + 4) % 7).toNat]

/-- Format: "minute hour dom month dow". -/
def cronMatches (u : Unicode) (expression : String) (now : DateTime) : Bool :=
  let parts := splitWhitespace u expression.toList
  if parts.length ≠ 5 then false
  else (parts.zip (calendarFields now)).all fun (pattern, value) => fieldMatches u pattern value

namespace Routine

variable (u : Unicode)

def shouldRun (r : Routine) (now : DateTime) : Bool :=
  if !r.enabled then false
  else
    match r.trigger with
    | .interval seconds =>
      match r.lastRun with
      | some last => if last.isReadable then last.elapsed now seconds else true
      | none => true
    | .cron expression => cronMatches u expression now
    | .event _ => false

/-- `last_run` and `run_count` after a run at that time. -/
def ran (r : Routine) (now : DateTime) : Routine :=
  { r with lastRun := some now, runCount := r.runCount + 1 }

@[simp] theorem ran_id (r : Routine) (now : DateTime) : (r.ran now).id = r.id := rfl
@[simp] theorem ran_trigger (r : Routine) (now : DateTime) : (r.ran now).trigger = r.trigger := rfl
@[simp] theorem ran_lastRun (r : Routine) (now : DateTime) : (r.ran now).lastRun = some now := rfl

theorem ran_runCount_ne (r : Routine) (now : DateTime) : (r.ran now).runCount ≠ r.runCount := by
  intro h
  have hnat := congrArg UInt64.toNat h
  have hlt := r.runCount.toNat_lt
  simp only [ran, UInt64.toNat_add, UInt64.toNat_one] at hnat
  omega

theorem ran_ne (r : Routine) (now : DateTime) : r.ran now ≠ r := fun h =>
  r.ran_runCount_ne now (congrArg Routine.runCount h)

end Routine

/-- Create the default set of routines (matching HEARTBEAT.md). -/
def defaultRoutines : List Routine :=
  [⟨"default-health", "Health Check", .interval 300, .healthCheck, true, none, 0⟩,
    ⟨"default-services", "Service Monitor", .interval 600,
      .serviceMonitor ["osmoda-agentd", "osmoda-gateway", "sshd"], true, none, 0⟩,
    ⟨"default-logscan", "Log Scan", .interval 900, .logScan "err", true, none, 0⟩]

end OsModa.Routines
