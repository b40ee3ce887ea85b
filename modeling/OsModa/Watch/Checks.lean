import OsModa.Base.Outcome
import OsModa.Base.Text

/-!
Health checks: what is accepted as one, and how a list of them is run.

`probe` stands for running the command of a check or connecting to its port: the text of
the failure, if it fails.
-/

namespace OsModa.Watch

open OsModa.Text

inductive HealthCheck where
  | systemdUnit (unit : String)
  | tcpPort (host : String) (port : UInt16)
  | httpGet (url : String) (expectStatus : UInt16)
  | command (cmd : String) (args : List String)
  deriving DecidableEq

/-! ### Validation -/

/-- Validate a systemd unit name — only safe characters allowed. -/
def validateUnitName (unit : String) : Except String Unit :=
  if unit.isEmpty || 256 < unit.utf8ByteSize then .error "unit name must be 1-256 characters"
  else if !unit.toList.all fun c => c.isAlphanum || c = '@' || c = '.' || c = '_' || c = '-' then
    .error ("invalid characters in unit name: " ++ unit)
  else .ok ()

def blockedBasenames : List String :=
  ["sh", "bash", "zsh", "dash", "fish", "csh", "tcsh", "env", "python", "python3", "perl", "ruby",
    "node", "lua"]

/-- `rsplit('/').next()`. -/
def basename (cmd : List Char) : List Char := (cmd.reverse.takeWhile (· ≠ '/')).reverse

/-- Validate that a command path is allowed. -/
def validateCommand (cmd : String) : Except String Unit :=
  if cmd.toList.head? ≠ some '/' then .error ("command must be an absolute path, got: " ++ cmd)
  else if String.ofList (basename cmd.toList) ∈ blockedBasenames then
    .error ("shell interpreters are blocked for security: " ++ cmd)
  else if contains cmd.toList ['.', '.'] then .error "command path must not contain '..'"
  else .ok ()

/-- The part before the first `://`. -/
def urlScheme : List Char → List Char
  | [] => []
  | c :: s => if "://".toList <+: c :: s then [] else c :: urlScheme s

/-- Validate that a URL uses an allowed scheme (http/https only). -/
def validateUrl (u : Unicode) (url : String) : Except String Unit :=
  let lower := toLowercase u url.toList
  if "http://".toList <+: lower ∨ "https://".toList <+: lower then .ok ()
  else
    .error ("URL must use http:// or https:// scheme, got: " ++ String.ofList (urlScheme url.toList))

def shellMetachars : List Char :=
  ['$', '\x60', '|', ';', '&', '(', ')', '\x7b', '\x7d', '<', '>', '!', '\\', '\n', '\x0d', '\x00']

/-- Validate that command arguments don't contain shell metacharacters. -/
def validateArgs : List String → Except String Unit
  | [] => .ok ()
  | arg :: args =>
    match arg.toList.find? (· ∈ shellMetachars) with
    | some bad =>
      .error ("argument contains shell metacharacter '" ++ bad.toString ++ "': " ++ arg)
    | none => validateArgs args

/-- Validate a single health check definition. -/
def validateHealthCheck (u : Unicode) : HealthCheck → Except String Unit
  | .systemdUnit unit => validateUnitName unit
  | .command cmd args => (validateCommand cmd).bind fun _ => validateArgs args
  | .httpGet url _ => validateUrl u url
  | .tcpPort .. => .ok ()

/-- Validate the checks of a request in turn: the error of the first that is refused. -/
def firstInvalid (u : Unicode) : List HealthCheck → Option String
  | [] => none
  | check :: checks =>
    match validateHealthCheck u check with
    | .error e => some e
    | .ok () => firstInvalid u checks

/-! ### Running -/

/-- Why a check fails. -/
def checkFailure (u : Unicode) (probe : HealthCheck → Option String) (check : HealthCheck) :
    Option String :=
  match validateHealthCheck u check with
  | .error e => some ("invalid health check: " ++ e)
  | .ok () => probe check

/-- Run all health checks for a switch session: whether all passed, and the reasons of
those that failed. -/
def runHealthChecks (u : Unicode) (probe : HealthCheck → Option String)
    (checks : List HealthCheck) : Bool × List String :=
  let failures := checks.filterMap (checkFailure u probe)
  (failures.isEmpty, failures)

end OsModa.Watch
