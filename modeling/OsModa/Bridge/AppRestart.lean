import OsModa.Base.JsMap
import OsModa.Base.JsValue
import OsModa.Base.Outcome

/-!
The apps of the bridge: transient units of systemd, and the registry that they are started from
again.

`app_deploy` starts a unit from its parameters and stores them, `app_restart` starts one from what
is stored. Each puts the arguments together by itself. The name of the user is what they disagree
on: it is cleaned for the first start, and stored and given to the second as it came
(`appRestart_redeploys_iff`).
-/

namespace OsModa.Bridge

open OsModa.Js

/-- The answer of a tool that does not do what it was asked for. -/
inductive ToolError where
  | error (text : JsString)
  /-- With the text of what was thrown. -/
  | thrown

abbrev Answer := Except ToolError

def refuseIf (condition : Bool) (text : JsString) : Answer Unit :=
  if condition then .error (.error text) else .ok ()

/-- `String(v)`, of a value -/
def textOf (v : Value) : Answer JsString := orError v.toText .thrown

/-- `v ? String(v) : undefined` -/
def textIf : Option Value → Answer (Option JsString)
  | some v => if Value.truthy (some v) then (textOf v).map some else .ok none
  | none => .ok none

/-- `String(v || "").trim()` -/
def trimmedText (v : Option Value) : Answer JsString := (textIf v).map fun text => trim (text.getD [])

/-! ### Names -/

/-- `[a-zA-Z0-9]` -/
def isAlphanumeric (a : UInt16) : Bool :=
  (97 ≤ a && a ≤ 122) || (65 ≤ a && a ≤ 90) || (48 ≤ a && a ≤ 57)

/-- `[a-zA-Z0-9_-]` -/
def isNameUnit (a : UInt16) : Bool := isAlphanumeric a || a = 95 || a = 45

/-- `[a-zA-Z0-9_]` -/
def isKeyUnit (a : UInt16) : Bool := isAlphanumeric a || a = 95

/-- 1-64 units, `/^[a-zA-Z0-9][a-zA-Z0-9_-]*$/` -/
def isAppName (name : JsString) : Bool :=
  name.length ≤ 64 && match name with
    | [] => false
    | a :: rest => isAlphanumeric a && rest.all isNameUnit

def getAppUnitName (name : JsString) : JsString :=
  utf16 "osmoda-app-" ++ name.map fun a => if isNameUnit a then a else 45

def validRestartPolicies : List JsString :=
  ["no", "on-failure", "on-abnormal", "on-watchdog", "on-abort", "always"].map utf16

def validateRestartPolicy : Option Value → JsString
  | some (.string policy) =>
    if validRestartPolicies.contains policy then policy else utf16 "on-failure"
  | _ => utf16 "on-failure"

/-! ### The registry -/

inductive AppStatus where
  | running
  | stopped
  | removed
  deriving DecidableEq

structure AppEntry where
  name : JsString
  command : JsString
  args : Option (List JsString)
  workingDir : Option JsString
  env : Option Value
  memoryMax : Option JsString
  cpuQuota : Option JsString
  restartPolicy : JsString
  port : Option Value
  user : Option JsString
  createdAt : JsString
  status : AppStatus

/-- An entry that was written to the file and is read back. -/
def AppEntry.saved (app : AppEntry) : AppEntry :=
  { app with env := app.env.map Value.saved, port := app.port.map Value.saved }

/-- The registry, as it is read from its file. -/
abbrev AppRegistry := JsMap JsString AppEntry

/-! ### Arguments of `systemd-run` -/

/-- An argument that is there if the value is: `if (v) args.push(...)`, of a text. -/
def pushIf (option : String) (v : Option JsString) : List JsString :=
  ((v.filter (· ≠ [])).map (utf16 option ++ ·)).toList

/-- What both start a unit with. -/
def unitArgs (unitName restartPolicy : JsString) : List JsString :=
  [utf16 "--unit", unitName, utf16 "--service-type=simple",
    utf16 "--property=Restart=" ++ restartPolicy, utf16 "--property=StartLimitIntervalSec=0",
    utf16 "--property=RestartSec=3"]

def dynamicUser : JsString := utf16 "--property=DynamicUser=yes"

/-- `Object.entries`, of an object or an array. -/
def entries : Value → Fields
  | .object fields => fields
  | .array items => items.zipIdx.map fun item => (utf16 (toString item.2), item.1)
  | _ => []

/-- The arguments of the environment variables. -/
def setenvArgs : Fields → Answer (List JsString)
  | [] => .ok []
  | (k, v) :: rest =>
    let safeKey := k.filter isKeyUnit
    if safeKey = [] then setenvArgs rest
    else do
      let text ← textOf v
      let args ← setenvArgs rest
      return (utf16 "--setenv=" ++ safeKey ++ 61 :: text) :: args

/-! ### `app_deploy` -/

/-- What else the tool reads or tries. -/
structure DeployWorld where
  registry : AppRegistry
  isActive : JsString → Bool
  isReadable : JsString → Bool
  /-- The registry can be written. -/
  saves : Bool
  now : JsString

def sanitizeUser (user : JsString) : JsString := user.filter isNameUnit

/-- `(params.env && typeof params.env === "object") ? params.env : {}` -/
def envOf : Option Value → Value
  | some (.object fields) => .object fields
  | some (.array items) => .array items
  | _ => .object []

/-- `Array.isArray(params.args) ? params.args.map(String) : []` -/
def cmdArgsOf : Option Value → Answer (List JsString)
  | some (.array items) => items.mapM textOf
  | _ => .ok []

/-- The user that a deployed app runs as. -/
def deployUser : Option JsString → List JsString
  | some user => pushIf "--uid=" (some (sanitizeUser user))
  | none => [dynamicUser]

def appName (params : Fields) : Answer JsString := trimmedText (params.get? (utf16 "name"))

/-- The arguments that `app_deploy` runs, and the registry that it leaves in the file. -/
def appDeploy (w : DeployWorld) (params : Fields) : Answer (List JsString × AppRegistry) := do
  let name ← appName params
  refuseIf (!isAppName name) (utf16 ("name must be 1-64 chars, alphanumeric start, only " ++
    "[a-zA-Z0-9_-]"))
  let command ← trimmedText (params.get? (utf16 "command"))
  refuseIf (command.head? ≠ some 47) (utf16 "command must be an absolute path")
  let unitName := getAppUnitName name
  refuseIf (w.isActive unitName)
    (utf16 "app '" ++ name ++ utf16 "' is already running (unit: " ++ unitName ++ utf16 ")")
  let workingDir ← textIf (params.get? (utf16 "working_dir"))
  refuseIf (workingDir.any fun dir => dir ≠ [] && !w.isReadable dir)
    (utf16 "working_dir does not exist or is not readable: " ++ workingDir.getD [])
  let restartPolicy := validateRestartPolicy (params.get? (utf16 "restart_policy"))
  let user ← textIf (params.get? (utf16 "user"))
  let memoryMax ← textIf (params.get? (utf16 "memory_max"))
  let cpuQuota ← textIf (params.get? (utf16 "cpu_quota"))
  let env := envOf (params.get? (utf16 "env"))
  let setenv ← setenvArgs (entries env)
  let cmdArgs ← cmdArgsOf (params.get? (utf16 "args"))
  let args := unitArgs unitName restartPolicy ++ (deployUser user ++
    (pushIf "--working-directory=" workingDir ++
      ((memoryMax.map (utf16 "--property=MemoryMax=" ++ ·)).toList ++
        ((cpuQuota.map (utf16 "--property=CPUQuota=" ++ ·)).toList ++
          (setenv ++ utf16 "--" :: command :: cmdArgs)))))
  let app : AppEntry :=
    { name, command, workingDir, memoryMax, cpuQuota, restartPolicy, user
      args := if cmdArgs ≠ [] then some cmdArgs else none
      env := if entries env ≠ [] then some env else none
      port := match params.get? (utf16 "port") with
        | some (.number text) => some (.number text)
        | _ => none
      createdAt := w.now
      status := .running }
  if w.saves then return (args, JsMap.set w.registry name app.saved) else .error .thrown

/-! ### `app_restart` -/

inductive RestartCommand where
  | systemctlRestart (unitName : JsString)
  | systemdRun (args : List JsString)

/-- The user that a redeployed app runs as. -/
def redeployUser (user : Option JsString) : List JsString :=
  match user.filter (· ≠ []) with
  | some user => [utf16 "--uid=" ++ user]
  | none => [dynamicUser]

def redeployEnv (env : Option Value) : Answer (List JsString) :=
  if Value.truthy env then setenvArgs (env.elim [] entries) else .ok []

/-- Re-deploy from registry. -/
def redeployArgs (unitName : JsString) (app : AppEntry) : Answer (List JsString) := do
  let setenv ← redeployEnv app.env
  return unitArgs unitName app.restartPolicy ++ (redeployUser app.user ++
    (pushIf "--working-directory=" app.workingDir ++
      (pushIf "--property=MemoryMax=" app.memoryMax ++
        (pushIf "--property=CPUQuota=" app.cpuQuota ++
          (setenv ++ utf16 "--" :: app.command :: app.args.getD [])))))

/-- What `app_restart` runs, and the registry that it leaves in the file. -/
def appRestart (registry : AppRegistry) (isActive saves : Bool) (params : Fields) :
    Answer (RestartCommand × AppRegistry) := do
  let name ← appName params
  match JsMap.get? registry name with
  | none => .error (.error (utf16 "app '" ++ name ++ utf16 "' not found in registry"))
  | some app =>
    let unitName := getAppUnitName name
    let command ← if isActive then .ok (.systemctlRestart unitName)
      else (redeployArgs unitName app).map .systemdRun
    if saves then
      return (command, JsMap.set registry name { app with status := .running }.saved)
    else .error .thrown

/-! ### When the arguments are the same -/

/-- Storing the parameters loses nothing that the arguments are made of. -/
structure Redeployable (params : Fields) : Prop where
  user : ∀ text, textIf (params.get? (utf16 "user")) = .ok (some text) →
    text ≠ [] ∧ sanitizeUser text = text
  memoryMax : textIf (params.get? (utf16 "memory_max")) ≠ .ok (some [])
  cpuQuota : textIf (params.get? (utf16 "cpu_quota")) ≠ .ok (some [])
  env : ∀ field ∈ entries (envOf (params.get? (utf16 "env"))), field.1.filter isKeyUnit ≠ [] →
    field.2.saved.toText = field.2.toText

section Segments

variable {α : Type} {rank : α → Nat} {k : Nat} {l l' m m' : List α}

/-- Two lists in sequence, where the second starts with a higher rank. -/
theorem append_eq_append_iff_of_rank (hl : ∀ a ∈ l, rank a = k) (hl' : ∀ a ∈ l', rank a = k)
    (hm : ∀ a ∈ m, k < rank a) (hm' : ∀ a ∈ m', k < rank a) :
    l ++ m = l' ++ m' ↔ l = l' ∧ m = m' := by
  refine ⟨fun h => ?_, fun h => h.1 ▸ h.2 ▸ rfl⟩
  have hfirst : ∀ {x y : List α}, (∀ a ∈ x, rank a = k) → (∀ a ∈ y, k < rank a) →
      (x ++ y).filter (rank · = k) = x := by
    intro x y hx hy
    rw [List.filter_append, List.filter_eq_self.mpr fun a ha => decide_eq_true (hx a ha),
      List.filter_eq_nil_iff.mpr fun a ha heq => (hy a ha).ne' (of_decide_eq_true heq),
      List.append_nil]
  have hleft : l = l' := by rw [← hfirst hl hm, h, hfirst hl' hm']
  subst hleft
  exact ⟨rfl, List.append_cancel_left h⟩

end Segments

/-- The place of an option among the others. A letter of `--uid`, `--working-directory`, or of
the name of a property tells. -/
def optionRank (arg : JsString) : Nat :=
  match (if arg[2]? = some 112 then arg[11]? else arg[2]? : Option UInt16) with
  | some 117 | some 68 => 0
  | some 119 => 1
  | some 77 => 2
  | some 67 => 3
  | _ => 4

section Ranks

variable {arg : JsString}

theorem optionRank_of_mem {option : String} {v : Option JsString} {k : Nat}
    (hrank : ∀ text, optionRank (utf16 option ++ text) = k)
    (h : arg ∈ (v.map (utf16 option ++ ·)).toList) : optionRank arg = k := by
  obtain ⟨text, -, rfl⟩ := Option.map_eq_some_iff.mp (Option.mem_toList.mp h)
  exact hrank text

theorem optionRank_deployUser {user : Option JsString} (h : arg ∈ deployUser user) :
    optionRank arg = 0 := by
  cases user with
  | none =>
    rw [List.mem_singleton.mp h]
    rfl
  | some user =>
    exact optionRank_of_mem (fun _ => rfl) h

theorem optionRank_redeployUser {user : Option JsString} (h : arg ∈ redeployUser user) :
    optionRank arg = 0 := by
  unfold redeployUser at h
  split at h
  · rw [List.mem_singleton.mp h]
    rfl
  · rw [List.mem_singleton.mp h]
    rfl

theorem optionRank_setenvArgs {fields : Fields} {args : List JsString}
    (hok : setenvArgs fields = .ok args) (h : arg ∈ args) : optionRank arg = 4 := by
  induction fields generalizing args with
  | nil =>
    cases Except.ok.inj hok
    cases h
  | cons field rest ih =>
    obtain ⟨k, v⟩ := field
    unfold setenvArgs at hok
    dsimp only at hok
    split at hok
    · exact ih hok h
    · obtain ⟨text, -, hok⟩ := bind_eq_ok.mp hok
      obtain ⟨later, hlater, hargs⟩ := bind_eq_ok.mp hok
      cases Except.ok.inj hargs
      rcases List.mem_cons.mp h with rfl | hmem
      · rfl
      · exact ih hlater hmem

end Ranks

section Arguments

theorem deployUser_eq_redeployUser_iff {user : Option JsString} :
    deployUser user = redeployUser user ↔
      ∀ text, user = some text → text ≠ [] ∧ sanitizeUser text = text := by
  cases user with
  | none => exact iff_of_true rfl (by rintro _ ⟨⟩)
  | some text =>
    simp only [Option.some.injEq, forall_eq']
    by_cases htext : text = []
    · subst htext
      exact iff_of_false nofun fun h => h.1 rfl
    · have hre : redeployUser (some text) = [utf16 "--uid=" ++ text] := by
        simp [redeployUser, Option.filter, htext]
      rw [hre]
      by_cases hclean : sanitizeUser text = []
      · have hde : deployUser (some text) = [] := by simp [deployUser, pushIf, Option.filter, hclean]
        rw [hde]
        exact iff_of_false nofun fun h => h.1 (h.2.symm.trans hclean)
      · have hde : deployUser (some text) = [utf16 "--uid=" ++ sanitizeUser text] := by
          simp [deployUser, pushIf, Option.filter, hclean]
        rw [hde, List.singleton_inj, List.append_cancel_left_eq]
        exact (and_iff_right htext).symm

/-- An argument that the first start has for any text is there again if the text is not empty. -/
theorem option_eq_pushIf_iff (option : String) {v : Option JsString} :
    (v.map (utf16 option ++ ·)).toList = pushIf option v ↔ v ≠ some [] := by
  cases v with
  | none => exact iff_of_true rfl nofun
  | some text =>
    by_cases htext : text = []
    · subst htext
      exact iff_of_false nofun fun h => h rfl
    · simp [pushIf, Option.filter, htext]

theorem entries_saved (v : Value) : entries v.saved = Value.savedFields (entries v) := by
  have hfields : ∀ fields : Fields, Value.savedFields fields =
      fields.map fun field => (field.1, field.2.saved) := by
    intro fields
    induction fields with
    | nil => rfl
    | cons field rest ih => rw [Value.savedFields, ih, List.map_cons]
  cases v with
  | object fields => rw [Value.saved, entries, entries]
  | array items =>
    rw [Value.saved, entries, entries, hfields, Value.savedItems_eq_map, List.zipIdx_map,
      List.map_map, List.map_map]
    rfl
  | number text =>
    rw [Value.saved]
    split <;> rfl
  | null | bool _ | string _ =>
    rw [Value.saved]
    rfl

/-- The variables are set again if their texts are those of what is read back. -/
theorem setenvArgs_savedFields_iff {fields : Fields} {args : List JsString}
    (h : setenvArgs fields = .ok args) :
    setenvArgs (Value.savedFields fields) = .ok args ↔
      ∀ field ∈ fields, field.1.filter isKeyUnit ≠ [] → field.2.saved.toText = field.2.toText := by
  induction fields generalizing args with
  | nil => exact iff_of_true h nofun
  | cons field rest ih =>
    obtain ⟨k, v⟩ := field
    rw [Value.savedFields, List.forall_mem_cons]
    unfold setenvArgs at h ⊢
    dsimp only at h ⊢
    split at h
    · rename_i hkey
      rw [if_pos hkey, ih h]
      exact (and_iff_right fun hne => absurd hkey hne).symm
    · rename_i hkey
      obtain ⟨text, htext, h⟩ := bind_eq_ok.mp h
      obtain ⟨later, hlater, hargs⟩ := bind_eq_ok.mp h
      cases Except.ok.inj hargs
      rw [if_neg hkey, ← ih hlater]
      rw [textOf, orError_eq_ok] at htext
      constructor
      · intro hsaved
        obtain ⟨text', htext', hsaved⟩ := bind_eq_ok.mp hsaved
        obtain ⟨later', hlater', hargs'⟩ := bind_eq_ok.mp hsaved
        obtain ⟨hfirst, hrest⟩ := List.cons_eq_cons.mp (Except.ok.inj hargs')
        rw [List.append_cancel_left_eq, List.cons_eq_cons] at hfirst
        rw [textOf, orError_eq_ok] at htext'
        exact ⟨fun _ => by rw [htext', hfirst.2, htext], hrest ▸ hlater'⟩
      · rintro ⟨hsame, hrest⟩
        have htext' : textOf v.saved = .ok text := by
          rw [textOf, hsame hkey, htext]
          rfl
        rw [htext', hrest]
        rfl

end Arguments

section Redeploy

variable {w : DeployWorld} {params : Fields} {args : List JsString} {registry : AppRegistry}

/-- The parts that depend on values, one by one. -/
theorem startArgs_eq_iff {base tail user user' dir memory memory' quota quota' setenv setenv' :
      List JsString}
    (huser : ∀ arg ∈ user, optionRank arg = 0) (huser' : ∀ arg ∈ user', optionRank arg = 0)
    (hdir : ∀ arg ∈ dir, optionRank arg = 1)
    (hmemory : ∀ arg ∈ memory, optionRank arg = 2) (hmemory' : ∀ arg ∈ memory', optionRank arg = 2)
    (hquota : ∀ arg ∈ quota, optionRank arg = 3) (hquota' : ∀ arg ∈ quota', optionRank arg = 3)
    (hsetenv : ∀ arg ∈ setenv, optionRank arg = 4)
    (hsetenv' : ∀ arg ∈ setenv', optionRank arg = 4) :
    base ++ (user ++ (dir ++ (memory ++ (quota ++ (setenv ++ tail))))) =
        base ++ (user' ++ (dir ++ (memory' ++ (quota' ++ (setenv' ++ tail))))) ↔
      user = user' ∧ memory = memory' ∧ quota = quota' ∧ setenv = setenv' := by
  have hassoc : ∀ user memory quota setenv : List JsString,
      user ++ (dir ++ (memory ++ (quota ++ (setenv ++ tail)))) =
        user ++ (dir ++ (memory ++ (quota ++ setenv))) ++ tail := by
    intro user memory quota setenv
    simp only [List.append_assoc]
  have hlater : ∀ {k : Nat} {l m : List JsString}, (∀ arg ∈ l, optionRank arg = k + 1) →
      (∀ arg ∈ m, k + 1 < optionRank arg) → ∀ arg ∈ l ++ m, k < optionRank arg := by
    intro k l m hl hm arg harg
    rcases List.mem_append.mp harg with hmem | hmem
    · rw [hl arg hmem]
      exact Nat.lt_succ_self k
    · exact Nat.lt_of_succ_lt (hm arg hmem)
  have hlast : ∀ {l : List JsString}, (∀ arg ∈ l, optionRank arg = 4) →
      ∀ arg ∈ l, 3 < optionRank arg := by
    intro l hl arg harg
    rw [hl arg harg]
    exact Nat.lt_succ_self 3
  have hquotas := hlater hquota (hlast hsetenv)
  have hquotas' := hlater hquota' (hlast hsetenv')
  have hmemories := hlater hmemory hquotas
  have hmemories' := hlater hmemory' hquotas'
  rw [List.append_cancel_left_eq, hassoc, hassoc, List.append_cancel_right_eq,
    append_eq_append_iff_of_rank huser huser' (hlater hdir hmemories) (hlater hdir hmemories'),
    List.append_cancel_left_eq, append_eq_append_iff_of_rank hmemory hmemory' hquotas hquotas',
    append_eq_append_iff_of_rank hquota hquota' (hlast hsetenv) (hlast hsetenv')]

/-- What a deployed app was started with. -/
def startedArgs (unitName : JsString) (app : AppEntry) (setenv : List JsString) : List JsString :=
  unitArgs unitName app.restartPolicy ++ (deployUser app.user ++
    (pushIf "--working-directory=" app.workingDir ++
      ((app.memoryMax.map (utf16 "--property=MemoryMax=" ++ ·)).toList ++
        ((app.cpuQuota.map (utf16 "--property=CPUQuota=" ++ ·)).toList ++
          (setenv ++ utf16 "--" :: app.command :: app.args.getD [])))))

/-- What an app is started with again. -/
def restartedArgs (unitName : JsString) (app : AppEntry) (setenv : List JsString) : List JsString :=
  unitArgs unitName app.restartPolicy ++ (redeployUser app.user ++
    (pushIf "--working-directory=" app.workingDir ++
      (pushIf "--property=MemoryMax=" app.memoryMax ++
        (pushIf "--property=CPUQuota=" app.cpuQuota ++
          (setenv ++ utf16 "--" :: app.command :: app.args.getD [])))))

/-- What a deployed app is stored with, and what its unit was started with. -/
theorem appDeploy_cases (h : appDeploy w params = .ok (args, registry)) :
    ∃ (name : JsString) (app : AppEntry) (setenv : List JsString), appName params = .ok name ∧
      textIf (params.get? (utf16 "user")) = .ok app.user ∧
      textIf (params.get? (utf16 "memory_max")) = .ok app.memoryMax ∧
      textIf (params.get? (utf16 "cpu_quota")) = .ok app.cpuQuota ∧
      setenvArgs (entries (envOf (params.get? (utf16 "env")))) = .ok setenv ∧
      app.env = (if entries (envOf (params.get? (utf16 "env"))) ≠ [] then
        some (envOf (params.get? (utf16 "env"))) else none) ∧
      registry = JsMap.set w.registry name app.saved ∧
      args = startedArgs (getAppUnitName name) app setenv := by
  unfold appDeploy at h
  obtain ⟨name, hname, h⟩ := bind_eq_ok.mp h
  obtain ⟨-, -, h⟩ := bind_eq_ok.mp h
  obtain ⟨command, -, h⟩ := bind_eq_ok.mp h
  obtain ⟨-, -, h⟩ := bind_eq_ok.mp h
  obtain ⟨-, -, h⟩ := bind_eq_ok.mp h
  obtain ⟨workingDir, -, h⟩ := bind_eq_ok.mp h
  obtain ⟨-, -, h⟩ := bind_eq_ok.mp h
  obtain ⟨user, huser, h⟩ := bind_eq_ok.mp h
  obtain ⟨memoryMax, hmemory, h⟩ := bind_eq_ok.mp h
  obtain ⟨cpuQuota, hquota, h⟩ := bind_eq_ok.mp h
  obtain ⟨setenv, hsetenv, h⟩ := bind_eq_ok.mp h
  obtain ⟨cmdArgs, -, h⟩ := bind_eq_ok.mp h
  have hargs : (if cmdArgs ≠ [] then some cmdArgs else none).getD [] = cmdArgs := by
    split
    · rfl
    · rename_i hnil
      exact (not_not.mp hnil).symm
  dsimp only at h
  split at h
  · obtain ⟨rfl, rfl⟩ := Prod.mk.inj (Except.ok.inj h)
    refine ⟨name, _, setenv, hname, huser, hmemory, hquota, hsetenv, rfl, rfl, ?_⟩
    unfold startedArgs
    dsimp only
    rw [hargs]
  · cases h

/-- The variables of an entry that was read back. -/
theorem redeployEnv_saved (v : Option Value) :
    redeployEnv ((if entries (envOf v) ≠ [] then some (envOf v) else none).map Value.saved) =
      setenvArgs (Value.savedFields (entries (envOf v))) := by
  by_cases hnil : entries (envOf v) = []
  · rw [if_neg (not_not.mpr hnil), hnil]
    rfl
  · have htruthy : Value.truthy (some (envOf v).saved) = true := by
      unfold envOf
      split <;> rw [Value.saved] <;> rfl
    rw [if_pos hnil, Option.map_some, redeployEnv, if_pos htruthy, Option.elim_some, entries_saved]

/-- The arguments are the same if those of each value are. -/
theorem startedArgs_eq_restartedArgs_iff {fields fields' : Fields} {setenv setenv' : List JsString}
    (unitName : JsString) (app : AppEntry) (hsetenv : setenvArgs fields = .ok setenv)
    (hsetenv' : setenvArgs fields' = .ok setenv') :
    startedArgs unitName app setenv = restartedArgs unitName app setenv' ↔
      deployUser app.user = redeployUser app.user ∧
        (app.memoryMax.map (utf16 "--property=MemoryMax=" ++ ·)).toList =
          pushIf "--property=MemoryMax=" app.memoryMax ∧
        (app.cpuQuota.map (utf16 "--property=CPUQuota=" ++ ·)).toList =
          pushIf "--property=CPUQuota=" app.cpuQuota ∧ setenv = setenv' := by
  refine startArgs_eq_iff (fun _ => optionRank_deployUser) (fun _ => optionRank_redeployUser)
    ?_ ?_ ?_ ?_ ?_ (fun _ => optionRank_setenvArgs hsetenv) (fun _ => optionRank_setenvArgs hsetenv')
  all_goals exact fun _ => optionRank_of_mem fun _ => rfl

/-- The second start is with the arguments of the first just when the values say so that the
first cleans, drops or turns into texts. -/
theorem redeployArgs_saved_iff {app : AppEntry} {v : Option Value} {setenv : List JsString}
    (unitName : JsString) (hsetenv : setenvArgs (entries (envOf v)) = .ok setenv)
    (henv : app.env = if entries (envOf v) ≠ [] then some (envOf v) else none) :
    redeployArgs unitName app.saved = .ok (startedArgs unitName app setenv) ↔
      (∀ text, app.user = some text → text ≠ [] ∧ sanitizeUser text = text) ∧
        app.memoryMax ≠ some [] ∧ app.cpuQuota ≠ some [] ∧
        ∀ field ∈ entries (envOf v), field.1.filter isKeyUnit ≠ [] →
          field.2.saved.toText = field.2.toText := by
  have hread : redeployEnv app.saved.env = setenvArgs (Value.savedFields (entries (envOf v))) := by
    rw [← redeployEnv_saved, ← henv]
    rfl
  have hbind : redeployArgs unitName app.saved = .ok (startedArgs unitName app setenv) ↔
      ∃ setenv', setenvArgs (Value.savedFields (entries (envOf v))) = .ok setenv' ∧
        startedArgs unitName app setenv = restartedArgs unitName app setenv' := by
    rw [← hread]
    refine bind_eq_ok.trans (exists_congr fun setenv' => and_congr_right fun _ => ?_)
    exact ⟨fun h => (Except.ok.inj h).symm, fun h => congrArg Except.ok h.symm⟩
  rw [hbind, ← deployUser_eq_redeployUser_iff, ← setenvArgs_savedFields_iff hsetenv,
    ← option_eq_pushIf_iff "--property=MemoryMax=",
    ← option_eq_pushIf_iff "--property=CPUQuota="]
  constructor
  · rintro ⟨setenv', hsetenv', hargs⟩
    obtain ⟨huser, hmemory, hquota, rfl⟩ :=
      (startedArgs_eq_restartedArgs_iff unitName app hsetenv hsetenv').mp hargs
    exact ⟨huser, hmemory, hquota, hsetenv'⟩
  · rintro ⟨huser, hmemory, hquota, hsetenv'⟩
    exact ⟨setenv, hsetenv', (startedArgs_eq_restartedArgs_iff unitName app hsetenv hsetenv').mpr
      ⟨huser, hmemory, hquota, rfl⟩⟩

theorem appRestart_inactive {name : JsString} {app : AppEntry} (hname : appName params = .ok name)
    (hstored : JsMap.get? registry name = some app) :
    (∃ registry', appRestart registry false true params = .ok (.systemdRun args, registry')) ↔
      redeployArgs (getAppUnitName name) app = .ok args := by
  have hrun : appRestart registry false true params =
      ((redeployArgs (getAppUnitName name) app).map .systemdRun).bind fun command =>
        .ok (command, JsMap.set registry name { app with status := .running }.saved) := by
    unfold appRestart
    rw [hname]
    change (match JsMap.get? registry name with | none => _ | some app => _) = _
    rw [hstored]
    rfl
  rw [hrun]
  constructor
  · rintro ⟨registry', h⟩
    obtain ⟨command, hcommand, hout⟩ := bind_eq_ok.mp h
    obtain ⟨args', hargs, rfl⟩ := map_eq_ok.mp hcommand
    obtain rfl := RestartCommand.systemdRun.inj (Prod.mk.inj (Except.ok.inj hout)).1
    exact hargs
  · intro hargs
    rw [hargs]
    exact ⟨_, rfl⟩

/-- An inactive app that was deployed is started with the same arguments again just when storing
its parameters loses nothing of them. -/
theorem appRestart_redeploys_iff {w : DeployWorld} {params restartParams : Fields}
    {args : List JsString} {registry : AppRegistry}
    (hdeploy : appDeploy w params = .ok (args, registry))
    (hname : appName restartParams = appName params) :
    (∃ registry', appRestart registry false true restartParams =
        .ok (.systemdRun args, registry')) ↔ Redeployable params := by
  obtain ⟨name, app, setenv, hdeployed, huser, hmemory, hquota, hsetenv, henv, rfl, rfl⟩ :=
    appDeploy_cases hdeploy
  have hstored : JsMap.get? (JsMap.set w.registry name app.saved) name = some app.saved :=
    (JsMap.get?_set _ _ _ _).trans (if_pos rfl)
  have hredeploy := redeployArgs_saved_iff (getAppUnitName name) hsetenv henv
  rw [appRestart_inactive (hname.trans hdeployed) hstored, hredeploy]
  constructor
  · rintro ⟨huser', hmemory', hquota', henv'⟩
    refine ⟨fun text htext => huser' text ?_, ?_, ?_, henv'⟩
    · exact Except.ok.inj (huser.symm.trans htext)
    · rwa [hmemory, Ne, Except.ok.injEq]
    · rwa [hquota, Ne, Except.ok.injEq]
  · rintro ⟨huser', hmemory', hquota', henv'⟩
    refine ⟨fun text htext => huser' text (huser.trans (congrArg _ htext)), ?_, ?_, henv'⟩
    · rwa [hmemory, Ne, Except.ok.injEq] at hmemory'
    · rwa [hquota, Ne, Except.ok.injEq] at hquota'

end Redeploy

/-! ### Parameters of the declared types -/

/-- The parameters have the types that the tool declares for them. -/
structure Declared (params : Fields) : Prop where
  user : ∀ v, params.get? (utf16 "user") = some v → ∃ s, v = .string s
  memoryMax : ∀ v, params.get? (utf16 "memory_max") = some v → ∃ s, v = .string s
  cpuQuota : ∀ v, params.get? (utf16 "cpu_quota") = some v → ∃ s, v = .string s
  env : ∀ v, params.get? (utf16 "env") = some v →
    ∃ fields, v = .object fields ∧ ∀ field ∈ fields, ∃ s, field.2 = .string s

/-- The text of a string, if it is not empty. -/
theorem textIf_string (s : JsString) :
    textIf (some (.string s)) = .ok (if s = [] then none else some s) := by
  by_cases hs : s = []
  · rw [hs]
    rfl
  · have htruthy : Value.truthy (some (.string s)) = true := decide_eq_true hs
    rw [textIf, if_pos htruthy, if_neg hs, textOf, Value.toText]
    rfl

theorem textIf_ne_empty {v : Option Value} (h : ∀ w, v = some w → ∃ s, w = .string s) :
    textIf v ≠ .ok (some []) := by
  cases v with
  | none => exact nofun
  | some w =>
    obtain ⟨s, rfl⟩ := h w rfl
    rw [textIf_string]
    split
    · exact nofun
    · rename_i hs
      exact fun heq => hs (Option.some.inj (Except.ok.inj heq))

/-- Of declared parameters it is the user alone that matters. -/
theorem redeployable_iff_of_declared {params : Fields} (h : Declared params) :
    Redeployable params ↔
      ∀ s, params.get? (utf16 "user") = some (.string s) → sanitizeUser s = s := by
  constructor
  · intro hredeployable s hs
    by_cases hempty : s = []
    · rw [hempty]
      rfl
    · refine (hredeployable.user s ?_).2
      rw [hs, textIf_string, if_neg hempty]
  · intro huser
    refine ⟨fun text htext => ?_, textIf_ne_empty h.memoryMax, textIf_ne_empty h.cpuQuota, ?_⟩
    · cases hv : params.get? (utf16 "user") with
      | none =>
        rw [hv] at htext
        cases htext
      | some v =>
        obtain ⟨s, rfl⟩ := h.user v hv
        rw [hv, textIf_string] at htext
        split at htext
        · cases htext
        · rename_i hs
          obtain rfl := Option.some.inj (Except.ok.inj htext)
          exact ⟨hs, huser s hv⟩
    · intro field hfield _
      cases hv : params.get? (utf16 "env") with
      | none =>
        rw [hv] at hfield
        cases hfield
      | some v =>
        obtain ⟨fields, rfl, hstrings⟩ := h.env v hv
        rw [hv] at hfield
        obtain ⟨s, hs⟩ := hstrings field hfield
        rw [hs, Value.saved]

/-! ### Users -/

/-- Parameters of an app of this name, run as this user. -/
def webParams (user : String) : Fields :=
  [(utf16 "name", .string (utf16 "web")), (utf16 "command", .string (utf16 "/bin/web")),
    (utf16 "user", .string (utf16 user))]

def idleWorld : DeployWorld where
  registry := .empty
  isActive := fun _ => false
  isReadable := fun _ => true
  saves := true
  now := utf16 "2026-03-01T09:00:00.000Z"

/-- A user whose name needs no cleaning is the user of the second start too. -/
theorem plainUser_redeployed : ∃ args registry registry',
    appDeploy idleWorld (webParams "web-1") = .ok (args, registry) ∧
      appRestart registry false true (webParams "web-1") = .ok (.systemdRun args, registry') := by
  have hredeployable : Redeployable (webParams "web-1") := by
    refine ⟨?_, nofun, nofun, nofun⟩
    rintro text ⟨⟩
    exact ⟨by decide, by decide⟩
  obtain ⟨registry', hrestart⟩ :=
    (appRestart_redeploys_iff (w := idleWorld) rfl rfl).mpr hredeployable
  exact ⟨_, _, registry', rfl, hrestart⟩

/-- A user with a dot in the name is another user the second time. -/
theorem dottedUser_not_redeployed : ∃ args registry,
    appDeploy idleWorld (webParams "web.1") = .ok (args, registry) ∧
      ¬ ∃ registry', appRestart registry false true (webParams "web.1") =
        .ok (.systemdRun args, registry') := by
  refine ⟨_, _, rfl, ?_⟩
  rintro ⟨registry', hrestart⟩
  have hargs := RestartCommand.systemdRun.inj (Prod.mk.inj (Except.ok.inj hrestart)).1
  have huser : utf16 "--uid=web.1" = utf16 "--uid=web1" :=
    congrArg (fun args => args.getD 6 []) hargs
  exact absurd huser (by decide)

end OsModa.Bridge
