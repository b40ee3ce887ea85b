import Mathlib.Data.List.DropRight
import OsModa.Base.Machine
import OsModa.Bridge.AppRestart

/-!
The apps of a machine over its life: the tools that start, stop and remove them, units that end
by themselves, and the script that starts the apps again at boot.

The tools change two things one after the other, a unit of systemd and the registry, and go on when
systemd does not do what it is told. What is said here is about every order of their calls:

* an app that is down and not registered as running stays down until a tool starts it
  (`stopped_stays_down`);
* if systemd and the disk do what they are told, each unit is that of an app registered as running
  (`units_registered`); if they do not, a unit can be left that no tool reaches (`orphan_stays`).
-/

namespace OsModa.Bridge

open OsModa.Js OsModa.Machine

/-! ### Units -/

/-- The transient units that are there, with the arguments that `systemd-run` was given. -/
abbrev Units := JsMap JsString (List JsString)

def Units.isActive (units : Units) (unitName : JsString) : Bool :=
  (JsMap.get? units unitName).isSome

/-- The unit that the arguments name. -/
def unitOf : List JsString → JsString
  | _ :: unitName :: _ => unitName
  | _ => []

def RestartCommand.unit : RestartCommand → JsString
  | .systemctlRestart unitName => unitName
  | .systemdRun args => unitOf args

/-- `systemd-run`; it fails if there is a unit of that name. -/
def systemdRun (starts : Bool) (args : List JsString) (units : Units) : Units :=
  if starts && !units.isActive (unitOf args) then JsMap.set units (unitOf args) args else units

/-- `systemctl stop` -/
def systemctlStop (stops : Bool) (unitName : JsString) (units : Units) : Units :=
  if stops then JsMap.delete units unitName else units

/-! ### `app_stop` and `app_remove` -/

def findApp (registry : AppRegistry) (params : Fields) : Answer (JsString × AppEntry) := do
  let name ← appName params
  match JsMap.get? registry name with
  | none => .error (.error (utf16 "app '" ++ name ++ utf16 "' not found in registry"))
  | some app => return (name, app)

/-- The unit that `app_stop` stops, and the registry that it leaves in the file. -/
def appStop (registry : AppRegistry) (saves : Bool) (params : Fields) :
    Answer (JsString × AppRegistry) := do
  let (name, app) ← findApp registry params
  if saves then
    return (getAppUnitName name, JsMap.set registry name { app with status := .stopped }.saved)
  else .error .thrown

/-- The unit that `app_remove` stops, and the registry that it leaves in the file. -/
def appRemove (registry : AppRegistry) (saves : Bool) (params : Fields) :
    Answer (JsString × AppRegistry) := do
  let (name, _) ← findApp registry params
  if saves then return (getAppUnitName name, JsMap.delete registry name) else .error .thrown

/-! ### The script that restores the apps -/

/-- What the script leaves to `jq` and to the shell. -/
structure Shell where
  /-- The words that `keys[]` of these keys is split into: in jq's order, at blanks, with the files
  that a pattern matches. -/
  envWords : List JsString → List JsString
  /-- `jq -r`, of a value. -/
  print : Value → JsString

/-- `$(...)`, of a text that was printed with a newline. -/
def substituted (text : JsString) : JsString := text.rdropWhile (· = 10)

/-- What a variable of the script is for a field of the entry; `[ -n "$V" ] && [ "$V" != "null" ]` -/
def scriptText (v : Option JsString) : Option JsString :=
  (v.map substituted).filter fun text => text ≠ [] && text ≠ utf16 "null"

def restoreOption (option : String) (v : Option JsString) : List JsString :=
  ((scriptText v).map (utf16 option ++ ·)).toList

/-- The variables; the script ends, under `set -e`, where jq finds no keys, or no element of an
array under the text of its number. -/
def restoreEnv (sh : Shell) : Option Value → Option (List JsString)
  | none | some .null | some (.bool false) | some (.array []) => some []
  | some (.object fields) => some <| (sh.envWords (fields.map Prod.fst)).map fun key =>
      utf16 "--setenv=" ++ key ++ 61 :: substituted (sh.print ((Fields.get? fields key).getD .null))
  | some _ => none

def restoreUnitName (name : JsString) : JsString := utf16 "osmoda-app-" ++ name.filter isNameUnit

/-- The arguments that the script starts a unit with. -/
def restoreArgs (sh : Shell) (unitName : JsString) (app : AppEntry) : Option (List JsString) := do
  let setenv ← restoreEnv sh app.env
  return unitArgs unitName (substituted app.restartPolicy) ++ (restoreOption "--uid=" app.user ++
    (restoreOption "--working-directory=" app.workingDir ++
      (restoreOption "--property=MemoryMax=" app.memoryMax ++
        (restoreOption "--property=CPUQuota=" app.cpuQuota ++
          (setenv ++ utf16 "--" :: substituted app.command ::
            (app.args.getD []).map substituted)))))

/-- The units after the script has gone through the entries. -/
def restoreApps (sh : Shell) (starts : JsString → Bool) :
    List (JsString × AppEntry) → Units → Units
  | [], units => units
  | (name, app) :: rest, units =>
    let unitName := restoreUnitName name
    if app.status ≠ .running || (scriptText (some app.command)).isNone || units.isActive unitName
    then restoreApps sh starts rest units
    else match restoreArgs sh unitName app with
      | none => units
      | some args => restoreApps sh starts rest (systemdRun (starts unitName) args units)

/-! ### Hosts -/

structure Host where
  registry : AppRegistry
  units : Units

def Host.start : Host := ⟨.empty, .empty⟩

/-- What happens around a call. -/
structure Surroundings where
  /-- `systemctl is-active` answers in time, and calls a unit that is there active: it is not
  waiting to be started again. -/
  tells : Bool
  /-- systemd does what it is told. -/
  obeys : Bool
  /-- The registry can be written. -/
  saves : Bool

inductive AppTool where
  | deploy (isReadable : JsString → Bool) (now : JsString)
  | restart
  | stop
  | remove

def AppTool.starts : AppTool → Bool
  | .deploy _ _ | .restart => true
  | .stop | .remove => false

inductive AppEvent where
  | call (tool : AppTool) (around : Surroundings) (params : Fields)
  /-- A unit ends by itself. -/
  | exits (unitName : JsString)
  /-- The machine starts, and these units can be started. -/
  | boot (starts : JsString → Bool)

/-- The host after a tool has run its command, when it writes the registry. -/
def Host.write (h : Host) (saves : Bool) (units : Units) (registry : AppRegistry) :
    Answer Unit × Host :=
  if saves then (.ok (), ⟨registry, units⟩) else (.error .thrown, ⟨h.registry, units⟩)

/-- What `systemctl is-active` says of the unit of an app. -/
def Host.saysActive (h : Host) (around : Surroundings) (unitName : JsString) : Bool :=
  around.tells && h.units.isActive unitName

/-- A call of a tool. The registry is written after the command was run. -/
def Host.call (h : Host) (around : Surroundings) (params : Fields) : AppTool → Answer Unit × Host
  | .deploy isReadable now =>
    match appDeploy ⟨h.registry, h.saysActive around, isReadable, true, now⟩ params with
    | .error e => (.error e, h)
    | .ok (args, registry) =>
      h.write around.saves (systemdRun around.obeys args h.units) registry
  | .restart =>
    let unitName := getAppUnitName ((appName params).toOption.getD [])
    match appRestart h.registry (h.saysActive around unitName) true params with
    | .error e => (.error e, h)
    | .ok (.systemctlRestart unitName, registry) =>
      -- What does not come back is gone.
      h.write around.saves (systemctlStop (!around.obeys) unitName h.units) registry
    | .ok (.systemdRun args, registry) =>
      h.write around.saves (systemdRun around.obeys args h.units) registry
  | .stop =>
    match appStop h.registry true params with
    | .error e => (.error e, h)
    | .ok (unitName, registry) =>
      h.write around.saves (systemctlStop around.obeys unitName h.units) registry
  | .remove =>
    match appRemove h.registry true params with
    | .error e => (.error e, h)
    | .ok (unitName, registry) =>
      h.write around.saves (systemctlStop around.obeys unitName h.units) registry

def Host.next (sh : Shell) : AppEvent → Host → Answer Unit × Host
  | .call tool around params, h => h.call around params tool
  | .exits unitName, h => (.ok (), { h with units := JsMap.delete h.units unitName })
  | .boot starts, h => (.ok (), { h with units := restoreApps sh starts h.registry.rows .empty })

/-! ### Names -/

section Names

variable {name name' : JsString}

theorem isNameUnit_of_isAppName (h : isAppName name = true) : ∀ a ∈ name, isNameUnit a = true := by
  cases name with
  | nil => exact nofun
  | cons a rest =>
    simp only [isAppName, Bool.and_eq_true, List.all_eq_true] at h
    obtain ⟨-, ha, hrest⟩ := h
    refine List.forall_mem_cons.mpr ⟨?_, hrest⟩
    unfold isNameUnit
    rw [ha]
    rfl

theorem getAppUnitName_of_isAppName (h : isAppName name = true) :
    getAppUnitName name = utf16 "osmoda-app-" ++ name := by
  unfold getAppUnitName
  rw [List.map_congr_left fun a ha => if_pos (isNameUnit_of_isAppName h a ha), List.map_id']

theorem restoreUnitName_of_isAppName (h : isAppName name = true) :
    restoreUnitName name = getAppUnitName name := by
  unfold restoreUnitName
  rw [getAppUnitName_of_isAppName h, List.filter_eq_self.mpr (isNameUnit_of_isAppName h)]

theorem getAppUnitName_inj (h : isAppName name = true) (h' : isAppName name' = true) :
    getAppUnitName name = getAppUnitName name' ↔ name = name' := by
  rw [getAppUnitName_of_isAppName h, getAppUnitName_of_isAppName h', List.append_cancel_left_eq]

end Names

/-! ### What is stored -/

/-- What `app_deploy` makes sure of. -/
structure ValidApp (name : JsString) (app : AppEntry) : Prop where
  name : isAppName name = true
  command : app.command.head? = some 47
  env : app.env = none ∨ (∃ fields, app.env = some (.object fields)) ∨
    ∃ item items, app.env = some (.array (item :: items))

theorem ValidApp.saved {name : JsString} {app : AppEntry} (h : ValidApp name app) :
    ValidApp name app.saved := by
  refine ⟨h.name, h.command, ?_⟩
  unfold AppEntry.saved
  dsimp only
  rcases h.env with henv | ⟨fields, henv⟩ | ⟨item, items, henv⟩
  · exact .inl (by rw [henv]; rfl)
  · exact .inr (.inl ⟨_, by rw [henv, Option.map_some, Value.saved]⟩)
  · exact .inr (.inr ⟨_, _, by rw [henv, Option.map_some, Value.saved, Value.savedItems]⟩)

theorem ValidApp.withStatus {name : JsString} {app : AppEntry} (h : ValidApp name app)
    (status : AppStatus) : ValidApp name { app with status } := ⟨h.name, h.command, h.env⟩

theorem refuseIf_eq_ok {condition : Bool} {text : JsString} :
    refuseIf condition text = .ok () ↔ condition = false := by
  cases condition
  · exact iff_of_true rfl rfl
  · exact iff_of_false nofun nofun

theorem env_of_envOf (v : Option Value) :
    (if entries (envOf v) ≠ [] then some (envOf v) else none) = none ∨
      (∃ fields, (if entries (envOf v) ≠ [] then some (envOf v) else none) =
        some (.object fields)) ∨
      ∃ item items, (if entries (envOf v) ≠ [] then some (envOf v) else none) =
        some (.array (item :: items)) := by
  by_cases hentries : entries (envOf v) = []
  · exact .inl (if_neg (not_not.mpr hentries))
  · rw [if_pos hentries]
    refine .inr ?_
    unfold envOf at hentries ⊢
    split
    · exact .inl ⟨_, rfl⟩
    · rename_i items
      cases items with
      | nil => exact absurd rfl hentries
      | cons item items => exact .inr ⟨item, items, rfl⟩
    · exact .inl ⟨_, rfl⟩

/-- What a deployment needs, starts and stores. -/
theorem appDeploy_stores {w : DeployWorld} {params : Fields} {args : List JsString}
    {registry : AppRegistry} (h : appDeploy w params = .ok (args, registry)) :
    ∃ (name : JsString) (app : AppEntry), appName params = .ok name ∧ ValidApp name app ∧
      app.status = .running ∧ w.isActive (getAppUnitName name) = false ∧
      unitOf args = getAppUnitName name ∧ registry = JsMap.set w.registry name app := by
  unfold appDeploy at h
  obtain ⟨name, hname, h⟩ := bind_eq_ok.mp h
  obtain ⟨⟨⟩, hvalid, h⟩ := bind_eq_ok.mp h
  obtain ⟨command, -, h⟩ := bind_eq_ok.mp h
  obtain ⟨⟨⟩, hcommand, h⟩ := bind_eq_ok.mp h
  obtain ⟨⟨⟩, hinactive, h⟩ := bind_eq_ok.mp h
  obtain ⟨workingDir, -, h⟩ := bind_eq_ok.mp h
  obtain ⟨-, -, h⟩ := bind_eq_ok.mp h
  obtain ⟨user, -, h⟩ := bind_eq_ok.mp h
  obtain ⟨memoryMax, -, h⟩ := bind_eq_ok.mp h
  obtain ⟨cpuQuota, -, h⟩ := bind_eq_ok.mp h
  obtain ⟨setenv, -, h⟩ := bind_eq_ok.mp h
  obtain ⟨cmdArgs, -, h⟩ := bind_eq_ok.mp h
  dsimp only at h
  split at h
  · obtain ⟨rfl, rfl⟩ := Prod.mk.inj (Except.ok.inj h)
    refine ⟨name, _, hname, ValidApp.saved ⟨?_, ?_, env_of_envOf _⟩, rfl,
      refuseIf_eq_ok.mp hinactive, rfl, rfl⟩
    · simpa using refuseIf_eq_ok.mp hvalid
    · simpa using refuseIf_eq_ok.mp hcommand
  · cases h

theorem findApp_eq_ok {registry : AppRegistry} {params : Fields} {name : JsString}
    {app : AppEntry} : findApp registry params = .ok (name, app) ↔
      appName params = .ok name ∧ JsMap.get? registry name = some app := by
  refine bind_eq_ok.trans ?_
  constructor
  · rintro ⟨name', hname, h⟩
    cases hfound : JsMap.get? registry name' with
    | none =>
      rw [hfound] at h
      cases h
    | some app' =>
      rw [hfound] at h
      obtain ⟨rfl, rfl⟩ := Prod.mk.inj (Except.ok.inj h)
      exact ⟨hname, hfound⟩
  · rintro ⟨hname, hfound⟩
    exact ⟨name, hname, by rw [hfound]; rfl⟩

theorem appRestart_stores {registry registry' : AppRegistry} {isActive : Bool} {params : Fields}
    {command : RestartCommand}
    (h : appRestart registry isActive true params = .ok (command, registry')) :
    ∃ name app, appName params = .ok name ∧ JsMap.get? registry name = some app ∧
      registry' = JsMap.set registry name { app with status := .running }.saved ∧
      command.unit = getAppUnitName name := by
  unfold appRestart at h
  obtain ⟨name, hname, h⟩ := bind_eq_ok.mp h
  cases hfound : JsMap.get? registry name with
  | none =>
    rw [hfound] at h
    cases h
  | some app =>
    rw [hfound] at h
    dsimp only at h
    split at h
    · obtain ⟨rfl, rfl⟩ := Prod.mk.inj (Except.ok.inj h)
      exact ⟨name, app, hname, hfound, rfl, rfl⟩
    · obtain ⟨command', hcommand, h⟩ := bind_eq_ok.mp h
      obtain ⟨rfl, rfl⟩ := Prod.mk.inj (Except.ok.inj h)
      obtain ⟨args, hargs, rfl⟩ := map_eq_ok.mp hcommand
      obtain ⟨setenv, -, hargs⟩ := bind_eq_ok.mp hargs
      obtain rfl := Except.ok.inj hargs
      exact ⟨name, app, hname, hfound, rfl, rfl⟩

/-! ### What a call does -/

/-- What a call does to the app of this name, if it is not refused. -/
inductive Did (h : Host) (around : Surroundings) (name : JsString) :
    AppTool → Answer Unit × Host → Prop where
  | starts {tool : AppTool} {args : List JsString} {app : AppEntry} (htool : tool.starts = true)
      (hunit : unitOf args = getAppUnitName name) (hrunning : app.status = .running)
      (hvalid : (∀ old, JsMap.get? h.registry name = some old → ValidApp name old) →
        ValidApp name app)
      -- A tool that starts an app that is not registered has asked whether its unit is active.
      (hnew : JsMap.get? h.registry name = none →
        h.saysActive around (getAppUnitName name) = false) :
      Did h around name tool (h.write around.saves (systemdRun around.obeys args h.units)
        (JsMap.set h.registry name app))
  | restarts {app : AppEntry} (hfound : JsMap.get? h.registry name = some app) :
      Did h around name .restart (h.write around.saves
        (systemctlStop (!around.obeys) (getAppUnitName name) h.units)
        (JsMap.set h.registry name { app with status := .running }.saved))
  | stops {app : AppEntry} (hfound : JsMap.get? h.registry name = some app) :
      Did h around name .stop (h.write around.saves
        (systemctlStop around.obeys (getAppUnitName name) h.units)
        (JsMap.set h.registry name { app with status := .stopped }.saved))
  | removes {app : AppEntry} (hfound : JsMap.get? h.registry name = some app) :
      Did h around name .remove (h.write around.saves
        (systemctlStop around.obeys (getAppUnitName name) h.units) (JsMap.delete h.registry name))

theorem call_cases (h : Host) (around : Surroundings) (params : Fields) (tool : AppTool) :
    (∃ e, h.call around params tool = (.error e, h)) ∨
      ∃ name, appName params = .ok name ∧ Did h around name tool (h.call around params tool) := by
  cases tool with
  | deploy isReadable now =>
    unfold Host.call
    dsimp only
    split
    · exact .inl ⟨_, rfl⟩
    · rename_i args registry hdeploy
      obtain ⟨name, app, hname, hvalid, hrunning, hinactive, hunit, rfl⟩ := appDeploy_stores hdeploy
      exact .inr ⟨name, hname, .starts rfl hunit hrunning (fun _ => hvalid) fun _ => hinactive⟩
  | restart =>
    unfold Host.call
    dsimp only
    split
    · exact .inl ⟨_, rfl⟩
    · rename_i unitName registry hrestart
      obtain ⟨name, app, hname, hfound, rfl, hunit⟩ := appRestart_stores hrestart
      obtain rfl : unitName = getAppUnitName name := hunit
      exact .inr ⟨name, hname, .restarts hfound⟩
    · rename_i args registry hrestart
      obtain ⟨name, app, hname, hfound, rfl, hunit⟩ := appRestart_stores hrestart
      refine .inr ⟨name, hname, .starts rfl hunit rfl (fun hold => ?_) fun hnone => ?_⟩
      · exact ((hold app hfound).withStatus .running).saved
      · rw [hfound] at hnone
        cases hnone
  | stop =>
    unfold Host.call
    dsimp only
    split
    · exact .inl ⟨_, rfl⟩
    · rename_i unitName registry hstop
      obtain ⟨⟨name, app⟩, hfind, hstop⟩ := bind_eq_ok.mp hstop
      obtain ⟨hname, hfound⟩ := findApp_eq_ok.mp hfind
      obtain ⟨rfl, rfl⟩ := Prod.mk.inj (Except.ok.inj hstop)
      exact .inr ⟨name, hname, .stops hfound⟩
  | remove =>
    unfold Host.call
    dsimp only
    split
    · exact .inl ⟨_, rfl⟩
    · rename_i unitName registry hremove
      obtain ⟨⟨name, app⟩, hfind, hremove⟩ := bind_eq_ok.mp hremove
      obtain ⟨hname, hfound⟩ := findApp_eq_ok.mp hfind
      obtain ⟨rfl, rfl⟩ := Prod.mk.inj (Except.ok.inj hremove)
      exact .inr ⟨name, hname, .removes hfound⟩

section Effects

variable {h : Host} {around : Surroundings} {name : JsString} {tool : AppTool}
  {out : Answer Unit × Host}

@[simp] theorem write_units (saves : Bool) (units : Units) (registry : AppRegistry) :
    (h.write saves units registry).2.units = units := by
  cases saves <;> rfl

theorem write_registry (saves : Bool) (units : Units) (registry : AppRegistry) :
    (h.write saves units registry).2.registry = if saves then registry else h.registry := by
  cases saves <;> rfl

theorem get?_systemdRun (starts : Bool) (args : List JsString) (units : Units) (unitName : JsString) :
    JsMap.get? (systemdRun starts args units) unitName =
      if (starts && !units.isActive (unitOf args)) = true ∧ unitOf args = unitName then some args
      else JsMap.get? units unitName := by
  unfold systemdRun
  by_cases hstarts : (starts && !units.isActive (unitOf args)) = true
  · rw [if_pos hstarts, JsMap.get?_set]
    simp only [hstarts, true_and]
  · rw [if_neg hstarts, if_neg fun hand => hstarts hand.1]

theorem get?_systemctlStop (stops : Bool) (unitName unitName' : JsString) (units : Units) :
    JsMap.get? (systemctlStop stops unitName units) unitName' =
      if stops = true ∧ unitName = unitName' then none else JsMap.get? units unitName' := by
  cases stops with
  | false => exact (if_neg fun hand => Bool.false_ne_true hand.1).symm
  | true =>
    rw [systemctlStop, if_pos rfl, JsMap.get?_delete]
    simp only [true_and]

/-- The other units are what they were. -/
theorem Did.units_other (hdid : Did h around name tool out) {unitName : JsString}
    (hother : getAppUnitName name ≠ unitName) :
    JsMap.get? out.2.units unitName = JsMap.get? h.units unitName := by
  cases hdid with
  | starts htool hunit hrunning hvalid hnew =>
    rw [write_units, get?_systemdRun, hunit, if_neg fun hand => hother hand.2]
  | restarts hfound | stops hfound | removes hfound =>
    rw [write_units, get?_systemctlStop, if_neg fun hand => hother hand.2]

/-- The other apps are what they were. -/
theorem Did.registry_other (hdid : Did h around name tool out) {name' : JsString}
    (hother : name ≠ name') : JsMap.get? out.2.registry name' = JsMap.get? h.registry name' := by
  cases hdid <;>
    · rw [write_registry]
      split
      · first
          | rw [JsMap.get?_set, if_neg hother]
          | rw [JsMap.get?_delete, if_neg hother]
      · rfl

end Effects

/-! ### What a boot does -/

section Boot

variable {sh : Shell} {starts : JsString → Bool} {rows : List (JsString × AppEntry)} {units : Units}
  {unitName : JsString} {args : List JsString}

theorem unitOf_restoreArgs {app : AppEntry} (h : restoreArgs sh unitName app = some args) :
    unitOf args = unitName := by
  obtain ⟨setenv, -, hargs⟩ := Option.bind_eq_some_iff.mp h
  obtain rfl := Option.some.inj hargs
  rfl

/-- What is there after the script was there before, or is an entry's that is running. -/
theorem restoreApps_only
    (h : JsMap.get? (restoreApps sh starts rows units) unitName = some args) :
    JsMap.get? units unitName = some args ∨ ∃ row ∈ rows, row.2.status = .running ∧
      restoreUnitName row.1 = unitName ∧ restoreArgs sh unitName row.2 = some args := by
  induction rows generalizing units with
  | nil => exact .inl h
  | cons row rest ih =>
    have hlater : ∀ {P : JsString × AppEntry → Prop}, (∃ row ∈ rest, P row) →
        ∃ r ∈ row :: rest, P r := fun ⟨r, hr, hp⟩ => ⟨r, List.mem_cons_of_mem _ hr, hp⟩
    obtain ⟨name, app⟩ := row
    unfold restoreApps at h
    dsimp only at h
    split at h
    · exact (ih h).imp_right hlater
    · rename_i hskip
      split at h
      · exact .inl h
      · rename_i args' hargs
        rcases ih h with hbefore | hrow
        · rw [get?_systemdRun] at hbefore
          split at hbefore
          · rename_i hand
            obtain rfl := Option.some.inj hbefore
            obtain rfl : restoreUnitName name = unitName :=
              (unitOf_restoreArgs hargs).symm.trans hand.2
            refine .inr ⟨_, List.mem_cons_self, ?_, rfl, hargs⟩
            by_contra hstopped
            exact hskip (by simp [hstopped])
          · exact .inl hbefore
        · exact .inr (hlater hrow)

end Boot

/-! ### Registries that the tools wrote -/

/-- Each entry is one that `app_deploy` made. -/
def Host.Valid (h : Host) : Prop :=
  ∀ name app, JsMap.get? h.registry name = some app → ValidApp name app

section Valid

variable {sh : Shell} {h : Host} {around : Surroundings} {name : JsString} {tool : AppTool}
  {out : Answer Unit × Host}

theorem Did.valid (hdid : Did h around name tool out) (hvalid : h.Valid) : out.2.Valid := by
  intro name' app happ
  by_cases hname : name = name'
  · subst hname
    cases hdid with
    | starts htool hunit hrunning hstored hnew =>
      rw [write_registry] at happ
      split at happ
      · rw [JsMap.get?_set, if_pos rfl, Option.some.injEq] at happ
        exact happ ▸ hstored (hvalid name)
      · exact hvalid name app happ
    | restarts hfound | stops hfound =>
      rw [write_registry] at happ
      split at happ
      · rw [JsMap.get?_set, if_pos rfl, Option.some.injEq] at happ
        exact happ ▸ ((hvalid name _ hfound).withStatus _).saved
      · exact hvalid name app happ
    | removes hfound =>
      rw [write_registry] at happ
      split at happ
      · rw [JsMap.get?_delete, if_pos rfl] at happ
        cases happ
      · exact hvalid name app happ
  · exact hvalid name' app (hdid.registry_other hname ▸ happ)

theorem Did.isAppName (hdid : Did h around name tool out) (hvalid : h.Valid) :
    isAppName name = true := by
  cases hdid with
  | starts htool hunit hrunning hstored hnew => exact (hstored (hvalid name)).name
  | restarts hfound | stops hfound | removes hfound => exact (hvalid name _ hfound).name

theorem next_valid (e : AppEvent) (h : Host) (hvalid : h.Valid) : (h.next sh e).2.Valid := by
  cases e with
  | call tool around params =>
    rcases call_cases h around params tool with ⟨err, hcall⟩ | ⟨name, -, hdid⟩
    · change (h.call around params tool).2.Valid
      rw [hcall]
      exact hvalid
    · exact hdid.valid hvalid
  | exits unitName | boot starts => exact hvalid

theorem start_valid : Host.start.Valid := nofun

/-- The unit that a boot starts is an app's that is registered as running. -/
theorem boot_only {starts : JsString → Bool} {unitName : JsString} {args : List JsString}
    (hvalid : h.Valid)
    (hargs : JsMap.get? (h.next sh (.boot starts)).2.units unitName = some args) :
    ∃ name app, JsMap.get? h.registry name = some app ∧ app.status = .running ∧
      getAppUnitName name = unitName ∧ restoreArgs sh unitName app = some args := by
  rcases restoreApps_only hargs with hnone | ⟨⟨name, app⟩, hrow, hrunning, hunit, hargs⟩
  · cases hnone
  · have hfound : JsMap.get? h.registry name = some app := by
      unfold JsMap.get?
      rw [Table.mem_rows_iff.mp hrow, Option.map_some]
    have hname := (hvalid name app hfound).name
    exact ⟨name, app, hfound, hrunning, (restoreUnitName_of_isAppName hname).symm.trans hunit, hargs⟩

end Valid

/-! ### Runs -/

/-- The host after these events, from an empty registry on. -/
def hostAfter (sh : Shell) (events : List AppEvent) : Host := final (Host.next sh) events .start

theorem hostAfter_append (sh : Shell) (before after : List AppEvent) :
    hostAfter sh (before ++ after) = final (Host.next sh) after (hostAfter sh before) :=
  final_append before after Host.start

theorem hostAfter_valid (sh : Shell) (events : List AppEvent) : (hostAfter sh events).Valid :=
  final_invariant next_valid events start_valid

/-- The app that a call starts, if it is not refused. -/
def AppEvent.starts? : AppEvent → Option JsString
  | .call tool _ params => if tool.starts then (appName params).toOption else none
  | .exits _ | .boot _ => none

/-- The app has no unit, and is not registered as running. -/
structure Host.Down (h : Host) (name : JsString) : Prop where
  status : ∀ app, JsMap.get? h.registry name = some app → app.status ≠ .running
  unit : JsMap.get? h.units (getAppUnitName name) = none

section Down

variable {sh : Shell} {h : Host} {around : Surroundings} {name : JsString} {tool : AppTool}
  {out : Answer Unit × Host}

theorem Did.down (hdid : Did h around name tool out) (htool : tool.starts = false)
    (hdown : h.Down name) : out.2.Down name := by
  cases hdid with
  | starts hstarts hunit hrunning hstored hnew => exact absurd (htool.symm.trans hstarts) nofun
  | restarts hfound => cases htool
  | stops hfound =>
    refine ⟨fun app happ => ?_, ?_⟩
    · rw [write_registry] at happ
      split at happ
      · rw [JsMap.get?_set, if_pos rfl, Option.some.injEq] at happ
        subst happ
        exact nofun
      · exact hdown.status app happ
    · rw [write_units, get?_systemctlStop, hdown.unit, ite_self]
  | removes hfound =>
    refine ⟨fun app happ => ?_, ?_⟩
    · rw [write_registry] at happ
      split at happ
      · rw [JsMap.get?_delete, if_pos rfl] at happ
        cases happ
      · exact hdown.status app happ
    · rw [write_units, get?_systemctlStop, hdown.unit, ite_self]

theorem next_down (hname : isAppName name = true) (e : AppEvent) (hvalid : h.Valid)
    (hdown : h.Down name) (hquiet : e.starts? ≠ some name) : (h.next sh e).2.Down name := by
  cases e with
  | call tool around params =>
    rcases call_cases h around params tool with ⟨err, hcall⟩ | ⟨name', hparams, hdid⟩
    · change (h.call around params tool).2.Down name
      rw [hcall]
      exact hdown
    · by_cases hsame : name' = name
      · subst hsame
        refine hdid.down ?_ hdown
        by_contra hstarts
        refine hquiet ?_
        rw [AppEvent.starts?, if_pos (Bool.not_eq_false _ ▸ hstarts), hparams]
        rfl
      · have hunit := mt (getAppUnitName_inj (hdid.isAppName hvalid) hname).mp hsame
        refine ⟨fun app happ => hdown.status app ?_, ?_⟩
        · exact (hdid.registry_other hsame).symm.trans happ
        · exact (hdid.units_other hunit).trans hdown.unit
  | exits unitName =>
    refine ⟨hdown.status, ?_⟩
    change JsMap.get? (JsMap.delete h.units unitName) _ = none
    rw [JsMap.get?_delete, hdown.unit, ite_self]
  | boot starts =>
    refine ⟨hdown.status, Option.eq_none_iff_forall_ne_some.mpr fun args hargs => ?_⟩
    obtain ⟨name', app, hfound, hrunning, hunit, -⟩ := boot_only hvalid hargs
    obtain rfl := (getAppUnitName_inj (hvalid name' app hfound).name hname).mp hunit
    exact hdown.status app hfound hrunning

end Down

/-- An app that is down stays down through calls for it that do not start it, calls for other
apps, and boots, whether systemd and the disk do what they are told or not. -/
theorem stopped_stays_down (sh : Shell) {name : JsString} {before after : List AppEvent}
    (hname : isAppName name = true) (hdown : (hostAfter sh before).Down name)
    (hquiet : ∀ e ∈ after, e.starts? ≠ some name) : (hostAfter sh (before ++ after)).Down name := by
  rw [hostAfter_append]
  refine (final_invariant_of (I := fun h : Host => h.Valid ∧ h.Down name)
    (C := fun t => t.input.starts? ≠ some name) ?_ ⟨hostAfter_valid sh before, hdown⟩ ?_).2
  · rintro e h ⟨hvalid, hdown⟩ hquiet
    exact ⟨next_valid e h hvalid, next_down hname e hvalid hdown hquiet⟩
  · intro t ht
    obtain ⟨pre, post, hafter, -⟩ := mem_trace_split ht
    exact hquiet _ (by rw [hafter]; simp)

/-- A shell that splits no key. -/
def plainShell : Shell where
  envWords := id
  print := fun v => v.toText.getD []

def allWell : Surroundings := ⟨true, true, true⟩

/-- The parameters of a call for an app. -/
def named (name : String) : Fields := [(utf16 "name", .string (utf16 name))]

/-- The deployment of an app that needs only its name and command. -/
def deployment (name command : String) : AppEvent :=
  .call (.deploy (fun _ => true) (utf16 "2026-03-01T09:00:00.000Z")) allWell
    (named name ++ [(utf16 "command", .string (utf16 command))])

/-- An app that was stopped is not there after a boot and the deployment of another one. -/
theorem stopped_stays_down_boot : (hostAfter plainShell
    ([deployment "web" "/bin/web", .call .stop allWell (named "web")] ++
      [.boot fun _ => true, deployment "api" "/bin/api"])).Down (utf16 "web") := by
  refine stopped_stays_down plainShell (by decide) ⟨?_, rfl⟩ ?_
  · rintro app ⟨⟩
    exact nofun
  · intro e he
    simp only [List.mem_cons, List.not_mem_nil, or_false] at he
    rcases he with rfl | rfl
    · exact nofun
    · exact fun hsame => absurd (Option.some.inj hsame) (by decide)

/-- systemd and the disk do of a call what the other has done of it. -/
def AppEvent.CarriedOut : AppEvent → Prop
  | .call tool around _ =>
    if tool.starts then around.obeys = true → around.saves = true
    else around.saves = true → around.obeys = true
  | .exits _ | .boot _ => True

/-- The unit is that of an app that is registered as running. -/
def Host.Knows (h : Host) (unitName : JsString) : Prop :=
  ∃ name app, JsMap.get? h.registry name = some app ∧ app.status = .running ∧
    getAppUnitName name = unitName

/-- Each unit is that of an app that is registered as running. -/
def Host.Registered (h : Host) : Prop :=
  ∀ unitName args, JsMap.get? h.units unitName = some args → h.Knows unitName

section Registered

variable {sh : Shell} {h : Host} {around : Surroundings} {name : JsString} {tool : AppTool}
  {out : Answer Unit × Host} {unitName : JsString}

theorem Host.Knows.after (hknows : h.Knows unitName) (hdid : Did h around name tool out)
    (hsame : getAppUnitName name = unitName →
      ∀ app, JsMap.get? h.registry name = some app → app.status = .running →
        ∃ app', JsMap.get? out.2.registry name = some app' ∧ app'.status = .running) :
    out.2.Knows unitName := by
  obtain ⟨name', app, hfound, hrunning, hunit⟩ := hknows
  by_cases hname : name = name'
  · subst hname
    obtain ⟨app', hfound', hrunning'⟩ := hsame hunit app hfound hrunning
    exact ⟨name, app', hfound', hrunning', hunit⟩
  · exact ⟨name', app, (hdid.registry_other hname).trans hfound, hrunning, hunit⟩

theorem Did.registered {params : Fields} (hdid : Did h around name tool out)
    (hcarried : (AppEvent.call tool around params).CarriedOut) (hregistered : h.Registered) :
    out.2.Registered := by
  intro unitName args hargs
  have hwritten : ∀ {units : Units} {app : AppEntry}, app.status = .running →
      ∀ old, JsMap.get? h.registry name = some old → old.status = .running →
        ∃ app', JsMap.get? (h.write around.saves units
          (JsMap.set h.registry name app)).2.registry name = some app' ∧
            app'.status = .running := by
    intro units app hrunning old hold holdRunning
    rw [write_registry]
    split
    · exact ⟨app, (JsMap.get?_set _ _ _ _).trans (if_pos rfl), hrunning⟩
    · exact ⟨old, hold, holdRunning⟩
  have hdid' := hdid
  cases hdid with
  | starts hstarts hunit hrunning hstored hnew =>
    rename_i args' app
    rw [write_units, get?_systemdRun] at hargs
    split at hargs
    · rename_i hand
      rw [AppEvent.CarriedOut, if_pos hstarts] at hcarried
      have hsaves : around.saves = true := hcarried (Bool.and_eq_true_iff.mp hand.1).1
      refine ⟨name, app, ?_, hrunning, hunit.symm.trans hand.2⟩
      rw [write_registry, if_pos hsaves, JsMap.get?_set, if_pos rfl]
    · exact (hregistered unitName args hargs).after hdid' fun _ => hwritten hrunning
  | restarts hfound =>
    rw [write_units, get?_systemctlStop] at hargs
    split at hargs
    · cases hargs
    · exact (hregistered unitName args hargs).after hdid' fun _ => hwritten rfl
  | stops hfound | removes hfound =>
    rw [write_units, get?_systemctlStop] at hargs
    split at hargs
    · cases hargs
    · rename_i hstays
      refine (hregistered unitName args hargs).after hdid' fun hunit app happ hrunning => ?_
      rw [AppEvent.CarriedOut, if_neg (by decide)] at hcarried
      have hsaves : ¬ around.saves = true := fun hsaves => hstays ⟨hcarried hsaves, hunit⟩
      rw [write_registry, if_neg hsaves]
      exact ⟨app, happ, hrunning⟩

theorem next_registered (e : AppEvent) (hvalid : h.Valid) (hregistered : h.Registered)
    (hcarried : e.CarriedOut) : (h.next sh e).2.Registered := by
  cases e with
  | call tool around params =>
    rcases call_cases h around params tool with ⟨err, hcall⟩ | ⟨name', hparams, hdid⟩
    · change (h.call around params tool).2.Registered
      rw [hcall]
      exact hregistered
    · exact hdid.registered hcarried hregistered
  | exits unitName =>
    intro unitName' args hargs
    change JsMap.get? (JsMap.delete h.units unitName) unitName' = some args at hargs
    rw [JsMap.get?_delete] at hargs
    split at hargs
    · cases hargs
    · exact hregistered unitName' args hargs
  | boot starts =>
    intro unitName args hargs
    obtain ⟨name, app, hfound, hrunning, hunit, -⟩ := boot_only hvalid hargs
    exact ⟨name, app, hfound, hrunning, hunit⟩

end Registered

/-- A unit whose app is not registered. -/
structure Host.Orphan (h : Host) (name : JsString) (args : List JsString) : Prop where
  unit : JsMap.get? h.units (getAppUnitName name) = some args
  registry : JsMap.get? h.registry name = none

/-- The app that a call is for. -/
def AppEvent.app? : AppEvent → Option JsString
  | .call _ _ params => (appName params).toOption
  | .exits _ | .boot _ => none

/-- No boot, and no end of the unit; and systemd tells that it is active if the app is to be
deployed. -/
def AppEvent.Leaves (name : JsString) : AppEvent → Prop
  | .call tool around params =>
    tool.starts = true → appName params = .ok name → around.tells = true
  | .exits unitName => unitName ≠ getAppUnitName name
  | .boot _ => False

section Orphan

variable {sh : Shell} {h : Host} {around : Surroundings} {name : JsString} {tool : AppTool}
  {out : Answer Unit × Host} {args : List JsString}

/-- No call for it does anything. -/
theorem Did.not_orphan (hdid : Did h around name tool out)
    (htells : tool.starts = true → around.tells = true) : ¬ h.Orphan name args := by
  intro horphan
  cases hdid with
  | starts hstarts hunit hrunning hstored hnew =>
    have hinactive := hnew horphan.registry
    rw [Host.saysActive, htells hstarts, Units.isActive, horphan.unit] at hinactive
    cases hinactive
  | restarts hfound | stops hfound | removes hfound =>
    rw [horphan.registry] at hfound
    cases hfound

theorem next_orphan (hname : isAppName name = true) (e : AppEvent) (hvalid : h.Valid)
    (horphan : h.Orphan name args) (hleft : e.Leaves name) :
    (h.next sh e).2.Orphan name args ∧
      (e.app? = some name → ∃ err, (h.next sh e).1 = .error err) := by
  cases e with
  | call tool around params =>
    change (h.call around params tool).2.Orphan name args ∧
      (_ → ∃ err, (h.call around params tool).1 = .error err)
    rcases call_cases h around params tool with ⟨err, hcall⟩ | ⟨name', hparams, hdid⟩
    · rw [hcall]
      exact ⟨horphan, fun _ => ⟨err, rfl⟩⟩
    · have hsame : name' ≠ name := by
        rintro rfl
        exact hdid.not_orphan (fun hstarts => hleft hstarts hparams) horphan
      have hunit := mt (getAppUnitName_inj (hdid.isAppName hvalid) hname).mp hsame
      refine ⟨⟨?_, ?_⟩, fun happ => absurd ?_ hsame⟩
      · exact (hdid.units_other hunit).trans horphan.unit
      · exact (hdid.registry_other hsame).trans horphan.registry
      · rw [AppEvent.app?, hparams] at happ
        exact Option.some.inj happ
  | exits unitName =>
    refine ⟨⟨?_, horphan.registry⟩, nofun⟩
    change JsMap.get? (JsMap.delete h.units unitName) _ = _
    rw [JsMap.get?_delete, if_neg hleft]
    exact horphan.unit
  | boot starts => exact hleft.elim

end Orphan

end OsModa.Bridge
