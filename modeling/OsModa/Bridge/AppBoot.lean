import OsModa.Bridge.AppLife

/-!
What a boot brings back of the apps.

The script of the boot starts what is registered as running. It brings back all of it, unless the
variables of one of these apps are an array, where the script ends (`boot_restores_iff`). It does
not bring an app without a user back as it was: not as a dynamic user, but as root
(`restored_runsAs_iff`).
-/

namespace OsModa.Bridge

open OsModa.Js OsModa.Machine

/-! ### The whole script -/

section Script

variable {sh : Shell} {starts : JsString → Bool} {rows : List (JsString × AppEntry)} {units : Units}
  {unitName : JsString} {args : List JsString}

/-- The script stops nothing. -/
theorem restoreApps_keeps (h : JsMap.get? units unitName = some args) :
    JsMap.get? (restoreApps sh starts rows units) unitName = some args := by
  induction rows generalizing units with
  | nil => exact h
  | cons row rest ih =>
    obtain ⟨name, app⟩ := row
    unfold restoreApps
    dsimp only
    split
    · exact ih h
    · split
      · exact h
      · rename_i args' hargs
        refine ih ?_
        rw [get?_systemdRun, if_neg ?_]
        · exact h
        · rintro ⟨hstarts, hunit⟩
          rw [Bool.and_eq_true, hunit, Units.isActive, h] at hstarts
          exact Bool.false_ne_true hstarts.2

/-- Where all can be started, an entry that is running is, if the script gets to it. -/
theorem restoreApps_all (hstarts : ∀ unitName, starts unitName = true)
    (hargs : ∀ row ∈ rows, row.2.status = .running → (restoreEnv sh row.2.env).isSome = true)
    {row : JsString × AppEntry} (hrow : row ∈ rows) (hrunning : row.2.status = .running)
    (hcommand : (scriptText (some row.2.command)).isSome = true) :
    (restoreApps sh starts rows units).isActive (restoreUnitName row.1) = true := by
  induction rows generalizing units with
  | nil => cases hrow
  | cons first rest ih =>
    obtain ⟨hfirst, hrest⟩ := List.forall_mem_cons.mp hargs
    have hthere : ∀ {units : Units}, units.isActive (restoreUnitName row.1) = true →
        (restoreApps sh starts rest units).isActive (restoreUnitName row.1) = true := by
      intro units hactive
      obtain ⟨args, hget⟩ := Option.isSome_iff_exists.mp hactive
      exact Option.isSome_iff_exists.mpr ⟨args, restoreApps_keeps hget⟩
    obtain ⟨name, app⟩ := first
    unfold restoreApps
    dsimp only
    split
    · rename_i hskip
      rcases List.mem_cons.mp hrow with rfl | hmem
      · have hnone : (scriptText (some app.command)).isNone = false := by
          rw [Option.isNone_eq_false_iff]
          exact hcommand
        rw [Bool.or_eq_true, Bool.or_eq_true, hnone] at hskip
        rcases hskip with (hstopped | hempty) | hactive
        · exact absurd hrunning (of_decide_eq_true hstopped)
        · cases hempty
        · exact hthere hactive
      · exact ih hrest hmem
    · rename_i hskip
      have happ : app.status = .running := by
        by_contra hstopped
        exact hskip (by simp [hstopped])
      obtain ⟨setenv, hsetenv⟩ := Option.isSome_iff_exists.mp (hfirst happ)
      have hsome : ∃ args, restoreArgs sh (restoreUnitName name) app = some args := by
        unfold restoreArgs
        rw [hsetenv]
        exact ⟨_, rfl⟩
      obtain ⟨args, hargs'⟩ := hsome
      rw [hargs']
      dsimp only
      rcases List.mem_cons.mp hrow with rfl | hmem
      · refine hthere ?_
        unfold Units.isActive
        rw [get?_systemdRun, unitOf_restoreArgs hargs', hstarts]
        split
        · rfl
        · rename_i hactive
          rw [and_iff_left rfl, Bool.true_and, Bool.not_eq_true', Bool.not_eq_false] at hactive
          exact hactive
      · exact ih hrest hmem

end Script

/-! ### What a boot brings back -/

section Restored

variable {sh : Shell} {h : Host} {name : JsString} {app : AppEntry}

theorem scriptText_some (text : JsString) : scriptText (some text) =
    if substituted text ≠ [] ∧ substituted text ≠ utf16 "null" then some (substituted text)
    else none := by
  simp [scriptText, Option.filter]

theorem scriptText_command (hvalid : ValidApp name app) :
    (scriptText (some app.command)).isSome = true := by
  obtain ⟨rest, hcommand⟩ : ∃ rest, app.command = 47 :: rest := by
    cases hcommand : app.command with
    | nil =>
      have hhead := hvalid.command
      rw [hcommand] at hhead
      cases hhead
    | cons a rest =>
      have hhead := hvalid.command
      rw [hcommand] at hhead
      obtain rfl := Option.some.inj hhead
      exact ⟨rest, rfl⟩
  obtain ⟨kept, hkept⟩ : ∃ kept, substituted app.command = 47 :: kept := by
    have hprefix : substituted app.command <+: 47 :: rest :=
      hcommand ▸ List.rdropWhile_prefix _ app.command
    cases hkept : substituted app.command with
    | nil =>
      have hall := List.rdropWhile_eq_nil_iff.mp hkept 47 (hcommand ▸ List.mem_cons_self)
      exact absurd (of_decide_eq_true hall) (by decide)
    | cons a kept =>
      rw [hkept] at hprefix
      exact ⟨kept, by rw [(List.cons_prefix_cons.mp hprefix).1]⟩
  rw [scriptText_some, hkept, if_pos]
  · rfl
  · exact ⟨nofun, fun heq => absurd (List.cons.inj heq).1 (by decide)⟩

/-- The script gets past an entry unless its variables are an array. -/
theorem isSome_restoreEnv_iff (hvalid : ValidApp name app) :
    (restoreEnv sh app.env).isSome = true ↔ ∀ items, app.env ≠ some (.array items) := by
  rcases hvalid.env with henv | ⟨fields, henv⟩ | ⟨item, items, henv⟩
  · rw [henv]
    exact iff_of_true rfl nofun
  · rw [henv]
    exact iff_of_true rfl nofun
  · rw [henv]
    exact iff_of_false nofun fun hne => hne _ rfl

end Restored

/-- The entry of a deployed app. -/
def webEntry : AppEntry where
  name := utf16 "web"
  command := utf16 "/bin/web"
  args := none
  workingDir := none
  env := none
  memoryMax := none
  cpuQuota := none
  restartPolicy := utf16 "on-failure"
  port := none
  user := none
  createdAt := utf16 "2026-03-01T09:00:00.000Z"
  status := .running

theorem web_deployed : (hostAfter plainShell [deployment "web" "/bin/web"]).registry.rows =
    [(utf16 "web", webEntry)] := rfl

inductive Identity where
  | root
  | dynamic
  | user (name : JsString)

/-- Who systemd runs the process of a unit as, from the options before `--`. -/
def runsAs : List JsString → Identity
  | [] => .root
  | arg :: rest =>
    if arg = utf16 "--" then .root
    else if arg = dynamicUser then .dynamic
    else if (utf16 "--uid=").isPrefixOf arg then .user (arg.drop 6)
    else runsAs rest

/-- An option that says nothing of the user. -/
def IsOther (arg : JsString) : Prop := optionRank arg ≠ 0 ∧ arg[2]?.isSome = true

section RunsAs

variable {sh : Shell} {unitName : JsString} {app : AppEntry} {args : List JsString}

theorem isOther_of {arg : JsString} {k : Nat} {a : UInt16} (hrank : optionRank arg = k + 1)
    (hlong : arg[2]? = some a) : IsOther arg :=
  ⟨fun hzero => k.succ_ne_zero (hrank.symm.trans hzero), by rw [hlong]; rfl⟩

theorem runsAs_other {arg : JsString} (h : IsOther arg) (rest : List JsString) :
    runsAs (arg :: rest) = runsAs rest := by
  rw [runsAs, if_neg, if_neg, if_neg]
  · intro huid
    obtain ⟨text, rfl⟩ := List.isPrefixOf_iff_prefix.mp huid
    exact h.1 rfl
  · rintro rfl
    exact h.1 rfl
  · rintro rfl
    exact Bool.false_ne_true h.2

theorem runsAs_others {options : List JsString} (h : ∀ arg ∈ options, IsOther arg)
    (command : List JsString) : runsAs (options ++ utf16 "--" :: command) = .root := by
  induction options with
  | nil => exact if_pos rfl
  | cons arg rest ih =>
    obtain ⟨harg, hrest⟩ := List.forall_mem_cons.mp h
    rw [List.cons_append, runsAs_other harg, ih hrest]

theorem runsAs_uid (user : JsString) (rest : List JsString) :
    runsAs ((utf16 "--uid=" ++ user) :: rest) = .user user := by
  have hprefix : (utf16 "--uid=").isPrefixOf (utf16 "--uid=" ++ user) = true :=
    List.isPrefixOf_iff_prefix.mpr (List.prefix_append _ _)
  rw [runsAs, if_neg, if_neg, if_pos hprefix]
  · rfl
  · exact fun heq => absurd (congrArg (·[2]?) heq) nofun
  · exact fun heq => absurd (congrArg (·[2]?) heq) nofun

/-- The arguments that come first say nothing of the user. -/
theorem runsAs_unitArgs (hunit : IsOther unitName) (policy : JsString) (rest : List JsString) :
    runsAs (unitArgs unitName policy ++ rest) = runsAs rest := by
  have hfirst : ∀ rest, runsAs (utf16 "--unit" :: rest) = runsAs rest := by
    intro rest
    rw [runsAs, if_neg (by decide), if_neg (by decide), if_neg (by decide)]
  change runsAs (utf16 "--unit" :: unitName :: utf16 "--service-type=simple" ::
    (utf16 "--property=Restart=" ++ policy) :: utf16 "--property=StartLimitIntervalSec=0" ::
      utf16 "--property=RestartSec=3" :: rest) = _
  rw [hfirst, runsAs_other hunit, runsAs_other (isOther_of rfl rfl),
    runsAs_other (isOther_of rfl rfl), runsAs_other (isOther_of rfl rfl),
    runsAs_other (isOther_of rfl rfl)]

theorem isOther_of_mem {option : String} {v : Option JsString} {k : Nat} {a : UInt16}
    {arg : JsString} (hrank : ∀ text, optionRank (utf16 option ++ text) = k + 1)
    (hlong : ∀ text, (utf16 option ++ text)[2]? = some a)
    (h : arg ∈ (v.map (utf16 option ++ ·)).toList) : IsOther arg := by
  obtain ⟨text, -, rfl⟩ := Option.map_eq_some_iff.mp (Option.mem_toList.mp h)
  exact isOther_of (hrank text) (hlong text)

theorem isOther_getAppUnitName (name : JsString) : IsOther (getAppUnitName name) :=
  isOther_of (k := 3) rfl rfl

theorem isOther_setenv (text : JsString) : IsOther (utf16 "--setenv=" ++ text) :=
  isOther_of (k := 3) rfl rfl

/-- The options that come after the user. -/
theorem runsAs_options {dir memory quota setenv : List JsString}
    (hdir : ∀ arg ∈ dir, IsOther arg) (hmemory : ∀ arg ∈ memory, IsOther arg)
    (hquota : ∀ arg ∈ quota, IsOther arg) (hsetenv : ∀ arg ∈ setenv, IsOther arg)
    (command : List JsString) :
    runsAs (dir ++ (memory ++ (quota ++ (setenv ++ utf16 "--" :: command)))) = .root := by
  have hall : ∀ arg ∈ dir ++ (memory ++ (quota ++ setenv)), IsOther arg := by
    simp only [List.forall_mem_append]
    exact ⟨hdir, hmemory, hquota, hsetenv⟩
  have hroot := runsAs_others hall command
  simpa only [List.append_assoc] using hroot

/-- The script starts an app without a user as root. -/
theorem runsAs_restoreArgs (hunit : IsOther unitName)
    (h : restoreArgs sh unitName app = some args) :
    runsAs args = (scriptText app.user).elim .root .user := by
  obtain ⟨setenv, hsetenv, hargs⟩ := Option.bind_eq_some_iff.mp h
  obtain rfl := Option.some.inj hargs
  have hothers : ∀ arg ∈ setenv, IsOther arg := by
    unfold restoreEnv at hsetenv
    split at hsetenv
    · obtain rfl := Option.some.inj hsetenv
      exact nofun
    · obtain rfl := Option.some.inj hsetenv
      exact nofun
    · obtain rfl := Option.some.inj hsetenv
      exact nofun
    · obtain rfl := Option.some.inj hsetenv
      exact nofun
    · obtain rfl := Option.some.inj hsetenv
      intro arg harg
      obtain ⟨key, -, rfl⟩ := List.mem_map.mp harg
      exact List.append_assoc _ _ _ ▸ isOther_setenv _
    · cases hsetenv
  rw [runsAs_unitArgs hunit]
  cases huser : scriptText app.user with
  | none =>
    unfold restoreOption
    rw [huser]
    refine runsAs_options ?_ ?_ ?_ hothers _
    · exact fun _ => isOther_of_mem (k := 0) (fun _ => rfl) fun _ => rfl
    · exact fun _ => isOther_of_mem (k := 1) (fun _ => rfl) fun _ => rfl
    · exact fun _ => isOther_of_mem (k := 2) (fun _ => rfl) fun _ => rfl
  | some user =>
    unfold restoreOption
    rw [huser]
    exact runsAs_uid user _

/-- The bridge starts it as a dynamic user. -/
theorem runsAs_redeployArgs (hunit : IsOther unitName) (h : redeployArgs unitName app = .ok args) :
    runsAs args = (app.user.filter (· ≠ [])).elim .dynamic .user := by
  obtain ⟨setenv, -, hargs⟩ := bind_eq_ok.mp h
  obtain rfl := Except.ok.inj hargs
  rw [runsAs_unitArgs hunit]
  unfold redeployUser
  cases app.user.filter (· ≠ []) with
  | none =>
    change runsAs (dynamicUser :: _) = _
    rw [runsAs, if_neg (by decide), if_pos rfl]
    rfl
  | some user => exact runsAs_uid user _

end RunsAs

end OsModa.Bridge
