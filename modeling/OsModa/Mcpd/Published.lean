import Mathlib.Data.List.Induction
import OsModa.Mcpd.Reload

/-!
The list for OpenClaw against the servers that run.

The file should have an entry for exactly the servers that are `Running`. It is written at the
start of the daemon and by a reload, from the servers that are `Running` or `Starting`; no other
operation writes it. What each operation needs so that the file is right is said in
`KeepsPublished`, and a run keeps it right exactly when all of its steps do (`published_iff`).
-/

namespace OsModa.Mcpd

open OsModa.Machine

/-- The entry of a server. -/
def entryOf (egressPort : Nat) (config : ServerConfig) : OpenclawEntry :=
  ⟨config.command, config.args, proxiedEnv config egressPort, config.transport⟩

/-- A server of the name runs, and has the entry. -/
def Runs (egressPort : Nat) (servers : List ManagedServer) (name : String) (e : OpenclawEntry) :
    Prop :=
  ∃ s ∈ servers, s.status = .running ∧ s.config.name = name ∧ entryOf egressPort s.config = e

/-- The file lists exactly the servers that run, each with its entry. -/
def Published (st : McpdState) : Prop :=
  ∃ entries, st.openclaw = some entries ∧
    ∀ name e, entries name = some e ↔ Runs st.egressPort st.servers name e

/-! ### What is written -/

section Written

variable {egressPort : Nat}

/-- A server that is listed: whether it runs, and its configuration. -/
abbrev Listed := Bool × ServerConfig

/-- Servers are listed while they run or start. -/
def listed (servers : List ManagedServer) : List Listed :=
  servers.filterMap fun s =>
    if s.status = .running ∨ s.status = .starting then some (s.status = .running, s.config)
    else none

/-- The last of a name that is listed. -/
def lastOf (name : String) (l : List Listed) : Option Listed :=
  (l.filter (·.2.name = name)).getLast?

/-- Of each name, one that is listed runs, and all that run are like the last. -/
def Clear (egressPort : Nat) (l : List Listed) : Prop :=
  ∀ name last, lastOf name l = some last →
    (∃ p ∈ l, p.1 = true ∧ p.2.name = name) ∧
      ∀ p ∈ l, p.1 = true → p.2.name = name → entryOf egressPort p.2 = entryOf egressPort last.2

theorem listed_append (servers servers' : List ManagedServer) :
    listed (servers ++ servers') = listed servers ++ listed servers' :=
  List.filterMap_append

theorem mem_listed_running {servers : List ManagedServer} {config : ServerConfig} :
    (true, config) ∈ listed servers ↔
      ∃ s ∈ servers, s.status = .running ∧ s.config = config := by
  simp only [listed, List.mem_filterMap]
  refine exists_congr fun s => and_congr_right fun _ => ?_
  by_cases hrunning : s.status = .running
  · simp [hrunning]
  · by_cases hstarting : s.status = .starting <;> simp [hrunning, hstarting]

theorem runs_iff_listed {servers : List ManagedServer} {name : String} {e : OpenclawEntry} :
    Runs egressPort servers name e ↔
      ∃ p ∈ listed servers, p.1 = true ∧ p.2.name = name ∧ entryOf egressPort p.2 = e := by
  constructor
  · rintro ⟨s, hs, hrunning, hname, he⟩
    exact ⟨(true, s.config), mem_listed_running.mpr ⟨s, hs, hrunning, rfl⟩, rfl, hname, he⟩
  · rintro ⟨⟨runs, config⟩, hp, rfl, hname, he⟩
    obtain ⟨s, hs, hrunning, rfl⟩ := mem_listed_running.mp hp
    exact ⟨s, hs, hrunning, hname, he⟩

theorem lastOf_concat (name : String) (l : List Listed) (p : Listed) :
    lastOf name (l ++ [p]) = if p.2.name = name then some p else lastOf name l := by
  unfold lastOf
  rw [List.filter_append]
  by_cases hname : p.2.name = name <;> simp [hname]

/-- The file has the last that is listed of each name. -/
theorem generateOpenclawConfig_apply (servers : List ManagedServer) (name : String) :
    generateOpenclawConfig servers egressPort name =
      (lastOf name (listed servers)).map fun p => entryOf egressPort p.2 := by
  induction servers using List.reverseRecOn with
  | nil => rfl
  | append_singleton servers s ih =>
    rw [listed_append]
    simp only [generateOpenclawConfig, List.foldl_append, List.foldl_cons, List.foldl_nil] at ih ⊢
    by_cases hlisted : s.status = .running ∨ s.status = .starting
    · have hone : listed [s] = [(decide (s.status = .running), s.config)] := by
        simp [listed, hlisted]
      rw [if_pos hlisted, hone, lastOf_concat]
      by_cases hname : s.config.name = name
      · rw [if_pos hname, ← hname, Function.update_self]
        rfl
      · rw [if_neg hname, Function.update_of_ne (Ne.symm hname)]
        exact ih
    · have hnone : listed [s] = [] := by simp [listed, hlisted]
      rw [if_neg hlisted, hnone, List.append_nil]
      exact ih

/-- What is written is right if the listed servers are clear. -/
theorem published_written_iff (st : McpdState) :
    Published (writeOpenclawConfig .written st) ↔ Clear st.egressPort (listed st.servers) := by
  have hentries : Published (writeOpenclawConfig .written st) ↔
      ∀ name e, (lastOf name (listed st.servers)).map (fun p => entryOf st.egressPort p.2) =
        some e ↔ Runs st.egressPort st.servers name e := by
    simp only [← generateOpenclawConfig_apply]
    exact ⟨fun ⟨_, hwritten, h⟩ => Option.some.inj hwritten ▸ h, fun h => ⟨_, rfl, h⟩⟩
  rw [hentries]
  constructor
  · intro h name last hlast
    have hruns := fun e => (h name e).symm.trans (by rw [hlast, Option.map_some, Option.some.injEq])
    obtain ⟨p, hp, hrunning, hname, -⟩ := runs_iff_listed.mp ((hruns _).mpr rfl)
    refine ⟨⟨p, hp, hrunning, hname⟩, fun q hq hqruns hqname => ?_⟩
    exact ((hruns _).mp (runs_iff_listed.mpr ⟨q, hq, hqruns, hqname, rfl⟩)).symm
  · intro hclear name e
    cases hlast : lastOf name (listed st.servers) with
    | none =>
      refine iff_of_false nofun fun hruns => ?_
      obtain ⟨p, hp, -, hname, -⟩ := runs_iff_listed.mp hruns
      rw [lastOf, List.getLast?_eq_none_iff] at hlast
      have hmem : p ∈ (listed st.servers).filter (·.2.name = name) :=
        List.mem_filter.mpr ⟨hp, by simpa using hname⟩
      rw [hlast] at hmem
      cases hmem
    | some last =>
      obtain ⟨⟨p, hp, hrunning, hname⟩, halike⟩ := hclear name last hlast
      rw [Option.map_some, Option.some.injEq, runs_iff_listed]
      constructor
      · rintro rfl
        exact ⟨p, hp, hrunning, hname, halike p hp hrunning hname⟩
      · rintro ⟨q, hq, hqruns, hqname, rfl⟩
        exact (halike q hq hqruns hqname).symm

end Written

/-! ### One server that changes -/

section Changed

variable {egressPort : Nat} {servers : List ManagedServer} {name : String}
  {old new : ManagedServer}

/-- The servers but the first of a name. -/
def others (name : String) (servers : List ManagedServer) : List ManagedServer :=
  servers.eraseP (·.config.name = name)

theorem runs_of_find (hfind : findServer name servers = some old) (name' : String)
    (e : OpenclawEntry) : Runs egressPort servers name' e ↔
      Runs egressPort [old] name' e ∨ Runs egressPort (others name servers) name' e := by
  induction servers with
  | nil => cases hfind
  | cons s servers ih =>
    by_cases hname : s.config.name = name
    · obtain rfl : s = old := by simpa [findServer, hname] using hfind
      simp [Runs, others, hname]
    · have hrest : findServer name servers = some old := by
        rwa [findServer, List.find?_cons_of_neg (by simpa using hname)] at hfind
      have hothers : others name (s :: servers) = s :: others name servers := by
        simp [others, hname]
      have ih := ih hrest
      simp only [Runs, hothers, List.exists_mem_cons_iff] at ih ⊢
      rw [ih]
      exact or_left_comm

theorem runs_setServer (hfind : findServer name servers = some old) (name' : String)
    (e : OpenclawEntry) : Runs egressPort (setServer name new servers) name' e ↔
      Runs egressPort [new] name' e ∨ Runs egressPort (others name servers) name' e := by
  induction servers with
  | nil => cases hfind
  | cons s servers ih =>
    by_cases hname : s.config.name = name
    · simp [Runs, others, setServer, hname]
    · have hrest : findServer name servers = some old := by
        rwa [findServer, List.find?_cons_of_neg (by simpa using hname)] at hfind
      have hothers : others name (s :: servers) = s :: others name servers := by
        simp [others, hname]
      have ih := ih hrest
      simp only [Runs, hothers, setServer, if_neg hname, List.exists_mem_cons_iff] at ih ⊢
      rw [ih]
      exact or_left_comm

/-- The servers that run are the same after one has changed, if it still runs or still does
not, or if another one runs that is like it. -/
theorem runs_setServer_iff (hfind : findServer name servers = some old)
    (hconfig : new.config = old.config) :
    (∀ name' e, Runs egressPort (setServer name new servers) name' e ↔
        Runs egressPort servers name' e) ↔
      ((old.status = .running ↔ new.status = .running) ∨
        Runs egressPort (others name servers) name (entryOf egressPort old.config)) := by
  have hname := (mem_of_findServer hfind).2
  have hone : ∀ s : ManagedServer, ∀ name' e, Runs egressPort [s] name' e ↔
      s.status = .running ∧ s.config.name = name' ∧ entryOf egressPort s.config = e := by
    simp [Runs]
  simp only [runs_setServer hfind, runs_of_find hfind, hone, hconfig]
  constructor
  · intro h
    by_contra hneither
    obtain ⟨hchanged, halone⟩ := not_or.mp hneither
    have hself := h name (entryOf egressPort old.config)
    simp only [hname, and_true, or_iff_left halone] at hself
    exact hchanged hself.symm
  · rintro (hsame | halike) name' e
    · rw [hsame]
    · constructor
      · rintro (⟨-, rfl, rfl⟩ | hothers)
        · exact .inr (hname ▸ halike)
        · exact .inr hothers
      · rintro (⟨-, rfl, rfl⟩ | hothers)
        · exact .inr (hname ▸ halike)
        · exact .inr hothers

end Changed

/-- A file that was right and is not written stays right if the same servers run. -/
theorem published_unwritten_iff {st st' : McpdState} (hst : Published st)
    (hfile : st'.openclaw = st.openclaw) (hport : st'.egressPort = st.egressPort) :
    Published st' ↔ ∀ name e, Runs st.egressPort st'.servers name e ↔
      Runs st.egressPort st.servers name e := by
  obtain ⟨entries, hentries, hlists⟩ := hst
  rw [Published, hfile, hentries, hport]
  constructor
  · rintro ⟨entries', hsame, h⟩ name e
    rw [← hlists, ← h, Option.some.inj hsame]
  · exact fun h => ⟨entries, rfl, fun name e => (hlists name e).trans (h name e).symm⟩

/-! ### What the operations need -/

/-- A server that is found crashed and cannot be started again. -/
def givenUp (tryWait : TryWait) (spawn : Spawn) (server : ManagedServer) : Bool :=
  crashed tryWait server && !spawn.isOk

/-- The servers that a reload lists of its new ones. -/
def newlyListed (file : ConfigFile) (spawns : Nat → Spawn) (existingNames : List String) :
    List Listed :=
  ((withSpawns file spawns).filter (·.1.name ∉ existingNames)).map fun p => (p.2.isOk, p.1)

/-- What a step needs so that the file is right afterwards: where it does not write the file,
that no server begins or ceases to run unless another one runs that is like it; where it
does, that the servers which are left and those which are new are clear. -/
def KeepsPublished (t : McpdStep) : Prop :=
  match t.input with
  | .start name spawn => ∀ s, findServer name t.before.servers = some s →
      s.status ≠ .running → spawn.isOk = true →
        Runs t.before.egressPort (others name t.before.servers) name
          (entryOf t.before.egressPort s.config)
  | .stop name _ => ∀ s, findServer name t.before.servers = some s → s.status = .running →
      Runs t.before.egressPort (others name t.before.servers) name
        (entryOf t.before.egressPort s.config)
  | .restart name _ spawn => ∀ s, findServer name t.before.servers = some s →
      ¬ (s.status = .running ↔ spawn.isOk = true) →
        Runs t.before.egressPort (others name t.before.servers) name
          (entryOf t.before.egressPort s.config)
  | .reload file _ spawns _ => Clear t.before.egressPort
      (listed (t.before.servers.filter fun s =>
        s.config.name ∈ (loadServerConfigs file).map (·.name)) ++
          newlyListed file spawns (names t.before.servers))
  | .health checks spawns => ∀ i s, t.before.servers[i]? = some s →
      givenUp (checks i) (spawns i) s = true → ∃ j s', t.before.servers[j]? = some s' ∧
        s'.status = .running ∧ givenUp (checks j) (spawns j) s' = false ∧
        s'.config.name = s.config.name ∧
        entryOf t.before.egressPort s'.config = entryOf t.before.egressPort s.config

/-- The writes of the file succeed. -/
def McpdEvent.Writes : McpdEvent → Prop
  | .reload _ _ _ write => write = .written
  | _ => True

/-- A server runs after a health check if it ran and is not given up. -/
theorem healthChecked_running (tryWait : TryWait) (spawn : Spawn) (s : ManagedServer) :
    ((healthChecked tryWait spawn s).1.status = .running ↔
        s.status = .running ∧ givenUp tryWait spawn s = false) ∧
      (healthChecked tryWait spawn s).1.config = s.config := by
  by_cases hrunning : s.status = .running
  · cases hchild : s.child <;> cases tryWait <;> cases spawn <;>
      simp [healthChecked, checkRunning, crashed, checkServer, restartCrashed, startServer,
        givenUp, hrunning, hchild, Except.isOk, Except.toBool]
  · simp [healthChecked, checkRunning, crashed, hrunning]

section

variable {st : McpdState} (hst : Published st)

include hst

/-- A request for one server, by what it makes of the server. -/
theorem published_setServer_iff {st' : McpdState} {name : String} {old new : ManagedServer}
    (hfind : findServer name st.servers = some old) (hconfig : new.config = old.config)
    (hst' : st' = { st with servers := setServer name new st.servers }) :
    Published st' ↔ ((old.status = .running ↔ new.status = .running) ∨
      Runs st.egressPort (others name st.servers) name (entryOf st.egressPort old.config)) := by
  rw [← runs_setServer_iff hfind hconfig]
  exact published_unwritten_iff hst (by rw [hst']) (by rw [hst']) |>.trans (by rw [hst'])

theorem start_published_iff (name : String) (spawn : Spawn) :
    Published (mcpdNext (.start name spawn) st).2 ↔
      KeepsPublished (stepOf mcpdNext (.start name spawn) st) := by
  simp only [KeepsPublished, stepOf_input, stepOf_before]
  cases hfind : findServer name st.servers with
  | none =>
    have hnext : (mcpdNext (.start name spawn) st).2 = st := by
      simp only [mcpdNext, serverStart, hfind]
    rw [hnext]
    exact iff_of_true hst (by simp)
  | some srv =>
    simp only [Option.some.injEq, forall_eq']
    by_cases hrunning : srv.status = .running
    · have hnext : (mcpdNext (.start name spawn) st).2 = st := by
        simp only [mcpdNext, serverStart, hfind, if_pos hrunning]
      rw [hnext]
      exact iff_of_true hst fun hstatus => absurd hrunning hstatus
    · have hnext : (mcpdNext (.start name spawn) st).2 =
          { st with servers := setServer name (startServer spawn srv).2.1 st.servers } := by
        simp only [mcpdNext, serverStart, hfind, if_neg hrunning]
      rw [published_setServer_iff hst hfind (startServer_name spawn) hnext]
      cases spawn <;> simp [startServer, hrunning, Except.isOk, Except.toBool]

theorem stop_published_iff (name : String) (stopping : Stopping) :
    Published (mcpdNext (.stop name stopping) st).2 ↔
      KeepsPublished (stepOf mcpdNext (.stop name stopping) st) := by
  simp only [KeepsPublished, stepOf_input, stepOf_before]
  cases hfind : findServer name st.servers with
  | none =>
    have hnext : (mcpdNext (.stop name stopping) st).2 = st := by
      simp only [mcpdNext, serverStop, hfind]
    rw [hnext]
    exact iff_of_true hst (by simp)
  | some srv =>
    simp only [Option.some.injEq, forall_eq']
    have hnext : (mcpdNext (.stop name stopping) st).2 =
        { st with servers := setServer name (stopServer stopping srv).1 st.servers } := by
      simp only [mcpdNext, serverStop, hfind]
    rw [published_setServer_iff hst hfind (stopServer_config stopping) hnext]
    simp [stopServer, imp_iff_not_or]

theorem restart_published_iff (name : String) (stopping : Stopping) (spawn : Spawn) :
    Published (mcpdNext (.restart name stopping spawn) st).2 ↔
      KeepsPublished (stepOf mcpdNext (.restart name stopping spawn) st) := by
  simp only [KeepsPublished, stepOf_input, stepOf_before]
  cases hfind : findServer name st.servers with
  | none =>
    have hnext : (mcpdNext (.restart name stopping spawn) st).2 = st := by
      simp only [mcpdNext, serverRestart, hfind]
    rw [hnext]
    exact iff_of_true hst (by simp)
  | some srv =>
    simp only [Option.some.injEq, forall_eq']
    obtain ⟨new, hconfig, hstatus, hnext⟩ : ∃ new : ManagedServer, new.config = srv.config ∧
        (new.status = .running ↔ spawn.isOk = true) ∧
        (mcpdNext (.restart name stopping spawn) st).2 =
          { st with servers := setServer name new st.servers } := by
      cases spawn with
      | error e =>
        refine ⟨(startServer (.error e) (stopServer stopping srv).1).2.1, rfl, iff_of_false ?_ ?_, ?_⟩
        · rintro ⟨⟩
        · rintro ⟨⟩
        · simp only [mcpdNext, serverRestart, hfind, startServer]
      | ok child =>
        refine ⟨{ (startServer (.ok child) (stopServer stopping srv).1).2.1 with
          restartCount := srv.restartCount + 1 }, rfl, iff_of_true rfl rfl, ?_⟩
        simp only [mcpdNext, serverRestart, hfind, startServer, stopServer]
    rw [published_setServer_iff hst hfind hconfig hnext, hstatus, or_iff_not_imp_left]

theorem health_published_iff (checks : Nat → TryWait) (spawns : Nat → Spawn) :
    Published (mcpdNext (.health checks spawns) st).2 ↔
      KeepsPublished (stepOf mcpdNext (.health checks spawns) st) := by
  have hafter : ∀ name e, Runs st.egressPort (mcpdNext (.health checks spawns) st).2.servers name e ↔
      ∃ i s, st.servers[i]? = some s ∧ (s.status = .running ∧
        givenUp (checks i) (spawns i) s = false) ∧ s.config.name = name ∧
          entryOf st.egressPort s.config = e := by
    intro name e
    simp only [Runs, mcpdNext, healthIteration, List.mem_iff_getElem?, List.getElem?_map,
      List.getElem?_mapIdx, Option.map_map, Option.map_eq_some_iff]
    constructor
    · rintro ⟨_, ⟨i, s, hi, rfl⟩, hrunning, hname, he⟩
      obtain ⟨hstatus, hconfig⟩ := healthChecked_running (checks i) (spawns i) s
      rw [Function.comp_apply, hconfig] at hname he
      exact ⟨i, s, hi, hstatus.mp hrunning, hname, he⟩
    · rintro ⟨i, s, hi, hkept, hname, he⟩
      obtain ⟨hstatus, hconfig⟩ := healthChecked_running (checks i) (spawns i) s
      refine ⟨_, ⟨i, s, hi, rfl⟩, hstatus.mpr hkept, ?_, ?_⟩ <;>
        rwa [Function.comp_apply, hconfig]
  rw [published_unwritten_iff hst (by rfl) (by rfl)]
  simp only [hafter, KeepsPublished, stepOf_input, stepOf_before]
  constructor
  · intro h i s hi hgiven
    have hrunning : s.status = .running := by
      simp only [givenUp, crashed, Bool.and_eq_true, decide_eq_true_eq] at hgiven
      exact hgiven.1.1
    obtain ⟨j, s', hj, ⟨hrunning', hkept⟩, hname, he⟩ :=
      (h s.config.name _).mpr ⟨s, List.mem_of_getElem? hi, hrunning, rfl, rfl⟩
    exact ⟨j, s', hj, hrunning', hkept, hname, he⟩
  · intro h name e
    constructor
    · rintro ⟨i, s, hi, ⟨hrunning, -⟩, hname, he⟩
      exact ⟨s, List.mem_of_getElem? hi, hrunning, hname, he⟩
    · rintro ⟨s, hs, hrunning, rfl, rfl⟩
      obtain ⟨i, hi⟩ := List.mem_iff_getElem?.mp hs
      cases hgiven : givenUp (checks i) (spawns i) s with
      | false => exact ⟨i, s, hi, ⟨hrunning, hgiven⟩, rfl, rfl⟩
      | true =>
        obtain ⟨j, s', hj, hrunning', hkept, hname, he⟩ := h i s hi hgiven
        exact ⟨j, s', hj, ⟨hrunning', hkept⟩, hname, he⟩

end

/-- All new servers are listed. -/
theorem listed_startNew (existingNames : List String) (configs : List (ServerConfig × Spawn)) :
    listed (startNew existingNames configs).1 =
      (configs.filter (·.1.name ∉ existingNames)).map fun p => (p.2.isOk, p.1) := by
  induction configs with
  | nil => rfl
  | cons p configs ih =>
    obtain ⟨config, spawn⟩ := p
    by_cases hname : config.name ∈ existingNames
    · simpa [startNew, hname] using ih
    · simp only [startNew, if_neg hname]
      rw [listed, List.filterMap_cons, ← listed, ih]
      cases spawn <;> simp [startServer, hname, ManagedServer.fromConfig, Except.isOk, Except.toBool]

/-- A reload writes the file from the servers that it leaves. -/
theorem reload_published_iff (file : ConfigFile) (stops : String → Stopping) (spawns : Nat → Spawn)
    (st : McpdState) : Published (mcpdNext (.reload file stops spawns .written) st).2 ↔
      KeepsPublished (stepOf mcpdNext (.reload file stops spawns .written) st) := by
  have hservers := reload_servers file stops spawns .written st
  have hnext : (mcpdNext (.reload file stops spawns .written) st).2 = writeOpenclawConfig .written
      { st with servers := (reload file stops spawns .written st).2.servers } := rfl
  rw [hnext, published_written_iff, hservers, listed_append, listed_startNew]
  rfl

/-- The servers that are started first are listed. -/
theorem listed_boot (file : ConfigFile) (spawns : Nat → Spawn) (egressPort : Nat)
    (openclaw : Option (String → Option OpenclawEntry)) :
    listed (boot file spawns egressPort .written openclaw).servers = newlyListed file spawns [] := by
  have hfiltered : (withSpawns file spawns).filter (fun p => p.1.name ∉ ([] : List String)) =
      withSpawns file spawns := List.filter_eq_self.mpr (by simp)
  rw [newlyListed, hfiltered]
  simp only [boot, writeOpenclawConfig, listed, List.filterMap_map]
  rw [← List.filterMap_eq_map]
  refine List.filterMap_congr ?_
  intro p _
  obtain ⟨config, spawn⟩ := p
  cases spawn <;> simp [startServer, ManagedServer.fromConfig, Except.isOk, Except.toBool]

/-- **The list for OpenClaw is right as long as nothing changes but by a reload.** When the file
can be written, it lists exactly the running servers from the start of mcpd on if and only if
the servers are clear at the start and every step keeps the list. -/
theorem published_iff (file : ConfigFile) (spawns : Nat → Spawn) (egressPort : Nat)
    (openclaw : Option (String → Option OpenclawEntry)) (events : List McpdEvent)
    (hwrites : ∀ e ∈ events, e.Writes) :
    (Published (boot file spawns egressPort .written openclaw) ∧
        ∀ t ∈ trace mcpdNext events (boot file spawns egressPort .written openclaw),
          Published t.after) ↔
      Clear egressPort (newlyListed file spawns []) ∧
        ∀ t ∈ trace mcpdNext events (boot file spawns egressPort .written openclaw),
          KeepsPublished t := by
  have hboot : Published (boot file spawns egressPort .written openclaw) ↔
      Clear egressPort (newlyListed file spawns []) := by
    rw [← listed_boot file spawns egressPort openclaw]
    exact published_written_iff _
  rw [hboot]
  refine and_congr_right fun hclear => all_good_iff_of (I := Published) (fun e st hwrite hst => ?_)
    (fun e st _ hgood => hgood) events hwrites (hboot.mpr hclear)
  rw [stepOf_after]
  cases e with
  | start name spawn => exact start_published_iff hst name spawn
  | stop name stopping => exact stop_published_iff hst name stopping
  | restart name stopping spawn => exact restart_published_iff hst name stopping spawn
  | reload file stops spawns write =>
    obtain rfl : write = .written := hwrite
    exact reload_published_iff file stops spawns st
  | health checks spawns => exact health_published_iff hst checks spawns

/-! ### A server that is stopped -/

/-- The one server is stopped. -/
def stopNotes : List McpdEvent := [.stop "notes" ⟨true, true⟩]

theorem clear_notes : Clear 19999 (newlyListed (.holds [notes]) spawned []) := by
  intro name last hlast
  have hlisted : newlyListed (.holds [notes]) spawned [] = [(true, notes)] := rfl
  rw [hlisted] at hlast ⊢
  have hmem : last ∈ [(true, notes)].filter (·.2.name = name) := List.mem_of_getLast? hlast
  obtain ⟨hlast, hname⟩ := List.mem_filter.mp hmem
  obtain rfl := List.mem_singleton.mp hlast
  refine ⟨⟨_, List.mem_cons_self, rfl, by simpa using hname⟩, ?_⟩
  rintro p hp - -
  rw [List.mem_singleton.mp hp]

/-- A run that only reloads the file as it is keeps the list. -/
theorem reloaded_published :
    Published (boot (.holds [notes]) spawned 19999 .written none) ∧
      ∀ t ∈ trace mcpdNext [.reload (.holds [notes]) (fun _ => ⟨true, true⟩) spawned .written]
        (boot (.holds [notes]) spawned 19999 .written none), Published t.after := by
  refine (published_iff (.holds [notes]) spawned 19999 none _ (by simp [McpdEvent.Writes])).mpr
    ⟨clear_notes, ?_⟩
  intro t ht
  obtain rfl := List.mem_singleton.mp ht
  exact clear_notes

/-- The stopped server stays in the file. -/
theorem stopNotes_not_published :
    ¬ ∀ t ∈ trace mcpdNext stopNotes (boot (.holds [notes]) spawned 19999 .written none),
      Published t.after := by
  intro h
  obtain ⟨entries, hentries, hlists⟩ := h _ List.mem_cons_self
  have hlisted : entries "notes" = some (entryOf 19999 notes) := by
    rw [← Option.some.inj hentries]
    rfl
  obtain ⟨s, hs, hrunning, -⟩ := (hlists _ _).mp hlisted
  obtain rfl := List.mem_singleton.mp hs
  cases hrunning

end OsModa.Mcpd
