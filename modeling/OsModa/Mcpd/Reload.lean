import OsModa.Mcpd.Supervision

/-!
What a reload makes of the managed servers.

A reload goes by names. The servers whose name the config file still has are left as they
were, the others are removed, and the servers of new names are added (`reload_servers`). So
the names are those of the file, and a configuration that was changed in the file is not taken
over.
-/

namespace OsModa.Mcpd

def names (servers : List ManagedServer) : List String := servers.map (·.config.name)

/-- A reload brings the managed servers to the config file, and a file that cannot be read
changes none. -/
def MeetsFile (before after : List ManagedServer) : ConfigFile → Prop
  | .holds configs =>
    (∀ name, name ∈ names after ↔ name ∈ configs.map (·.name)) ∧ ∀ s ∈ after, s.config ∈ configs
  | .missing => after = []
  | .unreadable | .malformed => after = before

/-- What a reload makes of the servers, by the configurations that it has loaded. -/
structure Reloaded (configs : List ServerConfig) (before after : List ManagedServer) : Prop where
  names : ∀ name, name ∈ names after ↔ name ∈ configs.map (·.name)
  /-- A server that is still named is left as it was. -/
  kept : ∀ s ∈ before, s.config.name ∈ configs.map (·.name) → s ∈ after
  /-- A server of a new name has the configuration of the file. -/
  stored : ∀ s ∈ after, s ∈ before ∨ s.config ∈ configs
  added : ∀ config ∈ configs, config.name ∉ Mcpd.names before → ∃ s ∈ after, s.config = config

section

variable {servers : List ManagedServer} {stops : String → Stopping}

/-- The servers whose name is not stopped stay, and in order. -/
theorem filter_stopNamed (keep : String → Bool) (listed : List String)
    (hkeep : ∀ name ∈ listed, keep name = false) (servers : List ManagedServer) :
    (stopNamed stops listed servers).1.filter (fun s => keep s.config.name) =
      servers.filter fun s => keep s.config.name := by
  induction listed generalizing servers with
  | nil => rfl
  | cons name listed ih =>
    obtain ⟨hname, hlisted⟩ := List.forall_mem_cons.mp hkeep
    cases hfind : findServer name servers with
    | none => simpa only [stopNamed, hfind] using ih hlisted servers
    | some srv =>
      simp only [stopNamed, hfind]
      rw [ih hlisted]
      obtain ⟨hmem, hsrv⟩ := mem_of_findServer hfind
      clear hfind hmem ih
      induction servers with
      | nil => rfl
      | cons s servers ih =>
        by_cases hs : s.config.name = name
        · simp [setServer, hs, hsrv, hname]
        · simp [setServer, hs, List.filter_cons, ih]

/-- The configurations of the servers that a reload adds. -/
theorem map_config_startNew (existingNames : List String) (configs : List (ServerConfig × Spawn)) :
    (startNew existingNames configs).1.map (·.config) =
      (configs.map Prod.fst).filter (·.name ∉ existingNames) := by
  induction configs with
  | nil => rfl
  | cons p configs ih =>
    by_cases hname : p.1.name ∈ existingNames
    · simpa [startNew, hname] using ih
    · simp [startNew, hname, ih, ManagedServer.fromConfig]

theorem map_fst_withSpawns (file : ConfigFile) (spawns : Nat → Spawn) :
    (withSpawns file spawns).map Prod.fst = loadServerConfigs file := by
  refine List.ext_getElem? ?_
  intro i
  rw [withSpawns, List.getElem?_map, List.getElem?_mapIdx, Option.map_map]
  exact Option.map_id'

/-- The servers after a reload: those that are still named, then the new ones. -/
theorem reload_servers (file : ConfigFile) (stops : String → Stopping) (spawns : Nat → Spawn)
    (write : FileWrite) (st : McpdState) : (reload file stops spawns write st).2.servers =
      (st.servers.filter fun s => s.config.name ∈ (loadServerConfigs file).map (·.name)) ++
        (startNew (names st.servers) (withSpawns file spawns)).1 := by
  have hkept : (stopNamed stops (removedNames file st.servers) st.servers).1.filter
      (fun s => s.config.name ∉ removedNames file st.servers) =
        st.servers.filter fun s => s.config.name ∉ removedNames file st.servers :=
    filter_stopNamed (fun name => name ∉ removedNames file st.servers) _ (by simp) st.servers
  have hnamed : st.servers.filter (fun s => s.config.name ∉ removedNames file st.servers) =
      st.servers.filter fun s => s.config.name ∈ (loadServerConfigs file).map (·.name) := by
    refine List.filter_congr ?_
    intro s hs
    rw [decide_eq_decide, removedNames, List.mem_filter, not_and, decide_eq_true_eq, not_not]
    exact imp_iff_right (List.mem_map_of_mem hs)
  simp only [reload, writeOpenclawConfig]
  rw [hkept, hnamed]
  rfl

end

/-- **A reload goes by names.** Whatever the config file holds, the names are then those of the
file; servers that were managed and still are named are left as they were, and the others have
the configuration of the file. -/
theorem reload_goes_by_names (configs : List ServerConfig) (stops : String → Stopping)
    (spawns : Nat → Spawn) (write : FileWrite) (st : McpdState) :
    Reloaded configs st.servers (reload (.holds configs) stops spawns write st).2.servers ∧
      (reload .missing stops spawns write st).2.servers = [] := by
  have hnew : (startNew (names st.servers) (withSpawns (.holds configs) spawns)).1.map (·.config) =
      configs.filter (·.name ∉ names st.servers) := by
    rw [map_config_startNew, map_fst_withSpawns]
    rfl
  have hadded : ∀ config, (∃ s ∈ (startNew (names st.servers)
      (withSpawns (.holds configs) spawns)).1, s.config = config) ↔
        config ∈ configs ∧ config.name ∉ names st.servers := by
    intro config
    rw [← List.mem_map, hnew, List.mem_filter, decide_eq_true_eq]
  rw [reload_servers, reload_servers]
  refine ⟨⟨fun name => ?_, fun s hs hname => ?_, fun s hs => ?_, fun config hconfig hname => ?_⟩, ?_⟩
  · rw [names, List.map_append, List.mem_append]
    constructor
    · rintro (hkept | hnamed)
      · obtain ⟨s, hs, rfl⟩ := List.mem_map.mp hkept
        simpa [loadServerConfigs] using (List.mem_filter.mp hs).2
      · obtain ⟨s, hs, rfl⟩ := List.mem_map.mp hnamed
        exact List.mem_map_of_mem ((hadded s.config).mp ⟨s, hs, rfl⟩).1
    · intro hname
      obtain ⟨config, hconfig, rfl⟩ := List.mem_map.mp hname
      by_cases hexists : config.name ∈ names st.servers
      · obtain ⟨s, hs, hsname⟩ := List.mem_map.mp hexists
        refine .inl (List.mem_map.mpr ⟨s, List.mem_filter.mpr ⟨hs, ?_⟩, hsname⟩)
        simpa [loadServerConfigs, hsname] using ⟨config, hconfig, rfl⟩
      · obtain ⟨s, hs, rfl⟩ := (hadded config).mpr ⟨hconfig, hexists⟩
        exact .inr (List.mem_map_of_mem hs)
  · exact List.mem_append_left _ (List.mem_filter.mpr ⟨hs, by simpa [loadServerConfigs] using hname⟩)
  · rcases List.mem_append.mp hs with hkept | hnamed
    · exact .inl (List.mem_filter.mp hkept).1
    · exact .inr ((hadded s.config).mp ⟨s, hnamed, rfl⟩).1
  · obtain ⟨s, hs, hsconfig⟩ := (hadded config).mpr ⟨hconfig, hname⟩
    exact ⟨s, List.mem_append_right _ hs, hsconfig⟩
  · simp [loadServerConfigs, withSpawns, startNew]

/-! ### A configuration that was changed -/

def movedNotes : ServerConfig := { notes with command := "/opt/bin/notes" }

def spawned : Nat → Spawn := fun _ => .ok (some 7, "2026-01-01T00:00:00+00:00")

def notesRun : McpdState := boot (.holds [notes]) spawned 19999 .written none

/-- The servers after a reload of a file. -/
def reloadedFrom (file : ConfigFile) : List ManagedServer :=
  (reload file (fun _ => ⟨true, true⟩) spawned .written notesRun).2.servers

/-- The command of the one server is changed in the file, and the server keeps the old one;
then the file is malformed, and the server is removed. -/
theorem movedNotes_not_met :
    ¬ MeetsFile notesRun.servers (reloadedFrom (.holds [movedNotes])) (.holds [movedNotes]) ∧
      ¬ MeetsFile notesRun.servers (reloadedFrom .malformed) .malformed := by
  constructor
  · rintro ⟨-, hstored⟩
    have hcommand := hstored _ List.mem_cons_self
    rw [List.mem_singleton] at hcommand
    exact absurd (congrArg ServerConfig.command hcommand) (by decide)
  · intro hmet
    exact absurd (congrArg List.length hmet) (by decide)

end OsModa.Mcpd
