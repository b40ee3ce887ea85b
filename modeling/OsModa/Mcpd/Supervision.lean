import OsModa.Mcpd.Server

/-!
mcpd's children are accounted for.

Whenever the lock is free, a server should be `Running` exactly if it holds the handle of a
child that is neither killed nor reaped, and no handle of a child that may be alive should
have been let go of. What an operation on one server needs for that is said first, then what
a handler needs, and a run is good exactly when all of its steps are (`supervised_iff`).
-/

namespace OsModa.Mcpd

open OsModa.Machine

/-- The child is not alive any more, or told not to be. -/
def Child.Gone (c : Child) : Prop := c.killed ∨ c.reaped

def Stopping.Gone (stopping : Stopping) : Prop := stopping.killed ∨ stopping.reaped

/-- The status of a server is that of its child, and no start is left unfinished. -/
structure Supervised (s : ManagedServer) : Prop where
  running : s.status = .running ↔ s.child.isSome
  held : ∀ c ∈ s.child, ¬ c.Gone
  settled : s.status ≠ .starting

/-- A step leaves every server supervised and lets go of no child that may be alive. -/
structure Good (t : McpdStep) : Prop where
  servers : ∀ s ∈ t.after.servers, Supervised s
  dropped : ∀ c ∈ t.output.dropped, c.Gone

/-! ### One server -/

section Server

variable {s : ManagedServer}

theorem Supervised.child_eq_none (h : Supervised s) (hstatus : s.status ≠ .running) :
    s.child = none := by
  rw [Ne, h.running] at hstatus
  simpa using hstatus

/-- A child that is held is what a server runs. -/
theorem Supervised.running_of_mem (h : Supervised s) {c : Child} (hc : c ∈ s.child) :
    s.status = .running :=
  h.running.mpr (by rw [Option.mem_def.mp hc]; rfl)

@[simp] theorem startServer_name (spawn : Spawn) :
    (startServer spawn s).2.1.config = s.config := by
  unfold startServer
  split <;> rfl

@[simp] theorem stopServer_config (stopping : Stopping) :
    (stopServer stopping s).1.config = s.config := rfl

@[simp] theorem stopServer_child (stopping : Stopping) : (stopServer stopping s).1.child = none := rfl

theorem supervised_stopServer (stopping : Stopping) : Supervised (stopServer stopping s).1 :=
  ⟨by simp [stopServer], nofun, nofun⟩

/-- Without a child there is none to let go of. -/
theorem startServer_dropped (spawn : Spawn) (hchild : s.child = none) :
    (startServer spawn s).2.2 = [] := by
  unfold startServer
  split
  · rfl
  · rw [hchild]
    rfl

/-- Only a start that succeeds leaves a server supervised. -/
theorem supervised_startServer (spawn : Spawn) :
    Supervised (startServer spawn s).2.1 ↔ spawn.isOk = true := by
  cases spawn with
  | error e => exact iff_of_false (fun h => h.settled rfl) nofun
  | ok child =>
    refine iff_of_true ⟨iff_of_true rfl rfl, ?_, nofun⟩ rfl
    rintro c ⟨⟩
    simp [Child.Gone]

/-- The child that a stop lets go of is gone if it was killed or waited for. -/
theorem stopServer_dropped (stopping : Stopping) (h : Supervised s) :
    (∀ c ∈ (stopServer stopping s).2, c.Gone) ↔ (s.status = .running → stopping.Gone) := by
  cases hchild : s.child with
  | none =>
    have hstatus : s.status ≠ .running := by rw [Ne, h.running, hchild]; exact nofun
    simp [stopServer, hchild, hstatus]
  | some c =>
    have hheld : c.killed = false ∧ c.reaped = false := by
      simpa [Child.Gone] using h.held c hchild
    simp [stopServer, hchild, h.running_of_mem hchild, Stopping.apply, Child.Gone, Stopping.Gone,
      hheld]

/-- A server stays supervised if the state of its child can be told. -/
theorem healthChecked_good (tryWait : TryWait) (spawn : Spawn) (h : Supervised s) :
    (Supervised (healthChecked tryWait spawn s).1 ∧
        ∀ c ∈ (checkRunning tryWait s).2 ++ (healthChecked tryWait spawn s).2, c.Gone) ↔
      (s.status = .running → ∀ e, tryWait ≠ .error e) := by
  by_cases hstatus : s.status = .running
  · obtain ⟨c, hchild⟩ := Option.isSome_iff_exists.mp (h.running.mp hstatus)
    have hheld : c.killed = false ∧ c.reaped = false := by
      simpa [Child.Gone] using h.held c hchild
    cases tryWait with
    | running =>
      refine iff_of_true ?_ (fun _ e => nofun)
      simpa [healthChecked, checkRunning, crashed, checkServer, hstatus, hchild] using h
    | exited exitStatus =>
      refine iff_of_true ?_ (fun _ e => nofun)
      cases spawn with
      | error e =>
        refine ⟨⟨?_, ?_, ?_⟩, ?_⟩ <;>
          simp [healthChecked, checkRunning, crashed, checkServer, restartCrashed, startServer,
            hstatus, hchild, Child.Gone]
      | ok child =>
        refine ⟨⟨?_, ?_, ?_⟩, ?_⟩ <;>
          simp [healthChecked, checkRunning, crashed, checkServer, restartCrashed, startServer,
            hstatus, hchild, Child.Gone]
    | error e =>
      refine iff_of_false ?_ (fun hno => hno hstatus e rfl)
      rintro ⟨hsupervised, hdropped⟩
      cases spawn with
      | error e' =>
        -- The server is failed and holds the handle.
        have hrunning := hsupervised.running
        simp [healthChecked, checkRunning, crashed, checkServer, restartCrashed, startServer,
          hstatus, hchild] at hrunning
      | ok child =>
        -- The handle is replaced by that of the new child.
        simp [healthChecked, checkRunning, crashed, checkServer, restartCrashed, startServer,
          hstatus, hchild, Child.Gone, hheld] at hdropped
  · refine iff_of_true ?_ (fun hrunning => absurd hrunning hstatus)
    simpa [healthChecked, checkRunning, crashed, hstatus] using h

end Server

/-! ### The list of servers -/

section Servers

variable {servers : List ManagedServer} {name other : String} {old new : ManagedServer}

theorem forall_mem_mapIdx {α β : Type} {l : List α} {f : Nat → α → β} {P : β → Prop} :
    (∀ b ∈ l.mapIdx f, P b) ↔ ∀ i a, l[i]? = some a → P (f i a) := by
  simp only [List.mem_iff_getElem?, List.getElem?_mapIdx, Option.map_eq_some_iff]
  constructor
  · exact fun h i a hi => h _ ⟨i, a, hi, rfl⟩
  · rintro h _ ⟨i, a, hi, rfl⟩
    exact h i a hi

/-- The servers of a name, in order. -/
def named (name : String) (servers : List ManagedServer) : List ManagedServer :=
  servers.filter (·.config.name = name)

theorem mem_named {s : ManagedServer} :
    s ∈ named name servers ↔ s ∈ servers ∧ s.config.name = name := by
  simp [named]

theorem findServer_eq_head? : findServer name servers = (named name servers).head? :=
  List.head?_filter.symm

theorem mem_of_findServer (h : findServer name servers = some old) :
    old ∈ servers ∧ old.config.name = name :=
  ⟨List.mem_of_find?_eq_some h, by simpa using List.find?_some h⟩

/-- Every server is as required after one has changed, if the new one is. -/
theorem forall_setServer {P : ManagedServer → Prop} (hP : ∀ s ∈ servers, P s)
    (hfind : findServer name servers = some old) :
    (∀ s ∈ setServer name new servers, P s) ↔ P new := by
  induction servers with
  | nil => cases hfind
  | cons s servers ih =>
    obtain ⟨hs, hservers⟩ := List.forall_mem_cons.mp hP
    by_cases hname : s.config.name = name
    · rw [setServer, if_pos hname, List.forall_mem_cons]
      exact and_iff_left hservers
    · rw [setServer, if_neg hname, List.forall_mem_cons, and_iff_right hs]
      refine ih hservers ?_
      rwa [findServer, List.find?_cons_of_neg (by simpa using hname)] at hfind

theorem named_setServer (hfind : findServer name servers = some old)
    (hnew : new.config.name = name) :
    named name (setServer name new servers) = new :: (named name servers).tail := by
  induction servers with
  | nil => cases hfind
  | cons s servers ih =>
    by_cases hname : s.config.name = name
    · simp [named, setServer, hname, hnew]
    · have hrest : findServer name servers = some old := by
        rwa [findServer, List.find?_cons_of_neg (by simpa using hname)] at hfind
      simpa [named, setServer, hname] using ih hrest

theorem named_setServer_other (hnew : new.config.name = name) (hother : other ≠ name) :
    named other (setServer name new servers) = named other servers := by
  induction servers with
  | nil => rfl
  | cons s servers ih =>
    by_cases hname : s.config.name = name
    · simp [named, setServer, hname, hnew, hother.symm]
    · rw [setServer, if_neg hname]
      simp only [named, List.filter_cons] at ih ⊢
      rw [ih]

/-- The first of some servers is stopped. -/
def stopHead (stopping : Stopping) : List ManagedServer → List ManagedServer
  | [] => []
  | s :: servers => (stopServer stopping s).1 :: servers

variable {stops : String → Stopping}

/-- Of each name that is stopped, it is the first server. -/
theorem named_stopNamed (names : List String) (servers : List ManagedServer) (name : String) :
    named name (stopNamed stops names servers).1 =
      if name ∈ names then stopHead (stops name) (named name servers) else named name servers := by
  induction names generalizing servers with
  | nil => rfl
  | cons n names ih =>
    cases hfind : findServer n servers with
    | none =>
      have hempty : named n servers = [] := by
        rwa [findServer_eq_head?, List.head?_eq_none_iff] at hfind
      simp only [stopNamed, hfind, ih, List.mem_cons]
      by_cases hname : name = n
      · subst hname
        simp [hempty, stopHead]
      · simp [hname]
    | some srv =>
      obtain ⟨-, hsrv⟩ := mem_of_findServer hfind
      simp only [stopNamed, hfind, ih, List.mem_cons]
      by_cases hname : name = n
      · subst hname
        obtain ⟨rest, hnamed⟩ : ∃ rest, named name servers = srv :: rest := by
          rw [findServer_eq_head?] at hfind
          exact List.head?_eq_some_iff.mp hfind
        rw [named_setServer hfind (by simpa using hsrv), hnamed]
        simp [stopHead, stopServer]
      · rw [named_setServer_other (by simpa using hsrv) hname]
        simp [hname]

/-- What is let go of while servers are stopped. -/
theorem mem_stopNamed_dropped (names : List String) (servers : List ManagedServer) (c : Child) :
    c ∈ (stopNamed stops names servers).2 ↔ ∃ name ∈ names, ∃ s,
      findServer name servers = some s ∧ c ∈ (stopServer (stops name) s).2 := by
  induction names generalizing servers with
  | nil => simp [stopNamed]
  | cons n names ih =>
    cases hfind : findServer n servers with
    | none => simp [stopNamed, hfind, ih]
    | some srv =>
      obtain ⟨-, hsrv⟩ := mem_of_findServer hfind
      have hself : findServer n (setServer n (stopServer (stops n) srv).1 servers) =
          some (stopServer (stops n) srv).1 := by
        rw [findServer_eq_head?, named_setServer hfind (by simpa using hsrv), List.head?_cons]
      have hother : ∀ name, name ≠ n →
          findServer name (setServer n (stopServer (stops n) srv).1 servers) =
            findServer name servers := by
        intro name hname
        rw [findServer_eq_head?, findServer_eq_head?,
          named_setServer_other (by simpa using hsrv) hname]
      simp only [stopNamed, hfind, List.mem_append, ih, List.mem_cons]
      constructor
      · rintro (hc | ⟨name, hname, s, hs, hc⟩)
        · exact ⟨n, .inl rfl, srv, hfind, hc⟩
        · by_cases hsame : name = n
          · subst hsame
            rw [hself, Option.some.injEq] at hs
            subst hs
            simp [stopServer] at hc
          · exact ⟨name, .inr hname, s, hother name hsame ▸ hs, hc⟩
      · rintro ⟨name, hname, s, hs, hc⟩
        by_cases hsame : name = n
        · subst hsame
          rw [hfind, Option.some.injEq] at hs
          subst hs
          exact .inl hc
        · exact .inr ⟨name, hname.resolve_left hsame, s, (hother name hsame).trans hs, hc⟩

/-- The new servers are supervised if they all start. -/
theorem startNew_good (existingNames : List String) (configs : List (ServerConfig × Spawn)) :
    (∀ s ∈ (startNew existingNames configs).1, Supervised s) ↔
      ∀ p ∈ configs, p.1.name ∉ existingNames → p.2.isOk = true := by
  induction configs with
  | nil => simp [startNew]
  | cons p configs ih =>
    by_cases hname : p.1.name ∈ existingNames
    · simp only [startNew, if_pos hname, ih, List.forall_mem_cons]
      exact (and_iff_right fun hno => absurd hname hno).symm
    · simp only [startNew, if_neg hname, List.forall_mem_cons, supervised_startServer]
      rw [ih, imp_iff_right hname]

theorem startNew_dropped (existingNames : List String) (configs : List (ServerConfig × Spawn)) :
    (startNew existingNames configs).2.2 = [] := by
  induction configs with
  | nil => rfl
  | cons p configs ih =>
    by_cases hname : p.1.name ∈ existingNames
    · simp only [startNew, if_pos hname, ih]
    · have hnone : (startServer p.2 (.fromConfig p.1)).2.2 = [] := startServer_dropped p.2 rfl
      simp only [startNew, if_neg hname, ih, hnone, List.append_nil]

end Servers

/-! ### What the operating system has to answer -/

/-- What a step needs so that it leaves all servers supervised: spawns succeed where nobody
watches over a failure, a running child is killed or waited for when it is stopped, `try_wait`
tells how a running child is, and a reload removes no two servers of one name of which a later
one runs. -/
def Sound (t : McpdStep) : Prop :=
  match t.input with
  | .start name spawn => ∀ s, findServer name t.before.servers = some s → s.status ≠ .running →
      spawn.isOk = true
  | .stop name stopping => ∀ s, findServer name t.before.servers = some s →
      s.status = .running → stopping.Gone
  | .restart name stopping spawn => ∀ s, findServer name t.before.servers = some s →
      (s.status = .running → stopping.Gone) ∧ spawn.isOk = true
  | .reload file stops spawns _ =>
      (∀ name ∈ removedNames file t.before.servers,
        (∀ s, findServer name t.before.servers = some s → s.status = .running → (stops name).Gone) ∧
          ∀ s ∈ (named name t.before.servers).tail, s.status ≠ .running) ∧
      ∀ p ∈ withSpawns file spawns, p.1.name ∉ t.before.servers.map (·.config.name) →
        p.2.isOk = true
  | .health checks _ => ∀ i s, t.before.servers[i]? = some s → s.status = .running →
      ∀ e, checks i ≠ .error e

/-- A step that does nothing leaves the servers supervised. -/
theorem good_of_unchanged {e : McpdEvent} {st : McpdState} {output : McpdOutput}
    (hst : ∀ s ∈ st.servers, Supervised s) (hnext : mcpdNext e st = (output, st))
    (hdropped : output.dropped = []) : Good (stepOf mcpdNext e st) := by
  constructor
  · rwa [stepOf_after, hnext]
  · rw [stepOf_output, hnext, hdropped]
    exact nofun

section

variable {st : McpdState} (hst : ∀ s ∈ st.servers, Supervised s)

include hst

theorem start_good_iff (name : String) (spawn : Spawn) :
    Good (stepOf mcpdNext (.start name spawn) st) ↔ Sound (stepOf mcpdNext (.start name spawn) st) := by
  simp only [Sound, stepOf_input, stepOf_before]
  cases hfind : findServer name st.servers with
  | none =>
    have hnext : mcpdNext (.start name spawn) st = (⟨.notFound, []⟩, st) := by
      simp only [mcpdNext, serverStart, hfind]
    exact iff_of_true (good_of_unchanged hst hnext rfl) fun srv hsrv => absurd hsrv (by simp)
  | some srv =>
    by_cases hstatus : srv.status = .running
    · have hnext : mcpdNext (.start name spawn) st = (⟨.alreadyRunning, []⟩, st) := by
        simp only [mcpdNext, serverStart, hfind, if_pos hstatus]
      exact iff_of_true (good_of_unchanged hst hnext rfl) (by simp [hstatus])
    · have hchild := (hst srv (mem_of_findServer hfind).1).child_eq_none hstatus
      have hservers : (∀ s ∈ (mcpdNext (.start name spawn) st).2.servers, Supervised s) ↔
          spawn.isOk = true := by
        simp only [mcpdNext, serverStart, hfind, if_neg hstatus]
        exact (forall_setServer hst hfind).trans (supervised_startServer spawn)
      have hdropped : (mcpdNext (.start name spawn) st).1.dropped = [] := by
        simp only [mcpdNext, serverStart, hfind, if_neg hstatus]
        exact startServer_dropped spawn hchild
      simp only [Option.some.injEq, forall_eq']
      refine ⟨fun h _ => hservers.mp h.servers, fun h => ⟨hservers.mpr (h hstatus), ?_⟩⟩
      rw [stepOf_output, hdropped]
      exact nofun

theorem stop_good_iff (name : String) (stopping : Stopping) :
    Good (stepOf mcpdNext (.stop name stopping) st) ↔
      Sound (stepOf mcpdNext (.stop name stopping) st) := by
  simp only [Sound, stepOf_input, stepOf_before]
  cases hfind : findServer name st.servers with
  | none =>
    have hnext : mcpdNext (.stop name stopping) st = (⟨.notFound, []⟩, st) := by
      simp only [mcpdNext, serverStop, hfind]
    exact iff_of_true (good_of_unchanged hst hnext rfl) fun srv hsrv => absurd hsrv (by simp)
  | some srv =>
    have hservers : ∀ s ∈ (mcpdNext (.stop name stopping) st).2.servers, Supervised s := by
      simp only [mcpdNext, serverStop, hfind]
      exact (forall_setServer hst hfind).mpr (supervised_stopServer stopping)
    simp only [Option.some.injEq, forall_eq']
    rw [← stopServer_dropped stopping (hst srv (mem_of_findServer hfind).1)]
    have hdropped : (mcpdNext (.stop name stopping) st).1.dropped = (stopServer stopping srv).2 := by
      simp only [mcpdNext, serverStop, hfind]
    exact ⟨fun h => hdropped ▸ h.dropped, fun h => ⟨hservers, hdropped ▸ h⟩⟩

theorem restart_good_iff (name : String) (stopping : Stopping) (spawn : Spawn) :
    Good (stepOf mcpdNext (.restart name stopping spawn) st) ↔
      Sound (stepOf mcpdNext (.restart name stopping spawn) st) := by
  simp only [Sound, stepOf_input, stepOf_before]
  cases hfind : findServer name st.servers with
  | none =>
    have hnext : mcpdNext (.restart name stopping spawn) st = (⟨.notFound, []⟩, st) := by
      simp only [mcpdNext, serverRestart, hfind]
    exact iff_of_true (good_of_unchanged hst hnext rfl) fun srv hsrv => absurd hsrv (by simp)
  | some srv =>
    have hservers : (∀ s ∈ (mcpdNext (.restart name stopping spawn) st).2.servers, Supervised s) ↔
        spawn.isOk = true := by
      have hstart := supervised_startServer (s := (stopServer stopping srv).1) spawn
      cases spawn with
      | error e =>
        simp only [mcpdNext, serverRestart, hfind, startServer] at hstart ⊢
        exact (forall_setServer hst hfind).trans hstart
      | ok child =>
        simp only [mcpdNext, serverRestart, hfind, startServer] at hstart ⊢
        refine (forall_setServer hst hfind).trans (Iff.trans ?_ hstart)
        exact ⟨fun h => ⟨h.running, h.held, h.settled⟩, fun h => ⟨h.running, h.held, h.settled⟩⟩
    have hdropped : (mcpdNext (.restart name stopping spawn) st).1.dropped =
        (stopServer stopping srv).2 := by
      have hnone := startServer_dropped (s := (stopServer stopping srv).1) spawn rfl
      cases spawn <;> simp [mcpdNext, serverRestart, hfind, startServer]
    simp only [Option.some.injEq, forall_eq']
    rw [← stopServer_dropped stopping (hst srv (mem_of_findServer hfind).1), ← hservers]
    exact ⟨fun h => ⟨hdropped ▸ h.dropped, h.servers⟩, fun h => ⟨h.2, hdropped ▸ h.1⟩⟩

theorem health_good_iff (checks : Nat → TryWait) (spawns : Nat → Spawn) :
    Good (stepOf mcpdNext (.health checks spawns) st) ↔
      Sound (stepOf mcpdNext (.health checks spawns) st) := by
  have hservers : (∀ s ∈ (stepOf mcpdNext (.health checks spawns) st).after.servers, Supervised s) ↔
      ∀ i s, st.servers[i]? = some s → Supervised (healthChecked (checks i) (spawns i) s).1 := by
    simp only [stepOf_after, mcpdNext, healthIteration, List.forall_mem_map, forall_mem_mapIdx]
  have hdropped : (∀ c ∈ (stepOf mcpdNext (.health checks spawns) st).output.dropped, c.Gone) ↔
      ∀ i s, st.servers[i]? = some s → ∀ c ∈ (checkRunning (checks i) s).2 ++
        (healthChecked (checks i) (spawns i) s).2, c.Gone := by
    simp only [stepOf_output, mcpdNext, healthIteration, List.forall_mem_append, List.forall_mem_flatMap,
      forall_mem_mapIdx, forall_and]
  have hone := fun i s hi => healthChecked_good (checks i) (spawns i)
    (hst s (List.mem_of_getElem? (i := i) hi))
  constructor
  · intro h i s hi
    exact (hone i s hi).mp ⟨hservers.mp h.servers i s hi, hdropped.mp h.dropped i s hi⟩
  · intro h
    exact ⟨hservers.mpr fun i s hi => ((hone i s hi).mpr (h i s hi)).1,
      hdropped.mpr fun i s hi => ((hone i s hi).mpr (h i s hi)).2⟩

/-- The servers that a reload retains are those there were. -/
theorem supervised_kept (stops : String → Stopping) (names : List String) :
    ∀ s ∈ (stopNamed stops names st.servers).1.filter (·.config.name ∉ names), Supervised s := by
  intro s hs
  obtain ⟨hmem, hname⟩ := List.mem_filter.mp hs
  have hnamed : s ∈ named s.config.name (stopNamed stops names st.servers).1 :=
    mem_named.mpr ⟨hmem, rfl⟩
  rw [named_stopNamed, if_neg (by simpa using hname)] at hnamed
  exact hst s (mem_named.mp hnamed).1

/-- The children that are stopped are gone if they were killed or waited for. -/
theorem stopNamed_gone_iff (stops : String → Stopping) (names : List String) :
    (∀ c ∈ (stopNamed stops names st.servers).2, c.Gone) ↔ ∀ name ∈ names, ∀ s,
      findServer name st.servers = some s → s.status = .running → (stops name).Gone := by
  simp only [mem_stopNamed_dropped]
  constructor
  · intro h name hname s hfind
    rw [← stopServer_dropped (stops name) (hst s (mem_of_findServer hfind).1)]
    exact fun c hc => h c ⟨name, hname, s, hfind, hc⟩
  · rintro h c ⟨name, hname, s, hfind, hc⟩
    exact (stopServer_dropped (stops name) (hst s (mem_of_findServer hfind).1)).mpr
      (h name hname s hfind) c hc

/-- A server that is removed is stopped if it is the first of its name, and else dropped with
its child. -/
theorem retained_gone_iff (stops : String → Stopping) (names : List String) :
    (∀ c ∈ ((stopNamed stops names st.servers).1.filter (·.config.name ∈ names)).flatMap
      (·.child.toList), c.Gone) ↔
        ∀ name ∈ names, ∀ s ∈ (named name st.servers).tail, s.status ≠ .running := by
  simp only [List.forall_mem_flatMap, List.mem_filter, and_imp, decide_eq_true_eq, Option.mem_toList]
  constructor
  · intro h name hname s hs hstatus
    obtain ⟨hmem, rfl⟩ := mem_named.mp (List.mem_of_mem_tail hs)
    obtain ⟨c, hc⟩ := Option.isSome_iff_exists.mp ((hst s hmem).running.mp hstatus)
    have hstays : s ∈ named s.config.name (stopNamed stops names st.servers).1 := by
      rw [named_stopNamed, if_pos hname]
      cases hservers : named s.config.name st.servers with
      | nil => simp [hservers] at hs
      | cons first rest => exact List.mem_cons_of_mem _ (by simpa [hservers] using hs)
    exact (hst s hmem).held c hc (h s (mem_named.mp hstays).1 hname c hc)
  · intro h s hmem hname c hc
    have hnamed : s ∈ named s.config.name (stopNamed stops names st.servers).1 :=
      mem_named.mpr ⟨hmem, rfl⟩
    rw [named_stopNamed, if_pos hname] at hnamed
    cases hservers : named s.config.name st.servers with
    | nil => simp [hservers, stopHead] at hnamed
    | cons first rest =>
      rw [hservers] at hnamed
      rcases List.mem_cons.mp hnamed with hfirst | hrest
      · rw [hfirst, stopServer_child] at hc
        cases hc
      · have htail : s ∈ (named s.config.name st.servers).tail := by simpa [hservers] using hrest
        have hsupervised := hst s (mem_named.mp (List.mem_of_mem_tail htail)).1
        exact absurd (hsupervised.running_of_mem hc) (h s.config.name hname s htail)

theorem reload_good_iff (file : ConfigFile) (stops : String → Stopping) (spawns : Nat → Spawn)
    (write : FileWrite) : Good (stepOf mcpdNext (.reload file stops spawns write) st) ↔
      Sound (stepOf mcpdNext (.reload file stops spawns write) st) := by
  have hservers : (∀ s ∈ (stepOf mcpdNext (.reload file stops spawns write) st).after.servers,
      Supervised s) ↔ ∀ p ∈ withSpawns file spawns,
        p.1.name ∉ st.servers.map (·.config.name) → p.2.isOk = true := by
    rw [← startNew_good]
    simp only [stepOf_after, mcpdNext, reload, writeOpenclawConfig, List.forall_mem_append]
    exact and_iff_right (supervised_kept hst stops _)
  have hdropped : (∀ c ∈ (stepOf mcpdNext (.reload file stops spawns write) st).output.dropped,
      c.Gone) ↔ ∀ name ∈ removedNames file st.servers,
        (∀ s, findServer name st.servers = some s → s.status = .running → (stops name).Gone) ∧
          ∀ s ∈ (named name st.servers).tail, s.status ≠ .running := by
    simp only [stepOf_output, mcpdNext, reload, startNew_dropped, List.append_nil,
      List.forall_mem_append, forall_and]
    rw [stopNamed_gone_iff hst, retained_gone_iff hst]
  exact ⟨fun h => ⟨hdropped.mp h.dropped, hservers.mp h.servers⟩,
    fun h => ⟨hservers.mpr h.2, hdropped.mpr h.1⟩⟩

end

def notes : ServerConfig := ⟨"notes", "/bin/notes", [], fun _ => none, "stdio", [], none⟩

/-- The command of the one server cannot be spawned when it is restarted. -/
def failedRestart : List McpdStep :=
  trace mcpdNext [.restart "notes" ⟨true, true⟩ (.error "No such file or directory (os error 2)")]
    (boot (.holds [notes]) (fun _ => .ok (some 7, "2026-01-01T00:00:00+00:00")) 19999 .written none)

end OsModa.Mcpd
