import Mathlib.Logic.Function.Basic
import OsModa.Base.File
import OsModa.Base.Machine

/-!
mcpd: the MCP servers that it runs as child processes.

A managed server has a status and, while it runs, the handle of its child. The handlers and
the health loop hold the lock of the state from their first to their last line, so each is
one step. What the operating system does (whether a child is spawned, killed and waited for,
what the config file holds) is an input of the step. A step's output has, beside the reply,
the handles that it let go of, each with what was done to its child before.
-/

namespace OsModa.Mcpd

open OsModa.Machine

structure ServerConfig where
  name : String
  command : String
  args : List String
  env : String → Option String
  transport : String
  allowedDomains : List String
  secretFile : Option String

inductive ServerStatus where
  | stopped
  | starting
  | running
  | failed
  | restarting
  deriving DecidableEq, Repr

/-- A child process, with what this process has done to it. -/
structure Child where
  pid : Option Nat
  killed : Bool
  reaped : Bool
  deriving DecidableEq, Repr

structure ManagedServer where
  config : ServerConfig
  status : ServerStatus
  pid : Option Nat
  startedAt : Option String
  restartCount : UInt32
  lastError : Option String
  child : Option Child

def ManagedServer.fromConfig (config : ServerConfig) : ManagedServer :=
  ⟨config, .stopped, none, none, 0, none, none⟩

/-! ### What the operating system answers -/

/-- A child that was spawned, with the time that is read after it, or the error. -/
abbrev Spawn := Except String (Option Nat × String)

/-- What `kill` and the `wait` after it have done to a child. -/
structure Stopping where
  killed : Bool
  reaped : Bool
  deriving DecidableEq

def Stopping.apply (stopping : Stopping) (child : Child) : Child :=
  { child with
    killed := child.killed || stopping.killed
    reaped := child.reaped || stopping.reaped }

inductive TryWait where
  | exited (exitStatus : String)
  | running
  | error (e : String)

/-- What is at the path of the config file. -/
inductive ConfigFile where
  | missing
  | unreadable
  | malformed
  | holds (configs : List ServerConfig)

def loadServerConfigs : ConfigFile → List ServerConfig
  | .holds configs => configs
  | .missing | .unreadable | .malformed => []

/-! ### One server -/

/-- A server after an operation, and the handles that it has let go of. -/
abbrev Handled := ManagedServer × List Child

/-- Start an MCP server as a child process. -/
def startServer (spawn : Spawn) (server : ManagedServer) : Except String Unit × Handled :=
  match spawn with
  | .error e => (.error e, { server with status := .starting }, [])
  | .ok (pid, now) =>
    (.ok (), { server with
      pid := some (pid.getD 0)
      startedAt := some now
      status := .running
      lastError := none
      child := some ⟨pid, false, false⟩ }, server.child.toList)

/-- Stop an MCP server by killing its child process. -/
def stopServer (stopping : Stopping) (server : ManagedServer) : Handled :=
  ({ server with child := none, pid := none, status := .stopped },
    server.child.toList.map stopping.apply)

/-- Check if a running server's process is still alive. -/
def checkServer (tryWait : TryWait) (server : ManagedServer) : Handled :=
  match server.child, tryWait with
  | some child, .exited exitStatus =>
    ({ server with
      status := .failed
      lastError := some ("process exited with " ++ exitStatus)
      child := none
      pid := none }, [{ child with reaped := true }])
  | some _, .running => (server, [])
  | some _, .error e =>
    ({ server with status := .failed, lastError := some ("failed to check process: " ++ e) }, [])
  | none, _ =>
    if server.status = .running then
      ({ server with status := .failed, lastError := some "child process handle lost" }, [])
    else (server, [])

/-! ### The list for OpenClaw -/

structure OpenclawEntry where
  command : String
  args : List String
  env : String → Option String
  transport : String

/-- The address of osmoda-egress. -/
def proxy (egressPort : Nat) : String := "http://127.0.0.1:" ++ toString egressPort

/-- A server's environment, with the proxy for servers with domain restrictions. -/
def proxiedEnv (config : ServerConfig) (egressPort : Nat) : String → Option String :=
  if config.allowedDomains.isEmpty then config.env
  else
    Function.update (Function.update config.env "HTTP_PROXY" (some (proxy egressPort)))
      "HTTPS_PROXY" (some (proxy egressPort))

/-- Generate OpenClaw MCP servers config, by name. -/
def generateOpenclawConfig (servers : List ManagedServer) (egressPort : Nat) :
    String → Option OpenclawEntry :=
  servers.foldl (fun entries server =>
    if server.status = .running ∨ server.status = .starting then
      Function.update entries server.config.name
        (some ⟨server.config.command, server.config.args, proxiedEnv server.config egressPort,
          server.config.transport⟩)
    else entries) fun _ => none

/-! ### The daemon -/

structure McpdState where
  servers : List ManagedServer
  egressPort : Nat
  /-- What the OpenClaw config on disk reads back as. -/
  openclaw : Option (String → Option OpenclawEntry)

/-- `iter().find(|s| s.config.name == name)`. -/
def findServer (name : String) (servers : List ManagedServer) : Option ManagedServer :=
  servers.find? (·.config.name = name)

/-- The first server of the name becomes another. -/
def setServer (name : String) (server : ManagedServer) : List ManagedServer → List ManagedServer
  | [] => []
  | s :: servers =>
    if s.config.name = name then server :: servers else s :: setServer name server servers

def writeOpenclawConfig (write : FileWrite) (st : McpdState) : McpdState :=
  { st with openclaw := write.leaves (generateOpenclawConfig st.servers st.egressPort) st.openclaw }

inductive McpdReply where
  | notFound
  | error (e : String)
  | alreadyRunning
  | started
  | stopped
  | restarted
  | reloaded (removed started total : Nat)
  /-- The health loop replies to nobody. -/
  | none
  deriving DecidableEq

/-- A handler's reply and the handles that it has let go of. -/
structure McpdOutput where
  reply : McpdReply
  dropped : List Child

def serverStart (name : String) (spawn : Spawn) (st : McpdState) : McpdOutput × McpdState :=
  match findServer name st.servers with
  | none => (⟨.notFound, []⟩, st)
  | some srv =>
    if srv.status = .running then (⟨.alreadyRunning, []⟩, st)
    else
      match startServer spawn srv with
      | (result, srv, dropped) =>
        (⟨match result with
            | .ok _ => .started
            | .error e => .error e, dropped⟩,
          { st with servers := setServer name srv st.servers })

def serverStop (name : String) (stopping : Stopping) (st : McpdState) : McpdOutput × McpdState :=
  match findServer name st.servers with
  | none => (⟨.notFound, []⟩, st)
  | some srv =>
    match stopServer stopping srv with
    | (srv, dropped) => (⟨.stopped, dropped⟩, { st with servers := setServer name srv st.servers })

def serverRestart (name : String) (stopping : Stopping) (spawn : Spawn) (st : McpdState) :
    McpdOutput × McpdState :=
  match findServer name st.servers with
  | none => (⟨.notFound, []⟩, st)
  | some srv =>
    match stopServer stopping srv with
    | (srv, dropped) =>
      match startServer spawn srv with
      | (.error e, srv, dropped') =>
        (⟨.error e, dropped ++ dropped'⟩, { st with servers := setServer name srv st.servers })
      | (.ok _, srv, dropped') =>
        (⟨.restarted, dropped ++ dropped'⟩,
          { st with servers :=
              setServer name { srv with restartCount := srv.restartCount + 1 } st.servers })

/-- Stop the first server of each name. -/
def stopNamed (stops : String → Stopping) :
    List String → List ManagedServer → List ManagedServer × List Child
  | [], servers => (servers, [])
  | name :: names, servers =>
    match findServer name servers with
    | none => stopNamed stops names servers
    | some srv =>
      match stopServer (stops name) srv with
      | (srv, dropped) =>
        let rest := stopNamed stops names (setServer name srv servers)
        (rest.1, dropped ++ rest.2)

/-- Start the servers that the config file lists and that did not exist, each pushed whether or
not it starts. Returns them with the number that did, and what was let go of. -/
def startNew (existingNames : List String) :
    List (ServerConfig × Spawn) → List ManagedServer × Nat × List Child
  | [] => ([], 0, [])
  | (config, spawn) :: configs =>
    let rest := startNew existingNames configs
    if config.name ∈ existingNames then rest
    else
      match startServer spawn (.fromConfig config) with
      | (result, srv, dropped) =>
        (srv :: rest.1, (if result.isOk then 1 else 0) + rest.2.1, dropped ++ rest.2.2)

/-- The configs that are loaded, each with how a child of it is spawned. -/
def withSpawns (file : ConfigFile) (spawns : Nat → Spawn) : List (ServerConfig × Spawn) :=
  (loadServerConfigs file).mapIdx fun i config => (config, spawns i)

/-- The names that a reload removes, as often as they are listed. -/
def removedNames (file : ConfigFile) (servers : List ManagedServer) : List String :=
  (servers.map (·.config.name)).filter (· ∉ (loadServerConfigs file).map (·.name))

def reload (file : ConfigFile) (stops : String → Stopping) (spawns : Nat → Spawn)
    (write : FileWrite) (st : McpdState) : McpdOutput × McpdState :=
  let existingNames := st.servers.map (·.config.name)
  let toRemove := removedNames file st.servers
  let stopped := stopNamed stops toRemove st.servers
  let kept := stopped.1.filter (·.config.name ∉ toRemove)
  -- A server that is not retained is dropped with its handle.
  let gone := (stopped.1.filter (·.config.name ∈ toRemove)).flatMap (·.child.toList)
  let new := startNew existingNames (withSpawns file spawns)
  let servers := kept ++ new.1
  (⟨.reloaded toRemove.length new.2.1 servers.length, stopped.2 ++ gone ++ new.2.2⟩,
    writeOpenclawConfig write { st with servers := servers })

/-- The first loop of a health iteration: check the servers that run. -/
def checkRunning (tryWait : TryWait) (server : ManagedServer) : Handled :=
  if server.status = .running then checkServer tryWait server else (server, [])

/-- A server is found crashed if it ran and the check has failed it. -/
def crashed (tryWait : TryWait) (server : ManagedServer) : Bool :=
  server.status = .running && (checkServer tryWait server).1.status = .failed

/-- The second loop, for a server that was found crashed. -/
def restartCrashed (spawn : Spawn) (server : ManagedServer) : Handled :=
  match startServer spawn { server with status := .restarting } with
  | (.error e, srv, dropped) => ({ srv with status := .failed, lastError := some e }, dropped)
  | (.ok _, srv, dropped) => ({ srv with restartCount := srv.restartCount + 1 }, dropped)

/-- A server after both loops, and what the second let go of. -/
def healthChecked (tryWait : TryWait) (spawn : Spawn) (server : ManagedServer) : Handled :=
  let srv := (checkRunning tryWait server).1
  if crashed tryWait server then restartCrashed spawn srv else (srv, [])

/-- One iteration of the health loop, with what `try_wait` and a spawn give at each position.
The restarts follow the checks, and concern one server each. -/
def healthIteration (checks : Nat → TryWait) (spawns : Nat → Spawn) (st : McpdState) :
    McpdOutput × McpdState :=
  let checked := st.servers.mapIdx fun i server => checkRunning (checks i) server
  let restarted := st.servers.mapIdx fun i server => healthChecked (checks i) (spawns i) server
  (⟨.none, checked.flatMap (·.2) ++ restarted.flatMap (·.2)⟩,
    { st with servers := restarted.map (·.1) })

inductive McpdEvent where
  | start (name : String) (spawn : Spawn)
  | stop (name : String) (stopping : Stopping)
  | restart (name : String) (stopping : Stopping) (spawn : Spawn)
  | reload (file : ConfigFile) (stops : String → Stopping) (spawns : Nat → Spawn)
    (write : FileWrite)
  | health (checks : Nat → TryWait) (spawns : Nat → Spawn)

abbrev McpdStep := Step McpdState McpdEvent McpdOutput

def mcpdNext : McpdEvent → McpdState → McpdOutput × McpdState
  | .start name spawn => serverStart name spawn
  | .stop name stopping => serverStop name stopping
  | .restart name stopping spawn => serverRestart name stopping spawn
  | .reload file stops spawns write => reload file stops spawns write
  | .health checks spawns => healthIteration checks spawns

/-- The start of the daemon: every server of the config file is started. -/
def boot (file : ConfigFile) (spawns : Nat → Spawn) (egressPort : Nat) (write : FileWrite)
    (openclaw : Option (String → Option OpenclawEntry)) : McpdState :=
  writeOpenclawConfig write
    ⟨(withSpawns file spawns).map fun (config, spawn) =>
      (startServer spawn (.fromConfig config)).2.1, egressPort, openclaw⟩

end OsModa.Mcpd
