import OsModa.Base.Path
import OsModa.Base.Text

/-!
agentd's sandbox: which paths `validate_bind_path` accepts, and the arguments that
`build_bwrap_args` makes for bubblewrap.

The arguments are read back as bubblewrap reads them, option by option up to `--`, and
its mounts show the file system as those of a list do (`Path.Shows`). The validator
rejects what lies at or under a blocked location, but not what holds one: the root,
`/etc` and `/nix` (`sandbox_isolates_iff`).
-/

namespace OsModa.Agentd

open OsModa.Text OsModa.Path

/-- Trust ring levels for sandboxed execution. -/
inductive Ring where
  /-- Approved apps. -/
  | ring1
  /-- Untrusted tools. -/
  | ring2
  deriving DecidableEq, Repr

/-- What `build_bwrap_args` reads of the configuration. -/
structure SandboxConfig where
  ring : Ring := .ring2
  /-- Allowed filesystem read paths (Ring1 only). -/
  fsRead : List String := []
  /-- Allowed filesystem write paths (Ring1 only). -/
  fsWrite : List String := []
  /-- Whether network access is allowed (Ring1 with egress proxy only). -/
  network : Bool := false

/-- Sensitive system paths. -/
def blockedPrefixes : List String :=
  ["/proc", "/sys", "/dev", "/run", "/boot", "/etc/shadow", "/etc/passwd", "/etc/sudoers", "/root",
   "/nix/store"]

/-- Basic system paths (read-only). -/
def systemPaths : List String :=
  ["/usr", "/bin", "/lib", "/lib64", "/etc/resolv.conf", "/etc/ssl", "/etc/hosts"]

section Engine

variable (canonicalize : String → Option CanonicalPath) (pathExists : String → Bool)
  (egressProxy : String)

/-- Validate that a filesystem path is safe for sandbox binding. A path that cannot be
resolved is taken as it is. -/
def validateBindPath (path : String) : Except String String :=
  if path = "" then .error "empty bind path"
  else if path.toList.head? ≠ some '/' then .error ("bind path must be absolute: " ++ path)
  else if contains path.toList "..".toList then
    .error ("bind path contains traversal sequence: " ++ path)
  else
    let canonicalStr := match canonicalize path with
      | some canonical => canonical.text
      | none => path
    if blockedPrefixes.any fun blocked =>
        canonicalStr = blocked || (blocked ++ "/").toList.isPrefixOf canonicalStr.toList then
      .error ("bind path blocked (sensitive location): " ++ canonicalStr)
    else .ok canonicalStr

/-- The arguments for the requested paths; what is rejected is passed over. -/
def bindArgs (flag : String) (paths : List String) : List String :=
  paths.flatMap fun path =>
    if path = "" then []
    else match validateBindPath canonicalize path with
      | .ok safePath => [flag, safePath, safePath]
      | .error _ => []

/-- Build the bwrap command arguments for a given ring and config. -/
def buildBwrapArgs (config : SandboxConfig) (command : String) : List String :=
  -- Unshare all namespaces, and run as nobody.
  ["--unshare-all", "--die-with-parent", "--uid", "65534", "--gid", "65534"] ++
  ["--ro-bind", "/nix/store", "/nix/store"] ++
  (systemPaths.filter pathExists).flatMap (fun path => ["--ro-bind", path, path]) ++
  ["--proc", "/proc", "--dev", "/dev"] ++
  (match config.ring with
    | .ring1 =>
      ["--tmpfs", "/tmp"] ++ bindArgs canonicalize "--ro-bind" config.fsRead ++
      bindArgs canonicalize "--bind" config.fsWrite ++
      (if config.network then
        ["--share-net", "--setenv", "HTTPS_PROXY", egressProxy,
          "--setenv", "HTTP_PROXY", egressProxy]
      else [])
    | .ring2 => ["--tmpfs", "/tmp"]) ++
  ["--", "/bin/sh", "-c", command]

end Engine

/-! ### How bubblewrap reads its arguments -/

inductive BwrapOption where
  | unshareAll
  | dieWithParent
  | uid (id : String)
  | gid (id : String)
  | roBind (source target : String)
  | bind (source target : String)
  | tmpfs (target : String)
  | proc (target : String)
  | dev (target : String)
  | shareNet
  | setenv (name value : String)
  deriving DecidableEq, Repr

namespace BwrapOption

def args : BwrapOption → List String
  | unshareAll => ["--unshare-all"]
  | dieWithParent => ["--die-with-parent"]
  | uid id => ["--uid", id]
  | gid id => ["--gid", id]
  | roBind source target => ["--ro-bind", source, target]
  | bind source target => ["--bind", source, target]
  | tmpfs target => ["--tmpfs", target]
  | proc target => ["--proc", target]
  | dev target => ["--dev", target]
  | shareNet => ["--share-net"]
  | setenv name value => ["--setenv", name, value]

/-- The next option and the arguments after it. -/
def read : List String → Option (BwrapOption × List String)
  | "--unshare-all" :: rest => some (unshareAll, rest)
  | "--die-with-parent" :: rest => some (dieWithParent, rest)
  | "--uid" :: id :: rest => some (uid id, rest)
  | "--gid" :: id :: rest => some (gid id, rest)
  | "--ro-bind" :: source :: target :: rest => some (roBind source target, rest)
  | "--bind" :: source :: target :: rest => some (bind source target, rest)
  | "--tmpfs" :: target :: rest => some (tmpfs target, rest)
  | "--proc" :: target :: rest => some (proc target, rest)
  | "--dev" :: target :: rest => some (dev target, rest)
  | "--share-net" :: rest => some (shareNet, rest)
  | "--setenv" :: name :: value :: rest => some (setenv name value, rest)
  | _ => none

@[simp] theorem read_args (o : BwrapOption) (rest : List String) :
    read (o.args ++ rest) = some (o, rest) := by
  cases o <;> rfl

/-- What an option shows of the host. -/
def mount? : BwrapOption → Option (Mount (List Char))
  | roBind source target | bind source target =>
    some ⟨components source.toList, components target.toList⟩
  | _ => none

end BwrapOption

/-- The options up to `--`, and the command after it. -/
def readOptions : Nat → List String → Option (List BwrapOption × List String)
  | 0, _ => none
  | _ + 1, "--" :: command => some ([], command)
  | fuel + 1, args =>
    (BwrapOption.read args).bind fun (o, rest) =>
      (readOptions fuel rest).map fun (options, command) => (o :: options, command)

/-- Every option takes an argument at least. -/
def readArgs (args : List String) : Option (List BwrapOption × List String) :=
  readOptions args.length args

theorem readOptions_cons (fuel : Nat) (o : BwrapOption) (rest : List String) :
    readOptions (fuel + 1) (o.args ++ rest) =
      (readOptions fuel rest).map fun (options, command) => (o :: options, command) := by
  cases o <;> rfl

theorem readOptions_args {fuel : Nat} {options : List BwrapOption} (command : List String)
    (hfuel : options.length < fuel) :
    readOptions fuel (options.flatMap BwrapOption.args ++ "--" :: command) =
      some (options, command) := by
  induction options generalizing fuel with
  | nil =>
    cases fuel with
    | zero => exact absurd hfuel (Nat.not_lt_zero _)
    | succ fuel => rfl
  | cons o options ih =>
    cases fuel with
    | zero => exact absurd hfuel (Nat.not_lt_zero _)
    | succ fuel =>
      rw [List.flatMap_cons, List.append_assoc, readOptions_cons, ih (Nat.lt_of_succ_lt_succ hfuel)]
      rfl

theorem length_le_args (options : List BwrapOption) :
    options.length ≤ (options.flatMap BwrapOption.args).length := by
  induction options with
  | nil => exact Nat.le_refl 0
  | cons o options ih =>
    have ho : 1 ≤ o.args.length := by cases o <;> simp [BwrapOption.args]
    rw [List.flatMap_cons, List.length_append, List.length_cons]
    omega

theorem readArgs_args (options : List BwrapOption) (command : List String) :
    readArgs (options.flatMap BwrapOption.args ++ "--" :: command) = some (options, command) := by
  have hlen := length_le_args options
  refine readOptions_args command ?_
  rw [List.length_append, List.length_cons]
  omega

/-! ### The options of a sandbox -/

section Engine

variable (canonicalize : String → Option CanonicalPath) (pathExists : String → Bool)
  (egressProxy : String)

/-- What every sandbox has: no network, the system paths, and a writable `/tmp`. -/
def systemOptions : List BwrapOption :=
  [.unshareAll, .dieWithParent, .uid "65534", .gid "65534", .roBind "/nix/store" "/nix/store"] ++
  (systemPaths.filter pathExists).map (fun path => .roBind path path) ++
  [.proc "/proc", .dev "/dev", .tmpfs "/tmp"]

/-- The paths that are bound for a list of requested ones. -/
def acceptedPaths (paths : List String) : List String :=
  paths.filterMap fun path => (validateBindPath canonicalize path).toOption

/-- What a request adds. -/
def requestedOptions (config : SandboxConfig) : List BwrapOption :=
  match config.ring with
  | .ring1 =>
    (acceptedPaths canonicalize config.fsRead).map (fun path => .roBind path path) ++
    (acceptedPaths canonicalize config.fsWrite).map (fun path => .bind path path) ++
    (if config.network then
      [.shareNet, .setenv "HTTPS_PROXY" egressProxy, .setenv "HTTP_PROXY" egressProxy]
    else [])
  | .ring2 => []

variable {canonicalize pathExists egressProxy}

theorem bindArgs_eq (flag : String) (paths : List String) :
    bindArgs canonicalize flag paths =
      (acceptedPaths canonicalize paths).flatMap fun path => [flag, path, path] := by
  induction paths with
  | nil => rfl
  | cons path paths ih =>
    unfold bindArgs acceptedPaths at ih ⊢
    rw [List.flatMap_cons, List.filterMap_cons, ih]
    by_cases hempty : path = ""
    · have herr : validateBindPath canonicalize path = .error "empty bind path" := if_pos hempty
      rw [if_pos hempty, herr]
      rfl
    · rw [if_neg hempty]
      cases validateBindPath canonicalize path <;> rfl

/-- The arguments read as the options of every sandbox, those of the request, and the
command. -/
theorem readArgs_buildBwrapArgs (config : SandboxConfig) (command : String) :
    readArgs (buildBwrapArgs canonicalize pathExists egressProxy config command) =
      some (systemOptions pathExists ++ requestedOptions canonicalize egressProxy config,
        ["/bin/sh", "-c", command]) := by
  rw [← readArgs_args]
  congr 1
  have hmap : ∀ (paths : List String) (f : String → BwrapOption),
      (paths.map f).flatMap BwrapOption.args = paths.flatMap fun path => (f path).args :=
    fun paths f => List.flatMap_map f BwrapOption.args paths
  unfold buildBwrapArgs requestedOptions systemOptions
  cases config.ring with
  | ring2 => simp [hmap, BwrapOption.args]
  | ring1 => cases config.network <;> simp [hmap, bindArgs_eq, BwrapOption.args]

end Engine

/-! ### Isolation -/

/-- The path neither lies at or under a blocked location nor holds one. -/
def Isolated (c : CanonicalPath) : Prop :=
  ∀ blocked ∈ blockedPrefixes,
    ¬components blocked.toList <+: c.names ∧ ¬c.names <+: components blocked.toList

/-- A request that the validator resolves. -/
def Requestable (path : String) : Prop :=
  path ≠ "" ∧ path.toList.head? = some '/' ∧ contains path.toList "..".toList = false

/-- The locations above blocked ones. -/
def blockedParents : List String := ["/", "/etc", "/nix"]

theorem blocked_canonical {blocked : String} (h : blocked ∈ blockedPrefixes) :
    ∃ c : CanonicalPath, c.chars = blocked.toList ∧ c.names ≠ [] := by
  have hparts : ∀ b ∈ blockedPrefixes, components b.toList ≠ [] ∧
      joinNames (components b.toList) = b.toList ∧
      ∀ name ∈ components b.toList, name ≠ [] ∧ name ≠ ['.'] ∧ name ≠ ['.', '.'] ∧ '/' ∉ name := by
    decide +kernel
  obtain ⟨hne, hjoin, hvalid⟩ := hparts blocked h
  exact ⟨⟨components blocked.toList, hvalid⟩, (if_neg hne).trans hjoin, hne⟩

/-- The validator's comparison finds what lies at or under a blocked location. -/
theorem blocked_iff {blocked : String} (h : blocked ∈ blockedPrefixes) (c : CanonicalPath) :
    (c.text = blocked || (blocked ++ "/").toList.isPrefixOf c.text.toList) = true ↔
      components blocked.toList <+: c.names := by
  obtain ⟨b, hchars, hroot⟩ := blocked_canonical h
  have htext : c.text.toList = c.chars := String.toList_ofList
  rw [← hchars, CanonicalPath.components_chars, ← atOrUnder_iff hroot, Bool.or_eq_true,
    decide_eq_true_eq, List.isPrefixOf_iff_prefix, String.toList_append, htext, hchars,
    ← String.toList_inj, htext]
  rfl

section Engine

variable {canonicalize : String → Option CanonicalPath}

theorem requestable_of_ok {path s : String} (hok : validateBindPath canonicalize path = .ok s) :
    Requestable path := by
  unfold validateBindPath at hok
  split_ifs at hok with hempty habsolute hdots
  exact ⟨hempty, not_not.mp habsolute, Bool.eq_false_iff.mpr hdots⟩

theorem validateBindPath_eq_ok_iff {path s : String} {c : CanonicalPath}
    (hresolves : canonicalize path = some c) :
    validateBindPath canonicalize path = .ok s ↔
      Requestable path ∧ (∀ blocked ∈ blockedPrefixes, ¬components blocked.toList <+: c.names) ∧
        s = c.text := by
  have hblocked : (blockedPrefixes.any fun blocked =>
      c.text = blocked || (blocked ++ "/").toList.isPrefixOf c.text.toList) = true ↔
        ¬∀ blocked ∈ blockedPrefixes, ¬components blocked.toList <+: c.names := by
    rw [List.any_eq_true]
    constructor
    · rintro ⟨blocked, hmem, hfound⟩ hfree
      exact hfree blocked hmem ((blocked_iff hmem c).mp hfound)
    · intro hfound
      obtain ⟨blocked, hfound⟩ := not_forall.mp hfound
      obtain ⟨hmem, hunder⟩ := Classical.not_imp.mp hfound
      exact ⟨blocked, hmem, (blocked_iff hmem c).mpr (not_not.mp hunder)⟩
  unfold validateBindPath Requestable
  rw [hresolves]
  dsimp only
  split_ifs with hempty habsolute hdots hfound
  · exact iff_of_false nofun fun h => h.1.1 hempty
  · exact iff_of_false nofun fun h => habsolute h.1.2.1
  · exact iff_of_false nofun fun h => Bool.noConfusion (h.1.2.2.symm.trans hdots)
  · exact iff_of_false nofun fun h => hblocked.mp hfound h.2.1
  · have hfree := not_not.mp (fun h => hfound (hblocked.mpr h))
    constructor
    · intro hok
      exact ⟨⟨hempty, not_not.mp habsolute, Bool.eq_false_iff.mpr hdots⟩, hfree,
        (Except.ok.inj hok).symm⟩
    · rintro ⟨-, -, rfl⟩
      rfl

theorem not_under_of_parent {c : CanonicalPath} (hparent : c.text ∈ blockedParents) :
    ∀ blocked ∈ blockedPrefixes, ¬components blocked.toList <+: c.names := by
  have hnone : ∀ parent ∈ blockedParents, ∀ blocked ∈ blockedPrefixes,
      ¬components blocked.toList <+: components parent.toList := by decide +kernel
  have hc := hnone c.text hparent
  rwa [CanonicalPath.components_text] at hc

/-- Of what is not blocked, the parents of blocked locations hold one, and nothing else. -/
theorem isolated_iff {c : CanonicalPath}
    (hfree : ∀ blocked ∈ blockedPrefixes, ¬components blocked.toList <+: c.names) :
    Isolated c ↔ c.text ∉ blockedParents := by
  have hparents : ∀ parent ∈ blockedParents, ∃ blocked ∈ blockedPrefixes,
      components parent.toList <+: components blocked.toList := by decide +kernel
  have hinits : ∀ blocked ∈ blockedPrefixes, ∀ names ∈ (components blocked.toList).inits,
      (∀ b ∈ blockedPrefixes, ¬components b.toList <+: names) →
        ∃ parent ∈ blockedParents, names = components parent.toList ∧
          (if names = [] then ['/'] else joinNames names) = parent.toList := by decide +kernel
  constructor
  · intro hisolated hparent
    obtain ⟨blocked, hblocked, habove⟩ := hparents c.text hparent
    rw [CanonicalPath.components_text] at habove
    exact (hisolated blocked hblocked).2 habove
  · intro hparent blocked hblocked
    refine ⟨hfree blocked hblocked, fun habove => hparent ?_⟩
    obtain ⟨parent, hmem, -, hchars⟩ :=
      hinits blocked hblocked c.names ((List.mem_inits _ _).mpr habove) hfree
    have htext : c.text = parent := by
      rw [CanonicalPath.text, CanonicalPath.chars, hchars, String.ofList_toList]
    rwa [htext]

variable {pathExists : String → Bool} {egressProxy : String}

/-- The network of the host: it is not unshared, or shared again. -/
def HasNetwork (options : List BwrapOption) : Prop :=
  .unshareAll ∉ options ∨ .shareNet ∈ options

/-- Every path that the validator accepts is isolated. -/
def AcceptsIsolated (canonicalize : String → Option CanonicalPath) (paths : List String) : Prop :=
  ∀ path ∈ paths, ∀ c, canonicalize path = some c →
    validateBindPath canonicalize path = .ok c.text → Isolated c

/-- No request resolves to a parent of a blocked location. -/
def ClearOfParents (canonicalize : String → Option CanonicalPath) (paths : List String) : Prop :=
  ∀ path ∈ paths, Requestable path → ∀ c, canonicalize path = some c → c.text ∉ blockedParents

theorem acceptsIsolated_iff {paths : List String} :
    AcceptsIsolated canonicalize paths ↔ ClearOfParents canonicalize paths := by
  constructor
  · intro hisolated path hpath hrequest c hresolves hparent
    have hfree := not_under_of_parent hparent
    have hok := (validateBindPath_eq_ok_iff hresolves).mpr ⟨hrequest, hfree, rfl⟩
    exact (isolated_iff hfree).mp (hisolated path hpath c hresolves hok) hparent
  · intro hclear path hpath c hresolves hok
    obtain ⟨hrequest, hfree, -⟩ := (validateBindPath_eq_ok_iff hresolves).mp hok
    exact (isolated_iff hfree).mpr (hclear path hpath hrequest c hresolves)

/-- What the options show of the host. -/
def mounts (options : List BwrapOption) : List (Mount (List Char)) :=
  options.filterMap BwrapOption.mount?

theorem mem_acceptedPaths {paths : List String} {s : String} :
    s ∈ acceptedPaths canonicalize paths ↔
      ∃ path ∈ paths, validateBindPath canonicalize path = .ok s := by
  unfold acceptedPaths
  rw [List.mem_filterMap]
  constructor
  · rintro ⟨path, hpath, hs⟩
    refine ⟨path, hpath, ?_⟩
    cases hok : validateBindPath canonicalize path with
    | error e => simp [hok, Except.toOption] at hs
    | ok safePath =>
      rw [hok] at hs
      exact congrArg Except.ok (Option.some.inj hs)
  · rintro ⟨path, hpath, hok⟩
    exact ⟨path, hpath, by rw [hok]; rfl⟩

/-- Ring 1 mounts the accepted paths, each where it is. -/
theorem mem_mounts_requested {config : SandboxConfig} (hring : config.ring = .ring1)
    {m : Mount (List Char)} :
    m ∈ mounts (requestedOptions canonicalize egressProxy config) ↔
      ∃ path ∈ config.fsRead ++ config.fsWrite, ∃ s,
        validateBindPath canonicalize path = .ok s ∧
          m = ⟨components s.toList, components s.toList⟩ := by
  have hnetwork : ∀ o ∈ (if config.network then
      [.shareNet, .setenv "HTTPS_PROXY" egressProxy, .setenv "HTTP_PROXY" egressProxy] else []),
      BwrapOption.mount? o = none := by
    cases config.network <;> simp [BwrapOption.mount?]
  unfold mounts requestedOptions
  rw [hring]
  simp only [List.mem_filterMap, List.mem_append, List.mem_map]
  constructor
  · rintro ⟨o, (⟨s, hs, rfl⟩ | ⟨s, hs, rfl⟩) | ho, hm⟩
    · obtain ⟨path, hpath, hok⟩ := mem_acceptedPaths.mp hs
      exact ⟨path, Or.inl hpath, s, hok, (Option.some.inj hm).symm⟩
    · obtain ⟨path, hpath, hok⟩ := mem_acceptedPaths.mp hs
      exact ⟨path, Or.inr hpath, s, hok, (Option.some.inj hm).symm⟩
    · rw [hnetwork o ho] at hm
      cases hm
  · rintro ⟨path, hpath | hpath, s, hok, rfl⟩
    · exact ⟨.roBind s s, Or.inl (Or.inl ⟨s, mem_acceptedPaths.mpr ⟨path, hpath, hok⟩, rfl⟩), rfl⟩
    · exact ⟨.bind s s, Or.inl (Or.inr ⟨s, mem_acceptedPaths.mpr ⟨path, hpath, hok⟩, rfl⟩), rfl⟩

/-- What is mounted shows no blocked location just when the accepted paths are isolated. -/
theorem not_shows_iff {config : SandboxConfig} (hring : config.ring = .ring1)
    (hresolve : ∀ path ∈ config.fsRead ++ config.fsWrite, Requestable path →
      ∃ c, canonicalize path = some c) :
    (∀ blocked ∈ blockedPrefixes,
      ¬Shows (mounts (requestedOptions canonicalize egressProxy config))
        (components blocked.toList)) ↔
      AcceptsIsolated canonicalize (config.fsRead ++ config.fsWrite) := by
  have hself : ∀ m ∈ mounts (requestedOptions canonicalize egressProxy config),
      m.target = m.source := by
    intro m hm
    obtain ⟨path, -, s, -, rfl⟩ := (mem_mounts_requested hring).mp hm
    rfl
  simp only [shows_iff hself]
  constructor
  · intro hnone path hpath c hresolves hok blocked hblocked
    have hm : _ ∈ mounts (requestedOptions canonicalize egressProxy config) :=
      (mem_mounts_requested hring).mpr ⟨path, hpath, c.text, hok, rfl⟩
    have hapart := fun h => hnone blocked hblocked ⟨_, hm, h⟩
    rw [CanonicalPath.components_text] at hapart
    exact not_or.mp hapart
  · rintro hisolated blocked hblocked ⟨m, hm, hshown⟩
    obtain ⟨path, hpath, s, hok, rfl⟩ := (mem_mounts_requested hring).mp hm
    obtain ⟨c, hresolves⟩ := hresolve path hpath (requestable_of_ok hok)
    obtain ⟨-, -, rfl⟩ := (validateBindPath_eq_ok_iff hresolves).mp hok
    rw [CanonicalPath.components_text] at hshown
    exact not_or.mpr (hisolated path hpath c hresolves hok blocked hblocked) hshown

/-- **When the sandbox isolates.** The arguments are read as the system's options, those of
the request, and the command. The accepted paths are isolated, and what Ring 1 mounts for
them shows no blocked location, exactly when no request resolves to the root, `/etc` or
`/nix`. Ring 2 adds nothing and has no network. -/
theorem sandbox_isolates_iff (config : SandboxConfig) (command : String)
    (hresolve : ∀ path ∈ config.fsRead ++ config.fsWrite, Requestable path →
      ∃ c, canonicalize path = some c) :
    ∃ requested,
      readArgs (buildBwrapArgs canonicalize pathExists egressProxy config command) =
        some (systemOptions pathExists ++ requested, ["/bin/sh", "-c", command]) ∧
      (AcceptsIsolated canonicalize (config.fsRead ++ config.fsWrite) ↔
        ClearOfParents canonicalize (config.fsRead ++ config.fsWrite)) ∧
      (config.ring = .ring1 →
        ((∀ blocked ∈ blockedPrefixes, ¬Shows (mounts requested) (components blocked.toList)) ↔
          ClearOfParents canonicalize (config.fsRead ++ config.fsWrite))) ∧
      (config.ring = .ring2 →
        requested = [] ∧ ¬HasNetwork (systemOptions pathExists ++ requested)) := by
  refine ⟨_, readArgs_buildBwrapArgs config command, acceptsIsolated_iff, ?_, ?_⟩
  · intro hring
    exact (not_shows_iff hring hresolve).trans acceptsIsolated_iff
  · intro hring
    have hnone : requestedOptions canonicalize egressProxy config = [] := by
      rw [requestedOptions, hring]
    refine ⟨hnone, ?_⟩
    rw [hnone]
    simp [HasNetwork, systemOptions]

end Engine

/-- A host with the directories `/` and `/srv`. -/
def smallHost (path : String) : Option CanonicalPath :=
  if path = "/" then some ⟨[], by decide⟩
  else if path = "/srv" then some ⟨["srv".toList], by decide⟩
  else none

theorem srv_isolated :
    ∃ requested, readArgs (buildBwrapArgs smallHost (fun _ => true) "http://127.0.0.1:19999"
        { ring := .ring1, fsRead := ["/srv"], network := true } "ls /srv") =
          some (systemOptions (fun _ => true) ++ requested, ["/bin/sh", "-c", "ls /srv"]) ∧
      ∀ blocked ∈ blockedPrefixes, ¬Shows (mounts requested) (components blocked.toList) := by
  have hsrv : smallHost "/srv" = some ⟨["srv".toList], by decide⟩ := rfl
  have hresolve : ∀ path ∈ ["/srv"] ++ [], Requestable path → ∃ c, smallHost path = some c := by
    intro path hpath _
    obtain rfl := List.mem_singleton.mp hpath
    exact ⟨_, hsrv⟩
  obtain ⟨requested, hread, -, hshows, -⟩ := @sandbox_isolates_iff smallHost (fun _ => true)
    "http://127.0.0.1:19999" { ring := .ring1, fsRead := ["/srv"], network := true } "ls /srv"
    hresolve
  refine ⟨requested, hread, (hshows rfl).mpr ?_⟩
  intro path hpath _ c hresolves
  obtain rfl := List.mem_singleton.mp hpath
  obtain rfl := Option.some.inj (hsrv.symm.trans hresolves)
  decide

/-- The root may be mounted, for writing, and shows every blocked location. -/
theorem root_shows_blocked :
    validateBindPath smallHost "/" = .ok "/" ∧ ¬AcceptsIsolated smallHost ["/"] ∧
      ∃ options command, readArgs (buildBwrapArgs smallHost (fun _ => true) "http://127.0.0.1:19999"
          { ring := .ring1, fsWrite := ["/"] } "cat /etc/shadow") = some (options, command) ∧
        .bind "/" "/" ∈ options ∧ ∀ blocked ∈ blockedPrefixes,
          seenAt (mounts options) (components blocked.toList) =
            some (components blocked.toList) := by
  refine ⟨by decide +kernel, ?_, _, _, readArgs_buildBwrapArgs _ _, ?_, ?_⟩
  · rw [acceptsIsolated_iff]
    intro hclear
    have hrequest : Requestable "/" := by
      unfold Requestable
      decide
    exact hclear "/" List.mem_cons_self hrequest ⟨[], by decide⟩ rfl (by decide)
  · decide +kernel
  · decide +kernel

end OsModa.Agentd
