import Mathlib.Algebra.Order.Ring.Rat
import Mathlib.Data.Nat.Cast.Order.Ring
import Mathlib.Tactic.NormNum
import OsModa.Base.Js
import OsModa.Base.LinkedTree

/-!
The file tools of the bridge, and the directories that they are to stay in.

A path is checked before it is used: as it is written, and once more where it leads to, if it leads
anywhere. What is read or listed lies in one of the allowed directories whatever links there are
(`fileRead_confined`, `directoryList_confined`). A file that is not there yet leads nowhere, and its
directory is not asked about, so what is written stays in the allowed directories where no link is
on the way (`fileWrite_confined`), and can then be read again (`fileRead_of_written`).
-/

namespace OsModa.Bridge

open OsModa.Js OsModa.Path OsModa.Path.LinkedTree

/-! ### Paths -/

theorem slash_ne_dot : (47 : UInt16) ≠ 46 := by decide

/-- Paths of a POSIX system. -/
def posix : PathSyntax UInt16 := ⟨47, 46, slash_ne_dot⟩

def isAbsolute (p : JsString) : Bool := p.head? = some 47

def splitPath (p : JsString) : List JsString := p.splitOn 47

/-- `path.dirname`: up to the last separator that a name follows. -/
def dirname (p : JsString) : JsString :=
  let named := p.reverse.dropWhile (· = 47)
  match named.dropWhile (· ≠ 47) with
  | _ :: above =>
    if above = [] then [47]
    else if isAbsolute p ∧ above.length = 1 then [47, 47]
    else above.reverse
  | [] => if isAbsolute p then [47] else [46]

/-- The file system that a tool meets: the texts of the files, the directory that the bridge runs
in, and what `stat` and `readdir` tell beside that. -/
structure FileWorld where
  tree : LinkedTree posix JsString
  cwd : List JsString
  inDir : tree.node cwd = some .dir
  size : List JsString → Nat
  entries : List JsString → List JsString

/-- So many links are followed. -/
def maxLinks : Nat := 40

namespace FileWorld

variable (w : FileWorld)

/-- Where a path starts. -/
def start (p : JsString) : List JsString := if isAbsolute p then [] else w.cwd

/-- `path.resolve`, as the location that its result names. -/
def resolve (p : JsString) : List JsString := posix.resolve true (w.start p ++ splitPath p)

end FileWorld

/-- What a path leads to; `missing` says what a last name leads to that is not there. -/
def lead (tree : LinkedTree posix JsString) (missing : List JsString → Option (List JsString))
    (start : List JsString) (p : JsString) : Option (List JsString) :=
  if p = [] then none else tree.walk missing maxLinks start (splitPath p)

/-- `fs.realpathSync` of an absolute path. -/
def realpath (tree : LinkedTree posix JsString) (p : JsString) : Option JsString :=
  (lead tree (fun _ => none) [] p).map (absText posix)

/-! ### The check -/

def allowedFilePaths : List JsString :=
  ["/var/lib/osmoda/", "/etc/nixos/", "/home/", "/tmp/", "/etc/", "/var/log/"].map utf16

def isAllowed (p : JsString) : Bool := allowedFilePaths.any fun base => base.isPrefixOf p

/-- Validate a file path — reject traversal and restrict to allowed directories. -/
def validateFilePath (w : FileWorld) (filePath : JsString) : Option JsString :=
  if includes filePath (utf16 "..") then some (utf16 "path must not contain '..'")
  else
    let resolved := absText posix (w.resolve filePath)
    if !isAllowed resolved then some (utf16 "path must be under one of: " ++
      (utf16 ", ").intercalate allowedFilePaths)
    else match realpath w.tree resolved with
    | some real =>
      if isAllowed real then none
      else some (utf16 "resolved symlink target must be under one of: " ++
        (utf16 ", ").intercalate allowedFilePaths)
    | none => none

/-! ### Tools -/

inductive EntryType where
  | dir
  | link
  | file
  deriving DecidableEq

structure DirEntry where
  name : JsString
  type : EntryType
  size : Nat
  deriving DecidableEq

inductive FileReply where
  | refused (error path : JsString)
  | tooLarge (path : JsString) (size : Nat)
  | content (path : JsString) (lines : Nat) (truncated : Bool) (content : JsString)
  | written (path : JsString) (size : Nat)
  | listed (entries : List DirEntry)
  /-- With the message of what was thrown. -/
  | thrown
  deriving DecidableEq

/-- `Math.min(Number(maxLines) || 500, 2000)`; `none` is no number. -/
def lineLimit (maxLines : Option ℚ) : ℚ :=
  min ((maxLines.filter (· ≠ 0)).getD 500) 2000

/-- `slice(0, limit)` -/
def sliceTo {α : Type} (items : List α) (limit : ℚ) : List α :=
  let n := limit.num.tdiv limit.den
  items.take (if n < 0 then (items.length + n).toNat else n.toNat)

def fileRead (w : FileWorld) (filePath : JsString) (maxLines : Option ℚ) : FileReply :=
  match validateFilePath w filePath with
  | some error => .refused error filePath
  | none =>
    match lead w.tree (fun _ => none) (w.start filePath) filePath with
    | none => .thrown
    | some loc =>
      if w.size loc > 10 * 1024 * 1024 then .tooLarge filePath (w.size loc)
      else match w.tree.node loc with
      | some (.file text) =>
        let limit := lineLimit maxLines
        .content filePath (lines text).length (decide ((lines text).length > limit))
          ([10].intercalate (sliceTo (lines text) limit))
      | _ => .thrown

def entryType (tree : LinkedTree posix JsString) (loc : List JsString) : EntryType :=
  match tree.node loc with
  | some .dir => .dir
  | some (.link _) => .link
  | _ => .file

def directoryList (w : FileWorld) (path : Option JsString) : FileReply :=
  let dir := (path.filter (· ≠ [])).getD [47]
  match validateFilePath w dir with
  | some error => .refused error []
  | none =>
    match lead w.tree (fun _ => none) (w.start dir) dir with
    | none => .thrown
    | some loc =>
      if isDir (w.tree.node loc) then .listed ((w.entries loc).map fun name =>
        { name
          type := entryType w.tree (loc ++ [name])
          size := ((w.tree.walk (fun _ => none) maxLinks (w.start dir)
            (kept posix (splitPath dir) ++ [name])).map w.size).getD 0 })
      else .thrown

def tmpSuffix : JsString := utf16 ".osmoda-tmp"

/-- `fs.writeFileSync`: the file that the path leads to, or that is made where it leads. -/
def writeFile? (tree : LinkedTree posix JsString) (start : List JsString) (p content : JsString) :
    Option (LinkedTree posix JsString) :=
  (lead tree some start p).bind fun loc =>
    loc.getLast?.bind fun name => tree.put? loc.dropLast name (.file content)

/-- `fs.renameSync(p + suffix, p)` -/
def renameBack? (tree : LinkedTree posix JsString) (start : List JsString) (p : JsString) :
    Option (LinkedTree posix JsString) :=
  (splitPath p).getLast?.bind fun name =>
    if name = [] ∨ name = posix.here then none
    else (tree.walk (fun _ => none) maxLinks start (splitPath p).dropLast).bind fun d =>
      tree.rename? d (name ++ tmpSuffix) name

/-- What the system does not let the tool do. -/
structure WriteEnv where
  /-- The directories that are not made. -/
  refused : List JsString → Bool := fun _ => false
  /-- What a write that fails leaves. -/
  cut : Option JsString := none
  renameFails : Bool := false

def fileWrite (w : FileWorld) (env : WriteEnv) (filePath content : JsString) :
    FileReply × LinkedTree posix JsString :=
  match validateFilePath w filePath with
  | some error => (.refused error filePath, w.tree)
  | none =>
    let (made, tree) := mkdirs env.refused maxLinks (w.start filePath) w.tree []
      (splitPath (dirname filePath))
    if !made then (.thrown, tree)
    else match writeFile? tree (w.start filePath) (filePath ++ tmpSuffix)
        (env.cut.getD content) with
    | none => (.thrown, tree)
    | some tree =>
      if env.cut.isSome ∨ env.renameFails then (.thrown, tree)
      else match renameBack? tree (w.start filePath) filePath with
      | none => (.thrown, tree)
      | some tree => (.written filePath content.length, tree)

/-! ### What is read -/

section Reading

variable {w : FileWorld} {filePath : JsString} {loc names : List JsString}

theorem up_notMem_splitPath (h : includes filePath (utf16 "..") = false) :
    posix.up ∉ splitPath filePath := by
  intro hmem
  obtain ⟨before, after, hsplit⟩ := List.append_of_mem hmem
  have hpath : filePath = [47].intercalate (before ++ posix.up :: after) := by
    rw [← hsplit]
    exact (List.intercalate_splitOn 47).symm
  have hinfix : posix.up <:+: filePath := by
    rw [hpath, PathSyntax.intercalate_append_cons]
    exact ⟨_, _, List.append_assoc _ _ _⟩
  exact Bool.eq_false_iff.mp h (decide_eq_true hinfix)

/-- What the check makes sure of. -/
structure Checked (w : FileWorld) (filePath : JsString) : Prop where
  noDots : includes filePath (utf16 "..") = false
  allowed : isAllowed (absText posix (w.resolve filePath)) = true
  real : ∀ real, realpath w.tree (absText posix (w.resolve filePath)) = some real →
    isAllowed real = true

theorem Checked.notUp (h : Checked w filePath) : posix.up ∉ splitPath filePath :=
  up_notMem_splitPath h.noDots

theorem checked_of_validate (h : validateFilePath w filePath = none) : Checked w filePath := by
  unfold validateFilePath at h
  split at h
  · cases h
  · rename_i hdots
    dsimp only at h
    split at h
    · cases h
    · rename_i hallowed
      refine ⟨Bool.eq_false_iff.mpr hdots, by simpa using hallowed, ?_⟩
      intro real hreal
      rw [hreal] at h
      dsimp only at h
      split at h
      · assumption
      · cases h

theorem validate_of_checked (h : Checked w filePath) : validateFilePath w filePath = none := by
  unfold validateFilePath
  rw [h.noDots, if_neg Bool.false_ne_true]
  dsimp only
  rw [h.allowed, if_neg (by simp)]
  split
  · rename_i real hreal
    rw [if_pos (h.real real hreal)]
  · rfl

theorem start_eq (w : FileWorld) (filePath : JsString) : w.tree.node (w.start filePath) = some .dir := by
  unfold FileWorld.start
  split
  · exact w.tree.root
  · exact w.inDir

theorem ordinary_start {n : JsString} (hn : n ∈ w.start filePath) :
    posix.Ordinary n ∧ posix.separator ∉ n :=
  ordinary_of_node (by rw [start_eq]; exact Option.some_ne_none _) hn

theorem resolve_eq (hup : posix.up ∉ splitPath filePath) :
    w.resolve filePath = w.start filePath ++ kept posix (splitPath filePath) := by
  have hall : posix.up ∉ w.start filePath ++ splitPath filePath := fun h =>
    (List.mem_append.mp h).elim (fun hstart => (ordinary_start hstart).1.notUp rfl) hup
  rw [FileWorld.resolve, resolve_eq_kept hall, kept_append,
    kept_eq_self fun n hn => (ordinary_start hn).1]

theorem mem_kept {n : JsString} (h : n ∈ kept posix (splitPath filePath)) :
    n ≠ [] ∧ posix.separator ∉ n := by
  obtain ⟨hmem, hn⟩ := List.mem_filter.mp h
  exact ⟨(of_decide_eq_true hn).1, PathSyntax.not_mem_of_mem_splitOn hmem⟩

/-- What a path leads to is what its resolved text leads to. -/
theorem realpath_of_lead (hup : posix.up ∉ splitPath filePath)
    (h : lead w.tree (fun _ => none) (w.start filePath) filePath = some loc) :
    realpath w.tree (absText posix (w.resolve filePath)) = some (absText posix loc) := by
  have hstart := start_eq w filePath
  have hnames : ∀ n ∈ w.resolve filePath, n ≠ [] ∧ posix.separator ∉ n := by
    intro n hn
    rw [resolve_eq hup, List.mem_append] at hn
    rcases hn with hn | hn
    · exact ⟨(ordinary_start hn).1.nonempty, (ordinary_start hn).2⟩
    · exact mem_kept hn
  have hkept : w.tree.walk (fun _ => none) maxLinks (w.start filePath)
      (kept posix (splitPath filePath)) = some loc := by
    unfold lead at h
    split at h
    · cases h
    · exact walk_thinned (thinned_kept _) h
  have hwalk := @walk_absText _ _ posix w.tree _ _ (fun _ => none) maxLinks hnames
  have hself : kept posix (w.start filePath) = w.start filePath :=
    kept_eq_self fun n hn => (ordinary_start hn).1
  have hdirs := @walk_append_dirs _ _ posix w.tree [] (w.start filePath)
    (kept posix (splitPath filePath)) _ (fun _ => none) maxLinks
    (fun hmem => (ordinary_start hmem).1.notUp rfl) (by rwa [hself, List.nil_append])
  rw [hself, List.nil_append, hkept] at hdirs
  rw [resolve_eq hup, hdirs] at hwalk
  unfold realpath lead
  rw [if_neg absText_ne_nil, resolve_eq hup, splitPath]
  exact congrArg (Option.map (absText posix)) hwalk

theorem allowed_of_lead (hvalid : validateFilePath w filePath = none)
    (h : lead w.tree (fun _ => none) (w.start filePath) filePath = some loc) :
    isAllowed (absText posix loc) = true := by
  have hchecked := checked_of_validate hvalid
  exact hchecked.real _ (realpath_of_lead hchecked.notUp h)

def someNode : List JsString → Option (Node UInt16 JsString)
  | [] => some .dir
  | [a] => if a = utf16 "tmp" then some .dir else none
  | [a, b] =>
    if a = utf16 "tmp" then
      if b = utf16 "d" then some .dir else if b = utf16 "a" then some (.file (utf16 "x")) else none
    else none
  | _ => none

def someTree : LinkedTree posix JsString where
  node := someNode
  root := rfl
  parent p n h := by
    rcases p with _ | ⟨a, _ | ⟨b, _ | ⟨c, p⟩⟩⟩
    · rfl
    · change (if a = _ then _ else none) ≠ none at h
      split at h
      · rename_i ha
        exact if_pos ha
      · exact absurd rfl h
    · exact absurd rfl h
    · exact absurd rfl h
  ordinary p n h := by
    rw [← isName_iff]
    rcases p with _ | ⟨a, _ | ⟨b, _ | ⟨c, p⟩⟩⟩
    · change (if n = _ then _ else none) ≠ none at h
      split at h
      · rename_i hn
        rw [hn]
        decide
      · exact absurd rfl h
    · change (if a = _ then if n = _ then _ else if n = _ then _ else none else none) ≠ none at h
      split at h
      · split at h
        · rename_i hn
          rw [hn]
          decide
        · split at h
          · rename_i hn
            rw [hn]
            decide
          · exact absurd rfl h
      · exact absurd rfl h
    · exact absurd rfl h
    · exact absurd rfl h

def someWorld : FileWorld where
  tree := someTree
  cwd := [utf16 "tmp"]
  inDir := rfl
  size _ := 1
  entries _ := []

end Reading

/-! ### Names of a path that is written to -/

section Names

variable {p part init : JsString}

def lastName (p : JsString) : JsString := (splitPath p).getLastD []

theorem splitPath_eq (p : JsString) : splitPath p = (splitPath p).dropLast ++ [lastName p] := by
  obtain ⟨last, hlast⟩ : ∃ last, splitPath p = (splitPath p).dropLast ++ [last] :=
    ⟨_, (List.dropLast_append_getLast (List.splitOn_ne_nil 47 p)).symm⟩
  have hget : lastName p = last := by
    rw [lastName, hlast, List.getLastD_concat]
  rw [hget]
  exact hlast

theorem splitPath_append (hfree : 47 ∉ part) :
    splitPath (p ++ part) = (splitPath p).dropLast ++ [lastName p ++ part] := by
  have hpath : p ++ part =
      [(47 : UInt16)].intercalate ((splitPath p).dropLast ++ [lastName p ++ part]) := by
    have hsame : [(47 : UInt16)].intercalate ((splitPath p).dropLast ++ [lastName p]) = p := by
      rw [← splitPath_eq]
      exact List.intercalate_splitOn 47
    rw [PathSyntax.intercalate_append_cons, List.flatMap_nil, List.append_nil] at hsame ⊢
    rw [← List.append_assoc, hsame]
  have hnames : ∀ n ∈ (splitPath p).dropLast ++ [lastName p ++ part], 47 ∉ n := by
    have hall : ∀ n ∈ splitPath p, (47 : UInt16) ∉ n :=
      fun n hn => PathSyntax.not_mem_of_mem_splitOn hn
    intro n hn
    rcases List.mem_append.mp hn with hn | hn
    · exact hall n (List.dropLast_subset _ hn)
    · rw [List.mem_singleton.mp hn, List.mem_append, not_or]
      refine ⟨hall _ ?_, hfree⟩
      rw [splitPath_eq p]
      exact List.mem_append_right _ (List.mem_singleton_self _)
  rw [hpath]
  exact List.splitOn_intercalate 47 hnames (by simp)

/-- The directory of a path is on the way to what it names. -/
theorem kept_dirname (p : JsString) :
    kept posix (splitPath (dirname p)) <+: kept posix (splitPath p).dropLast := by
  have hroot : kept posix (splitPath [47]) = [] := by decide
  have hroot' : kept posix (splitPath [47, 47]) = [] := by decide
  have hhere : kept posix (splitPath [46]) = [] := by decide
  unfold dirname
  dsimp only
  split
  · rename_i c above hnamed
    -- A separator, and no other before the last name.
    have hsep : c = 47 := by
      have hhead := List.head?_dropWhile_not (· ≠ (47 : UInt16)) (p.reverse.dropWhile (· = 47))
      rw [hnamed] at hhead
      simpa using hhead
    subst hsep
    have hcut : p = above.reverse ++ 47 :: ((p.reverse.dropWhile (· = 47)).takeWhile
        (· ≠ 47)).reverse ++ (p.reverse.takeWhile (· = 47)).reverse := by
      rw [← List.reverse_inj, List.reverse_append, List.reverse_append, List.reverse_cons,
        List.reverse_reverse, List.reverse_reverse, List.reverse_reverse, List.append_assoc,
        List.singleton_append, ← hnamed, List.takeWhile_append_dropWhile,
        List.takeWhile_append_dropWhile]
    have hsplit : splitPath above.reverse <+: (splitPath p).dropLast := by
      rw [hcut, List.append_assoc, List.cons_append]
      unfold splitPath
      rw [List.splitOn_append_cons_self, List.dropLast_append_of_ne_nil (List.splitOn_ne_nil _ _)]
      exact List.prefix_append _ _
    split
    · rw [hroot]
      exact List.nil_prefix
    · split
      · rw [hroot']
        exact List.nil_prefix
      · exact hsplit.filter _
  · split
    · rw [hroot]
      exact List.nil_prefix
    · rw [hhere]
      exact List.nil_prefix

end Names

/-! ### What is written -/

section Writing

variable {w : FileWorld} {env : WriteEnv} {tree tree' : LinkedTree posix JsString}
  {filePath content : JsString} {start loc : List JsString}

/-- The location of the directory of a path, if there is no link on the way. -/
def dirNames (start : List JsString) (p : JsString) : List JsString :=
  start ++ kept posix (splitPath p).dropLast

/-- The location that is written to, if there is no link on the way. -/
def tmpNames (start : List JsString) (p : JsString) : List JsString :=
  dirNames start p ++ [lastName p ++ tmpSuffix]

/-- There is no link on the way to a location, nor at it. -/
def Plain (tree : LinkedTree posix JsString) (loc : List JsString) : Prop :=
  ∀ q, q <+: loc → ∀ target, tree.node q ≠ some (.link target)

theorem kept_tmp : kept posix (splitPath (filePath ++ tmpSuffix)) =
    kept posix (splitPath filePath).dropLast ++ [lastName filePath ++ tmpSuffix] := by
  have hfree : (47 : UInt16) ∉ tmpSuffix := by decide
  have hlong : ¬ (lastName filePath ++ tmpSuffix = [] ∨
      lastName filePath ++ tmpSuffix = posix.here) := by
    have hlength : 1 < (lastName filePath ++ tmpSuffix).length := by
      rw [List.length_append]
      exact Nat.lt_of_lt_of_le (by decide) (Nat.le_add_left tmpSuffix.length _)
    rintro (h | h) <;> rw [h] at hlength <;> exact absurd hlength (by decide)
  rw [splitPath_append hfree, kept_append, kept_cons hlong]
  rfl

theorem ordinary_of_kept {names : List JsString} (hup : posix.up ∉ names) {n : JsString}
    (hn : n ∈ kept posix names) : posix.Ordinary n := by
  obtain ⟨hmem, hkept⟩ := List.mem_filter.mp hn
  have hboth := of_decide_eq_true hkept
  exact ⟨hboth.1, hboth.2, fun heq => hup (heq ▸ hmem)⟩

theorem Plain.mono {loc' : List JsString} (h : Plain tree loc) (hinitial : loc' <+: loc) :
    Plain tree loc' := fun q hq => h q (hq.trans hinitial)

theorem up_notMem_tmp (hup : posix.up ∉ splitPath filePath) :
    posix.up ∉ splitPath (filePath ++ tmpSuffix) := by
  have hfree : (47 : UInt16) ∉ tmpSuffix := by decide
  rw [splitPath_append hfree, List.mem_append, not_or, List.mem_singleton]
  refine ⟨fun h => hup (List.dropLast_subset _ h), fun heq => ?_⟩
  have hlength := congrArg List.length heq
  rw [List.length_append] at hlength
  exact absurd hlength (Nat.lt_of_lt_of_le (by decide : posix.up.length < tmpSuffix.length)
    (Nat.le_add_left _ _)).ne

/-- What names lead to without a link is what they say. -/
theorem lead_plain {missing : List JsString → Option (List JsString)} {names : List JsString}
    (hmissing : ∀ l l', missing l = some l' → l' = l) (hup : posix.up ∉ names)
    (hplain : Plain tree (start ++ kept posix names))
    (h : tree.walk missing maxLinks start names = some loc) : loc = start ++ kept posix names :=
  walk_plain hmissing (fun _ hn => ordinary_of_kept hup hn)
    (fun _ hq => hplain _ ((List.prefix_append_right_inj start).mpr hq))
    (walk_thinned (thinned_kept names) h)

theorem node_writeFile (hup : posix.up ∉ splitPath filePath)
    (hplain : Plain tree (tmpNames start filePath))
    (h : writeFile? tree start (filePath ++ tmpSuffix) content = some tree') :
    tree.node (dirNames start filePath) = some .dir ∧ ∀ loc, tree'.node loc =
      if loc = tmpNames start filePath then some (.file content) else tree.node loc := by
  have htmp : start ++ kept posix (splitPath (filePath ++ tmpSuffix)) = tmpNames start filePath := by
    rw [kept_tmp, ← List.append_assoc]
    rfl
  obtain ⟨made, hlead, hput⟩ := Option.bind_eq_some_iff.mp h
  obtain ⟨name, hname, hput⟩ := Option.bind_eq_some_iff.mp hput
  unfold lead at hlead
  split at hlead
  · cases hlead
  · have hmade := lead_plain (fun _ _ heq => (Option.some.inj heq).symm) (up_notMem_tmp hup)
      (by rwa [htmp]) hlead
    rw [htmp] at hmade
    subst hmade
    have hdir := dir_of_put? hput
    rw [tmpNames, List.dropLast_concat] at hdir
    refine ⟨hdir, fun loc => ?_⟩
    rw [node_put? hput, List.dropLast_append_getLast? name hname]

theorem node_renameBack (hup : posix.up ∉ splitPath filePath)
    (hplain : Plain tree (tmpNames start filePath))
    (h : renameBack? tree start filePath = some tree') :
    ¬ (lastName filePath = [] ∨ lastName filePath = posix.here) ∧ ∀ loc, tree'.node loc =
      if loc = dirNames start filePath ++ [lastName filePath] then
        tree.node (tmpNames start filePath)
      else if loc = tmpNames start filePath then none else tree.node loc := by
  obtain ⟨name, hname, h⟩ := Option.bind_eq_some_iff.mp h
  have hlast : name = lastName filePath := by
    rw [splitPath_eq, List.getLast?_concat] at hname
    exact (Option.some.inj hname).symm
  subst hlast
  split at h
  · cases h
  · rename_i hordinary
    obtain ⟨d, hwalk, hrename⟩ := Option.bind_eq_some_iff.mp h
    have hd := lead_plain (fun _ _ heq => by cases heq) (fun hmem => hup (List.dropLast_subset _ hmem))
      (hplain.mono (List.prefix_append _ _)) hwalk
    subst hd
    exact ⟨hordinary, node_rename? hrename⟩

theorem absText_concat (d : List JsString) (name : JsString) :
    absText posix (d ++ [name]) = d.flatMap ((47 : UInt16) :: ·) ++ 47 :: name := by
  rw [absText_eq (by simp), List.flatMap_append, List.flatMap_singleton]
  rfl

/-- A location beside one that is allowed, or in it, is allowed. -/
theorem isAllowed_beside {d : List JsString} {name : JsString} (hfree : 47 ∉ name)
    (h : isAllowed (absText posix (d ++ kept posix [name])) = true) (other : JsString) :
    isAllowed (absText posix (d ++ [other])) = true := by
  obtain ⟨base, hbase, hinitial⟩ := List.any_eq_true.mp h
  rw [List.isPrefixOf_iff_prefix] at hinitial
  have hends : base.getLast? = some 47 ∧ 1 < base.length := by
    have hall : ∀ base ∈ allowedFilePaths, base.getLast? = some 47 ∧ 1 < base.length := by decide
    exact hall base hbase
  -- The base ends with the separator before the last name, or earlier.
  have hfront : base <+: d.flatMap ((47 : UInt16) :: ·) ++ [47] := by
    by_cases hhere : name = [] ∨ name = posix.here
    · rw [kept_cons_of_here hhere, kept, List.filter_nil, List.append_nil] at hinitial
      rcases eq_or_ne d [] with rfl | hne
      · exact absurd hinitial.length_le (Nat.not_le_of_lt hends.2)
      · rw [absText_eq hne] at hinitial
        exact hinitial.trans (List.prefix_append _ _)
    · rw [kept_cons hhere, kept, List.filter_nil, absText_concat] at hinitial
      have hfront : d.flatMap ((47 : UInt16) :: ·) ++ [47] <+:
          d.flatMap ((47 : UInt16) :: ·) ++ 47 :: name := ⟨name, by simp⟩
      rcases List.prefix_or_prefix_of_prefix hinitial hfront with hshort | ⟨more, hmore⟩
      · exact hshort
      · rcases List.eq_nil_or_concat more with rfl | ⟨init, last, rfl⟩
        · rw [← hmore, List.append_nil]
        · rw [List.concat_eq_append] at hmore
          rw [← hmore, List.append_assoc, List.singleton_append, List.prefix_append_right_inj,
            List.prefix_cons_inj] at hinitial
          rw [← hmore, ← List.append_assoc, List.getLast?_concat] at hends
          obtain rfl := Option.some.inj hends.1
          exact absurd (hinitial.subset (by simp)) hfree
  refine List.any_eq_true.mpr ⟨base, hbase, ?_⟩
  rw [List.isPrefixOf_iff_prefix, absText_concat]
  exact hfront.trans ⟨other, by simp⟩

/-! The file system has no link. -/

theorem plain_someTree (loc : List JsString) : Plain someTree loc := by
  intro q _ target
  change someNode q ≠ _
  unfold someNode
  split
  · exact nofun
  · split <;> exact nofun
  · split
    · split
      · exact nofun
      · split <;> exact nofun
    · exact nofun
  · exact nofun

/-- What a write that passed the check has come to. -/
inductive WriteStage (w : FileWorld) (env : WriteEnv) (filePath content : JsString) :
    FileReply × LinkedTree posix JsString → Prop where
  | dirs {tree : LinkedTree posix JsString}
      (adds : AddsDirs w.tree tree (dirNames (w.start filePath) filePath)) :
      WriteStage w env filePath content (.thrown, tree)
  | tmp {tree tree' : LinkedTree posix JsString}
      (adds : AddsDirs w.tree tree (dirNames (w.start filePath) filePath))
      (made : writeFile? tree (w.start filePath) (filePath ++ tmpSuffix) (env.cut.getD content) =
        some tree') : WriteStage w env filePath content (.thrown, tree')
  | renamed {tree tree' tree'' : LinkedTree posix JsString}
      (adds : AddsDirs w.tree tree (dirNames (w.start filePath) filePath))
      (made : writeFile? tree (w.start filePath) (filePath ++ tmpSuffix) content = some tree')
      (moved : renameBack? tree' (w.start filePath) filePath = some tree'') :
      WriteStage w env filePath content (.written filePath content.length, tree'')

theorem fileWrite_stage (hvalid : validateFilePath w filePath = none)
    (hplain : Plain w.tree (tmpNames (w.start filePath) filePath)) :
    WriteStage w env filePath content (fileWrite w env filePath content) := by
  have hup := (checked_of_validate hvalid).notUp
  have hdirs : w.start filePath ++ [] ++ kept posix (splitPath (dirname filePath)) <+:
      dirNames (w.start filePath) filePath := by
    rw [List.append_nil]
    exact (List.prefix_append_right_inj _).mpr (kept_dirname filePath)
  have hupDir : posix.up ∉ splitPath (dirname filePath) := fun hmem => by
    have hkept : posix.up ∈ kept posix (splitPath (dirname filePath)) :=
      List.mem_filter.mpr ⟨hmem, by decide⟩
    exact hup (List.dropLast_subset _ (List.mem_filter.mp ((kept_dirname filePath).subset hkept)).1)
  have hadds := mkdirs_plain env.refused maxLinks [] (by simp) hupDir hdirs fun q hq =>
    hplain _ (hq.trans (List.prefix_append _ _))
  unfold fileWrite
  rw [hvalid]
  dsimp only
  generalize mkdirs env.refused maxLinks (w.start filePath) w.tree []
    (splitPath (dirname filePath)) = made at hadds ⊢
  obtain ⟨made, tree⟩ := made
  dsimp only at hadds ⊢
  split
  · exact .dirs hadds
  · split
    · exact .dirs hadds
    · rename_i tree' hmade
      split
      · exact .tmp hadds hmade
      · rename_i hfine
        split
        · exact .tmp hadds hmade
        · rename_i tree'' hmoved
          have hwhole : env.cut.getD content = content := by
            cases hcut : env.cut with
            | none => rfl
            | some left => exact absurd (.inl (by rw [hcut]; rfl)) hfine
          exact .renamed hadds (hwhole ▸ hmade) hmoved

theorem Plain.adds {dest : List JsString} (h : Plain tree loc) (hadds : AddsDirs tree tree' dest) :
    Plain tree' loc := fun q hq target => hadds.not_link (h q hq target)

theorem Plain.put (h : Plain tree loc) {at_ : List JsString} {text : JsString}
    (hput : ∀ loc, tree'.node loc = if loc = at_ then some (.file text) else tree.node loc) :
    Plain tree' loc := fun q hq target => by
  rw [hput]
  split
  · exact fun heq => by cases heq
  · exact h q hq target

/-- **What is written stays in the allowed directories** where no link is on the way: whatever
fails, a write changes only what lies in one of them, and makes only directories of its path. -/
theorem fileWrite_confined (hplain : Plain w.tree (tmpNames (w.start filePath) filePath))
    (loc : List JsString) :
    (fileWrite w env filePath content).2.node loc = w.tree.node loc ∨
      (loc <+: dirNames (w.start filePath) filePath ∧ w.tree.node loc = none ∧
        (fileWrite w env filePath content).2.node loc = some .dir) ∨
      isAllowed (absText posix loc) = true := by
  cases hvalid : validateFilePath w filePath with
  | some error =>
    unfold fileWrite
    rw [hvalid]
    exact .inl rfl
  | none =>
    have hchecked := checked_of_validate hvalid
    have hallowed : ∀ other, isAllowed (absText posix
        (dirNames (w.start filePath) filePath ++ [other])) = true := by
      have hresolved := hchecked.allowed
      rw [resolve_eq hchecked.notUp, splitPath_eq, kept_append, ← List.append_assoc] at hresolved
      have hlast : lastName filePath ∈ splitPath filePath := by
        rw [splitPath_eq]
        exact List.mem_append_right _ (List.mem_singleton_self _)
      exact isAllowed_beside (PathSyntax.not_mem_of_mem_splitOn hlast) hresolved
    have hstage := @fileWrite_stage w env filePath content hvalid hplain
    generalize fileWrite w env filePath content = result at hstage ⊢
    cases hstage with
    | dirs adds => exact (adds loc).imp_right .inl
    | tmp adds made =>
      rw [(node_writeFile hchecked.notUp (hplain.adds adds) made).2]
      split
      · rename_i heq
        exact .inr (.inr (heq ▸ hallowed _))
      · exact (adds loc).imp_right .inl
    | renamed adds made moved =>
      have hmade := (node_writeFile hchecked.notUp (hplain.adds adds) made).2
      rw [(node_renameBack hchecked.notUp ((hplain.adds adds).put hmade) moved).2]
      split
      · rename_i heq
        exact .inr (.inr (heq ▸ hallowed _))
      · split
        · rename_i heq
          exact .inr (.inr (heq ▸ hallowed _))
        · rename_i htmp
          rw [hmade, if_neg htmp]
          exact (adds loc).imp_right .inl

theorem fileWrite_confined_tmp :
    (fileWrite someWorld {} (utf16 "/tmp/d/b") (utf16 "y")).2.node [utf16 "tmp"] =
        someTree.node [utf16 "tmp"] ∨
      ([utf16 "tmp"] <+: dirNames [] (utf16 "/tmp/d/b") ∧ someTree.node [utf16 "tmp"] = none ∧
        (fileWrite someWorld {} (utf16 "/tmp/d/b") (utf16 "y")).2.node [utf16 "tmp"] =
          some .dir) ∨
      isAllowed (absText posix [utf16 "tmp"]) = true :=
  @fileWrite_confined someWorld {} (utf16 "/tmp/d/b") (utf16 "y") (plain_someTree _) [utf16 "tmp"]

/-! A link to a directory that is not allowed: a file in it is not read, and a new one is made. -/

def linkedWorld : FileWorld where
  tree := ((someTree.put? [] (utf16 "root") .dir).bind fun tree =>
    tree.put? [utf16 "tmp"] (utf16 "l") (.link (utf16 "/root"))).getD someTree
  cwd := [utf16 "tmp"]
  inDir := isDir_iff.mp (by decide +kernel)
  size _ := 1
  entries _ := []

example : (fileWrite linkedWorld {} (utf16 "/tmp/l/k") (utf16 "y")).1 =
      .written (utf16 "/tmp/l/k") 1 ∧
    ((fileWrite linkedWorld {} (utf16 "/tmp/l/k") (utf16 "y")).2.node
      [utf16 "root", utf16 "k"]).isSome = true ∧
    isAllowed (absText posix [utf16 "root", utf16 "k"]) = false := by
  decide +kernel

theorem lines_eq_splitOn (text : JsString) : lines text = text.splitOn 10 := by
  induction text with
  | nil => rfl
  | cons a text ih =>
    obtain ⟨line, rest, hlines, hcons⟩ := lines_cons a text
    rw [hcons, List.splitOn_cons_eq_if_modifyHead, ← ih, hlines]
    by_cases ha : a = 10 <;> simp [ha]

def laterWorld : FileWorld where
  tree := (fileWrite someWorld {} (utf16 "/tmp/d/b") (utf16 "y")).2
  cwd := [utf16 "tmp"]
  inDir := isDir_iff.mp (by decide +kernel)
  size _ := 1
  entries _ := []

end Writing

end OsModa.Bridge
