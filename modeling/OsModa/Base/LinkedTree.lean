import OsModa.Base.LexicalPath

/-!
A tree of files with symbolic links, and what a path leads to in it.

A location is the list of the names from the root on, none of them a link, so that every file has
one. A path is walked name by name, and a link that is met puts its target in front of the names
that are left. Names that stand for the directory they are met in can be left out of a path
(`walk_thinned`), which is what resolving a path lexically does as long as it does not go up.
-/

namespace OsModa.Path

universe u v

inductive Node (α : Type u) (β : Type v) where
  | dir
  | file (content : β)
  /-- A link, with the path that it stands for. -/
  | link (target : List α)

/-- What is at each location. Only a directory has anything below it, under a name that can be
written in a path. -/
structure LinkedTree {α : Type u} (syn : PathSyntax α) (β : Type v) where
  node : List (List α) → Option (Node α β)
  root : node [] = some .dir
  parent : ∀ p n, node (p ++ [n]) ≠ none → node p = some .dir
  ordinary : ∀ p n, node (p ++ [n]) ≠ none → syn.Ordinary n ∧ syn.separator ∉ n

namespace LinkedTree

open PathSyntax

variable {α : Type u} {β : Type v} {syn : PathSyntax α} {t : LinkedTree syn β}
  {place loc p : List (List α)} {names names' : List (List α)} {n : List α}

/-! ### Names that can be left out -/

variable (syn) in
/-- Names, some of those left out that stand for the directory they are met in. -/
inductive Thinned : List (List α) → List (List α) → Prop where
  | nil : Thinned [] []
  | keep {n : List α} {names names' : List (List α)} (rest : Thinned names names') :
      Thinned (n :: names) (n :: names')
  | drop {n : List α} {names names' : List (List α)} (here : n = [] ∨ n = syn.here)
      (rest : Thinned names names') : Thinned (n :: names) names'

theorem Thinned.append_left (before : List (List α)) (h : Thinned syn names names') :
    Thinned syn (before ++ names) (before ++ names') := by
  induction before with
  | nil => exact h
  | cons n before ih => exact .keep ih

/-- Everything on the way to a location is a directory. -/
theorem node_of_append (h : t.node (p ++ names) ≠ none) (hnames : names ≠ []) :
    t.node p = some .dir := by
  induction names using List.reverseRecOn with
  | nil => exact absurd rfl hnames
  | append_singleton names n ih =>
    rw [← List.append_assoc] at h
    have hdir := t.parent _ n h
    rcases eq_or_ne names [] with rfl | hne
    · rwa [List.append_nil] at hdir
    · exact ih (by rw [hdir]; exact Option.some_ne_none _) hne

theorem ordinary_of_node (h : t.node p ≠ none) (hn : n ∈ p) :
    syn.Ordinary n ∧ syn.separator ∉ n := by
  obtain ⟨above, below, rfl⟩ := List.append_of_mem hn
  rw [List.append_cons] at h
  refine t.ordinary above n ?_
  rcases eq_or_ne below [] with rfl | hne
  · rwa [List.append_nil] at h
  · rw [node_of_append h hne]
    exact Option.some_ne_none _

variable (syn) in
/-- A location as an absolute path. -/
def absText (loc : List (List α)) : List α :=
  if loc = [] then [syn.separator] else syn.write true loc false

theorem absText_eq (hne : names ≠ []) : absText syn names = names.flatMap (syn.separator :: ·) := by
  rw [absText, if_neg hne, write, pieces, if_pos rfl, if_neg Bool.false_ne_true, List.append_nil,
    List.singleton_append, intercalate_cons, List.nil_append]

theorem absText_append (hne : names ≠ []) (n : List α) :
    absText syn (names ++ [n]) = absText syn names ++ syn.separator :: n := by
  rw [absText_eq (by simp), absText_eq hne, List.flatMap_append, List.flatMap_singleton]

theorem absText_ne_nil : absText syn names ≠ [] := by
  rcases eq_or_ne names [] with rfl | hne
  · exact List.cons_ne_nil _ _
  · obtain ⟨n, ns, rfl⟩ := List.exists_cons_of_ne_nil hne
    rw [absText_eq hne]
    exact List.cons_ne_nil _ _

/-- There is a directory. -/
def isDir : Option (Node α β) → Bool
  | some .dir => true
  | _ => false

theorem isDir_iff {node : Option (Node α β)} : isDir node = true ↔ node = some .dir := by
  unfold isDir
  split
  · exact iff_of_true rfl rfl
  · rename_i hne
    exact iff_of_false Bool.false_ne_true hne

/-- Directories are all that differs, where nothing was, on the way to a location. -/
def AddsDirs (t t' : LinkedTree syn β) (loc : List (List α)) : Prop :=
  ∀ loc', t'.node loc' = t.node loc' ∨
    loc' <+: loc ∧ t.node loc' = none ∧ t'.node loc' = some .dir

theorem AddsDirs.trans {t₁ t₂ : LinkedTree syn β} (h : AddsDirs t t₁ loc) (h' : AddsDirs t₁ t₂ loc) :
    AddsDirs t t₂ loc := by
  intro loc'
  rcases h loc' with hsame | ⟨hinitial, hnone, hdir⟩
  · rw [← hsame]
    exact h' loc'
  · refine .inr ⟨hinitial, hnone, ?_⟩
    rcases h' loc' with hsame | ⟨-, hnone', -⟩
    · exact hsame.trans hdir
    · rw [hdir] at hnone'
      cases hnone'

theorem AddsDirs.not_link {t' : LinkedTree syn β} {loc' : List (List α)} {target : List α}
    (h : AddsDirs t t' loc) (hlink : t.node loc' ≠ some (.link target)) :
    t'.node loc' ≠ some (.link target) := by
  rcases h loc' with hsame | ⟨-, -, hdir⟩
  · rwa [hsame]
  · rw [hdir]
    exact fun heq => by cases heq

section Walking

variable [DecidableEq α]

variable (syn) in
/-- The names that do not stand for the directory they are met in. -/
def kept (names : List (List α)) : List (List α) :=
  names.filter fun n => decide (n ≠ [] ∧ n ≠ syn.here)

theorem kept_cons_of_here (h : n = [] ∨ n = syn.here) : kept syn (n :: names) = kept syn names :=
  List.filter_cons_of_neg (by simpa [imp_iff_not_or] using h)

theorem kept_cons (h : ¬ (n = [] ∨ n = syn.here)) : kept syn (n :: names) = n :: kept syn names :=
  List.filter_cons_of_pos (by simpa [not_or] using h)

theorem kept_append (names names' : List (List α)) :
    kept syn (names ++ names') = kept syn names ++ kept syn names' :=
  List.filter_append names names'

theorem kept_eq_self (h : ∀ n ∈ names, syn.Ordinary n) : kept syn names = names :=
  List.filter_eq_self.mpr fun n hn => decide_eq_true ⟨(h n hn).nonempty, (h n hn).notHere⟩

theorem thinned_kept (names : List (List α)) : Thinned syn names (kept syn names) := by
  induction names with
  | nil => exact .nil
  | cons n names ih =>
    by_cases hhere : n = [] ∨ n = syn.here
    · rw [kept_cons_of_here hhere]
      exact .drop hhere ih
    · rw [kept_cons hhere]
      exact .keep ih

/-! ### Walking -/

variable (t) in
/-- Walk the names from a directory, up to the first link. `missing` is what a last name that is
not there leads to. -/
def walkWith (missing : List (List α) → Option (List (List α)))
    (follow : List (List α) → List (List α) → Option (List (List α))) :
    List (List α) → List (List α) → Option (List (List α))
  | place, [] => some place
  | place, n :: names =>
    if n = [] ∨ n = syn.here then walkWith missing follow place names
    else if n = syn.up then walkWith missing follow place.dropLast names
    else match t.node (place ++ [n]) with
    | none => if names = [] then missing (place ++ [n]) else none
    | some .dir => walkWith missing follow (place ++ [n]) names
    | some (.file _) => if names = [] then some (place ++ [n]) else none
    | some (.link target) =>
      if target = [] then none
      else follow (if target.head? = some syn.separator then [] else place)
        (target.splitOn syn.separator ++ names)

variable (t) in
/-- The location that the names lead to from a directory, through a bounded number of links. -/
def walk (missing : List (List α) → Option (List (List α))) :
    Nat → List (List α) → List (List α) → Option (List (List α))
  | 0 => t.walkWith missing fun _ _ => none
  | links + 1 => t.walkWith missing (walk missing links)

/-- What a path leads to, it still leads to without such names. -/
theorem walkWith_thinned {missing : List (List α) → Option (List (List α))}
    {follow : List (List α) → List (List α) → Option (List (List α))}
    (hfollow : ∀ {place names names'}, Thinned syn names names' →
      follow place names = some loc → follow place names' = some loc)
    (hthin : Thinned syn names names')
    (h : t.walkWith missing follow place names = some loc) :
    t.walkWith missing follow place names' = some loc := by
  induction hthin generalizing place with
  | nil => exact h
  | drop hhere rest ih =>
    rw [walkWith, if_pos hhere] at h
    exact ih h
  | @keep n names names' rest ih =>
    -- A file ends the path, so no names are left to leave out.
    have hends : names = [] → names' = [] := by
      rintro rfl
      cases rest
      rfl
    rw [walkWith] at h ⊢
    split at h
    · rename_i hhere
      rw [if_pos hhere]
      exact ih h
    · rename_i hhere
      rw [if_neg hhere]
      split at h
      · rename_i hup
        rw [if_pos hup]
        exact ih h
      · rename_i hup
        rw [if_neg hup]
        split at h
        · split at h
          · rename_i hlast
            rwa [if_pos (hends hlast)]
          · cases h
        · exact ih h
        · split at h
          · rename_i hlast
            rwa [if_pos (hends hlast)]
          · cases h
        · split at h
          · cases h
          · rename_i htarget
            rw [if_neg htarget]
            exact hfollow (rest.append_left _) h

theorem walk_thinned {missing : List (List α) → Option (List (List α))} {links : Nat}
    (hthin : Thinned syn names names') (h : t.walk missing links place names = some loc) :
    t.walk missing links place names' = some loc := by
  induction links generalizing place names names' with
  | zero => exact walkWith_thinned (fun _ hnone => by cases hnone) hthin h
  | succ links ih => exact walkWith_thinned (fun hthin' h' => ih hthin' h') hthin h

/-! ### Locations -/

theorem walk_cons_empty {missing : List (List α) → Option (List (List α))} {links : Nat} :
    t.walk missing links place ([] :: names) = t.walk missing links place names := by
  cases links <;> rw [walk, walkWith, if_pos (.inl rfl)]

/-- Directories are walked into. -/
theorem walk_append_dirs {missing : List (List α) → Option (List (List α))} {links : Nat}
    (hup : syn.up ∉ p) (h : t.node (place ++ kept syn p) = some .dir) :
    t.walk missing links place (p ++ names) = t.walk missing links (place ++ kept syn p) names := by
  have hsome : ∀ {loc}, t.node loc = some .dir → t.node loc ≠ none := fun hloc => by
    rw [hloc]
    exact Option.some_ne_none _
  induction p generalizing place with
  | nil => rw [List.nil_append, kept, List.filter_nil, List.append_nil]
  | cons n p ih =>
    obtain ⟨hn, hrest⟩ := not_or.mp (mt List.mem_cons.mpr hup)
    by_cases hhere : n = [] ∨ n = syn.here
    · rw [kept_cons_of_here hhere] at h ⊢
      rw [← ih hrest h, List.cons_append]
      cases links <;> rw [walk, walkWith, if_pos hhere]
    · have happend : place ++ kept syn (n :: p) = place ++ [n] ++ kept syn p := by
        rw [kept_cons hhere, List.append_assoc, List.singleton_append]
      rw [happend] at h ⊢
      have hdir : t.node (place ++ [n]) = some .dir := by
        rcases eq_or_ne (kept syn p) [] with hnil | hne
        · rwa [hnil, List.append_nil] at h
        · exact node_of_append (hsome h) hne
      rw [← ih hrest h, List.cons_append]
      cases links <;> rw [walk, walkWith, if_neg hhere, if_neg (Ne.symm hn), hdir]

/-- A file that is there is what its name leads to. -/
theorem walk_file {missing : List (List α) → Option (List (List α))} {links : Nat} {content : β}
    (h : t.node (place ++ [n]) = some (.file content)) :
    t.walk missing links place [n] = some (place ++ [n]) := by
  obtain ⟨hordinary, -⟩ := t.ordinary place n (by rw [h]; exact Option.some_ne_none _)
  cases links <;> rw [walk, walkWith, if_neg (not_or.mpr ⟨hordinary.nonempty, hordinary.notHere⟩),
    if_neg hordinary.notUp, h] <;> rfl

/-- Where no link is met and nothing goes up, a path leads to the location that it names. -/
theorem walkWith_plain {missing : List (List α) → Option (List (List α))}
    {follow : List (List α) → List (List α) → Option (List (List α))}
    (hmissing : ∀ l l', missing l = some l' → l' = l)
    (hnames : ∀ n ∈ names, syn.Ordinary n)
    (hplain : ∀ q, q <+: names → ∀ target, t.node (place ++ q) ≠ some (.link target))
    (h : t.walkWith missing follow place names = some loc) : loc = place ++ names := by
  induction names generalizing place with
  | nil =>
    rw [walkWith] at h
    rw [List.append_nil, Option.some.inj h]
  | cons n names ih =>
    obtain ⟨hordinary, hrest⟩ := List.forall_mem_cons.mp hnames
    have happend : place ++ n :: names = place ++ [n] ++ names := by simp
    rw [walkWith, if_neg (not_or.mpr ⟨hordinary.nonempty, hordinary.notHere⟩),
      if_neg hordinary.notUp] at h
    rw [happend]
    split at h
    · split at h
      · rename_i hlast
        rw [hlast, List.append_nil]
        exact hmissing _ _ h
      · cases h
    · refine ih hrest (fun q hq target => ?_) h
      have hprefix := hplain (n :: q) ((List.prefix_cons_inj n).mpr hq) target
      rwa [show place ++ n :: q = place ++ [n] ++ q by simp] at hprefix
    · split at h
      · rename_i hlast
        rw [hlast, List.append_nil]
        exact (Option.some.inj h).symm
      · cases h
    · rename_i target hnode
      exact absurd hnode (hplain [n] (by simp) target)

theorem walk_plain {missing : List (List α) → Option (List (List α))} {links : Nat}
    (hmissing : ∀ l l', missing l = some l' → l' = l)
    (hnames : ∀ n ∈ names, syn.Ordinary n)
    (hplain : ∀ q, q <+: names → ∀ target, t.node (place ++ q) ≠ some (.link target))
    (h : t.walk missing links place names = some loc) : loc = place ++ names := by
  cases links <;> exact walkWith_plain hmissing hnames hplain h

/-! ### The text of a location -/

/-- The text of a location leads there as its names do. -/
theorem walk_absText {missing : List (List α) → Option (List (List α))} {links : Nat}
    (hnames : ∀ n ∈ names, n ≠ [] ∧ syn.separator ∉ n) :
    t.walk missing links [] ((absText syn names).splitOn syn.separator) =
      t.walk missing links [] names := by
  unfold absText
  split
  · rename_i hroot
    have hsplit : [syn.separator].splitOn syn.separator = [[], []] := by
      simp [List.splitOn_cons_eq_if_modifyHead]
    rw [hroot, hsplit, walk_cons_empty, walk_cons_empty]
  · rename_i hne
    have hwritable : Writable syn.separator names :=
      { first := by
          obtain ⟨n, ns, rfl⟩ := List.exists_cons_of_ne_nil hne
          exact ⟨n, ns, (hnames n List.mem_cons_self).1, rfl⟩
        last := ⟨names.dropLast, names.getLast hne, (hnames _ (List.getLast_mem hne)).1,
          (List.dropLast_append_getLast hne).symm⟩
        free := fun n hn => (hnames n hn).2 }
    rw [splitOn_write hwritable, pieces, if_pos rfl, if_neg Bool.false_ne_true, List.append_nil,
      List.singleton_append, walk_cons_empty]

theorem foldl_step (hup : syn.up ∉ names) (absolute : Bool) (above : List (List α)) :
    names.foldl (syn.step absolute) above =
      (kept syn names).reverse ++ above := by
  induction names generalizing above with
  | nil => rfl
  | cons n names ih =>
    obtain ⟨hn, hrest⟩ := not_or.mp (mt List.mem_cons.mpr hup)
    rw [List.foldl_cons, ih hrest, step]
    by_cases hhere : n = [] ∨ n = syn.here
    · rw [if_pos hhere, kept_cons_of_here hhere]
    · rw [if_neg hhere, if_neg (Ne.symm hn), kept_cons hhere, List.reverse_cons,
        List.append_assoc, List.singleton_append]

/-- Without a name that goes up, resolving lexically only leaves names out. -/
theorem resolve_eq_kept (hup : syn.up ∉ names) (absolute : Bool) :
    syn.resolve absolute names = kept syn names := by
  rw [PathSyntax.resolve, foldl_step hup, List.append_nil, List.reverse_reverse]

/-! ### Changing the tree -/

variable (syn) in
/-- A name that a directory can have something under. -/
def IsName (n : List α) : Bool := n ≠ [] && n ≠ syn.here && n ≠ syn.up && !n.contains syn.separator

theorem isName_iff : IsName syn n = true ↔ syn.Ordinary n ∧ syn.separator ∉ n := by
  simp only [IsName, Bool.and_eq_true, decide_eq_true_iff, Bool.not_eq_true', List.contains_eq_mem,
    decide_eq_false_iff_not]
  exact ⟨fun ⟨⟨⟨h, h'⟩, h''⟩, hfree⟩ => ⟨⟨h, h', h''⟩, hfree⟩,
    fun ⟨⟨h, h', h''⟩, hfree⟩ => ⟨⟨⟨h, h'⟩, h''⟩, hfree⟩⟩

variable (t) in
/-- Put a node in a directory, in place of what is there unless that is a directory. -/
def put? (d : List (List α)) (n : List α) (new : Node α β) : Option (LinkedTree syn β) :=
  if h : isDir (t.node d) = true ∧ IsName syn n = true ∧ isDir (t.node (d ++ [n])) = false then some
    { node := fun loc => if loc = d ++ [n] then some new else t.node loc
      root := by rw [if_neg (by simp), t.root]
      parent := fun p m hsome => by
        have hparent : t.node p = some .dir := by
          split at hsome
          · rename_i heq
            rw [(List.append_inj' heq rfl).1]
            exact isDir_iff.mp h.1
          · exact t.parent p m hsome
        rw [if_neg, hparent]
        rintro rfl
        rw [hparent] at h
        exact absurd h.2.2 (by simp [isDir])
      ordinary := fun p m hsome => by
        split at hsome
        · rename_i heq
          rw [List.singleton_inj.mp (List.append_inj' heq rfl).2]
          exact isName_iff.mp h.2.1
        · exact t.ordinary p m hsome }
  else none

theorem node_put? {t' : LinkedTree syn β} {d : List (List α)} {new : Node α β}
    (h : t.put? d n new = some t') (loc : List (List α)) :
    t'.node loc = if loc = d ++ [n] then some new else t.node loc := by
  unfold put? at h
  split at h
  · rw [← Option.some.inj h]
  · cases h

theorem dir_of_put? {t' : LinkedTree syn β} {d : List (List α)} {new : Node α β}
    (h : t.put? d n new = some t') : t.node d = some .dir := by
  unfold put? at h
  split at h
  · rename_i hput
    exact isDir_iff.mp hput.1
  · cases h

variable (t) in
/-- Take what is no directory out of the tree. -/
def remove (loc : List (List α)) (h : isDir (t.node loc) = false) : LinkedTree syn β where
  node loc' := if loc' = loc then none else t.node loc'
  root := by
    rw [if_neg, t.root]
    rintro rfl
    rw [t.root] at h
    cases h
  parent p m hsome := by
    split at hsome
    · exact absurd rfl hsome
    · have hparent := t.parent p m hsome
      rw [if_neg, hparent]
      rintro rfl
      rw [hparent] at h
      cases h
  ordinary p m hsome := by
    split at hsome
    · exact absurd rfl hsome
    · exact t.ordinary p m hsome

variable (t) in
/-- Move what is no directory to another name in its directory. -/
def rename? (d : List (List α)) (n n' : List α) : Option (LinkedTree syn β) :=
  if h : isDir (t.node (d ++ [n])) = false then
    (t.node (d ++ [n])).bind fun moved => (t.remove (d ++ [n]) h).put? d n' moved
  else none

theorem node_rename? {t' : LinkedTree syn β} {d : List (List α)} {n' : List α}
    (h : t.rename? d n n' = some t') (loc : List (List α)) :
    t'.node loc = if loc = d ++ [n'] then t.node (d ++ [n])
      else if loc = d ++ [n] then none else t.node loc := by
  unfold rename? at h
  split at h
  · obtain ⟨moved, hmoved, hput⟩ := Option.bind_eq_some_iff.mp h
    rw [node_put? hput, hmoved]
    rfl
  · cases h

/-! ### Making directories -/

variable (t) in
/-- Make a directory, unless the path leads to one. -/
def mkdir? (links : Nat) (place above : List (List α)) (n : List α) :
    Option (LinkedTree syn β) :=
  (t.walk (fun _ => none) links place above).bind fun d =>
    match t.node (d ++ [n]) with
    | none => t.put? d n .dir
    | some _ =>
      if isDir ((t.walk (fun _ => none) links place (above ++ [n])).bind t.node) then some t else none

/-- Make the directories of a path, each in the one before it, until one is refused. -/
def mkdirs (refused : List (List α) → Bool) (links : Nat) (place : List (List α))
    (t : LinkedTree syn β) (above : List (List α)) : List (List α) → Bool × LinkedTree syn β
  | [] => (true, t)
  | n :: names =>
    if n = [] ∨ n = syn.here then mkdirs refused links place t above names
    else if n = syn.up then mkdirs refused links place t (above ++ [n]) names
    else if refused (above ++ [n]) then (false, t)
    else match t.mkdir? links place above n with
    | none => (false, t)
    | some t' => mkdirs refused links place t' (above ++ [n]) names

/-- Where no link is met and nothing goes up, only directories of the path are made. -/
theorem mkdirs_plain (refused : List (List α) → Bool) (links : Nat) (above : List (List α))
    {dest : List (List α)}
    (habove : ∀ n ∈ above, syn.Ordinary n) (hup : syn.up ∉ names)
    (hdest : place ++ above ++ kept syn names <+: dest)
    (hplain : ∀ q, place ++ q <+: dest → ∀ target, t.node (place ++ q) ≠ some (.link target)) :
    AddsDirs t (mkdirs refused links place t above names).2 dest := by
  induction names generalizing t above with
  | nil => exact fun _ => .inl rfl
  | cons n names ih =>
    obtain ⟨hn, hrest⟩ := not_or.mp (mt List.mem_cons.mpr hup)
    rw [mkdirs]
    split
    · rename_i hhere
      rw [kept_cons_of_here hhere] at hdest
      exact ih above habove hrest hdest hplain
    · rename_i hhere
      rw [kept_cons hhere] at hdest
      have hhere' := not_or.mp hhere
      rw [if_neg (Ne.symm hn)]
      split
      · exact fun _ => .inl rfl
      · split
        · exact fun _ => .inl rfl
        · rename_i t' hmkdir
          have hnext : place ++ (above ++ [n]) <+: dest := by
            refine List.IsPrefix.trans ⟨kept syn names, ?_⟩ hdest
            simp
          have hadds : AddsDirs t t' dest := by
            obtain ⟨d, hwalk, hmade⟩ := Option.bind_eq_some_iff.mp hmkdir
            obtain rfl := walk_plain (fun _ _ h => by cases h) habove (fun q hq target =>
              hplain q (((List.prefix_append_right_inj place).mpr
                (hq.trans (List.prefix_append _ _))).trans hnext) target) hwalk
            split at hmade
            · rename_i hfree
              intro loc'
              rw [node_put? hmade]
              split
              · rename_i heq
                subst heq
                exact .inr ⟨by rwa [List.append_assoc], hfree, rfl⟩
              · exact .inl rfl
            · split at hmade
              · rw [← Option.some.inj hmade]
                exact fun _ => .inl rfl
              · cases hmade
          refine hadds.trans (ih (above ++ [n]) ?_ hrest ?_ fun q hq target =>
            hadds.not_link (hplain q hq target))
          · intro m hm
            rcases List.mem_append.mp hm with hm | hm
            · exact habove m hm
            · obtain rfl := List.mem_singleton.mp hm
              exact ⟨hhere'.1, hhere'.2, Ne.symm hn⟩
          · rwa [← List.append_assoc, List.append_assoc, List.singleton_append]

end Walking

end LinkedTree

end OsModa.Path
