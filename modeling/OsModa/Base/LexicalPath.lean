import Mathlib.Data.List.Chain
import Mathlib.Data.List.Infix

/-!
What a path denotes lexically.

Two paths denote the same file lexically when they are equal after runs of separators have
been collapsed and `.` and `..` resolved. A separator at the end stays, and a relative path
keeps the `..` that it starts with. A path that is resolved stays as it is
(`resolve_resolve`), and a detour through a name and back changes nothing (`resolve_detour`).
-/

namespace OsModa.Path

universe u

/-- The symbol between the names of a path, and the dot. -/
structure PathSyntax (α : Type u) where
  separator : α
  dot : α
  ne : separator ≠ dot

/-- What a path denotes: the names that are left of it, from the root or not, and whether a
separator follows. -/
structure Lexical (α : Type u) where
  absolute : Bool
  names : List (List α)
  trailing : Bool
  deriving DecidableEq

namespace PathSyntax

variable {α : Type u} (syn : PathSyntax α)

def here : List α := [syn.dot]

def up : List α := [syn.dot, syn.dot]

/-! ### Resolved names -/

/-- A name that is neither empty nor one of the two that are resolved. -/
structure Ordinary (name : List α) : Prop where
  nonempty : name ≠ []
  notHere : name ≠ syn.here
  notUp : name ≠ syn.up

/-- Resolved names, the last one first: ordinary ones over the `..` of a relative path. -/
inductive Stack (absolute : Bool) : List (List α) → Prop where
  | nil : Stack absolute []
  | name {n : List α} {ns : List (List α)} (ordinary : syn.Ordinary n) (rest : Stack absolute ns) :
      Stack absolute (n :: ns)
  | up {ns : List (List α)} (relative : absolute = false) (ups : ∀ n ∈ ns, n = syn.up)
      (rest : Stack absolute ns) : Stack absolute (syn.up :: ns)

variable {syn} {absolute : Bool} {above names : List (List α)} {name : List α}

theorem Stack.tail {top : List α} (h : syn.Stack absolute (top :: above)) :
    syn.Stack absolute above := by
  cases h with
  | name _ rest => exact rest
  | up _ _ rest => exact rest

theorem Stack.ne_nil (h : syn.Stack absolute above) : ∀ n ∈ above, n ≠ [] := by
  induction h with
  | nil => exact fun _ hn => absurd hn List.not_mem_nil
  | name ordinary _ ih => exact List.forall_mem_cons.mpr ⟨ordinary.nonempty, ih⟩
  | up _ _ _ ih => exact List.forall_mem_cons.mpr ⟨List.cons_ne_nil _ _, ih⟩

/-! ### Names between separators -/

theorem intercalate_cons (sep : α) (n : List α) (ns : List (List α)) :
    [sep].intercalate (n :: ns) = n ++ ns.flatMap (sep :: ·) := by
  induction ns generalizing n with
  | nil => simp
  | cons m ns ih =>
    rw [List.intercalate_cons_cons, ih, List.flatMap_cons, List.append_assoc,
      List.singleton_append, List.cons_append]

/-- A name stands between what comes before it and what comes after. -/
theorem intercalate_append_cons (sep : α) (before : List (List α)) (n : List α)
    (after : List (List α)) :
    [sep].intercalate (before ++ n :: after) =
      before.flatMap (· ++ [sep]) ++ (n ++ after.flatMap (sep :: ·)) := by
  induction before with
  | nil => exact intercalate_cons sep n after
  | cons m before ih =>
    obtain ⟨next, rest, hnext⟩ := List.exists_cons_of_ne_nil
      (List.append_ne_nil_of_right_ne_nil before (List.cons_ne_nil n after))
    rw [hnext] at ih
    rw [List.cons_append, hnext, List.intercalate_cons_cons, ih, List.flatMap_cons]
    simp only [List.append_assoc]

/-! ### Writing a path -/

/-- The names between separators, behind the root or not, and with a separator at the end or
not. -/
def pieces (absolute : Bool) (names : List (List α)) (trailing : Bool) : List (List α) :=
  (if absolute then [[]] else []) ++ (names ++ if trailing then [[]] else [])

variable (syn) in
def write (absolute : Bool) (names : List (List α)) (trailing : Bool) : List α :=
  [syn.separator].intercalate (pieces absolute names trailing)

/-- Names that can be written between separators, the first and the last not empty. -/
structure Writable (sep : α) (names : List (List α)) : Prop where
  first : ∃ n ns, n ≠ [] ∧ names = n :: ns
  last : ∃ ns n, n ≠ [] ∧ names = ns ++ [n]
  free : ∀ n ∈ names, sep ∉ n

section Writing

variable {trailing : Bool}

theorem head_write (h : Writable syn.separator names) :
    (syn.write absolute names trailing).head? = some syn.separator ↔ absolute = true := by
  obtain ⟨n, ns, hne, rfl⟩ := h.first
  cases absolute with
  | true =>
    refine iff_of_true ?_ rfl
    rw [write, pieces, if_pos rfl, List.singleton_append, intercalate_cons]
    rfl
  | false =>
    refine iff_of_false (fun hhead => ?_) Bool.false_ne_true
    rw [write, pieces, if_neg Bool.false_ne_true, List.nil_append, List.cons_append,
      intercalate_cons, List.head?_append_of_ne_nil _ hne] at hhead
    exact h.free n List.mem_cons_self (List.mem_of_mem_head? hhead)

theorem getLast_write (h : Writable syn.separator names) :
    (syn.write absolute names trailing).getLast? = some syn.separator ↔ trailing = true := by
  obtain ⟨ns, n, hne, rfl⟩ := h.last
  rw [write, pieces]
  cases trailing with
  | true =>
    refine iff_of_true ?_ rfl
    rw [if_pos rfl, ← List.append_assoc, intercalate_append_cons, ← List.append_assoc,
      List.flatMap_append]
    simp
  | false =>
    refine iff_of_false (fun hend => ?_) Bool.false_ne_true
    rw [if_neg Bool.false_ne_true, List.append_nil, ← List.append_assoc, intercalate_append_cons,
      List.flatMap_nil, List.append_nil, List.getLast?_append_of_ne_nil _ hne] at hend
    exact h.free n (List.mem_append_right _ List.mem_cons_self) (List.mem_of_mem_getLast? hend)

theorem filter_pieces :
    (pieces absolute names trailing).filter (· ≠ []) = names.filter (· ≠ []) := by
  cases absolute <;> cases trailing <;> simp [pieces]

end Writing

variable (syn) in
/-- The names that are left, or `.` where none is. -/
def shown (file : Lexical α) : List (List α) := if file.names = [] then [syn.here] else file.names

theorem shown_ne_nil {file : Lexical α} : syn.shown file ≠ [] := by
  unfold shown
  split
  · exact List.cons_ne_nil _ _
  · assumption

variable (syn) in
/-- Two separators between any two names. -/
def spread (file : Lexical α) : List α :=
  syn.write file.absolute ((syn.shown file).intersperse []) file.trailing

variable (syn) in
/-- Through a directory of that name and back, before anything else. -/
def detour (name : List α) (file : Lexical α) : List α :=
  syn.write file.absolute (name :: syn.up :: syn.shown file) file.trailing

theorem infix_detour (file : Lexical α) : name <:+: syn.detour name file := by
  rw [detour, write, pieces, List.cons_append, intercalate_append_cons]
  exact ⟨_, _, by rw [List.append_assoc]⟩

/-- What is shown beside `.` is a name that is left. -/
theorem names_of_shown {file : Lexical α} {n : List α} (h : n ∈ syn.shown file)
    (hn : n ≠ syn.here) : syn.shown file = file.names := by
  unfold shown at h ⊢
  split at h
  · exact absurd (List.mem_singleton.mp h) hn
  · rename_i hnames
    exact if_neg hnames

/-! ### Names between empty ones -/

theorem head_intersperse (n : List α) (ns : List (List α)) :
    ∃ rest, (n :: ns).intersperse [] = n :: rest := by
  cases ns with
  | nil => exact ⟨[], rfl⟩
  | cons m ns => exact ⟨_, List.intersperse_cons_cons⟩

theorem getLast_intersperse (ns : List (List α)) (n : List α) :
    ∃ rest, (ns ++ [n]).intersperse [] = rest ++ [n] := by
  induction ns with
  | nil => exact ⟨[], rfl⟩
  | cons m ns ih =>
    obtain ⟨rest, hrest⟩ := ih
    obtain ⟨k, ks, hk⟩ := List.exists_cons_of_ne_nil
      (List.append_ne_nil_of_right_ne_nil ns (List.cons_ne_nil n []))
    rw [hk] at hrest
    rw [List.cons_append, hk, List.intersperse_cons_cons, hrest]
    exact ⟨m :: [] :: rest, rfl⟩

theorem filter_intersperse {ns : List (List α)} (h : ∀ n ∈ ns, n ≠ []) :
    (ns.intersperse []).filter (· ≠ []) = ns := by
  induction ns with
  | nil => rfl
  | cons n ns ih =>
    obtain ⟨hn, hns⟩ := List.forall_mem_cons.mp h
    cases ns with
    | nil => simp [hn]
    | cons m ns =>
      rw [List.intersperse_cons_cons, List.filter_cons_of_pos (by simpa using hn),
        List.filter_cons_of_neg (by simp), ih hns]

/-- Of two neighbours one is empty. -/
theorem isChain_intersperse (ns : List (List α)) :
    (ns.intersperse []).IsChain fun n m => n = [] ∨ m = [] := by
  induction ns with
  | nil => exact .nil
  | cons n ns ih =>
    cases ns with
    | nil => exact .singleton _
    | cons m ns =>
      obtain ⟨rest, hrest⟩ := head_intersperse m ns
      rw [hrest] at ih
      rw [List.intersperse_cons_cons, hrest, List.isChain_cons_cons, List.isChain_cons_cons]
      exact ⟨.inr rfl, .inl rfl, ih⟩

theorem mem_intersperse {ns : List (List α)} {n : List α} (h : n ∈ ns.intersperse []) :
    n = [] ∨ n ∈ ns := by
  induction ns with
  | nil => cases h
  | cons m ns ih =>
    cases ns with
    | nil => exact .inr h
    | cons k ns =>
      rw [List.intersperse_cons_cons] at h
      rcases List.mem_cons.mp h with rfl | h
      · exact .inr List.mem_cons_self
      · rcases List.mem_cons.mp h with rfl | h
        · exact .inl rfl
        · exact (ih h).imp_right (List.mem_cons_of_mem _)

theorem Writable.intersperse {sep : α} (h : Writable sep names) :
    Writable sep (names.intersperse []) where
  first := by
    obtain ⟨n, ns, hne, rfl⟩ := h.first
    obtain ⟨rest, hrest⟩ := head_intersperse n ns
    exact ⟨n, rest, hne, hrest⟩
  last := by
    obtain ⟨ns, n, hne, rfl⟩ := h.last
    obtain ⟨rest, hrest⟩ := getLast_intersperse ns n
    exact ⟨rest, n, hne, hrest⟩
  free n hn := by
    rcases mem_intersperse hn with rfl | hn
    · exact List.not_mem_nil
    · exact h.free n hn

/-! ### Resolving -/

section Resolving

variable [DecidableEq α]

variable (syn) in
/-- `..` leaves the last name, if there is one; a relative path may start above its place. -/
def leave (absolute : Bool) : List (List α) → List (List α)
  | [] => if absolute then [] else [syn.up]
  | top :: rest => if top = syn.up then syn.up :: top :: rest else rest

variable (syn) in
/-- The names so far, the last one first, after one more. -/
def step (absolute : Bool) (above : List (List α)) (name : List α) : List (List α) :=
  if name = [] ∨ name = syn.here then above
  else if name = syn.up then syn.leave absolute above
  else name :: above

variable (syn) in
def resolve (absolute : Bool) (names : List (List α)) : List (List α) :=
  (names.foldl (syn.step absolute) []).reverse

theorem step_ordinary (h : syn.Ordinary name) : syn.step absolute above name = name :: above := by
  rw [step, if_neg (not_or.mpr ⟨h.nonempty, h.notHere⟩), if_neg h.notUp]

theorem step_up : syn.step absolute above syn.up = syn.leave absolute above := by
  rw [step, if_neg (by simp [up, here]), if_pos rfl]

theorem Stack.leave (h : syn.Stack absolute above) :
    syn.Stack absolute (syn.leave absolute above) := by
  cases above with
  | nil =>
    cases absolute with
    | true => exact .nil
    | false => exact .up rfl (by simp) .nil
  | cons top rest =>
    rw [PathSyntax.leave]
    split
    · rename_i htop
      subst htop
      cases h with
      | name ordinary _ => exact absurd rfl ordinary.notUp
      | up relative ups rest =>
        exact .up relative (List.forall_mem_cons.mpr ⟨rfl, ups⟩) (.up relative ups rest)
    · exact h.tail

theorem Stack.step (h : syn.Stack absolute above) :
    syn.Stack absolute (syn.step absolute above name) := by
  unfold PathSyntax.step
  split
  · exact h
  · rename_i hkept
    obtain ⟨hne, hhere⟩ := not_or.mp hkept
    split
    · exact h.leave
    · rename_i hup
      exact .name ⟨hne, hhere, hup⟩ h

theorem Stack.foldl (h : syn.Stack absolute above) :
    syn.Stack absolute (names.foldl (syn.step absolute) above) := by
  induction names generalizing above with
  | nil => exact h
  | cons name names ih => exact ih h.step

/-- Resolved names are resolved to themselves. -/
theorem Stack.foldl_reverse (h : syn.Stack absolute above) :
    above.reverse.foldl (syn.step absolute) [] = above := by
  induction h with
  | nil => rfl
  | name ordinary _ ih =>
    rw [List.reverse_cons, List.foldl_append, ih]
    exact step_ordinary ordinary
  | @up ns relative ups _ ih =>
    rw [List.reverse_cons, List.foldl_append, ih, List.foldl_cons, List.foldl_nil, step_up]
    cases ns with
    | nil => rw [relative]; rfl
    | cons top rest => exact if_pos (ups top List.mem_cons_self)

theorem stack_resolve : syn.Stack absolute (syn.resolve absolute names).reverse := by
  rw [resolve, List.reverse_reverse]
  exact Stack.foldl .nil

theorem resolve_resolve :
    syn.resolve absolute (syn.resolve absolute names) = syn.resolve absolute names := by
  have h : syn.Stack absolute (syn.resolve absolute names).reverse := stack_resolve
  have hagain := h.foldl_reverse
  rw [List.reverse_reverse] at hagain
  rw [resolve, hagain, List.reverse_reverse]

theorem ne_nil_of_mem_resolve (h : name ∈ syn.resolve absolute names) : name ≠ [] :=
  stack_resolve.ne_nil name (List.mem_reverse.mpr h)

/-- Empty names make no difference. -/
theorem resolve_filter :
    syn.resolve absolute (names.filter (· ≠ [])) = syn.resolve absolute names := by
  suffices ∀ above, (names.filter (· ≠ [])).foldl (syn.step absolute) above =
      names.foldl (syn.step absolute) above from congrArg List.reverse (this [])
  induction names with
  | nil => exact fun _ => rfl
  | cons name names ih =>
    intro above
    by_cases hname : name = []
    · subst hname
      rw [List.filter_cons_of_neg (by simp), ih, List.foldl_cons, step, if_pos (.inl rfl)]
    · rw [List.filter_cons_of_pos (by simpa using hname), List.foldl_cons, List.foldl_cons, ih]

theorem resolve_here : syn.resolve absolute [syn.here] = [] := by
  rw [resolve, List.foldl_cons, List.foldl_nil, step, if_pos (.inr rfl), List.reverse_nil]

/-- Into a directory and out of it. -/
theorem resolve_detour (h : syn.Ordinary name) :
    syn.resolve absolute (name :: syn.up :: names) = syn.resolve absolute names := by
  rw [resolve, List.foldl_cons, List.foldl_cons, step_ordinary h, step_up]
  exact congrArg (fun start => (names.foldl (syn.step absolute) start).reverse) (if_neg h.notUp)

/-- Nothing is left but names of the path, in their order. -/
theorem resolve_sublist : (syn.resolve absolute names).Sublist names := by
  suffices ∀ above, (names.foldl (syn.step absolute) above).reverse.Sublist
      (above.reverse ++ names) from this []
  induction names with
  | nil => exact fun above => by rw [List.foldl_nil, List.append_nil]
  | cons name names ih =>
    intro above
    refine (ih (syn.step absolute above name)).trans ?_
    have hskip : (above.reverse ++ names).Sublist (above.reverse ++ name :: names) :=
      (List.Sublist.refl _).append (List.sublist_cons_self _ _)
    have hpush : ((name :: above).reverse ++ names) = above.reverse ++ name :: names := by
      rw [List.reverse_cons, List.append_assoc, List.singleton_append]
    unfold step
    split
    · exact hskip
    · split
      · rename_i hup
        subst hup
        cases above with
        | nil =>
          cases absolute with
          | true => exact hskip
          | false => exact hpush ▸ List.Sublist.refl _
        | cons top rest =>
          rw [leave]
          split
          · exact hpush ▸ List.Sublist.refl _
          · refine List.Sublist.trans ?_ hskip
            rw [List.reverse_cons]
            exact (List.sublist_append_left _ _).append (List.Sublist.refl _)
      · exact hpush ▸ List.Sublist.refl _

/-! ### Denoting -/

variable (syn) in
def lexical (path : List α) : Lexical α :=
  let absolute := decide (path.head? = some syn.separator)
  let names := syn.resolve absolute (path.splitOn syn.separator)
  -- The root has no names, and its one separator is not a second one at the end.
  ⟨absolute, names, decide (path.getLast? = some syn.separator) && !(absolute && names.isEmpty)⟩

variable (syn) in
/-- The paths denote the same file lexically. -/
def SameFile (p q : List α) : Prop := syn.lexical p = syn.lexical q

instance (p q : List α) : Decidable (syn.SameFile p q) :=
  inferInstanceAs (Decidable (syn.lexical p = syn.lexical q))

/-! ### Names in the text of a path -/

theorem not_mem_of_mem_splitOn {sep : α} {path n : List α} (h : n ∈ path.splitOn sep) :
    sep ∉ n := by
  induction path generalizing n with
  | nil =>
    obtain rfl : n = [] := by simpa using h
    exact List.not_mem_nil
  | cons a path ih =>
    obtain ⟨m, ms, hsplit⟩ := List.exists_cons_of_ne_nil (List.splitOn_ne_nil sep path)
    rw [hsplit] at ih
    rw [List.splitOn_cons_eq_if_modifyHead, hsplit] at h
    split at h
    · rcases List.mem_cons.mp h with rfl | h
      · exact List.not_mem_nil
      · exact ih h
    · rename_i ha
      rcases List.mem_cons.mp h with rfl | h
      · rw [List.mem_cons, not_or]
        exact ⟨fun hsep => ha (beq_iff_eq.mpr hsep.symm), ih List.mem_cons_self⟩
      · exact ih (List.mem_cons_of_mem _ h)

/-- A resolved name stands in the path, after a separator unless it is the first of a relative
path, and before one unless it is the last. -/
theorem exists_delimited {path : List α} {before after : List (List α)} {n : List α}
    (h : (syn.lexical path).names = before ++ n :: after) :
    ∃ x y, path = x ++ (n ++ y) ∧
      ((syn.lexical path).absolute = true ∨ before ≠ [] → ∃ x', x = x' ++ [syn.separator]) ∧
      ((syn.lexical path).trailing = true ∨ after ≠ [] → ∃ y', y = syn.separator :: y') := by
  have hmem : n ∈ (syn.lexical path).names := h ▸ List.mem_append_right _ List.mem_cons_self
  have hne : n ≠ [] := ne_nil_of_mem_resolve hmem
  have hsub : (before ++ n :: after).Sublist (path.splitOn syn.separator) :=
    h ▸ resolve_sublist
  obtain ⟨r, r', hsplit, hbefore, hafter⟩ := List.append_sublist_iff.mp hsub
  obtain ⟨s, s', rfl, hin, hrest⟩ := List.cons_sublist_iff.mp hafter
  obtain ⟨t, t', rfl⟩ := List.append_of_mem hin
  have hsplit : path.splitOn syn.separator = (r ++ t) ++ n :: (t' ++ s') := by
    rw [hsplit]
    simp
  have hfree : syn.separator ∉ n := not_mem_of_mem_splitOn
    (hsplit ▸ List.mem_append_right _ List.mem_cons_self)
  have hpath : path = (r ++ t).flatMap (· ++ [syn.separator]) ++
      (n ++ (t' ++ s').flatMap (syn.separator :: ·)) := by
    rw [← intercalate_append_cons, ← hsplit, List.intercalate_splitOn]
  refine ⟨_, _, hpath, fun hfirst => ?_, fun hlast => ?_⟩
  · rcases List.eq_nil_or_concat (r ++ t) with hnil | ⟨init, last, hinit⟩
    · exfalso
      rw [hnil, List.flatMap_nil, List.nil_append] at hpath
      rcases hfirst with habsolute | hbefore'
      · have hhead := of_decide_eq_true habsolute
        rw [hpath, List.head?_append_of_ne_nil _ hne] at hhead
        exact hfree (List.mem_of_mem_head? hhead)
      · have hr : r = [] := (List.append_eq_nil_iff.mp hnil).1
        subst hr
        exact hbefore' (List.sublist_nil.mp hbefore)
    · rw [hinit, List.concat_eq_append, List.flatMap_append]
      exact ⟨init.flatMap (· ++ [syn.separator]) ++ last, by simp⟩
  · cases hnil : t' ++ s' with
    | nil =>
      exfalso
      rw [hnil, List.flatMap_nil, List.append_nil] at hpath
      rcases hlast with htrailing | hafter'
      · have hend := of_decide_eq_true (Bool.and_eq_true_iff.mp htrailing).1
        rw [hpath, List.getLast?_append_of_ne_nil _ hne] at hend
        exact hfree (List.mem_of_mem_getLast? hend)
      · have hs : s' = [] := (List.append_eq_nil_iff.mp hnil).2
        subst hs
        exact hafter' (List.sublist_nil.mp hrest)
    | cons m ms => exact ⟨m ++ ms.flatMap (syn.separator :: ·), by rw [List.flatMap_cons]; rfl⟩

/-! ### Parts of the text of a path -/

variable {sep : α} {path part : List α}

theorem exists_splitOn_append (hfree : sep ∉ part) (rest : List α) :
    ∃ n ns, (part ++ rest).splitOn sep = n :: ns ∧ part <+: n := by
  induction part with
  | nil =>
    obtain ⟨n, ns, hsplit⟩ := List.exists_cons_of_ne_nil (List.splitOn_ne_nil sep rest)
    exact ⟨n, ns, hsplit, List.nil_prefix⟩
  | cons a part ih =>
    obtain ⟨ha, hfree⟩ := not_or.mp (mt List.mem_cons.mpr hfree)
    obtain ⟨n, ns, hsplit, hpart⟩ := ih hfree
    refine ⟨a :: n, ns, ?_, List.cons_prefix_cons.mpr ⟨rfl, hpart⟩⟩
    rw [List.cons_append, List.splitOn_cons_eq_if_modifyHead, hsplit,
      if_neg fun heq => ha (beq_iff_eq.mp heq).symm]
    rfl

/-- A part without a separator stands in a name. -/
theorem exists_infix_name (hfree : sep ∉ part) (h : part <:+: path) :
    ∃ n ∈ path.splitOn sep, part <:+: n := by
  obtain ⟨x, y, rfl⟩ := h
  rw [List.append_assoc]
  induction x with
  | nil =>
    obtain ⟨n, ns, hsplit, hpart⟩ := exists_splitOn_append hfree y
    exact ⟨n, hsplit ▸ List.mem_cons_self, hpart.isInfix⟩
  | cons a x ih =>
    obtain ⟨n, hn, hpart⟩ := ih
    rw [List.cons_append, List.splitOn_cons_eq_if_modifyHead]
    split
    · exact ⟨n, List.mem_cons_of_mem _ hn, hpart⟩
    · obtain ⟨m, ms, hsplit⟩ := List.exists_cons_of_ne_nil
        (List.splitOn_ne_nil sep (x ++ (part ++ y)))
      rw [hsplit] at hn ⊢
      rcases List.mem_cons.mp hn with rfl | hn
      · exact ⟨a :: n, List.mem_cons_self, hpart.trans (List.suffix_cons a n).isInfix⟩
      · exact ⟨n, List.mem_cons_of_mem _ hn, hpart⟩

/-- A part behind a separator starts a name that is not the first. -/
theorem exists_prefix_name (hfree : sep ∉ part) (h : sep :: part <:+: path) :
    ∃ before n after, path.splitOn sep = before ++ n :: after ∧ before ≠ [] ∧ part <+: n := by
  obtain ⟨x, y, rfl⟩ := h
  obtain ⟨n, ns, hsplit, hpart⟩ := exists_splitOn_append hfree y
  refine ⟨x.splitOn sep, n, ns, ?_, List.splitOn_ne_nil sep x, hpart⟩
  rw [List.append_assoc, List.cons_append, List.splitOn_append_cons_self, hsplit]

/-- A part between separators is a name, and what follows starts the next one. -/
theorem exists_whole_name {next : List α} (hfree : sep ∉ part) (hnext : sep ∉ next)
    (h : sep :: (part ++ sep :: next) <:+: path) :
    ∃ before n after, path.splitOn sep = before ++ part :: n :: after ∧ before ≠ [] ∧
      next <+: n := by
  obtain ⟨x, y, rfl⟩ := h
  obtain ⟨n, ns, hsplit, hpart⟩ := exists_splitOn_append hnext y
  refine ⟨x.splitOn sep, n, ns, ?_, List.splitOn_ne_nil sep x, hpart⟩
  rw [List.append_assoc, List.cons_append, List.splitOn_append_cons_self, List.append_assoc,
    List.cons_append, List.splitOn_append_cons_self_of_not_mem hfree, hsplit]

/-! ### What is written -/

section Writing

variable {trailing : Bool}

theorem splitOn_write (h : Writable syn.separator names) :
    (syn.write absolute names trailing).splitOn syn.separator =
      pieces absolute names trailing := by
  obtain ⟨n, ns, -, hnames⟩ := h.first
  refine List.splitOn_intercalate _ (fun m hm => ?_) (by simp [pieces, hnames])
  simp only [pieces, List.mem_append, List.mem_ite_nil_right, List.mem_singleton] at hm
  rcases hm with ⟨-, rfl⟩ | hm | ⟨-, rfl⟩
  · exact List.not_mem_nil
  · exact h.free m hm
  · exact List.not_mem_nil

/-- What is written denotes the names that are left of it. -/
theorem lexical_write (h : Writable syn.separator names) :
    syn.lexical (syn.write absolute names trailing) =
      ⟨absolute, syn.resolve absolute names,
        trailing && !(absolute && (syn.resolve absolute names).isEmpty)⟩ := by
  have hhead : decide ((syn.write absolute names trailing).head? = some syn.separator) =
      absolute := Bool.eq_iff_iff.mpr (decide_eq_true_iff.trans (head_write h))
  have hend : decide ((syn.write absolute names trailing).getLast? = some syn.separator) =
      trailing := Bool.eq_iff_iff.mpr (decide_eq_true_iff.trans (getLast_write h))
  rw [lexical, hhead, hend, splitOn_write h, ← resolve_filter, filter_pieces, resolve_filter]

end Writing

/-! ### A spelling without neighbours, and one with a detour -/

theorem mem_shown {n : List α} (h : n ∈ syn.shown (syn.lexical path)) :
    n ≠ [] ∧ syn.separator ∉ n := by
  unfold shown at h
  split at h
  · obtain rfl := List.mem_singleton.mp h
    exact ⟨List.cons_ne_nil _ _, fun hmem => syn.ne (List.mem_singleton.mp hmem)⟩
  · exact ⟨ne_nil_of_mem_resolve h, not_mem_of_mem_splitOn (resolve_sublist.subset h)⟩

theorem resolve_shown :
    syn.resolve (syn.lexical path).absolute (syn.shown (syn.lexical path)) =
      (syn.lexical path).names := by
  unfold shown
  split
  · rename_i hnames
    rw [resolve_here, hnames]
  · exact resolve_resolve

theorem writable_shown : Writable syn.separator (syn.shown (syn.lexical path)) where
  first := by
    have hne : syn.shown (syn.lexical path) ≠ [] := shown_ne_nil
    obtain ⟨n, ns, hshown⟩ := List.exists_cons_of_ne_nil hne
    exact ⟨n, ns, (mem_shown (hshown ▸ List.mem_cons_self)).1, hshown⟩
  last := by
    rcases List.eq_nil_or_concat (syn.shown (syn.lexical path)) with hnil | ⟨ns, n, hshown⟩
    · exact absurd hnil shown_ne_nil
    · rw [List.concat_eq_append] at hshown
      exact ⟨ns, n, (mem_shown (hshown ▸ List.mem_append_right _ List.mem_cons_self)).1, hshown⟩
  free n hn := (mem_shown hn).2

theorem trailing_lexical : ((syn.lexical path).trailing &&
    !((syn.lexical path).absolute && (syn.lexical path).names.isEmpty)) =
      (syn.lexical path).trailing := by
  unfold lexical
  dsimp only
  rw [Bool.and_assoc, Bool.and_self]

/-- The path with its separators doubled denotes the same file. -/
theorem lexical_spread : syn.lexical (syn.spread (syn.lexical path)) = syn.lexical path := by
  have hkept : syn.resolve (syn.lexical path).absolute
      ((syn.shown (syn.lexical path)).intersperse []) = (syn.lexical path).names := by
    rw [← resolve_filter, filter_intersperse fun n hn => (mem_shown hn).1, resolve_shown]
  rw [spread, lexical_write writable_shown.intersperse, hkept, trailing_lexical]

/-- And so does the path with a detour. -/
theorem lexical_detour (h : syn.Ordinary name) (hfree : syn.separator ∉ name) :
    syn.lexical (syn.detour name (syn.lexical path)) = syn.lexical path := by
  have hwritable : Writable syn.separator (name :: syn.up :: syn.shown (syn.lexical path)) := by
    have hshown : Writable syn.separator (syn.shown (syn.lexical path)) := writable_shown
    refine ⟨⟨name, _, h.nonempty, rfl⟩, ?_, ?_⟩
    · obtain ⟨ns, n, hne, hlast⟩ := hshown.last
      exact ⟨name :: syn.up :: ns, n, hne, by rw [hlast]; rfl⟩
    · refine List.forall_mem_cons.mpr ⟨hfree, List.forall_mem_cons.mpr ⟨?_, hshown.free⟩⟩
      simp [up, syn.ne]
  rw [detour, lexical_write hwritable, resolve_detour h, resolve_shown, trailing_lexical]

/-- No two names are neighbours in the doubled path. -/
theorem isChain_spread {file : Lexical α} (hwritable : Writable syn.separator (syn.shown file)) :
    ((syn.spread file).splitOn syn.separator).IsChain fun n m => n = [] ∨ m = [] := by
  rw [spread, splitOn_write hwritable.intersperse, pieces]
  refine List.isChain_append.mpr ⟨?_, List.isChain_append.mpr
    ⟨isChain_intersperse _, ?_, fun n _ m hm => ?_⟩, fun n hn m _ => ?_⟩
  · split <;> simp
  · split <;> simp
  · split at hm <;> simp_all
  · split at hn <;> simp_all

/-- A name of the doubled path is one that is left, and has a separator before it only if the
path is absolute or another name comes first, and one after it likewise. -/
theorem names_of_spread {file : Lexical α} {before after : List (List α)} {n : List α}
    (hwritable : Writable syn.separator (syn.shown file)) (hall : ∀ m ∈ syn.shown file, m ≠ [])
    (h : (syn.spread file).splitOn syn.separator = before ++ n :: after) (hn : n ≠ []) :
    ∃ b a, syn.shown file = b ++ n :: a ∧ (before ≠ [] → file.absolute = true ∨ b ≠ []) ∧
      (after ≠ [] → file.trailing = true ∨ a ≠ []) := by
  rw [spread, splitOn_write hwritable.intersperse] at h
  have hkept := congrArg (List.filter (· ≠ [])) h
  rw [filter_pieces, filter_intersperse hall, List.filter_append,
    List.filter_cons_of_pos (by simpa using hn)] at hkept
  refine ⟨_, _, hkept, fun hbefore => ?_, fun hafter => ?_⟩
  · by_contra hnone
    obtain ⟨hrelative, hb⟩ := not_or.mp hnone
    rw [not_not, List.filter_eq_nil_iff] at hb
    obtain ⟨m, ms, hm, hfirst⟩ := hwritable.intersperse.first
    obtain ⟨k, ks, rfl⟩ := List.exists_cons_of_ne_nil hbefore
    rw [pieces, if_neg hrelative, List.nil_append, hfirst] at h
    obtain rfl := (List.cons.inj h).1
    exact hb m List.mem_cons_self (by simpa using hm)
  · by_contra hnone
    obtain ⟨hopen, ha⟩ := not_or.mp hnone
    rw [not_not, List.filter_eq_nil_iff] at ha
    obtain ⟨ms, m, hm, hlast⟩ := hwritable.intersperse.last
    rcases List.eq_nil_or_concat after with hnil | ⟨ks, k, rfl⟩
    · exact hafter hnil
    · rw [pieces, if_neg hopen, List.append_nil, hlast, List.concat_eq_append,
        ← List.append_assoc, ← List.cons_append, ← List.append_assoc] at h
      obtain ⟨-, hlasts⟩ := List.append_inj' h rfl
      obtain rfl := (List.cons.inj hlasts).1
      exact ha m (by simp) (by simpa using hm)

end Resolving

end PathSyntax

end OsModa.Path
