import Mathlib.Data.List.Dedup
import OsModa.Teachd.Learning

/-!
The name of a failing unit, from the observations to the restart that is suggested.

It is put into the title of a pattern and of a document as it is. The suggestion takes it from
the title again, which it has lowercased; systemd's names are case-sensitive. So the restart
names the unit if and only if its name has no upper-case letter (`restarts_iff`).
-/

namespace OsModa.Teachd

open OsModa.Text OsModa.Float64

/-! ### Lowercasing and removing -/

section Texts

variable (u : Unicode)

theorem toLowercase_ascii {s : List Char} (h : ∀ c ∈ s, c.toNat < 128) :
    toLowercase u s = s.map Char.toLower := by
  suffices ∀ before, lowercaseFrom u before s = s.map Char.toLower from this []
  induction s with
  | nil => exact fun _ => rfl
  | cons c s ih =>
    intro before
    obtain ⟨hascii, hs⟩ := List.forall_mem_cons.mp h
    have hsigma : c ≠ 'Σ' := by
      rintro rfl
      revert hascii
      decide
    rw [lowercaseFrom, if_neg hsigma, u.toLower_ascii c hascii, ih hs, List.map_cons]
    rfl

theorem isUpper_iff {c : Char} : c.isUpper = true ↔ 65 ≤ c.toNat ∧ c.toNat ≤ 90 := by
  change decide (c.val ≥ 'A'.val ∧ c.val ≤ 'Z'.val) = true ↔ _
  rw [decide_eq_true_eq, ge_iff_le, UInt32.le_iff_toNat_le, UInt32.le_iff_toNat_le]
  rfl

theorem isLower_iff {c : Char} : c.isLower = true ↔ 97 ≤ c.toNat ∧ c.toNat ≤ 122 := by
  change (decide (c.val ≥ 'a'.val) && decide (c.val ≤ 'z'.val)) = true ↔ _
  rw [Bool.and_eq_true, decide_eq_true_eq, decide_eq_true_eq, ge_iff_le, UInt32.le_iff_toNat_le,
    UInt32.le_iff_toNat_le]
  rfl

theorem toNat_toLower (c : Char) :
    c.toLower.toNat = if c.isUpper then c.toNat + 32 else c.toNat := by
  have hupper : (c.val ≥ 'A'.val ∧ c.val ≤ 'Z'.val) ↔ c.isUpper = true :=
    decide_eq_true_iff.symm
  unfold Char.toLower
  by_cases h : c.isUpper = true
  · rw [dif_pos (hupper.mpr h), if_pos h]
    have hbounds := isUpper_iff.mp h
    have hdelta : ('a'.val - 'A'.val).toNat = 32 := by decide
    have hval : c.val.toNat = c.toNat := rfl
    change (c.val + ('a'.val - 'A'.val)).toNat = c.toNat + 32
    rw [UInt32.toNat_add, hdelta, hval, Nat.mod_eq_of_lt (by omega)]
  · rw [dif_neg (fun hc => h (hupper.mp hc)), if_neg h]

theorem map_toLower_eq_self {s : List Char} :
    s.map Char.toLower = s ↔ ∀ c ∈ s, c.isUpper = false := by
  induction s with
  | nil => simp
  | cons c s ih =>
    rw [List.map_cons, List.cons.injEq, ih, List.forall_mem_cons]
    refine and_congr_left' ?_
    have hlower := toNat_toLower c
    constructor
    · intro h
      rw [h] at hlower
      by_contra hupper
      rw [if_pos (by simpa using hupper)] at hlower
      omega
    · intro hupper
      rw [hupper] at hlower
      exact Char.toNat_inj.mp hlower

/-- The word before the first blank is determined. -/
theorem word_inj {w v s t : List Char} (hw : ' ' ∉ w) (hv : ' ' ∉ v)
    (h : w ++ ' ' :: s = v ++ ' ' :: t) : w = v ∧ s = t := by
  induction w generalizing v with
  | nil =>
    cases v with
    | nil => exact ⟨rfl, (List.cons.inj h).2⟩
    | cons d v => exact absurd ((List.cons.inj h).1 ▸ List.mem_cons_self) hv
  | cons c w ih =>
    cases v with
    | nil => exact absurd ((List.cons.inj h).1 ▸ List.mem_cons_self) hw
    | cons d v =>
      obtain ⟨rfl, hrest⟩ := List.cons.inj h
      obtain ⟨rfl, hst⟩ := ih (fun hmem => hw (List.mem_cons_of_mem _ hmem))
        (fun hmem => hv (List.mem_cons_of_mem _ hmem)) hrest
      exact ⟨rfl, hst⟩

theorem removeFrom_skip {part s : List Char} {n : Nat} (h : s.length ≤ n) :
    removeFrom part n s = [] := by
  induction s generalizing n with
  | nil => rfl
  | cons c s ih =>
    rw [List.length_cons] at h
    rw [removeFrom, if_pos (by omega)]
    exact ih (by omega)

/-- The words of every title are removed after a name of one word, and nowhere else. -/
theorem remove_recurring {name : List Char} (hname : ' ' ∉ name) :
    remove "recurring failures".toList (name ++ " recurring failures".toList) = name ++ [' '] := by
  unfold remove
  induction name with
  | nil =>
    have hskip : removeFrom "recurring failures".toList 17 "ecurring failures".toList = [] :=
      removeFrom_skip (by decide)
    exact congrArg (' ' :: ·) hskip
  | cons c name ih =>
    have hrest : ' ' ∉ name := fun hmem => hname (List.mem_cons_of_mem _ hmem)
    have hprefix : "recurring failures".toList.isPrefixOf
        (c :: (name ++ " recurring failures".toList)) = false := by
      rw [← Bool.not_eq_true, List.isPrefixOf_iff_prefix]
      rintro ⟨rest, hwords⟩
      have hsplit : c :: name ++ ' ' :: "recurring failures".toList =
          "recurring".toList ++ ' ' :: ("failures".toList ++ rest) := hwords.symm
      obtain ⟨-, hafter⟩ := word_inj hname (by decide) hsplit
      exact absurd (List.cons.inj hafter).1 (by decide)
    rw [List.cons_append, removeFrom, if_neg (by decide), hprefix]
    exact congrArg (c :: ·) (ih hrest)

theorem trim_blank {name : List Char} (hname : ∀ c ∈ name, u.isWhitespace c = false)
    (hne : name ≠ []) : trim u (name ++ [' ']) = name := by
  have hself := trim_eq_self u hname
  obtain ⟨c, rest, rfl⟩ := List.exists_cons_of_ne_nil hne
  have hc : u.isWhitespace c = false := hname c List.mem_cons_self
  unfold trim at hself ⊢
  rw [List.cons_append, List.dropWhile_cons_of_neg (by simp [hc]), ← List.cons_append,
    List.rdropWhile_concat_pos _ _ _ u.isWhitespace_space]
  rwa [List.dropWhile_cons_of_neg (by simp [hc])] at hself

end Texts

/-! ### Names of service units -/

def isUnitChar (c : Char) : Bool := c.isAlphanum || c ∈ [':', '-', '_', '.', '\\', '@']

/-- What systemd takes for the name of a service unit. -/
structure ServiceUnitName (name : String) : Prop where
  chars : ∀ c ∈ name.toList, isUnitChar c = true
  suffix : ∃ start, start ≠ [] ∧ start.head? ≠ some '@' ∧
    name.toList = start ++ ".service".toList
  short : name.toList.length ≤ 255

section Names

variable {u : Unicode} {name : String}

theorem isUnitChar_ascii {c : Char} (h : isUnitChar c = true) : 33 ≤ c.toNat ∧ c.toNat < 128 := by
  have hcases : c.isAlphanum = true ∨ c ∈ [':', '-', '_', '.', '\\', '@'] := by
    simpa [isUnitChar] using h
  rcases hcases with hletter | hother
  · change ((c.isUpper || c.isLower) || c.isDigit) = true at hletter
    rw [Bool.or_eq_true, Bool.or_eq_true, isUpper_iff, isLower_iff, Char.isDigit_iff_toNat]
      at hletter
    have hzero : '0'.toNat = 48 := rfl
    have hnine : '9'.toNat = 57 := rfl
    omega
  · revert hother
    simp only [List.mem_cons, List.not_mem_nil, or_false]
    rintro (rfl | rfl | rfl | rfl | rfl | rfl) <;> decide

/-- The chars of a lowercased name. -/
theorem lowered_chars (hname : ServiceUnitName name) :
    ∀ c ∈ name.toList.map Char.toLower, u.isWhitespace c = false ∧ c ≠ ' ' := by
  intro c hc
  obtain ⟨d, hd, rfl⟩ := List.mem_map.mp hc
  obtain ⟨hlow, hhigh⟩ := isUnitChar_ascii (hname.chars d hd)
  have hlower : 33 ≤ d.toLower.toNat ∧ d.toLower.toNat < 128 := by
    rw [toNat_toLower]
    split
    · rename_i hupper
      have := isUpper_iff.mp hupper
      omega
    · exact ⟨hlow, hhigh⟩
  have hspace : d.toLower ≠ ' ' := by
    intro h
    rw [h] at hlower
    exact absurd hlower.1 (by decide)
  refine ⟨?_, hspace⟩
  rw [u.isWhitespace_ascii _ hlower.2, asciiWhitespace]
  simp only [hspace, decide_false, Bool.false_or]
  simp
  omega

theorem suggestActionForDoc_recurring (hname : ServiceUnitName name) {doc : KnowledgeDoc}
    (htitle : doc.title = name ++ " recurring failures") : (suggestActionForDoc u doc).2 =
      some (.serviceRestart (String.ofList (name.toList.map Char.toLower))) := by
  have hlower : toLowercase u doc.title.toList =
      name.toList.map Char.toLower ++ " recurring failures".toList := by
    rw [htitle, String.toList_append, toLowercase_ascii, List.map_append]
    · rfl
    · rw [List.forall_mem_append]
      have hwords : (" recurring failures".toList.all fun c => decide (c.toNat < 128)) = true := rfl
      exact ⟨fun c hc => (isUnitChar_ascii (hname.chars c hc)).2, fun c hc =>
        of_decide_eq_true (List.all_eq_true.mp hwords c hc)⟩
  have hne : name.toList.map Char.toLower ≠ [] := by
    obtain ⟨start, hstart, -, hsuffix⟩ := hname.suffix
    simp [hsuffix]
  have hchars := lowered_chars (u := u) hname
  have hremoved : trim u (remove "recurring failures".toList
      (toLowercase u doc.title.toList)) = name.toList.map Char.toLower := by
    rw [hlower, remove_recurring fun hmem => (hchars _ hmem).2 rfl]
    exact trim_blank u (fun c hc => (hchars c hc).1) hne
  have hcontains :
      contains (toLowercase u doc.title.toList) "recurring failures".toList = true := by
    rw [contains_eq_true, hlower]
    exact ⟨name.toList.map Char.toLower ++ [' '], [], by simp⟩
  have hsome : (name.toList.map Char.toLower).isEmpty = false := by
    simpa using hne
  unfold suggestActionForDoc
  dsimp only
  rw [hremoved, hcontains, hsome]
  rfl

end Names

/-! ### The pipeline -/

/-- Eight observations report that a unit has failed, and the confidence in this is above 0.7. -/
structure KeepsFailing (observations : List Observation) (name : String) : Prop where
  reported : 8 ≤ observations.countP fun o => o.source = "service" && decide (name ∈ failuresIn o)
  confident : ∀ p, recurringPattern observations name = some p → p.isConfident = true

section Pipeline

variable {u : Unicode} {observations : List Observation} {name : String}

theorem mem_failuresOf {o : Observation} :
    o ∈ failuresOf observations name ↔ o ∈ observations ∧ name ∈ failuresIn o := by
  simp [failuresOf, List.mem_flatMap]

/-- Every observation that reports a name is counted at least once. -/
theorem countP_le_failuresOf (p : Observation → Bool)
    (hp : ∀ o, p o = true → name ∈ failuresIn o) :
    observations.countP p ≤ (failuresOf observations name).length := by
  unfold failuresOf
  induction observations with
  | nil => exact le_rfl
  | cons o observations ih =>
    rw [List.countP_cons, List.flatMap_cons, List.length_append, List.length_map]
    have hone : (if p o then 1 else 0) ≤ ((failuresIn o).filter (· = name)).length := by
      split
      · rename_i h
        exact List.length_pos_of_mem (List.mem_filter.mpr ⟨hp o h, by simp⟩)
      · exact Nat.zero_le _
    omega

theorem recurringPattern_names {p : Pattern} (h : recurringPattern observations name = some p) :
    p.id = "pat-recurring-" ++ name ∧ p.name = name ++ " recurring failures" := by
  unfold recurringPattern at h
  split at h
  · cases h
  · dsimp only at h
    split at h
    · cases h
    · obtain rfl := Option.some.inj h
      exact ⟨rfl, rfl⟩

/-- A recurring pattern has the title of its id. -/
theorem name_of_recurring {nameOrder : OrderBy fun _ : String => ()} {p : Pattern}
    (hp : p ∈ detectRecurringFailures nameOrder observations)
    (hid : p.id = "pat-recurring-" ++ name) : p.name = name ++ " recurring failures" := by
  obtain ⟨other, -, hother⟩ := List.mem_filterMap.mp hp
  obtain ⟨hotherId, hotherName⟩ := recurringPattern_names hother
  rw [hotherId, String.append_right_inj] at hid
  rw [hotherName, hid]

/-- A unit that keeps failing has a confident pattern. -/
theorem KeepsFailing.pattern (h : KeepsFailing observations name)
    (nameOrder : OrderBy fun _ : String => ()) :
    ∃ p ∈ detectRecurringFailures nameOrder observations,
      p.id = "pat-recurring-" ++ name ∧ p.isConfident = true := by
  have hcount := h.reported.trans (countP_le_failuresOf _ fun o ho => by
    rw [Bool.and_eq_true] at ho
    exact of_decide_eq_true ho.2)
  obtain ⟨p, hp⟩ : ∃ p, recurringPattern observations name = some p := by
    unfold recurringPattern
    split
    · rename_i hnil
      rw [hnil] at hcount
      exact absurd hcount (by simp)
    · rename_i hcons
      rw [hcons] at hcount
      exact ⟨_, if_neg (by omega)⟩
  refine ⟨p, List.mem_filterMap.mpr ⟨name, ?_, hp⟩, (recurringPattern_names hp).1,
    h.confident p hp⟩
  obtain ⟨o, ho⟩ := List.exists_mem_of_length_pos (by omega :
    0 < (failuresOf observations name).length)
  obtain ⟨hmem, hfails⟩ := mem_failuresOf.mp ho
  rw [OrderBy.mem_arrange, List.mem_dedup, List.mem_flatMap]
  exact ⟨o, hmem, hfails⟩

variable (clock : String → DateTime) (nameOrder : OrderBy fun _ : String => ())

/-- What is known after the first two steps. -/
def learnRecurring (observations : List Observation) (db : KnowledgeDb) : KnowledgeDb :=
  (detectRecurringFailures nameOrder observations).foldl (storePattern clock) db

/-- After the first two steps there is a document on the unit, with the title of its pattern. -/
theorem find?_restart_doc (h : KeepsFailing observations name) (db : KnowledgeDb) :
    ∃ d, (learnRecurring clock nameOrder observations db).docs.find?
        ("kd-pat-recurring-" ++ name) = some d ∧
      d.title = name ++ " recurring failures" ∧ d.applied = false := by
  obtain ⟨p, hp, hid, hconfident⟩ := h.pattern nameOrder
  have hdocId : ∀ q : Pattern, "kd-" ++ q.id = "kd-pat-recurring-" ++ name →
      q.id = "pat-recurring-" ++ name := by
    intro q hq
    have hsplit : "kd-pat-recurring-" ++ name = "kd-" ++ ("pat-recurring-" ++ name) := by
      rw [← String.append_assoc]
      rfl
    rwa [hsplit, String.append_right_inj] at hq
  rw [learnRecurring, foldl_storePattern]
  rcases Table.find?_foldl_put (((detectRecurringFailures nameOrder observations).filter
      (·.isConfident)).map fun p => knowledgeFromPattern (clock p.id) p) db.docs
      ("kd-pat-recurring-" ++ name) with ⟨hnone, -⟩ | ⟨d, hd, hdoc, hfind⟩
  · refine absurd ?_ (hnone (knowledgeFromPattern (clock p.id) p)
      (List.mem_map.mpr ⟨p, List.mem_filter.mpr ⟨hp, hconfident⟩, rfl⟩))
    rw [knowledgeFromPattern_id, hid, ← String.append_assoc]
    rfl
  · refine ⟨d, hfind, ?_⟩
    obtain ⟨q, hq, rfl⟩ := List.mem_map.mp hd
    exact ⟨name_of_recurring (List.mem_filter.mp hq).1 (hdocId q hdoc), rfl⟩

end Pipeline

/-- The three steps suggest to restart the unit, for the document that they make on it. -/
def Restarts (u : Unicode) (clock : String → DateTime)
    (nameOrder : OrderBy fun _ : String => ()) (s : Suggesting) (observations : List Observation)
    (db : KnowledgeDb) (name : String) : Prop :=
  ∃ o ∈ s.suggestions u (learnRecurring clock nameOrder observations db),
    o.knowledgeDocId = "kd-pat-recurring-" ++ name ∧ o.action = .serviceRestart name

/-- They do if and only if the name has no upper-case letter. -/
theorem restarts_iff (u : Unicode) (clock : String → DateTime)
    (nameOrder : OrderBy fun _ : String => ()) (s : Suggesting) (observations : List Observation)
    (db : KnowledgeDb) (name : String) (hname : ServiceUnitName name)
    (hfails : KeepsFailing observations name)
    (hdocs : (learnRecurring clock nameOrder observations db).docs.rows.length ≤ 50) :
    Restarts u clock nameOrder s observations db name ↔
      ∀ c ∈ name.toList, c.isUpper = false := by
  obtain ⟨d, hfind, htitle, happlied⟩ := find?_restart_doc clock nameOrder hfails db
  have hid := Table.key_of_find? hfind
  have haction := suggestActionForDoc_recurring (u := u) hname htitle
  have hsuggested : ∀ o, suggestionFor u (s.clock d.id) d = some o →
      o.action = .serviceRestart (String.ofList (name.toList.map Char.toLower)) := by
    intro o ho
    unfold suggestionFor at ho
    dsimp only at ho
    rw [haction] at ho
    rw [← Option.some.inj ho]
  have hsame : OptAction.serviceRestart (String.ofList (name.toList.map Char.toLower)) =
      .serviceRestart name ↔ ∀ c ∈ name.toList, c.isUpper = false := by
    rw [OptAction.serviceRestart.injEq, ← map_toLower_eq_self, ← String.toList_inj,
      String.toList_ofList]
  rw [← hsame]
  constructor
  · rintro ⟨o, ho, hdoc, hrestart⟩
    obtain ⟨d', hd', hsuggestion⟩ := List.mem_filterMap.mp ho
    have hkey : d'.id = "kd-pat-recurring-" ++ name := by
      obtain ⟨action, -, rfl⟩ := Option.map_eq_some_iff.mp hsuggestion
      exact hdoc
    have hrow := s.order.mem_of_mem_take (List.mem_filter.mp hd').1
    have hfind' := Table.mem_rows_iff.mp hrow
    rw [hkey, hfind] at hfind'
    obtain rfl := Option.some.inj hfind'
    rw [← hsuggested o hsuggestion, hrestart]
  · intro hlower
    have hlisted : d ∈ s.docs (learnRecurring clock nameOrder observations db) := by
      refine List.mem_filter.mpr ⟨?_, by simp [happlied]⟩
      rw [List.take_of_length_le ((s.order.perm _).length_eq.trans_le hdocs), OrderBy.mem_arrange]
      exact Table.mem_rows_iff.mpr (hid ▸ hfind)
    obtain ⟨o, ho⟩ : ∃ o, suggestionFor u (s.clock d.id) d = some o := by
      unfold suggestionFor
      dsimp only
      rw [haction]
      exact ⟨_, rfl⟩
    refine ⟨o, List.mem_filterMap.mpr ⟨d, hlisted, ho⟩, ?_, (hsuggested o ho).trans hlower⟩
    obtain ⟨action, -, rfl⟩ := Option.map_eq_some_iff.mp ho
    exact hid

/-! ### Two units that keep failing -/

/-- Eight reports of a unit. -/
def failureReports (name : String) : List Observation :=
  (List.range 8).map fun n => ⟨"obs-" ++ toString n, firstLook, "service",
    .object [("failed", .integer 1), ("failed_names", .array [.string name])]⟩

/-- Suggestions in the order that keeps ties as they are. -/
def suggestNow : Suggesting := ⟨fun _ => secondLook, .stable _⟩

/-- What is known after eight reports, when nothing was known before. -/
def knownFailure (name : String) : KnowledgeDb :=
  learnRecurring (fun _ => secondLook) (.stable _) (failureReports name)
    ⟨.empty, .empty, .empty, .empty⟩

theorem nginx_restarted_iff : ServiceUnitName "nginx.service" ∧
    KeepsFailing (failureReports "nginx.service") "nginx.service" ∧
    (knownFailure "nginx.service").docs.rows.length ≤ 50 ∧
    (Restarts .ascii (fun _ => secondLook) (.stable _) suggestNow (failureReports "nginx.service")
        ⟨.empty, .empty, .empty, .empty⟩ "nginx.service" ↔
      ∀ c ∈ "nginx.service".toList, c.isUpper = false) := by
  have hname : ServiceUnitName "nginx.service" :=
    ⟨List.all_eq_true.mp (by decide), ⟨"nginx".toList, by decide, by decide, rfl⟩, by decide⟩
  have hfails : KeepsFailing (failureReports "nginx.service") "nginx.service" := by
    refine ⟨by decide +kernel, fun p hp => ?_⟩
    have hconfident : ((recurringPattern (failureReports "nginx.service") "nginx.service").all
        (·.isConfident)) = true := by decide +kernel
    rwa [hp] at hconfident
  have hdocs : (knownFailure "nginx.service").docs.rows.length ≤ 50 := by decide +kernel
  exact ⟨hname, hfails, hdocs, restarts_iff .ascii (fun _ => secondLook) (.stable _) suggestNow
    (failureReports "nginx.service") ⟨.empty, .empty, .empty, .empty⟩ "nginx.service" hname hfails
    hdocs⟩

/-- The only restart that is suggested is that of a unit in lower case. -/
theorem networkManager_not_restarted : ServiceUnitName "NetworkManager.service" ∧
    KeepsFailing (failureReports "NetworkManager.service") "NetworkManager.service" ∧
    (suggestNow.suggestions .ascii (knownFailure "NetworkManager.service")).map (·.action) =
      [.serviceRestart "networkmanager.service"] ∧
    ¬ ∃ o ∈ suggestNow.suggestions .ascii (knownFailure "NetworkManager.service"),
      o.action = .serviceRestart "NetworkManager.service" := by
  have hname : ServiceUnitName "NetworkManager.service" :=
    ⟨List.all_eq_true.mp (by decide), ⟨"NetworkManager".toList, by decide, by decide, rfl⟩,
      by decide⟩
  have hfails : KeepsFailing (failureReports "NetworkManager.service")
      "NetworkManager.service" := by
    refine ⟨by decide +kernel, fun p hp => ?_⟩
    have hconfident : ((recurringPattern (failureReports "NetworkManager.service")
        "NetworkManager.service").all (·.isConfident)) = true := by decide +kernel
    rwa [hp] at hconfident
  have hactions : (suggestNow.suggestions .ascii (knownFailure "NetworkManager.service")).map
      (·.action) = [.serviceRestart "networkmanager.service"] := by decide +kernel
  refine ⟨hname, hfails, hactions, ?_⟩
  rintro ⟨o, ho, haction⟩
  have hmem := List.mem_map_of_mem (f := fun o : Optimization => o.action) ho
  rw [hactions, haction, List.mem_singleton] at hmem
  exact absurd hmem (by decide)

end OsModa.Teachd
