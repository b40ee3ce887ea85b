import Mathlib.Algebra.Order.Group.Defs
import Mathlib.Data.List.Induction

/-!
Limits on how often something may happen.

There are two ways here to count calls by a clock. A sliding log keeps the calls of the last
window, so it knows their number exactly (`foldl_slide`), and no window holds more calls than the
limit (`inWindow_le_of_slide`). A fixed window begins anew with the first call after its end; two
of them can meet inside one span of that length, so the span holds up to twice the limit
(`inWindow_le_of_hits`). Both rest on a clock that is not set back.
-/

namespace OsModa.RateLimit

universe u v

variable {T : Type u} [AddCommGroup T] [LinearOrder T]
variable {α : Type v} {time : α → T} {window : T} {counts : α → Bool} {limit : Nat}

/-- The steps that count, of those from `a` to the end of the window that starts there. -/
def inWindow (time : α → T) (window : T) (counts : α → Bool) (a : T) (run : List α) : Nat :=
  run.countP fun t => counts t && (decide (a ≤ time t) && decide (time t ≤ a + window))

theorem inWindow_append (a : T) (run rest : List α) :
    inWindow time window counts a (run ++ rest) =
      inWindow time window counts a run + inWindow time window counts a rest :=
  List.countP_append

theorem inWindow_le_countP (a : T) (run : List α) :
    inWindow time window counts a run ≤ run.countP counts :=
  List.countP_mono_left fun _ _ h => (Bool.and_eq_true_iff.mp h).1

theorem inWindow_eq_zero {a : T} {run : List α}
    (h : ∀ t ∈ run, counts t = true → a ≤ time t → ¬ time t ≤ a + window) :
    inWindow time window counts a run = 0 := by
  rw [inWindow, List.countP_eq_zero]
  intro t ht hin
  obtain ⟨hcounts, hspan⟩ := Bool.and_eq_true_iff.mp hin
  obtain ⟨hfrom, hto⟩ := Bool.and_eq_true_iff.mp hspan
  exact h t ht hcounts (of_decide_eq_true hfrom) (of_decide_eq_true hto)

/-! ### A sliding log -/

/-- The log after a call: what is older than the window is taken from its front. -/
def slide (window : T) (log : List T) (now : T) : List T :=
  (log ++ [now]).dropWhile (· < now - window)

omit [AddCommGroup T] in
/-- In a list in order, what stands before the first call that is young enough is too old. -/
theorem dropWhile_lt_eq_filter {log : List T} (h : log.Pairwise (· ≤ ·)) (cut : T) :
    log.dropWhile (· < cut) = log.filter (cut ≤ ·) := by
  induction log with
  | nil => rfl
  | cons t log ih =>
    obtain ⟨hle, hrest⟩ := List.pairwise_cons.mp h
    by_cases ht : t < cut
    · rw [List.dropWhile_cons_of_pos (by simpa using ht),
        List.filter_cons_of_neg (by simpa using ht), ih hrest]
    · have hcut : cut ≤ t := not_lt.mp ht
      rw [List.dropWhile_cons_of_neg (by simpa using hcut), eq_comm, List.filter_eq_self]
      intro u hu
      obtain rfl | hmem := List.mem_cons.mp hu
      · exact decide_eq_true hcut
      · exact decide_eq_true (hcut.trans (hle u hmem))

variable [IsOrderedAddMonoid T]

/-- The log holds the calls of the window that ends with the last of them, and no others. -/
theorem foldl_slide {calls : List T} {now : T} (h : (calls ++ [now]).Pairwise (· ≤ ·)) :
    (calls ++ [now]).foldl (slide window) [] = (calls ++ [now]).filter (now - window ≤ ·) := by
  induction calls using List.reverseRecOn generalizing now with
  | nil => exact dropWhile_lt_eq_filter h _
  | append_singleton calls last ih =>
    obtain ⟨hcalls, -, hnow⟩ := List.pairwise_append.mp h
    have hlast : last ≤ now := hnow last (by simp) now (by simp)
    have hlog := ih hcalls
    have hsorted : ((calls ++ [last]).filter (last - window ≤ ·) ++ [now]).Pairwise (· ≤ ·) :=
      h.sublist (List.filter_sublist.append_right [now])
    rw [List.foldl_append, hlog, List.foldl_cons, List.foldl_nil, slide,
      dropWhile_lt_eq_filter hsorted, List.filter_append, List.filter_append (calls ++ [last]),
      List.filter_filter]
    congr 1
    refine List.filter_congr fun t _ => ?_
    -- What is young enough for the later call was young enough for the earlier one.
    have hkept : now - window ≤ t → last - window ≤ t := (sub_le_sub_right hlast window).trans
    simpa using hkept

/-- If a step that counts has at most `limit` steps in the window that ends with it, then no
window holds more than `limit` of those that count. -/
theorem inWindow_le_of_slide {run : List α}
    (h : ∀ past t future, run = past ++ t :: future → counts t = true →
      (past ++ [t]).countP (fun s => decide (time t - window ≤ time s)) ≤ limit) (a : T) :
    inWindow time window counts a run ≤ limit := by
  induction run using List.reverseRecOn with
  | nil => exact Nat.zero_le _
  | append_singleton run t ih =>
    have hrun : inWindow time window counts a run ≤ limit :=
      ih fun past s future hsplit => h past s (future ++ [t]) (by rw [hsplit]; simp)
    by_cases hin : counts t = true ∧ a ≤ time t ∧ time t ≤ a + window
    · obtain ⟨hcounts, -, hto⟩ := hin
      refine (List.countP_mono_left fun s _ hs => ?_).trans (h run t [] rfl hcounts)
      have hfrom := (Bool.and_eq_true_iff.mp (Bool.and_eq_true_iff.mp hs).2).1
      exact decide_eq_true ((sub_le_iff_le_add.mpr hto).trans (of_decide_eq_true hfrom))
    · have hnone : inWindow time window counts a [t] = 0 := by
        refine inWindow_eq_zero ?_
        rintro s hs hcounts hfrom hto
        obtain rfl := List.mem_singleton.mp hs
        exact hin ⟨hcounts, hfrom, hto⟩
      rw [inWindow_append, hnone, Nat.add_zero]
      exact hrun

/-! ### Fixed windows -/

/-- A window that has started, and the calls in it. -/
structure FixedWindow (T : Type u) where
  start : T
  hits : Nat
  deriving DecidableEq

/-- A call falls into the window, or starts the next. -/
def FixedWindow.hit (window : T) (w : FixedWindow T) (now : T) : FixedWindow T :=
  if now - w.start > window then ⟨now, 1⟩ else ⟨w.start, w.hits + 1⟩

omit [IsOrderedAddMonoid T] in
theorem FixedWindow.hit_start (window : T) (w : FixedWindow T) (now : T) :
    (w.hit window now).start = w.start ∨ (w.hit window now).start = now := by
  unfold FixedWindow.hit
  split
  · exact .inr rfl
  · exact .inl rfl

/-- The window after a call, where the first call of all starts one. -/
def hitFrom (window : T) (w : Option (FixedWindow T)) (now : T) : FixedWindow T :=
  (w.getD ⟨now, 0⟩).hit window now

/-- How a run stands to the window it has led to: the calls of that window come last, those
before it had at most `limit` counted ones in the span before it, and in no span twice as many. -/
structure Windowed (time : α → T) (window : T) (counts : α → Bool) (limit : Nat)
    (older current : List α) (w : FixedWindow T) : Prop where
  hits : current.length = w.hits
  started : ∀ t ∈ current, w.start ≤ time t ∧ time t ≤ w.start + window
  within : current.countP counts ≤ limit
  before : ∀ t ∈ older, time t < w.start
  meets : older.countP (fun t => counts t && decide (w.start - window ≤ time t)) ≤ limit
  spans : ∀ a, inWindow time window counts a older ≤ 2 * limit

section Windowed

variable {older current : List α} {w : FixedWindow T}

/-- A span meets at most two windows. -/
theorem Windowed.inWindow_le (h : Windowed time window counts limit older current w) (a : T) :
    inWindow time window counts a (older ++ current) ≤ 2 * limit := by
  rw [inWindow_append]
  by_cases hmeets : a + window < w.start
  · have hnone : inWindow time window counts a current = 0 :=
      inWindow_eq_zero fun t ht _ _ hto => absurd ((h.started t ht).1.trans hto) (not_le.mpr hmeets)
    have := h.spans a
    omega
  · have hfrom : w.start - window ≤ a := sub_le_iff_le_add.mpr (not_lt.mp hmeets)
    have holder : inWindow time window counts a older ≤ limit := by
      refine (List.countP_mono_left fun t _ ht => ?_).trans h.meets
      obtain ⟨hcounts, hspan⟩ := Bool.and_eq_true_iff.mp ht
      have hat := of_decide_eq_true (Bool.and_eq_true_iff.mp hspan).1
      exact Bool.and_eq_true_iff.mpr ⟨hcounts, decide_eq_true (hfrom.trans hat)⟩
    have hcurrent : inWindow time window counts a current ≤ limit :=
      (inWindow_le_countP a current).trans h.within
    omega

omit [IsOrderedAddMonoid T] in
/-- A call that falls into the window. -/
theorem Windowed.same (h : Windowed time window counts limit older current w) {t : α}
    (hstart : w.start ≤ time t) (hin : time t ≤ w.start + window)
    (hlimit : counts t = true → w.hits + 1 ≤ limit) :
    Windowed time window counts limit older (current ++ [t]) ⟨w.start, w.hits + 1⟩ where
  hits := by rw [List.length_append, h.hits, List.length_singleton]
  started s hs := by
    obtain hmem | rfl := by simpa using hs
    · exact h.started s hmem
    · exact ⟨hstart, hin⟩
  within := by
    cases hcounts : counts t with
    | false => simpa [List.countP_append, hcounts] using h.within
    | true =>
      refine List.countP_le_length.trans ?_
      rw [List.length_append, h.hits]
      exact hlimit hcounts
  before := h.before
  meets := h.meets
  spans := h.spans

/-- A call after the end of the window. -/
theorem Windowed.next (h : Windowed time window counts limit older current w)
    (hwindow : 0 ≤ window) {t : α}
    (hstart : w.start ≤ time t) (hout : w.start + window < time t)
    (hlimit : counts t = true → 1 ≤ limit) :
    Windowed time window counts limit (older ++ current) [t] ⟨time t, 1⟩ where
  hits := rfl
  started s hs := by
    obtain rfl := List.mem_singleton.mp hs
    exact ⟨le_refl _, le_add_of_nonneg_right hwindow⟩
  within := by
    cases hcounts : counts t with
    | false => simp [hcounts]
    | true => simpa [hcounts] using hlimit hcounts
  before s hs := by
    obtain hold | hcur := List.mem_append.mp hs
    · exact (h.before s hold).trans_le hstart
    · exact (h.started s hcur).2.trans_lt hout
  meets := by
    rw [List.countP_append, List.countP_eq_zero.mpr, Nat.zero_add]
    · refine (List.countP_mono_left fun s _ hs => (Bool.and_eq_true_iff.mp hs).1).trans h.within
    · intro s hs hmeets
      have hfrom := of_decide_eq_true (Bool.and_eq_true_iff.mp hmeets).2
      have hlt := h.before s hs
      exact absurd (hfrom.trans_lt hlt) (not_lt.mpr (lt_sub_iff_add_lt.mpr hout).le)
  spans := h.inWindow_le

/-- A call that comes no earlier than the window. -/
theorem Windowed.hit (h : Windowed time window counts limit older current w)
    (hwindow : 0 ≤ window) {t : α} (hstart : w.start ≤ time t)
    (hlimit : counts t = true → (w.hit window (time t)).hits ≤ limit) :
    ∃ older' current', older' ++ current' = older ++ current ++ [t] ∧
      Windowed time window counts limit older' current' (w.hit window (time t)) := by
  unfold FixedWindow.hit at hlimit ⊢
  by_cases hout : time t - w.start > window
  · rw [if_pos hout] at hlimit ⊢
    exact ⟨older ++ current, [t], rfl, h.next hwindow hstart (lt_sub_iff_add_lt'.mp hout) hlimit⟩
  · rw [if_neg hout] at hlimit ⊢
    have hto : time t ≤ w.start + window := sub_le_iff_le_add'.mp (not_lt.mp hout)
    exact ⟨older, current ++ [t], (List.append_assoc ..).symm, h.same hstart hto hlimit⟩

end Windowed

/-- The window that a run has led to. -/
def windowOf (time : α → T) (window : T) (run : List α) : Option (FixedWindow T) :=
  run.foldl (fun w t => some (hitFrom window w (time t))) none

omit [IsOrderedAddMonoid T] in
theorem windowOf_concat (run : List α) (t : α) :
    windowOf time window (run ++ [t]) = some (hitFrom window (windowOf time window run) (time t)) := by
  rw [windowOf, List.foldl_append, List.foldl_cons, List.foldl_nil, windowOf]

theorem windowOf_windowed (hwindow : 0 ≤ window) {run : List α}
    (hsorted : (run.map time).Pairwise (· ≤ ·))
    (h : ∀ past t future, run = past ++ t :: future → counts t = true →
      (hitFrom window (windowOf time window past) (time t)).hits ≤ limit) (hne : run ≠ []) :
    ∃ older current w, older ++ current = run ∧ windowOf time window run = some w ∧
      w.start ∈ run.map time ∧ Windowed time window counts limit older current w := by
  induction run using List.reverseRecOn with
  | nil => exact absurd rfl hne
  | append_singleton run t ih =>
    have hlimit := h run t [] rfl
    rw [windowOf_concat]
    rw [List.map_append, List.map_singleton] at hsorted ⊢
    obtain ⟨hrun, -, hlast⟩ := List.pairwise_append.mp hsorted
    cases hempty : run with
    | nil =>
      -- The first call of all falls into the window that it starts.
      have hfirst : Windowed time window counts limit [] [] ⟨time t, 0⟩ :=
        ⟨rfl, by simp, Nat.zero_le _, by simp, Nat.zero_le _, fun _ => Nat.zero_le _⟩
      rw [hempty] at hlimit
      obtain ⟨older, current, hsplit, hafter⟩ := hfirst.hit hwindow (le_refl (time t)) hlimit
      refine ⟨older, current, _, hsplit, rfl, List.mem_append_right _ ?_, hafter⟩
      exact List.mem_singleton.mpr (or_self_iff.mp (FixedWindow.hit_start window ⟨time t, 0⟩ (time t)))
    | cons s rest =>
      obtain ⟨older, current, w, hsplit, hof, hmem, hw⟩ :=
        ih hrun (fun past s future hrun => h past s (future ++ [t]) (by rw [hrun]; simp))
          (by rw [hempty]; exact List.cons_ne_nil _ _)
      rw [hof] at hlimit
      have hstart : w.start ≤ time t := hlast _ hmem _ List.mem_cons_self
      obtain ⟨older', current', hsplit', hafter⟩ := hw.hit hwindow hstart hlimit
      rw [← hempty, hof]
      refine ⟨older', current', _, by rw [hsplit', hsplit], rfl, ?_, hafter⟩
      obtain hsame | hnow := FixedWindow.hit_start window w (time t)
      · exact List.mem_append_left _ (by rw [hitFrom, Option.getD_some, hsame]; exact hmem)
      · exact List.mem_append_right _ (List.mem_singleton.mpr hnow)

/-- If a step that counts is one of the first `limit` calls of its window, then no span of a
window's length holds more than twice as many. -/
theorem inWindow_le_of_hits (hwindow : 0 ≤ window) {run : List α}
    (hsorted : (run.map time).Pairwise (· ≤ ·))
    (h : ∀ past t future, run = past ++ t :: future → counts t = true →
      (hitFrom window (windowOf time window past) (time t)).hits ≤ limit) (a : T) :
    inWindow time window counts a run ≤ 2 * limit := by
  obtain rfl | hne := eq_or_ne run []
  · exact Nat.zero_le _
  · obtain ⟨older, current, w, rfl, -, -, hw⟩ := windowOf_windowed hwindow hsorted h hne
    exact hw.inWindow_le a

end OsModa.RateLimit
