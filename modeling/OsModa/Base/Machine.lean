import Mathlib.Algebra.GroupWithZero.Nat
import Mathlib.Data.List.Basic

/-!
Deterministic machines and the runs they make.

A machine is a function `next` from an input and a state to an output and the
next state. `trace` lists the executed steps in order, each with the state it
started from, so a property of a whole run is a property of every step of its
trace. The induction over a run is made here once, in these forms:

* `final_invariant`, `trace_invariant` and their `_of` forms: what every step
  preserves, if need be under a condition, holds in every state of the run;
* `history_invariant` and its `_of` form: what relates a state to the steps that led to it;
* `sum_trace_add_le`: what the steps pay from a reserve that none of them raises;
* `all_good_iff` and `history_good_iff`: under an invariant, a run is good at every step exactly
  when every step meets the condition that decides a single step.
-/

namespace OsModa.Machine

universe u v w

variable {σ : Type u} {ι : Type v} {ω : Type w}

/-- One executed step. -/
structure Step (σ : Type u) (ι : Type v) (ω : Type w) where
  before : σ
  input : ι
  output : ω
  after : σ

/-- The step that a machine makes on an input. -/
def stepOf (next : ι → σ → ω × σ) (i : ι) (s : σ) : Step σ ι ω :=
  ⟨s, i, (next i s).1, (next i s).2⟩

/-- The state reached after all inputs. -/
def final (next : ι → σ → ω × σ) : List ι → σ → σ
  | [], s => s
  | i :: is, s => final next is (next i s).2

/-- The executed steps, oldest first. -/
def trace (next : ι → σ → ω × σ) : List ι → σ → List (Step σ ι ω)
  | [], _ => []
  | i :: is, s => stepOf next i s :: trace next is (next i s).2

variable {next : ι → σ → ω × σ}

@[simp] theorem stepOf_before (i : ι) (s : σ) : (stepOf next i s).before = s := rfl
@[simp] theorem stepOf_input (i : ι) (s : σ) : (stepOf next i s).input = i := rfl
@[simp] theorem stepOf_output (i : ι) (s : σ) : (stepOf next i s).output = (next i s).1 := rfl
@[simp] theorem stepOf_after (i : ι) (s : σ) : (stepOf next i s).after = (next i s).2 := rfl

@[simp] theorem final_nil (s : σ) : final next [] s = s := rfl
@[simp] theorem trace_nil (s : σ) : trace next [] s = [] := rfl

@[simp] theorem final_cons (i : ι) (is : List ι) (s : σ) :
    final next (i :: is) s = final next is (next i s).2 := rfl

@[simp] theorem trace_cons (i : ι) (is : List ι) (s : σ) :
    trace next (i :: is) s = stepOf next i s :: trace next is (next i s).2 := rfl

theorem final_append (is js : List ι) (s : σ) :
    final next (is ++ js) s = final next js (final next is s) := by
  induction is generalizing s with
  | nil => rfl
  | cons i is ih => exact ih (next i s).2

theorem trace_append (is js : List ι) (s : σ) :
    trace next (is ++ js) s = trace next is s ++ trace next js (final next is s) := by
  induction is generalizing s with
  | nil => rfl
  | cons i is ih => simp [ih]

@[simp] theorem trace_map_input (next : ι → σ → ω × σ) (is : List ι) (s : σ) :
    (trace next is s).map Step.input = is := by
  induction is generalizing s with
  | nil => rfl
  | cons i is ih => simp [ih]

/-- The first part of a run is the run on the first inputs, and the rest is the
run on the remaining ones. -/
theorem trace_eq_append {is : List ι} {s : σ} {past future : List (Step σ ι ω)}
    (h : trace next is s = past ++ future) :
    past = trace next (past.map Step.input) s ∧
      future = trace next (future.map Step.input) (final next (past.map Step.input) s) := by
  have his : is = past.map Step.input ++ future.map Step.input := by
    rw [← trace_map_input next is s, h, List.map_append]
  rw [his, trace_append] at h
  refine List.append_inj h ?_ |>.imp Eq.symm Eq.symm
  rw [← List.length_map (f := Step.input), trace_map_input, List.length_map]

/-- The first step of a run starts from the state the run starts from. -/
theorem trace_eq_cons {is : List ι} {s : σ} {t : Step σ ι ω} {future : List (Step σ ι ω)}
    (h : trace next is s = t :: future) :
    t = stepOf next t.input s ∧ future = trace next (future.map Step.input) t.after := by
  cases is with
  | nil => simp at h
  | cons i is =>
    obtain ⟨rfl, rfl⟩ := List.cons.inj h
    exact ⟨rfl, by rw [trace_map_input, stepOf_after]⟩

/-- What holds at every position of a run holds at every split of it. -/
theorem splits_of_take {C : List (Step σ ι ω) → Step σ ι ω → Prop} {run : List (Step σ ι ω)}
    (h : ∀ i : Fin run.length, C (run.take i) run[i]) (past : List (Step σ ι ω)) (t : Step σ ι ω)
    (future : List (Step σ ι ω)) (hsplit : run = past ++ t :: future) : C past t := by
  subst hsplit
  have hat := h ⟨past.length, by simp⟩
  simpa using hat

/-- A step of a run splits its inputs: those before it lead to the state it
starts from, and the steps before it are the run on those inputs. -/
theorem mem_trace_split {is : List ι} {s : σ} {t : Step σ ι ω} (ht : t ∈ trace next is s) :
    ∃ pre post, is = pre ++ t.input :: post ∧ t = stepOf next t.input (final next pre s) := by
  induction is generalizing s with
  | nil => simp at ht
  | cons i is ih =>
    rcases List.mem_cons.mp ht with rfl | hmem
    · exact ⟨[], is, rfl, rfl⟩
    · obtain ⟨pre, post, his, hstep⟩ := ih hmem
      exact ⟨i :: pre, post, by rw [his]; rfl, hstep⟩

/-! ### Invariants -/

/-- What every step preserves holds in the final state. -/
theorem final_invariant {I : σ → Prop} (keep : ∀ i s, I s → I (next i s).2) (is : List ι)
    {s : σ} (hs : I s) : I (final next is s) := by
  induction is generalizing s with
  | nil => exact hs
  | cons i is ih => exact ih (keep i s hs)

/-- What every step preserves holds before and after every step of the run. -/
theorem trace_invariant {I : σ → Prop} (keep : ∀ i s, I s → I (next i s).2) {is : List ι}
    {s : σ} (hs : I s) {t : Step σ ι ω} (ht : t ∈ trace next is s) : I t.before ∧ I t.after := by
  obtain ⟨pre, _, _, hstep⟩ := mem_trace_split ht
  have hbefore : I (final next pre s) := final_invariant keep pre hs
  rw [hstep]
  exact ⟨hbefore, keep _ _ hbefore⟩

/-- What every step that meets a condition preserves holds at the end of a run whose steps
all meet it. -/
theorem final_invariant_of {I : σ → Prop} {C : Step σ ι ω → Prop}
    (keep : ∀ i s, I s → C (stepOf next i s) → I (next i s).2) {is : List ι} {s : σ} (hs : I s)
    (hcond : ∀ t ∈ trace next is s, C t) : I (final next is s) := by
  induction is generalizing s with
  | nil => exact hs
  | cons i is ih =>
    obtain ⟨hfirst, hrest⟩ := List.forall_mem_cons.mp hcond
    exact ih (keep i s hs hfirst) hrest

/-- What every step that meets a condition preserves holds before and after every step of
a run whose steps all meet it. -/
theorem trace_invariant_of {I : σ → Prop} {C : Step σ ι ω → Prop}
    (keep : ∀ i s, I s → C (stepOf next i s) → I (next i s).2) {is : List ι} {s : σ} (hs : I s)
    (hcond : ∀ t ∈ trace next is s, C t) {t : Step σ ι ω} (ht : t ∈ trace next is s) :
    I t.before ∧ I t.after := by
  induction is generalizing s with
  | nil => simp at ht
  | cons i is ih =>
    have hnext : I (next i s).2 := keep i s hs (hcond _ List.mem_cons_self)
    rcases List.mem_cons.mp ht with rfl | hmem
    · exact ⟨hs, hnext⟩
    · exact ih hnext (fun u hu => hcond u (List.mem_cons_of_mem _ hu)) hmem

/-- A relation between the steps made so far and the state they lead to, if
every further step keeps it, holds at the end of the run. -/
theorem history_invariant {R : List (Step σ ι ω) → σ → Prop}
    (keep : ∀ i h s, R h s → R (h ++ [stepOf next i s]) (next i s).2) (is : List ι)
    {h : List (Step σ ι ω)} {s : σ} (hs : R h s) :
    R (h ++ trace next is s) (final next is s) := by
  induction is generalizing h s with
  | nil => simpa using hs
  | cons i is ih =>
    have := ih (keep i h s hs)
    simpa [List.append_assoc] using this

/-- The same, where each step is only known to keep the relation if it meets a condition on
the steps before it. -/
theorem history_invariant_of {R : List (Step σ ι ω) → σ → Prop}
    {C : List (Step σ ι ω) → Step σ ι ω → Prop}
    (keep : ∀ i h s, R h s → C h (stepOf next i s) → R (h ++ [stepOf next i s]) (next i s).2)
    (is : List ι) {h : List (Step σ ι ω)} {s : σ} (hs : R h s)
    (hcond : ∀ past t future, trace next is s = past ++ t :: future → C (h ++ past) t) :
    R (h ++ trace next is s) (final next is s) := by
  induction is generalizing h s with
  | nil => simpa using hs
  | cons i is ih =>
    have hfirst : C h (stepOf next i s) := by
      simpa using hcond [] (stepOf next i s) (trace next is (next i s).2) rfl
    have := ih (keep i h s hs hfirst) fun past t future hsplit => by
      rw [List.append_assoc, List.singleton_append]
      exact hcond (stepOf next i s :: past) t future (by rw [trace_cons, hsplit, List.cons_append])
    simpa [List.append_assoc] using this

/-- The history before each step of a run is itself a run, so a history
invariant holds at every step. -/
theorem history_at {R : List (Step σ ι ω) → σ → Prop}
    (keep : ∀ i h s, R h s → R (h ++ [stepOf next i s]) (next i s).2) {is : List ι} {s : σ}
    (hs : R [] s) {past : List (Step σ ι ω)} {t : Step σ ι ω} {future : List (Step σ ι ω)}
    (hsplit : trace next is s = past ++ t :: future) : R past t.before := by
  induction past generalizing is s R with
  | nil =>
    cases is with
    | nil => simp at hsplit
    | cons i is =>
      obtain ⟨rfl, _⟩ := List.cons.inj (by simpa using hsplit)
      exact hs
  | cons p past ih =>
    cases is with
    | nil => simp at hsplit
    | cons i is =>
      obtain ⟨rfl, hrest⟩ := List.cons.inj (by simpa using hsplit)
      exact ih (R := fun h s => R (stepOf next i _ :: h) s)
        (fun j h s' => keep j (_ :: h) s') (keep i [] _ hs) hrest

/-- The same before each step of a run whose steps all meet the condition. -/
theorem history_before_of {R : List (Step σ ι ω) → σ → Prop}
    {C : List (Step σ ι ω) → Step σ ι ω → Prop}
    (keep : ∀ i h s, R h s → C h (stepOf next i s) → R (h ++ [stepOf next i s]) (next i s).2)
    {is : List ι} {s : σ} (hs : R [] s)
    (hcond : ∀ past t future, trace next is s = past ++ t :: future → C past t)
    {past : List (Step σ ι ω)} {t : Step σ ι ω} {future : List (Step σ ι ω)}
    (hsplit : trace next is s = past ++ t :: future) :
    R past t.before ∧ t = stepOf next t.input t.before := by
  obtain ⟨hpast, hfuture⟩ := trace_eq_append hsplit
  obtain ⟨ht, -⟩ := trace_eq_cons hfuture.symm
  have hrun := history_invariant_of keep (past.map Step.input) hs fun past' t' future' h' =>
    hcond past' t' (future' ++ t :: future) (by rw [hsplit, hpast, h']; simp)
  rw [List.nil_append, ← hpast] at hrun
  have hbefore : t.before = final next (past.map Step.input) s := by
    rw [ht]
    rfl
  rw [hbefore]
  exact ⟨hrun, ht⟩

/-- The same after each step of the run. -/
theorem history_at_of {R : List (Step σ ι ω) → σ → Prop}
    {C : List (Step σ ι ω) → Step σ ι ω → Prop}
    (keep : ∀ i h s, R h s → C h (stepOf next i s) → R (h ++ [stepOf next i s]) (next i s).2)
    {is : List ι} {s : σ} (hs : R [] s)
    (hcond : ∀ past t future, trace next is s = past ++ t :: future → C past t)
    {past : List (Step σ ι ω)} {t : Step σ ι ω} {future : List (Step σ ι ω)}
    (hsplit : trace next is s = past ++ t :: future) : R (past ++ [t]) t.after := by
  obtain ⟨hbefore, ht⟩ := history_before_of keep hs hcond hsplit
  have hstep := keep t.input past _ hbefore (ht ▸ hcond past t future hsplit)
  rw [← ht] at hstep
  exact congrArg Step.after ht ▸ hstep

/-- If every step that meets a condition pays its cost from a reserve, a run of such steps
costs at most what the reserve held at first. -/
theorem sum_trace_add_le_of {cost : Step σ ι ω → Nat} {reserve : σ → Nat}
    {C : Step σ ι ω → Prop}
    (pay : ∀ i s, C (stepOf next i s) →
      cost (stepOf next i s) + reserve (next i s).2 ≤ reserve s) (is : List ι) {s : σ}
    (hcond : ∀ t ∈ trace next is s, C t) :
    ((trace next is s).map cost).sum + reserve (final next is s) ≤ reserve s := by
  induction is generalizing s with
  | nil => exact Nat.le_of_eq (Nat.zero_add _)
  | cons i is ih =>
    obtain ⟨hfirst, hrest⟩ := List.forall_mem_cons.mp hcond
    have hpay := pay i s hfirst
    have hsum := ih hrest
    rw [trace_cons, List.map_cons, List.sum_cons, final_cons]
    omega

/-- If every step pays its cost from a reserve, a run costs at most what the reserve held
at first. -/
theorem sum_trace_add_le {cost : Step σ ι ω → Nat} {reserve : σ → Nat}
    (pay : ∀ i s, cost (stepOf next i s) + reserve (next i s).2 ≤ reserve s) (is : List ι) (s : σ) :
    ((trace next is s).map cost).sum + reserve (final next is s) ≤ reserve s :=
  sum_trace_add_le_of (fun i s (_ : True) => pay i s) is fun _ _ => trivial

/-- Where a run costs at most one, the step that has a cost is the only one with events, if
events have a cost. -/
theorem flatMap_eq_of_sum_le_one {α β : Type*} {run : List α} {cost : α → Nat}
    {events : α → List β} (hsum : (run.map cost).sum ≤ 1)
    (hcost : ∀ u ∈ run, cost u = 0 → events u = []) {t : α} (ht : t ∈ run) (hpos : 0 < cost t) :
    run.flatMap events = events t := by
  obtain ⟨past, future, rfl⟩ := List.append_of_mem ht
  rw [List.map_append, List.map_cons, List.sum_append, List.sum_cons] at hsum
  have hquiet : ∀ steps : List α, (∀ u ∈ steps, u ∈ past ++ t :: future) →
      (steps.map cost).sum = 0 → steps.flatMap events = [] := by
    intro steps hsub hzero
    rw [List.flatMap_eq_nil_iff]
    intro u hu
    exact hcost u (hsub u hu)
      (List.sum_eq_zero_iff_forall_eq_nat.mp hzero _ (List.mem_map_of_mem hu))
  rw [List.flatMap_append, List.flatMap_cons,
    hquiet past (fun u hu => List.mem_append_left _ hu) (by omega),
    hquiet future (fun u hu => List.mem_append_right _ (List.mem_cons_of_mem _ hu)) (by omega),
    List.nil_append, List.append_nil]

/-- Under an invariant that good steps keep, a run is good throughout exactly
when each of its steps meets the condition that decides one step, if the inputs are such that
it does. -/
theorem all_good_iff_of {I : σ → Prop} {Good C : Step σ ι ω → Prop} {P : ι → Prop}
    (exact_step : ∀ i s, P i → I s → (Good (stepOf next i s) ↔ C (stepOf next i s)))
    (keep : ∀ i s, I s → Good (stepOf next i s) → I (next i s).2) (is : List ι)
    (his : ∀ i ∈ is, P i) {s : σ} (hs : I s) :
    (∀ t ∈ trace next is s, Good t) ↔ ∀ t ∈ trace next is s, C t := by
  induction is generalizing s with
  | nil => simp
  | cons i is ih =>
    obtain ⟨hi, his⟩ := List.forall_mem_cons.mp his
    simp only [trace_cons, List.forall_mem_cons]
    constructor
    · rintro ⟨hgood, hrest⟩
      exact ⟨(exact_step i s hi hs).mp hgood, (ih his (keep i s hs hgood)).mp hrest⟩
    · rintro ⟨hcond, hrest⟩
      have hgood := (exact_step i s hi hs).mpr hcond
      exact ⟨hgood, (ih his (keep i s hs hgood)).mpr hrest⟩

/-- Under an invariant that good steps keep, a run is good throughout exactly
when each of its steps meets the condition that decides one step. -/
theorem all_good_iff {I : σ → Prop} {Good C : Step σ ι ω → Prop}
    (exact_step : ∀ i s, I s → (Good (stepOf next i s) ↔ C (stepOf next i s)))
    (keep : ∀ i s, I s → Good (stepOf next i s) → I (next i s).2) (is : List ι) {s : σ}
    (hs : I s) : (∀ t ∈ trace next is s, Good t) ↔ ∀ t ∈ trace next is s, C t :=
  all_good_iff_of (fun i s (_ : True) => exact_step i s) keep is (fun _ _ => trivial) hs

/-- What is to hold of the steps made so far and the state they lead to, at every point of a run:
if it follows from an invariant, and under it each step keeps it exactly when the step meets a
condition, it holds throughout exactly when every step meets the condition. -/
theorem history_good_iff {I G : List (Step σ ι ω) → σ → Prop} {C : Step σ ι ω → Prop}
    (good : ∀ h s, I h s → G h s)
    (necessary : ∀ i h s, I h s → G (h ++ [stepOf next i s]) (next i s).2 → C (stepOf next i s))
    (keep : ∀ i h s, I h s → C (stepOf next i s) → I (h ++ [stepOf next i s]) (next i s).2)
    (is : List ι) {h : List (Step σ ι ω)} {s : σ} (hs : I h s) :
    (∀ pre, pre <+: is → G (h ++ trace next pre s) (final next pre s)) ↔
      ∀ t ∈ trace next is s, C t := by
  induction is generalizing h s with
  | nil =>
    refine iff_of_true (fun pre hpre => ?_) (by simp)
    rw [List.prefix_nil.mp hpre, trace_nil, List.append_nil]
    exact good h s hs
  | cons i is ih =>
    rw [trace_cons, List.forall_mem_cons]
    constructor
    · intro hgood
      have hcond : C (stepOf next i s) :=
        necessary i h s hs (hgood [i] (List.prefix_append [i] is))
      refine ⟨hcond, (ih (keep i h s hs hcond)).mp fun pre hpre => ?_⟩
      rw [List.append_assoc]
      exact hgood (i :: pre) ((List.prefix_cons_inj i).mpr hpre)
    · rintro ⟨hcond, hrest⟩ pre hpre
      cases pre with
      | nil =>
        rw [trace_nil, List.append_nil]
        exact good h s hs
      | cons j pre =>
        obtain ⟨rfl, hprefix⟩ := List.cons_prefix_cons.mp hpre
        have hafter := (ih (keep j h s hs hcond)).mpr hrest pre hprefix
        rwa [List.append_assoc] at hafter

end OsModa.Machine
