import Mathlib.Data.List.Nodup
import Mathlib.Data.List.Perm.Subperm
import Mathlib.Data.Nat.Basic
import Mathlib.Logic.Function.Iterate
import Mathlib.Order.MinMax
import Mathlib.Order.Std

/-!
Pulling the rows of a source by a cursor, a page at a time.

The puller asks for the rows whose stamp is above its highest, and the source answers with a
page of the lowest of them; a puller without rows asks for a page of the highest. It keeps the
rows that it accepts and does not have. What it asks for only goes up, so it ends, and it ends
with all rows of the source exactly when nothing was missing below its cursor, every row above
it is accepted, and no two rows with one stamp are on two pages (`pull_complete_iff`).
-/

namespace OsModa.CursorSync

universe u v

variable {ρ : Type u} {τ : Type v} [LinearOrder τ]

/-- The highest stamp. -/
def latest (stamp : ρ → τ) (rows : List ρ) : Option τ := (rows.map stamp).max?

/-- The rows above a cursor. -/
def above (stamp : ρ → τ) (cursor : Option τ) (rows : List ρ) : List ρ :=
  rows.filter fun r => cursor.all (· < stamp r)

/-- How a source of rows answers: with a page of the rows above a cursor. Rows that have the
same stamp come in any order. -/
structure Pages (stamp : ρ → τ) (limit : Nat) (source : List ρ) where
  page : Option τ → List ρ
  rest : Option τ → List ρ
  split : ∀ cursor, (page cursor ++ rest cursor).Perm (above stamp cursor source)
  length_page : ∀ cursor, (page cursor).length = min limit (above stamp cursor source).length
  highest : ∀ a ∈ page none, ∀ b ∈ rest none, stamp b ≤ stamp a
  lowest : ∀ t, ∀ a ∈ page (some t), ∀ b ∈ rest (some t), stamp a ≤ stamp b

/-- No rows with one stamp are on two pages, if the rows are cut in pages by their stamps. -/
def Untied (stamp : ρ → τ) (limit : Nat) (rows : List ρ) : Prop :=
  ∀ t k, ¬ (rows.countP (stamp · < t) < k * limit ∧ k * limit < rows.countP (stamp · ≤ t))

section Pull

variable [DecidableEq ρ] {stamp : ρ → τ} {limit : Nat} {source : List ρ}

/-- The puller asks once. -/
def pull (P : Pages stamp limit source) (accepts : ρ → Bool) (held : List ρ) : List ρ :=
  held ++ (P.page (latest stamp held)).filter fun r => accepts r && !held.contains r

/-- Asking again adds nothing. -/
def Settled (P : Pages stamp limit source) (accepts : ρ → Bool) (held : List ρ) : Prop :=
  pull P accepts held = held

end Pull

/-! ### Stamps -/

section Stamps

variable {stamp : ρ → τ} {rows : List ρ}

theorem latest_eq_none : latest stamp rows = none ↔ rows = [] := by
  rw [latest, List.max?_eq_none_iff, List.map_eq_nil_iff]

theorem latest_eq_some {t : τ} :
    latest stamp rows = some t ↔ (∃ r ∈ rows, stamp r = t) ∧ ∀ r ∈ rows, stamp r ≤ t := by
  rw [latest, List.max?_eq_some_iff]
  simp

theorem mem_above_some {t : τ} {r : ρ} : r ∈ above stamp (some t) rows ↔ r ∈ rows ∧ t < stamp r := by
  simp [above]

theorem above_none : above stamp none rows = rows := by
  simp [above]

end Stamps

/-! ### Counting below and up to a stamp -/

section Counting

variable {stamp : ρ → τ} {rows : List ρ} {limit : Nat}

/-- Rows that all fit one page are not cut. -/
theorem untied_of_length_le (h : rows.length ≤ limit) : Untied stamp limit rows := by
  rintro t k ⟨hbelow, hupTo⟩
  have hle : rows.countP (stamp · ≤ t) ≤ rows.length := List.countP_le_length
  have hk : k = 0 := by
    by_contra hpos
    have := Nat.le_mul_of_pos_left limit (Nat.pos_of_ne_zero hpos)
    omega
  rw [hk, Nat.zero_mul] at hbelow
  omega

/-- Rows that are counted from a stamp on, with all rows up to it. -/
theorem countP_eq_add_above (t : τ) {p : ρ → Bool} (hp : ∀ r ∈ rows, stamp r ≤ t → p r = true) :
    rows.countP p = rows.countP (stamp · ≤ t) + (above stamp (some t) rows).countP p := by
  induction rows with
  | nil => rfl
  | cons r rows ih =>
    have hrest := ih fun r' hr' => hp r' (List.mem_cons_of_mem _ hr')
    rw [above] at hrest ⊢
    rw [List.countP_cons, List.countP_cons, List.filter_cons, hrest]
    by_cases hr : stamp r ≤ t
    · simp [hr, not_lt.mpr hr, hp r List.mem_cons_self hr, Nat.add_right_comm]
    · simp [hr, not_le.mp hr, List.countP_cons, Nat.add_assoc]

/-- After a first page that no stamp crosses, the rest has to be cut as well. -/
theorem untied_above_iff {t : τ} (hfull : rows.countP (stamp · ≤ t) ≤ limit)
    (hpage : above stamp (some t) rows ≠ [] → rows.countP (stamp · ≤ t) = limit) :
    Untied stamp limit rows ↔ Untied stamp limit (above stamp (some t) rows) := by
  have hcount : ∀ s, t < s →
      rows.countP (stamp · < s) =
          rows.countP (stamp · ≤ t) + (above stamp (some t) rows).countP (stamp · < s) ∧
        rows.countP (stamp · ≤ s) =
          rows.countP (stamp · ≤ t) + (above stamp (some t) rows).countP (stamp · ≤ s) := by
    intro s hs
    constructor
    · exact countP_eq_add_above t fun r _ hr => decide_eq_true (hr.trans_lt hs)
    · exact countP_eq_add_above t fun r _ hr => decide_eq_true (hr.trans hs.le)
  constructor
  · rintro huntied s k ⟨hbelow, hupTo⟩
    have hs : t < s := by
      obtain ⟨r, hr, hrs⟩ := List.countP_pos_iff.mp (Nat.zero_lt_of_lt hupTo)
      exact (mem_above_some.mp hr).2.trans_le (of_decide_eq_true hrs)
    have hne : above stamp (some t) rows ≠ [] := by
      intro hnil
      rw [hnil, List.countP_nil] at hupTo
      omega
    obtain ⟨hlt, hle⟩ := hcount s hs
    refine huntied s (k + 1) ⟨?_, ?_⟩
    · rw [hlt, hpage hne, Nat.succ_mul]
      omega
    · rw [hle, hpage hne, Nat.succ_mul]
      omega
  · rintro huntied s k ⟨hbelow, hupTo⟩
    cases k with
    | zero => omega
    | succ k =>
      rw [Nat.succ_mul] at hbelow hupTo
      by_cases hs : t < s
      · obtain ⟨hlt, hle⟩ := hcount s hs
        have hne : above stamp (some t) rows ≠ [] := by
          intro hnil
          rw [hle, hnil, List.countP_nil] at hupTo
          omega
        rw [hlt, hpage hne] at hbelow
        rw [hle, hpage hne] at hupTo
        exact huntied s k ⟨by omega, by omega⟩
      · have hmono : rows.countP (stamp · ≤ s) ≤ rows.countP (stamp · ≤ t) :=
          List.countP_mono_left fun r _ hr =>
            decide_eq_true ((of_decide_eq_true hr).trans (not_lt.mp hs))
        omega

end Counting

/-! ### One page -/

section Page

variable {stamp : ρ → τ} {limit : Nat} {source : List ρ} {P : Pages stamp limit source}
  {held : List ρ}

theorem mem_page {cursor : Option τ} {r : ρ} (h : r ∈ P.page cursor) :
    r ∈ above stamp cursor source :=
  (P.split cursor).subset (List.mem_append_left _ h)

/-- The next cursor: the highest stamp of the page. Rows below it are on the page. -/
structure Next (P : Pages stamp limit source) (held : List ρ) (t t' : τ) : Prop where
  lt : t < t'
  latest : latest stamp (held ++ P.page (some t)) = some t'
  below : (P.rest (some t)).countP (stamp · < t') = 0
  onPage : (P.page (some t)).countP (stamp · < t') < (P.page (some t)).length
  upTo : (P.page (some t)).countP (stamp · ≤ t') = (P.page (some t)).length

theorem exists_next {t : τ} (ht : latest stamp held = some t) (hlimit : 0 < limit)
    (hne : above stamp (some t) source ≠ []) : ∃ t', Next P held t t' := by
  obtain ⟨-, hheld⟩ := latest_eq_some.mp ht
  have hlength := P.length_page (some t)
  have hpos := List.length_pos_iff.mpr hne
  cases hpage : latest stamp (P.page (some t)) with
  | none =>
    rw [latest_eq_none.mp hpage, List.length_nil] at hlength
    omega
  | some t' =>
    obtain ⟨⟨top, htop, htopStamp⟩, hmax⟩ := latest_eq_some.mp hpage
    have hlt : t < t' := htopStamp ▸ (mem_above_some.mp (mem_page htop)).2
    refine ⟨t', hlt, latest_eq_some.mpr ⟨?_, ?_⟩, ?_, ?_, ?_⟩
    · exact ⟨top, List.mem_append_right _ htop, htopStamp⟩
    · intro r hr
      rcases List.mem_append.mp hr with hold | hnew
      · exact (hheld r hold).trans hlt.le
      · exact hmax r hnew
    · rw [List.countP_eq_zero]
      intro r hr hbelow
      have hle := P.lowest t top htop r hr
      rw [htopStamp] at hle
      exact absurd (of_decide_eq_true hbelow) (not_lt.mpr hle)
    · refine lt_of_le_of_ne List.countP_le_length ?_
      intro hall
      have := List.countP_eq_length.mp hall top htop
      rw [decide_eq_true_eq, htopStamp] at this
      exact lt_irrefl _ this
    · exact List.countP_eq_length.mpr fun r hr => decide_eq_true (hmax r hr)

variable {t t' : τ}

theorem Next.countP_lt (h : Next P held t t') :
    (above stamp (some t) source).countP (stamp · < t') < (P.page (some t)).length := by
  rw [← (P.split (some t)).countP_eq, List.countP_append, h.below]
  exact h.onPage

theorem Next.countP_le (h : Next P held t t') :
    (above stamp (some t) source).countP (stamp · ≤ t') =
      (P.page (some t)).length + (P.rest (some t)).countP (stamp · ≤ t') := by
  rw [← (P.split (some t)).countP_eq, List.countP_append, h.upTo]

theorem above_above (h : t < t') :
    above stamp (some t') (above stamp (some t) source) = above stamp (some t') source := by
  rw [above, above, List.filter_filter, above]
  refine List.filter_congr ?_
  intro r _
  simpa using fun hr => h.trans hr

/-- If no stamp of the page is off it, the other pages decide. -/
theorem Next.untied_iff (h : Next P held t t')
    (hclosed : (P.rest (some t)).countP (stamp · ≤ t') = 0) :
    Untied stamp limit (above stamp (some t) source) ↔
      Untied stamp limit (above stamp (some t') source) := by
  have hcount := h.countP_le
  have hlength := P.length_page (some t)
  rw [hclosed, Nat.add_zero] at hcount
  rw [← above_above h.lt]
  refine untied_above_iff (by omega) ?_
  intro hne
  obtain ⟨r, hr⟩ := List.exists_mem_of_ne_nil _ hne
  obtain ⟨hmem, hgt⟩ := mem_above_some.mp hr
  have hshort : (above stamp (some t) source).countP (stamp · ≤ t') <
      (above stamp (some t) source).length := by
    refine lt_of_le_of_ne List.countP_le_length ?_
    intro hall
    exact absurd (of_decide_eq_true (List.countP_eq_length.mp hall r hmem)) (not_le.mpr hgt)
  omega

end Page

/-! ### Asking again and again -/

section Iterate

variable [DecidableEq ρ] {stamp : ρ → τ} {limit : Nat} {source : List ρ}
  {P : Pages stamp limit source} {accepts : ρ → Bool} {held : List ρ}

theorem subset_pull : held ⊆ pull P accepts held := List.subset_append_left ..

theorem subset_iterate (k : Nat) : held ⊆ (pull P accepts)^[k] held := by
  induction k generalizing held with
  | zero => exact List.Subset.refl _
  | succ k ih => exact List.Subset.trans subset_pull ih

/-- What is pulled comes from the source, and is accepted. -/
theorem mem_iterate {k : Nat} {r : ρ} (h : r ∈ (pull P accepts)^[k] held) :
    r ∈ held ∨ r ∈ source ∧ accepts r = true := by
  induction k generalizing held with
  | zero => exact .inl h
  | succ k ih =>
    rcases ih h with hmem | haccepted
    · rcases List.mem_append.mp hmem with hold | hnew
      · exact .inl hold
      · obtain ⟨hpage, hkept⟩ := List.mem_filter.mp hnew
        exact .inr ⟨List.mem_of_mem_filter (mem_page hpage), ((Bool.and_eq_true ..).mp hkept).1⟩
    · exact .inr haccepted

/-- Nothing at or below the cursor comes any more. -/
theorem mem_of_mem_iterate {k : Nat} {t : τ} {r : ρ} (ht : latest stamp held = some t)
    (h : r ∈ (pull P accepts)^[k] held) (hr : stamp r ≤ t) : r ∈ held := by
  induction k generalizing held t with
  | zero => exact h
  | succ k ih =>
    obtain ⟨⟨top, htop, htopStamp⟩, -⟩ := latest_eq_some.mp ht
    cases hnext : latest stamp (pull P accepts held) with
    | none =>
      rw [latest_eq_none] at hnext
      exact absurd (hnext ▸ subset_pull htop) List.not_mem_nil
    | some t' =>
      have hle : t ≤ t' := htopStamp ▸ (latest_eq_some.mp hnext).2 top (subset_pull htop)
      have hmem : r ∈ pull P accepts held := ih hnext h (hr.trans hle)
      rcases List.mem_append.mp hmem with hold | hnew
      · exact hold
      · rw [ht] at hnew
        exact absurd (mem_above_some.mp (mem_page (List.mem_of_mem_filter hnew))).2 (not_lt.mpr hr)

/-- Where every row of a page is accepted, and the puller has rows, the page is added. -/
theorem pull_eq_append {t : τ} (ht : latest stamp held = some t)
    (haccepts : ∀ r ∈ above stamp (some t) source, accepts r = true) :
    pull P accepts held = held ++ P.page (some t) := by
  rw [pull, ht, List.filter_eq_self.mpr]
  intro r hr
  have hnew : r ∉ held := fun hmem =>
    absurd ((latest_eq_some.mp ht).2 r hmem) (not_le.mpr (mem_above_some.mp (mem_page hr)).2)
  simp [haccepts r (mem_page hr), hnew]

variable (P accepts) in
/-- Asking ends: each time that something is added, fewer rows of the source are missing. -/
theorem exists_settled (held : List ρ) : ∃ k, Settled P accepts ((pull P accepts)^[k] held) := by
  induction hmissing : (source.filter fun r => r ∉ held).length using Nat.strong_induction_on
    generalizing held with
  | _ n ih =>
    by_cases hsettled : Settled P accepts held
    · exact ⟨0, hsettled⟩
    · have hadds : ∃ r ∈ pull P accepts held, r ∈ source ∧ r ∉ held := by
        by_contra hnone
        push Not at hnone
        refine hsettled ?_
        rw [Settled, pull, List.append_right_eq_self, List.filter_eq_nil_iff]
        intro r hpage hkept
        obtain ⟨haccepted, hnew⟩ := (Bool.and_eq_true ..).mp hkept
        have hpulled : r ∈ pull P accepts held :=
          List.mem_append_right _ (List.mem_filter.mpr ⟨hpage, hkept⟩)
        have hheld := hnone r hpulled (List.mem_of_mem_filter (mem_page hpage))
        simp [hheld] at hnew
      obtain ⟨r, hpulled, hsource, hnew⟩ := hadds
      have hfewer : (source.filter fun r => r ∉ pull P accepts held).length < n := by
        have hsame : source.filter (fun r => r ∉ pull P accepts held) =
            (source.filter fun r => r ∉ held).filter fun r => r ∉ pull P accepts held := by
          rw [List.filter_filter]
          refine List.filter_congr ?_
          intro r _
          simpa using fun hout hin => hout (subset_pull hin)
        rw [hsame, ← hmissing]
        exact List.length_filter_lt_length_iff_exists.mpr
          ⟨r, List.mem_filter.mpr ⟨hsource, by simpa using hnew⟩, by simpa using hpulled⟩
      obtain ⟨k, hk⟩ := ih _ hfewer _ rfl
      exact ⟨k + 1, hk⟩

/-- Above the cursor, everything comes if no stamp is cut. -/
theorem complete_of_untied {t : τ} (hlimit : 0 < limit) (ht : latest stamp held = some t)
    (haccepts : ∀ r ∈ above stamp (some t) source, accepts r = true)
    (huntied : Untied stamp limit (above stamp (some t) source)) :
    ∃ k, Settled P accepts ((pull P accepts)^[k] held) ∧
      ∀ r ∈ above stamp (some t) source, r ∈ (pull P accepts)^[k] held := by
  induction hn : (above stamp (some t) source).length using Nat.strong_induction_on
    generalizing held t with
  | _ n ih =>
    by_cases hnil : above stamp (some t) source = []
    · have hpage : P.page (some t) = [] := by
        have hlength := P.length_page (some t)
        rw [hnil, List.length_nil, Nat.min_zero] at hlength
        exact List.length_eq_zero_iff.mp hlength
      refine ⟨0, ?_, by simp [hnil]⟩
      rw [Function.iterate_zero, id, Settled, pull_eq_append ht haccepts, hpage, List.append_nil]
    · obtain ⟨t', hnext⟩ := exists_next (P := P) ht hlimit hnil
      have hpull : pull P accepts held = held ++ P.page (some t) := pull_eq_append ht haccepts
      have hbelow := hnext.countP_lt
      have hupTo := hnext.countP_le
      have hlength := P.length_page (some t)
      have hperm := (P.split (some t)).length_eq
      rw [List.length_append] at hperm
      -- The page ends where a stamp does.
      have hclosed : (P.rest (some t)).countP (stamp · ≤ t') = 0 := by
        have hrest : (P.rest (some t)).countP (stamp · ≤ t') ≤ (P.rest (some t)).length :=
          List.countP_le_length
        have hcut := huntied t' 1
        rw [Nat.one_mul] at hcut
        omega
      have hfewer : (above stamp (some t') source).length < n := by
        rw [← above_above hnext.lt, ← hn, above]
        refine List.length_filter_lt_length_iff_exists.mpr ?_
        have hpos : 0 < (P.page (some t)).length := by omega
        obtain ⟨r, hr⟩ := List.exists_mem_of_length_pos hpos
        have hle := List.countP_eq_length.mp hnext.upTo r hr
        exact ⟨r, mem_page hr, by simpa using hle⟩
      have hrows : ∀ r ∈ above stamp (some t') source, r ∈ above stamp (some t) source := by
        intro r hr
        rw [← above_above hnext.lt] at hr
        exact List.mem_of_mem_filter hr
      have hlatest : latest stamp (pull P accepts held) = some t' := hpull ▸ hnext.latest
      obtain ⟨k, hsettled, hall⟩ := ih _ hfewer hlatest (fun r hr => haccepts r (hrows r hr))
        ((hnext.untied_iff hclosed).mp huntied) rfl
      refine ⟨k + 1, hsettled, fun r hr => ?_⟩
      by_cases hup : stamp r ≤ t'
      · have hon : r ∈ P.page (some t) := by
          rcases List.mem_append.mp ((P.split (some t)).symm.subset hr) with hon | hoff
          · exact hon
          · exact absurd (decide_eq_true hup) (List.countP_eq_zero.mp hclosed r hoff)
        exact subset_iterate k (hpull ▸ List.mem_append_right _ hon)
      · exact hall r (mem_above_some.mpr ⟨(mem_above_some.mp hr).1, not_le.mp hup⟩)

/-- A stamp that is cut loses rows. -/
theorem untied_of_complete {k : Nat} {t : τ} (hlimit : 0 < limit) (hnodup : source.Nodup)
    (ht : latest stamp held = some t)
    (haccepts : ∀ r ∈ above stamp (some t) source, accepts r = true)
    (hall : ∀ r ∈ above stamp (some t) source, r ∈ (pull P accepts)^[k] held) :
    Untied stamp limit (above stamp (some t) source) := by
  induction k generalizing held t with
  | zero =>
    have hnil : above stamp (some t) source = [] := by
      refine List.eq_nil_iff_forall_not_mem.mpr ?_
      intro r hr
      exact absurd ((latest_eq_some.mp ht).2 r (hall r hr)) (not_le.mpr (mem_above_some.mp hr).2)
    rw [hnil]
    exact untied_of_length_le (Nat.zero_le _)
  | succ k ih =>
    by_cases hnil : above stamp (some t) source = []
    · rw [hnil]
      exact untied_of_length_le (Nat.zero_le _)
    · obtain ⟨t', hnext⟩ := exists_next (P := P) ht hlimit hnil
      have hpull : pull P accepts held = held ++ P.page (some t) := pull_eq_append ht haccepts
      have hlatest : latest stamp (pull P accepts held) = some t' := hpull ▸ hnext.latest
      have hdisjoint : (P.page (some t) ++ P.rest (some t)).Nodup :=
        (P.split (some t)).nodup_iff.mpr (hnodup.filter _)
      -- A row with a stamp of the page comes with it or never.
      have hclosed : (P.rest (some t)).countP (stamp · ≤ t') = 0 := by
        rw [List.countP_eq_zero]
        intro r hoff hup
        have hmem : r ∈ above stamp (some t) source :=
          (P.split (some t)).subset (List.mem_append_right _ hoff)
        have hpulled := mem_of_mem_iterate hlatest (hall r hmem) (of_decide_eq_true hup)
        rw [hpull] at hpulled
        rcases List.mem_append.mp hpulled with hold | hon
        · exact absurd ((latest_eq_some.mp ht).2 r hold) (not_le.mpr (mem_above_some.mp hmem).2)
        · exact List.disjoint_of_nodup_append hdisjoint hon hoff
      have hrows : ∀ r ∈ above stamp (some t') source, r ∈ above stamp (some t) source := by
        intro r hr
        rw [← above_above hnext.lt] at hr
        exact List.mem_of_mem_filter hr
      exact (hnext.untied_iff hclosed).mpr (ih hlatest (fun r hr => haccepts r (hrows r hr))
        fun r hr => hall r (hrows r hr))

/-- Where nothing is missing, nothing is added. -/
theorem settled_of_subset (h : source ⊆ held) : Settled P accepts held := by
  rw [Settled, pull, List.append_right_eq_self, List.filter_eq_nil_iff]
  intro r hr hkept
  have hmem : r ∈ held := h (List.mem_of_mem_filter (mem_page hr))
  simp [hmem] at hkept

/-- A puller without rows gets the highest page, and then nothing below it. -/
theorem pull_nil (haccepts : ∀ r ∈ source, accepts r = true) :
    pull P accepts [] = P.page none := by
  have hlatest : latest stamp ([] : List ρ) = none := latest_eq_none.mpr rfl
  rw [pull, hlatest, List.nil_append, List.filter_eq_self.mpr]
  intro r hr
  simp [haccepts r (List.mem_of_mem_filter (mem_page hr))]

theorem length_le_of_complete {k : Nat} (hlimit : 0 < limit) (hnodup : source.Nodup)
    (haccepts : ∀ r ∈ source, accepts r = true)
    (hall : ∀ r ∈ source, r ∈ (pull P accepts)^[k] []) : source.length ≤ limit := by
  have hlength := P.length_page none
  rw [above_none] at hlength
  cases k with
  | zero =>
    rw [List.eq_nil_iff_forall_not_mem.mpr fun r hr => List.not_mem_nil (hall r hr)]
    exact Nat.zero_le _
  | succ k =>
    by_contra hlong
    have hpos : 0 < (P.page none).length := by omega
    obtain ⟨top, htop⟩ := List.exists_mem_of_length_pos hpos
    have hpull : pull P accepts [] = P.page none := pull_nil haccepts
    cases hlatest : latest stamp (P.page none) with
    | none => exact absurd (latest_eq_none.mp hlatest ▸ htop) List.not_mem_nil
    | some t =>
      have hmax := (latest_eq_some.mp hlatest).2
      -- The page is a highest one, so all of the source is below the cursor.
      have hsubset : source ⊆ P.page none := by
        intro r hr
        have habove : r ∈ above stamp none source := by rwa [above_none]
        rcases List.mem_append.mp ((P.split none).symm.subset habove) with hon | hoff
        · exact hon
        · have hpulled := hall r hr
          rw [Function.iterate_succ_apply, hpull] at hpulled
          exact mem_of_mem_iterate hlatest hpulled ((P.highest top htop r hoff).trans (hmax top htop))
      have hle := (hnodup.subperm hsubset).length_le
      omega

/-- Nothing is missing at or below the cursor, every row above it is accepted, and the pages
cut no stamp; without any row, one page is enough. -/
structure Covers (stamp : ρ → τ) (limit : Nat) (source : List ρ) (accepts : ρ → Bool)
    (held : List ρ) : Prop where
  older : ∀ r ∈ source, r ∉ above stamp (latest stamp held) source → r ∈ held
  fits : held = [] → source.length ≤ limit
  accepted : ∀ r ∈ above stamp (latest stamp held) source, accepts r = true
  untied : held ≠ [] → Untied stamp limit (above stamp (latest stamp held) source)

/-- Without any row, the one page has to be all. -/
theorem complete_iff_of_nil (P : Pages stamp limit source) (accepts : ρ → Bool)
    (hlimit : 0 < limit) (hnodup : source.Nodup) :
    (∃ k, Settled P accepts ((pull P accepts)^[k] []) ∧
        ∀ r ∈ source, r ∈ (pull P accepts)^[k] []) ↔
      Covers stamp limit source accepts [] := by
  have hlatest : latest stamp ([] : List ρ) = none := latest_eq_none.mpr rfl
  constructor
  · rintro ⟨k, -, hall⟩
    have haccepts : ∀ r ∈ source, accepts r = true := by
      intro r hr
      rcases mem_iterate (hall r hr) with hold | ⟨-, haccepted⟩
      · exact absurd hold List.not_mem_nil
      · exact haccepted
    refine ⟨fun r hr hout => absurd (by rwa [hlatest, above_none]) hout, fun _ => ?_, ?_,
      fun hne => absurd rfl hne⟩
    · exact length_le_of_complete hlimit hnodup haccepts hall
    · rwa [hlatest, above_none]
  · intro hcovers
    have haccepted := hcovers.accepted
    rw [hlatest, above_none] at haccepted
    have hsplit := P.split none
    have hlength := P.length_page none
    have hperm := hsplit.length_eq
    rw [above_none] at hsplit hlength hperm
    rw [List.length_append] at hperm
    have hfits := hcovers.fits rfl
    have hrest : P.rest none = [] := List.length_eq_zero_iff.mp (by omega)
    have hsubset : source ⊆ pull P accepts [] := by
      rw [pull_nil haccepted]
      rw [hrest, List.append_nil] at hsplit
      exact hsplit.symm.subset
    exact ⟨1, settled_of_subset hsubset, hsubset⟩

/-- With rows, nothing comes from below the cursor, and the pages above it cut no stamp. -/
theorem complete_iff_of_latest (P : Pages stamp limit source) (accepts : ρ → Bool) {t : τ}
    (hlatest : latest stamp held = some t) (hlimit : 0 < limit) (hnodup : source.Nodup) :
    (∃ k, Settled P accepts ((pull P accepts)^[k] held) ∧
        ∀ r ∈ source, r ∈ (pull P accepts)^[k] held) ↔
      Covers stamp limit source accepts held := by
  have hne : held ≠ [] := fun hnil => by
    rw [latest_eq_none.mpr hnil] at hlatest
    cases hlatest
  constructor
  · rintro ⟨k, -, hall⟩
    have haccepts : ∀ r ∈ above stamp (some t) source, accepts r = true := by
      intro r hr
      obtain ⟨hmem, hgt⟩ := mem_above_some.mp hr
      rcases mem_iterate (hall r hmem) with hold | ⟨-, haccepted⟩
      · exact absurd ((latest_eq_some.mp hlatest).2 r hold) (not_le.mpr hgt)
      · exact haccepted
    refine ⟨fun r hr hout => ?_, fun hnil => absurd hnil hne, by rwa [hlatest], fun _ => ?_⟩
    · rw [hlatest, mem_above_some, not_and, not_lt] at hout
      exact mem_of_mem_iterate hlatest (hall r hr) (hout hr)
    · rw [hlatest]
      exact untied_of_complete hlimit hnodup hlatest haccepts fun r hr =>
        hall r (mem_above_some.mp hr).1
  · rintro ⟨holder, -, haccepted, huntied⟩
    rw [hlatest] at holder haccepted huntied
    obtain ⟨k, hsettled, hall⟩ := complete_of_untied hlimit hlatest haccepted (huntied hne)
    refine ⟨k, hsettled, fun r hr => ?_⟩
    by_cases hup : r ∈ above stamp (some t) source
    · exact hall r hup
    · exact subset_iterate k (holder r hr hup)

theorem pull_complete_iff (P : Pages stamp limit source) (accepts : ρ → Bool) (held : List ρ)
    (hlimit : 0 < limit) (hnodup : source.Nodup) :
    (∃ k, Settled P accepts ((pull P accepts)^[k] held) ∧
        ∀ r ∈ source, r ∈ (pull P accepts)^[k] held) ↔
      Covers stamp limit source accepts held := by
  cases hlatest : latest stamp held with
  | none =>
    obtain rfl := latest_eq_none.mp hlatest
    exact complete_iff_of_nil P accepts hlimit hnodup
  | some t => exact complete_iff_of_latest P accepts hlatest hlimit hnodup

end Iterate

end OsModa.CursorSync
