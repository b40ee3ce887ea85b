import Mathlib.Data.List.Pairwise
import OsModa.Base.TimeText
import OsModa.Teachd.Learning

/-!
The order in which the detectors see observations.

The query lists the newest observation first, and the detectors read the list as if the oldest
were first. So memory that is given back is reported as memory that is used up, and no rise is
ever reported (`trend_reverse`); a spike is looked for at the oldest count; and what was seen
first is later than what was seen last.
-/

namespace OsModa.Teachd

open OsModa.Float64

/-! ### Trends in both directions -/

section Trends

variable {values : List ℚ}

theorem changes_concat (front : List ℚ) (a b : ℚ) :
    changes (front ++ [a, b]) = changes (front ++ [a]) ++ [fl (b - a)] := by
  induction front with
  | nil => rfl
  | cons x front ih =>
    cases front with
    | nil => rfl
    | cons y front =>
      change fl (y - x) :: changes (y :: front ++ [a, b]) =
        fl (y - x) :: changes (y :: front ++ [a]) ++ [fl (b - a)]
      exact congrArg (fl (y - x) :: ·) ih

/-- Two neighbours rise in one direction at most. -/
theorem countP_changes_add_le (values : List ℚ) :
    (changes values).countP (0 < ·) + (changes values.reverse).countP (0 < ·) ≤
      values.length - 1 := by
  induction values with
  | nil => exact le_rfl
  | cons a values ih =>
    cases values with
    | nil => exact le_rfl
    | cons b rest =>
      have hreverse : (a :: b :: rest).reverse = rest.reverse ++ [b, a] := by simp
      rw [List.reverse_cons] at ih
      rw [hreverse, changes_concat, changes, List.countP_cons, List.countP_append,
        List.countP_singleton]
      have hone : ¬ (0 < fl (b - a) ∧ 0 < fl (a - b)) := by
        rintro ⟨hup, hdown⟩
        linarith [pos_of_fl_pos hup, pos_of_fl_pos hdown]
      have hlength : (a :: b :: rest).length - 1 = (b :: rest).length - 1 + 1 := rfl
      rw [hlength]
      simp only [decide_eq_true_eq]
      split_ifs with hup hdown
      · exact absurd ⟨hup, hdown⟩ hone
      · omega
      · omega
      · omega

/-- A share of at most one half is not above 0.6. -/
theorem not_share_lt {n pairs : Nat} (h : 2 * n ≤ pairs) :
    ¬ fl (6 / 10) < fl ((n : ℚ) / pairs) := by
  have hhalf : (n : ℚ) / pairs ≤ 1 / 2 := by
    rcases Nat.eq_zero_or_pos pairs with rfl | hpairs
    · simp
    · rw [div_le_iff₀ (by exact_mod_cast hpairs)]
      have : (2 * n : ℚ) ≤ pairs := by exact_mod_cast h
      linarith
  have hnonneg : (0 : ℚ) ≤ (n : ℚ) / pairs := by positivity
  have hround := fl_le_add ((n : ℚ) / pairs)
  have hquantum := quantum_le (x := (n : ℚ) / pairs) (by rw [abs_of_nonneg hnonneg]; linarith)
  have hsixth : (59 / 100 : ℚ) < fl (6 / 10) := by decide +kernel
  have hsmall : (2 : ℚ) ^ (-52 : ℤ) < 1 / 10 := by norm_num
  linarith

/-- Values that rise do not rise backwards. -/
theorem trend_reverse {t : ℚ} (h : detectMonotonicTrend values = some t) :
    detectMonotonicTrend values.reverse = none := by
  have hcount := countP_changes_add_le values
  unfold detectMonotonicTrend at h ⊢
  rw [List.length_reverse]
  split at h
  · cases h
  · rename_i hlength
    dsimp only at h
    split at h
    · rename_i hrise
      rw [if_neg hlength]
      refine if_neg ?_
      intro hfall
      rcases Nat.le_total (2 * (changes values).countP (0 < ·)) (values.length - 1) with hle | hle
      · exact not_share_lt hle hrise.1
      · exact not_share_lt (by omega) hfall.1
    · cases h

end Trends

/-! ### What a cycle reads -/

/-- The rows that a learning cycle reads, the newest first. -/
def Learning.rows (l : Learning) (db : KnowledgeDb) : List Observation :=
  match l.now.addSeconds (-3600) with
  | none => []
  | some since =>
    (l.rowOrder.arrange (db.observations.rows.filter fun o =>
      since.toRfc3339 ≤ o.ts.toRfc3339)).take 500

/-- The time of a row as the cycle reads it. -/
def Learning.timeOf (l : Learning) (o : Observation) : DateTime := readBack (l.clock o.id) o.ts

theorem Learning.observations_eq (l : Learning) (db : KnowledgeDb) :
    l.observations db = (l.rows db).map fun o => { o with ts := l.timeOf o } := by
  unfold Learning.observations Learning.rows
  cases l.now.addSeconds (-3600) with
  | none => rfl
  | some since => rfl

/-- The rows with the oldest first, by their stored timestamps. -/
def Chronological (rows arranged : List Observation) : Prop :=
  arranged.Perm rows ∧ arranged.Pairwise fun a b => a.ts.toRfc3339 ≤ b.ts.toRfc3339

/-- What is listed is chronological backwards. -/
theorem Learning.chronological_reverse (l : Learning) (db : KnowledgeDb) :
    Chronological (l.rows db) (l.rows db).reverse := by
  refine ⟨List.reverse_perm _, List.pairwise_reverse.mpr ?_⟩
  unfold Learning.rows
  cases l.now.addSeconds (-3600) with
  | none => exact List.Pairwise.nil
  | some since => exact (l.rowOrder.sorted _).sublist (List.take_sublist _ _)

/-- Of times that can be read, the stored timestamps are in the order of time. -/
theorem chronological_iff {rows arranged : List Observation}
    (hread : ∀ o ∈ rows, o.ts.isReadable = true) : Chronological rows arranged ↔
      arranged.Perm rows ∧ arranged.Pairwise fun a b => a.ts ≤ b.ts := by
  refine and_congr_right fun hperm => List.Pairwise.iff_of_mem fun {a b} ha hb => ?_
  exact DateTime.toRfc3339_le_iff (hread a (hperm.mem_iff.mp ha)) (hread b (hperm.mem_iff.mp hb))

/-- They are read back as they are. -/
theorem Learning.timeOf_of_readable (l : Learning) {o : Observation}
    (h : o.ts.isReadable = true) : l.timeOf o = o.ts := if_pos h

def memoryRows (rows : List Observation) : List Observation :=
  rows.filter (·.source = "memory")

def journalRows (rows : List Observation) : List Observation :=
  rows.filter (·.source = "journal")

def memoryUsages (rows : List Observation) : List ℚ := (memoryRows rows).filterMap memoryUsage

def errorCounts (rows : List Observation) : List ℚ :=
  (journalRows rows).filterMap fun o => (o.data.get "error_count").bind Value.asF64

/-! ### Time order -/

/-- The patterns of a cycle respect the order of time: memory usage is said to increase if and
only if it rises in chronological order, an error spike is reported only if the latest count is
one, and nothing is seen for the last time before it is seen for the first time. -/
structure RespectsTime (l : Learning) (db : KnowledgeDb) : Prop where
  trend : ∀ arranged, Chronological (l.rows db) arranged →
    ((∃ p ∈ l.patterns db, p.name = "memory usage increasing") ↔
      (detectMonotonicTrend (memoryUsages arranged)).isSome)
  spike : (∃ p ∈ l.patterns db, p.name = "journal error spike detected") →
    ∀ arranged, Chronological (l.rows db) arranged → spikes (errorCounts arranged) = true
  seen : ∀ p ∈ l.patterns db, p.firstSeen ≤ p.lastSeen

/-- Memory usage rises in no chronological order, and not in the listed one either, if there are
six rows of it; and if the oldest error count is a spike, the latest is one too, and the journal
rows are all of one time. -/
structure Unordered (l : Learning) (db : KnowledgeDb) : Prop where
  noRise : ∀ arranged, Chronological (l.rows db) arranged →
    detectMonotonicTrend (memoryUsages arranged) = none
  noFall : 6 ≤ (memoryRows (l.rows db)).length →
    ∀ trend, detectMonotonicTrend (memoryUsages (l.rows db)) = some trend → trend ≤ 0
  oneSpike : 3 ≤ (journalRows (l.rows db)).length → spikes (errorCounts (l.rows db)) = true →
    (∀ arranged, Chronological (l.rows db) arranged → spikes (errorCounts arranged) = true) ∧
      ∀ newest oldest, (journalRows (l.rows db)).head? = some newest →
        (journalRows (l.rows db)).getLast? = some oldest → l.timeOf newest ≤ l.timeOf oldest

theorem earliest_le (first : DateTime) (ts : List DateTime) : earliest first ts ≤ first := by
  unfold earliest
  induction ts generalizing first with
  | nil => exact Int.le_refl _
  | cons t ts ih =>
    rw [List.foldl_cons]
    refine Int.le_trans (ih _) ?_
    split
    · rename_i hlt
      exact Int.le_of_lt hlt
    · exact Int.le_refl _

theorem le_latest (first : DateTime) (ts : List DateTime) : first ≤ latest first ts := by
  unfold latest
  induction ts generalizing first with
  | nil => exact Int.le_refl _
  | cons t ts ih =>
    rw [List.foldl_cons]
    refine Int.le_trans ?_ (ih _)
    split
    · rename_i hle
      exact hle
    · exact Int.le_refl _

theorem recurring_name_ne {name other : String} (h : other.toList.getLast? ≠ some 's') :
    name ++ " recurring failures" ≠ other := by
  rintro rfl
  refine h ?_
  rw [String.toList_append, List.getLast?_append_of_ne_nil _ (by decide)]
  rfl

section Detected

variable {l : Learning} {db : KnowledgeDb} {p : Pattern}

/-- A pattern that is found in any order. -/
structure OrderFree (p : Pattern) : Prop where
  seen : p.firstSeen ≤ p.lastSeen
  notTrend : p.name ≠ "memory usage increasing"
  notSpike : p.name ≠ "journal error spike detected"

theorem orderFree_recurring {nameOrder : OrderBy fun _ : String => ()}
    {observations : List Observation} (h : p ∈ detectRecurringFailures nameOrder observations) :
    OrderFree p := by
  obtain ⟨name, -, hp⟩ := List.mem_filterMap.mp h
  unfold recurringPattern at hp
  split at hp
  · cases hp
  · rename_i first rest _
    dsimp only at hp
    split at hp
    · cases hp
    · obtain rfl := Option.some.inj hp
      exact ⟨Int.le_trans (earliest_le first.ts (rest.map (·.ts)))
        (le_latest first.ts (rest.map (·.ts))), recurring_name_ne (by decide),
        recurring_name_ne (by decide)⟩

theorem orderFree_correlation {observations : List Observation}
    (h : p ∈ detectCorrelations observations) : OrderFree p := by
  obtain ⟨svc, -, hp⟩ := List.mem_filterMap.mp h
  obtain ⟨cpu, -, rfl⟩ := Option.map_eq_some_iff.mp hp
  exact ⟨Int.le_trans (earliest_le svc.ts [cpu.ts]) (le_latest svc.ts [cpu.ts]),
    by dsimp only; decide, by dsimp only; decide⟩

/-- The rows of a source, as the detectors see them. -/
theorem filter_observations (source : String) :
    (l.observations db).filter (·.source = source) =
      ((l.rows db).filter (·.source = source)).map fun o => { o with ts := l.timeOf o } := by
  rw [l.observations_eq, List.filter_map]
  rfl

theorem filterMap_observations {α : Type} (source : String) (f : Observation → Option α)
    (hf : ∀ o ts, f { o with ts := ts } = f o) :
    ((l.observations db).filter (·.source = source)).filterMap f =
      ((l.rows db).filter (·.source = source)).filterMap f := by
  rw [filter_observations, List.filterMap_map]
  exact List.filterMap_congr fun o _ => hf o _

/-- The trend that is reported is that of the listed order. -/
theorem resourceTrends_ne_nil_iff : detectResourceTrends (l.observations db) ≠ [] ↔
    6 ≤ (memoryRows (l.rows db)).length ∧
      ∃ trend, detectMonotonicTrend (memoryUsages (l.rows db)) = some trend ∧ 0 < trend := by
  have husages : ((l.observations db).filter (·.source = "memory")).filterMap memoryUsage =
      memoryUsages (l.rows db) := filterMap_observations _ _ fun _ _ => rfl
  have hlength : ((l.observations db).filter (·.source = "memory")).length =
      (memoryRows (l.rows db)).length := by
    rw [filter_observations, List.length_map]
    rfl
  unfold detectResourceTrends
  rw [← husages, ← hlength]
  dsimp only
  generalize (l.observations db).filter (·.source = "memory") = memObs
  cases hhead : memObs.head? with
  | none =>
    rw [List.head?_eq_none_iff] at hhead
    simp [hhead]
  | some first =>
    have hne : memObs ≠ [] := by
      rintro rfl
      cases hhead
    rw [List.getLast?_eq_some_getLast hne]
    dsimp only
    split
    · rename_i hshort
      exact iff_of_false (by simp) fun h => absurd h.1 (by omega)
    · rename_i hlong
      rw [and_iff_right (by omega)]
      cases detectMonotonicTrend (memObs.filterMap memoryUsage) with
      | none => simp
      | some trend =>
        dsimp only
        split
        · rename_i hpos
          exact iff_of_true (by simp) ⟨trend, rfl, hpos⟩
        · rename_i hneg
          refine iff_of_false (by simp) ?_
          rintro ⟨trend', htrend, hpos⟩
          exact hneg (Option.some.inj htrend ▸ hpos)

theorem name_of_mem_resourceTrends {observations : List Observation}
    (h : p ∈ detectResourceTrends observations) : p.name = "memory usage increasing" := by
  dsimp only [detectResourceTrends] at h
  split at h
  · split at h
    · cases h
    · split at h
      · cases h
      · split at h
        · rw [List.mem_singleton.mp h]
        · cases h
  · cases h

/-- The spike that is reported is the count that is listed last. -/
theorem anomalies_ne_nil_iff : detectAnomalies (l.observations db) ≠ [] ↔
    3 ≤ (journalRows (l.rows db)).length ∧ spikes (errorCounts (l.rows db)) = true := by
  have hcounts : ((l.observations db).filter (·.source = "journal")).filterMap
      (fun o => (o.data.get "error_count").bind Value.asF64) = errorCounts (l.rows db) :=
    filterMap_observations _ _ fun _ _ => rfl
  have hlength : ((l.observations db).filter (·.source = "journal")).length =
      (journalRows (l.rows db)).length := by
    rw [filter_observations, List.length_map]
    rfl
  unfold detectAnomalies
  rw [← hcounts, ← hlength]
  dsimp only
  generalize (l.observations db).filter (·.source = "journal") = journalObs
  cases hhead : journalObs.head? with
  | none =>
    rw [List.head?_eq_none_iff] at hhead
    simp [hhead]
  | some first =>
    have hne : journalObs ≠ [] := by
      rintro rfl
      cases hhead
    rw [List.getLast?_eq_some_getLast hne]
    dsimp only
    split
    · rename_i hshort
      exact iff_of_false (by simp) fun h => absurd h.1 (by omega)
    · rename_i hlong
      rw [and_iff_right (by omega)]
      split
      · rename_i hspikes
        exact iff_of_true (by simp) hspikes
      · rename_i hspikes
        exact iff_of_false (by simp) hspikes

/-- It is seen from the newest row to the oldest. -/
theorem spec_of_mem_anomalies (h : p ∈ detectAnomalies (l.observations db)) :
    p.name = "journal error spike detected" ∧ ∃ newest oldest,
      (journalRows (l.rows db)).head? = some newest ∧
        (journalRows (l.rows db)).getLast? = some oldest ∧
        p.firstSeen = l.timeOf newest ∧ p.lastSeen = l.timeOf oldest := by
  dsimp only [detectAnomalies] at h
  rw [filter_observations] at h
  split at h
  · rename_i first last hfirst hlast
    rw [List.head?_map, Option.map_eq_some_iff] at hfirst
    rw [List.getLast?_map, Option.map_eq_some_iff] at hlast
    obtain ⟨newest, hnewest, rfl⟩ := hfirst
    obtain ⟨oldest, holdest, rfl⟩ := hlast
    split at h
    · cases h
    · split at h
      · rw [List.mem_singleton.mp h]
        exact ⟨rfl, newest, oldest, hnewest, holdest, rfl, rfl⟩
      · cases h
  · cases h

end Detected

/-! ### The patterns of a cycle -/

section Cycle

variable {l : Learning} {db : KnowledgeDb}

theorem mem_patterns {p : Pattern} : p ∈ l.patterns db ↔
    p ∈ detectRecurringFailures l.nameOrder (l.observations db) ∨
      p ∈ detectResourceTrends (l.observations db) ∨ p ∈ detectAnomalies (l.observations db) ∨
        p ∈ detectCorrelations (l.observations db) := by
  simp only [Learning.patterns, List.mem_append, or_assoc]

theorem exists_trend_iff : (∃ p ∈ l.patterns db, p.name = "memory usage increasing") ↔
    detectResourceTrends (l.observations db) ≠ [] := by
  constructor
  · rintro ⟨p, hp, hname⟩
    rcases mem_patterns.mp hp with h | h | h | h
    · exact absurd hname (orderFree_recurring h).notTrend
    · exact List.ne_nil_of_mem h
    · exact absurd ((spec_of_mem_anomalies h).1.symm.trans hname) (by decide)
    · exact absurd hname (orderFree_correlation h).notTrend
  · intro hne
    obtain ⟨p, hp⟩ := List.exists_mem_of_ne_nil _ hne
    exact ⟨p, mem_patterns.mpr (.inr (.inl hp)), name_of_mem_resourceTrends hp⟩

theorem exists_spike_iff : (∃ p ∈ l.patterns db, p.name = "journal error spike detected") ↔
    detectAnomalies (l.observations db) ≠ [] := by
  constructor
  · rintro ⟨p, hp, hname⟩
    rcases mem_patterns.mp hp with h | h | h | h
    · exact absurd hname (orderFree_recurring h).notSpike
    · exact absurd ((name_of_mem_resourceTrends h).symm.trans hname) (by decide)
    · exact List.ne_nil_of_mem h
    · exact absurd hname (orderFree_correlation h).notSpike
  · intro hne
    obtain ⟨p, hp⟩ := List.exists_mem_of_ne_nil _ hne
    exact ⟨p, mem_patterns.mpr (.inr (.inr (.inl hp))), (spec_of_mem_anomalies hp).1⟩

theorem memoryUsages_reverse (rows : List Observation) :
    memoryUsages rows.reverse = (memoryUsages rows).reverse := by
  rw [memoryUsages, memoryRows, List.filter_reverse, List.filterMap_reverse]
  rfl

/-- Where the patterns respect time, no rise is reported: it would be one backwards too. -/
theorem RespectsTime.no_trend (h : RespectsTime l db) :
    detectResourceTrends (l.observations db) = [] := by
  by_contra hne
  obtain ⟨-, trend, htrend, -⟩ := resourceTrends_ne_nil_iff.mp hne
  have hrise := (h.trend _ (l.chronological_reverse db)).mp (exists_trend_iff.mpr hne)
  rw [memoryUsages_reverse, trend_reverse htrend] at hrise
  cases hrise

theorem RespectsTime.unordered (h : RespectsTime l db) : Unordered l db where
  noRise arranged harranged := by
    have hnone := (not_congr (h.trend arranged harranged)).mp fun hexists =>
      exists_trend_iff.mp hexists h.no_trend
    rwa [Option.not_isSome_iff_eq_none] at hnone
  noFall hsix trend htrend := by
    by_contra hpos
    exact resourceTrends_ne_nil_iff.mpr ⟨hsix, trend, htrend, not_le.mp hpos⟩ h.no_trend
  oneSpike hthree hspikes := by
    have hne := anomalies_ne_nil_iff.mpr ⟨hthree, hspikes⟩
    refine ⟨h.spike (exists_spike_iff.mpr hne), fun newest oldest hnewest holdest => ?_⟩
    obtain ⟨p, hp⟩ := List.exists_mem_of_ne_nil _ hne
    obtain ⟨-, newest', oldest', hnewest', holdest', hfirst, hlast⟩ := spec_of_mem_anomalies hp
    obtain rfl := Option.some.inj (hnewest.symm.trans hnewest')
    obtain rfl := Option.some.inj (holdest.symm.trans holdest')
    rw [← hfirst, ← hlast]
    exact h.seen p (mem_patterns.mpr (.inr (.inr (.inl hp))))

theorem Unordered.respectsTime (h : Unordered l db) : RespectsTime l db := by
  have hquiet : detectResourceTrends (l.observations db) = [] := by
    by_contra hne
    obtain ⟨hsix, trend, htrend, hpos⟩ := resourceTrends_ne_nil_iff.mp hne
    exact absurd (h.noFall hsix trend htrend) (not_le.mpr hpos)
  refine ⟨fun arranged harranged => ?_, fun hexists arranged harranged => ?_, fun p hp => ?_⟩
  · rw [exists_trend_iff, h.noRise arranged harranged]
    exact iff_of_false (fun hne => hne hquiet) (by simp)
  · obtain ⟨hthree, hspikes⟩ := anomalies_ne_nil_iff.mp (exists_spike_iff.mp hexists)
    exact (h.oneSpike hthree hspikes).1 arranged harranged
  · rcases mem_patterns.mp hp with hp | hp | hp | hp
    · exact (orderFree_recurring hp).seen
    · rw [hquiet] at hp
      cases hp
    · obtain ⟨hthree, hspikes⟩ := anomalies_ne_nil_iff.mp (List.ne_nil_of_mem hp)
      obtain ⟨-, newest, oldest, hnewest, holdest, hfirst, hlast⟩ := spec_of_mem_anomalies hp
      rw [hfirst, hlast]
      exact (h.oneSpike hthree hspikes).2 newest oldest hnewest holdest
    · exact (orderFree_correlation hp).seen

/-- A spike of the oldest count leaves one time only to the journal rows, if the times can be
read. -/
theorem Unordered.one_time (h : Unordered l db) (hread : ∀ o ∈ l.rows db, o.ts.isReadable = true)
    (hthree : 3 ≤ (journalRows (l.rows db)).length)
    (hspikes : spikes (errorCounts (l.rows db)) = true)
    {a b : Observation} (ha : a ∈ journalRows (l.rows db)) (hb : b ∈ journalRows (l.rows db)) :
    a.ts = b.ts := by
  have hne : journalRows (l.rows db) ≠ [] := List.ne_nil_of_mem ha
  have hlisted : (journalRows (l.rows db)).Pairwise fun a b => b.ts ≤ a.ts := by
    have hrows := ((chronological_iff hread).mp (l.chronological_reverse db)).2
    exact (List.pairwise_reverse.mp hrows).sublist List.filter_sublist
  have hnewest := List.head?_eq_some_head hne
  have holdest := List.getLast?_eq_some_getLast hne
  have hback := (h.oneSpike hthree hspikes).2 _ _ hnewest holdest
  have hreadable : ∀ {o}, o ∈ journalRows (l.rows db) → o.ts.isReadable = true :=
    fun ho => hread _ (List.mem_of_mem_filter ho)
  rw [l.timeOf_of_readable (hreadable (List.head_mem hne)),
    l.timeOf_of_readable (hreadable (List.getLast_mem hne))] at hback
  have hbetween : ∀ {o}, o ∈ journalRows (l.rows db) →
      o.ts.nanos ≤ ((journalRows (l.rows db)).head hne).ts.nanos ∧
        ((journalRows (l.rows db)).getLast hne).ts.nanos ≤ o.ts.nanos := fun ho =>
    ⟨hlisted.rel_head_of_rel_head_head ho (Int.le_refl _),
      hlisted.rel_getLast_of_rel_getLast_getLast ho (Int.le_refl _)⟩
  have hends : ((journalRows (l.rows db)).head hne).ts.nanos ≤
      ((journalRows (l.rows db)).getLast hne).ts.nanos := hback
  have hearlier := hbetween ha
  have hlater := hbetween hb
  exact DateTime.ext_nanos (by omega)

end Cycle

/-- The patterns of a cycle respect the order of time if and only if there is nothing in the
observations whose order matters. -/
theorem respectsTime_iff (l : Learning) (db : KnowledgeDb) :
    RespectsTime l db ↔ Unordered l db :=
  ⟨RespectsTime.unordered, Unordered.respectsTime⟩

/-- Memory of 1000 kB, of which 100 kB more are free each minute from the first look on. -/
def freedMinute (n : Nat) : Observation :=
  ⟨"mem-" ++ toString n, (firstLook.addSeconds (60 * n)).getD firstLook, "memory",
    .object [("total_kb", .integer 1000), ("available_kb", .integer (100 * n))]⟩

def freedMemory : KnowledgeDb :=
  ⟨((List.range 6).map freedMinute).foldl Table.put .empty, .empty, .empty, .empty⟩

/-- Memory that is given back for five minutes is reported as increasing usage. -/
theorem freedMemory_reported : ¬ ∀ l db, RespectsTime l db := by
  intro h
  have hlook := (h (lookAt secondLook) freedMemory).no_trend
  have hone : (detectResourceTrends ((lookAt secondLook).observations freedMemory)).length = 1 := by
    decide +kernel
  rw [hlook] at hone
  cases hone

end OsModa.Teachd
