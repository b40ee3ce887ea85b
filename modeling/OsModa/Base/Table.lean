import Mathlib.Data.List.Nodup

/-!
A table with a primary key.

`Table key` is a list of rows, oldest first, no two of which have the same key.
`insert?` refuses a row whose key is taken, as an SQL `INSERT` into a table with a
primary key does; `updateWhere` is an `UPDATE ... WHERE ...` that leaves the key
column alone. `put` and `erase` are the `set` and `delete` of a JavaScript `Map`.
Looking up a key after each is described by one equation (`find?_insert?` and so on),
and these are all that the users of a table need to know about it.
-/

namespace OsModa

universe u v

/-- Rows with pairwise different keys, oldest first. -/
structure Table {ρ : Type u} {κ : Type v} (key : ρ → κ) where
  rows : List ρ
  nodup_keys : (rows.map key).Nodup

namespace Table

variable {ρ : Type u} {κ : Type v} {key : ρ → κ}

def empty : Table key := ⟨[], List.nodup_nil⟩

/-- `UPDATE ... WHERE p`, with assignments that do not touch the key. -/
def updateWhere (t : Table key) (p : ρ → Bool) (f : ρ → ρ) (hf : ∀ r, key (f r) = key r) :
    Table key where
  rows := t.rows.map fun r => if p r then f r else r
  nodup_keys := by
    have hkeys : (t.rows.map fun r => if p r then f r else r).map key = t.rows.map key := by
      rw [List.map_map]
      refine List.map_congr_left ?_
      intro r _
      simp only [Function.comp_apply]
      split
      · exact hf r
      · rfl
    rw [hkeys]
    exact t.nodup_keys

/-- Change the row at a position, if there is one, and not its key: `get_mut(i)`. -/
def modifyAt (t : Table key) (i : Nat) (f : ρ → ρ) (hf : ∀ r, key (f r) = key r) : Table key where
  rows := t.rows.modify i f
  nodup_keys := by
    have hkeys : (t.rows.modify i f).map key = t.rows.map key := by
      refine List.ext_getElem? ?_
      intro j
      rw [List.getElem?_map, List.getElem?_map, List.getElem?_modify]
      cases t.rows[j]? with
      | none => rfl
      | some r =>
        simp only [Option.map_eq_map, Option.map_some]
        split
        · rw [hf]
        · rfl
    rw [hkeys]
    exact t.nodup_keys

/-- The number of rows an `UPDATE` or a `SELECT` with that condition reaches. -/
def countWhere (t : Table key) (p : ρ → Bool) : Nat := t.rows.countP p

/-- Rows of one key are one. -/
theorem eq_of_key {t : Table key} {r s : ρ} (hr : r ∈ t.rows) (hs : s ∈ t.rows)
    (h : key r = key s) : r = s :=
  List.inj_on_of_nodup_map t.nodup_keys hr hs h

theorem ext_rows {t s : Table key} (h : t.rows = s.rows) : t = s := by
  cases t
  cases s
  cases h
  rfl

/-- An update that changes no row. -/
theorem updateWhere_eq_self {t : Table key} {p : ρ → Bool} {f : ρ → ρ}
    {hf : ∀ r, key (f r) = key r} (h : ∀ r ∈ t.rows, p r = true → f r = r) :
    t.updateWhere p f hf = t := by
  apply ext_rows
  refine Eq.trans (List.map_congr_left fun r hr => ?_) (List.map_id _)
  split
  · rename_i hp
    exact h r hr hp
  · rfl

variable [DecidableEq κ]

/-- `SELECT ... WHERE key = k`. -/
def find? (t : Table key) (k : κ) : Option ρ := t.rows.find? fun r => key r = k

/-- `INSERT`; `none` when the key is taken. -/
def insert? (t : Table key) (r : ρ) : Option (Table key) :=
  if h : key r ∈ t.rows.map key then none
  else some ⟨t.rows ++ [r], by
    rw [List.map_append, List.map_cons, List.map_nil]
    exact List.nodup_append_comm.mp (List.nodup_cons.mpr ⟨h, t.nodup_keys⟩)⟩

@[simp] theorem find?_empty (k : κ) : (empty : Table key).find? k = none := rfl

theorem key_of_find? {t : Table key} {k : κ} {r : ρ} (h : t.find? k = some r) : key r = k := by
  simpa using List.find?_some h

theorem find?_eq_none {t : Table key} {k : κ} : t.find? k = none ↔ k ∉ t.rows.map key := by
  simp [find?]

/-- A row is stored exactly when its key looks it up. -/
theorem mem_rows_iff {t : Table key} {r : ρ} : r ∈ t.rows ↔ t.find? (key r) = some r := by
  constructor
  · intro hmem
    cases hfind : t.find? (key r) with
    | none => exact absurd (List.mem_map_of_mem hmem) (find?_eq_none.mp hfind)
    | some s =>
      have hs : s ∈ t.rows := List.mem_of_find?_eq_some hfind
      rw [eq_of_key hs hmem (key_of_find? hfind)]
  · exact List.mem_of_find?_eq_some

theorem insert?_eq_none {t : Table key} {r : ρ} : t.insert? r = none ↔ t.find? (key r) ≠ none := by
  rw [Ne, find?_eq_none, not_not, insert?]
  split <;> simp [*]

/-- Inserting adds the row as the last one. -/
theorem rows_insert? {t t' : Table key} {r : ρ} (h : t.insert? r = some t') :
    t'.rows = t.rows ++ [r] := by
  unfold insert? at h
  split at h
  · cases h
  · cases h; rfl

/-- Inserting adds the row under its key, which was free, and nothing else. -/
theorem find?_insert? {t t' : Table key} {r : ρ} (h : t.insert? r = some t') (k : κ) :
    t'.find? k = if key r = k then some r else t.find? k := by
  have hfree : t.find? (key r) = none := by
    by_contra hne
    rw [insert?_eq_none.mpr hne] at h
    cases h
  unfold find? at hfree ⊢
  rw [rows_insert? h, List.find?_append]
  by_cases hk : key r = k
  · subst hk
    simp [hfree]
  · simp [hk]

/-- An update changes the row under each key as it says, and frees or takes no
key. -/
theorem find?_updateWhere (t : Table key) (p : ρ → Bool) (f : ρ → ρ)
    (hf : ∀ r, key (f r) = key r) (k : κ) :
    (t.updateWhere p f hf).find? k = (t.find? k).map fun r => if p r then f r else r := by
  have hkey : ((fun r => decide (key r = k)) ∘ fun r => if p r then f r else r) =
      fun r => decide (key r = k) := by
    funext r
    simp only [Function.comp_apply]
    split
    · rw [hf]
    · rfl
  simp only [find?, updateWhere, List.find?_map, hkey]

/-- A row that is at a position is the one under its key. -/
theorem find?_of_getElem? {t : Table key} {i : Nat} {r : ρ} (h : t.rows[i]? = some r) :
    t.find? (key r) = some r :=
  mem_rows_iff.mp (List.mem_of_getElem? h)

/-- A change at a position reaches the row under the key that is there. -/
theorem find?_modifyAt (t : Table key) (i : Nat) (f : ρ → ρ) (hf : ∀ r, key (f r) = key r) (k : κ) :
    (t.modifyAt i f hf).find? k =
      if t.rows[i]?.map key = some k then (t.find? k).map f else t.find? k := by
  have hmem : ∀ r, (t.modifyAt i f hf).find? k = some r ↔
      key r = k ∧ ∃ j : Nat, ∃ s, t.rows[j]? = some s ∧ r = if i = j then f s else s := by
    intro r
    constructor
    · intro hfind
      obtain ⟨j, hj⟩ := List.mem_iff_getElem?.mp (List.mem_of_find?_eq_some hfind)
      rw [modifyAt, List.getElem?_modify] at hj
      obtain ⟨s, hs, hr⟩ := Option.map_eq_some_iff.mp hj
      refine ⟨key_of_find? hfind, j, s, hs, hr.symm.trans ?_⟩
      split <;> rfl
    · rintro ⟨rfl, j, s, hs, hr⟩
      refine mem_rows_iff.mp (List.mem_iff_getElem?.mpr ⟨j, ?_⟩)
      rw [modifyAt, List.getElem?_modify, hs, hr]
      simp only [Option.map_eq_map, Option.map_some]
  refine Option.ext fun r => (hmem r).trans ?_
  constructor
  · rintro ⟨hkey, j, s, hs, rfl⟩
    have hsk : key s = k := by
      rw [← hkey]
      split
      · rw [hf]
      · rfl
    have hfind : t.find? k = some s := hsk ▸ find?_of_getElem? hs
    by_cases hij : i = j
    · rw [if_pos hij, hij, hs, Option.map_some, hsk, if_pos rfl, hfind, Option.map_some]
    · have hother : t.rows[i]?.map key ≠ some k := by
        intro hi
        obtain ⟨s', hs', hk'⟩ := Option.map_eq_some_iff.mp hi
        have hi' : i < (t.rows.map key).length := by
          rw [List.length_map]
          exact (List.getElem?_eq_some_iff.mp hs').1
        refine hij ((List.getElem?_inj hi' t.nodup_keys).mp ?_)
        rw [List.getElem?_map, List.getElem?_map, hs, hs', Option.map_some, Option.map_some, hk', hsk]
      rw [if_neg hij, if_neg hother, hfind]
  · intro hr
    split at hr
    · rename_i hi
      obtain ⟨s, hs, rfl⟩ := Option.map_eq_some_iff.mp hi
      rw [find?_of_getElem? hs, Option.map_some] at hr
      obtain rfl := Option.some.inj hr
      exact ⟨hf s, i, s, hs, by rw [if_pos rfl]⟩
    · rename_i hi
      obtain ⟨j, hj⟩ := List.mem_iff_getElem?.mp (List.mem_of_find?_eq_some hr)
      refine ⟨key_of_find? hr, j, r, hj, ?_⟩
      rw [if_neg]
      rintro rfl
      exact hi (by rw [hj, Option.map_some, key_of_find? hr])

/-- Store a row, in the place of the one with its key if there is one: `Map.set`. -/
def put (t : Table key) (r : ρ) : Table key :=
  if h : key r ∈ t.rows.map key then
    { rows := t.rows.map fun s => if key s = key r then r else s
      nodup_keys := by
        have hkeys : (t.rows.map fun s => if key s = key r then r else s).map key =
            t.rows.map key := by
          rw [List.map_map]
          refine List.map_congr_left ?_
          intro s _
          simp only [Function.comp_apply]
          split
          · rename_i heq
            exact heq.symm
          · rfl
        rw [hkeys]
        exact t.nodup_keys }
  else ⟨t.rows ++ [r], by
    rw [List.map_append, List.map_cons, List.map_nil]
    exact List.nodup_append_comm.mp (List.nodup_cons.mpr ⟨h, t.nodup_keys⟩)⟩

theorem rows_put_of_none {t : Table key} {r : ρ} (h : t.find? (key r) = none) :
    (t.put r).rows = t.rows ++ [r] := by
  simp only [put, find?_eq_none.mp h, dif_neg, not_false_eq_true]

/-- Remove the row under a key: `Map.delete`. -/
def erase (t : Table key) (k : κ) : Table key where
  rows := t.rows.filter fun r => key r ≠ k
  nodup_keys := t.nodup_keys.sublist (List.filter_sublist.map key)

/-- Keep the rows that meet a condition: `DELETE ... WHERE NOT p`. -/
def filter (t : Table key) (p : ρ → Bool) : Table key where
  rows := t.rows.filter p
  nodup_keys := t.nodup_keys.sublist (List.filter_sublist.map key)

theorem find?_put (t : Table key) (r : ρ) (k : κ) :
    (t.put r).find? k = if key r = k then some r else t.find? k := by
  by_cases htaken : key r ∈ t.rows.map key
  · have hrows : (t.put r).rows = t.rows.map fun s => if key s = key r then r else s := by
      simp only [put, htaken, dif_pos]
    have hother : ((fun s => decide (key s = k)) ∘ fun s => if key s = key r then r else s) =
        fun s => decide (key s = k) := by
      funext s
      simp only [Function.comp_apply]
      split
      · rename_i heq
        rw [heq]
      · rfl
    unfold find?
    rw [hrows, List.find?_map, hother]
    by_cases hk : key r = k
    · obtain ⟨s, hs, hkey⟩ := List.mem_map.mp htaken
      obtain ⟨s', hs'⟩ := Option.ne_none_iff_exists'.mp
        (fun hnone : t.find? k = none => find?_eq_none.mp hnone (hk ▸ htaken))
      have hkey' : key s' = key r := (key_of_find? hs').trans hk.symm
      rw [show t.rows.find? (fun s => decide (key s = k)) = some s' from hs']
      simp [hk, hkey']
    · rw [if_neg hk]
      cases hs : t.rows.find? fun s => decide (key s = k) with
      | none => rfl
      | some s =>
        have hkey : key s = k := by simpa using List.find?_some hs
        simp [hkey, Ne.symm hk]
  · have hrows : (t.put r).rows = t.rows ++ [r] := by
      simp only [put, htaken, dif_neg, not_false_eq_true]
    have hfree : t.rows.find? (fun s => decide (key s = key r)) = none :=
      find?_eq_none.mpr htaken
    unfold find?
    rw [hrows, List.find?_append]
    by_cases hk : key r = k
    · subst hk
      simp [hfree]
    · simp [hk]

/-- A row that is stored for one that the update of all rows cannot tell from it. -/
theorem updateWhere_put {t : Table key} {r old : ρ} (hfind : t.find? (key r) = some old) {f : ρ → ρ}
    (hf : ∀ r, key (f r) = key r) (h : f r = f old) :
    (t.put r).updateWhere (fun _ => true) f hf = t.updateWhere (fun _ => true) f hf := by
  have htaken : key r ∈ t.rows.map key :=
    key_of_find? hfind ▸ List.mem_map_of_mem (List.mem_of_find?_eq_some hfind)
  have hrows : (t.put r).rows = t.rows.map fun s => if key s = key r then r else s := by
    simp only [put, htaken, dif_pos]
  apply ext_rows
  simp only [updateWhere, hrows, List.map_map, if_true]
  apply List.map_congr_left
  intro s hs
  simp only [Function.comp_apply]
  split
  · rename_i hkey
    rw [h, eq_of_key hs (List.mem_of_find?_eq_some hfind) (hkey.trans (key_of_find? hfind).symm)]
  · rfl

theorem find?_erase (t : Table key) (k k' : κ) :
    (t.erase k).find? k' = if k = k' then none else t.find? k' := by
  unfold find? erase
  rw [List.find?_filter]
  by_cases hk : k = k'
  · subst hk
    simp
  · rw [if_neg hk]
    congr 1
    funext r
    by_cases hr : key r = k'
    · simp [hr, Ne.symm hk]
    · simp [hr]

theorem mem_rows_put {t : Table key} {r s : ρ} :
    s ∈ (t.put r).rows ↔ s = r ∨ s ∈ t.rows ∧ key s ≠ key r := by
  rw [mem_rows_iff, find?_put, mem_rows_iff]
  split
  · rename_i h
    simp [h, eq_comm]
  · rename_i h
    simp only [ne_eq, Ne.symm h, not_false_eq_true, and_true]
    exact ⟨Or.inr, fun hs => hs.resolve_left fun heq => h (heq ▸ rfl)⟩

@[simp] theorem mem_rows_erase {t : Table key} {k : κ} {s : ρ} :
    s ∈ (t.erase k).rows ↔ s ∈ t.rows ∧ key s ≠ k := by
  simp [erase]

theorem find?_put_self (t : Table key) (r : ρ) : (t.put r).find? (key r) = some r := by
  rw [find?_put, if_pos rfl]

theorem find?_put_other {t : Table key} {r : ρ} {k : κ} (h : key r ≠ k) :
    (t.put r).find? k = t.find? k := by
  rw [find?_put, if_neg h]

/-- Storing rows one after the other: under each key is the last one stored, or what was there. -/
theorem find?_foldl_put (rows : List ρ) (t : Table key) (k : κ) :
    ((∀ r ∈ rows, key r ≠ k) ∧ (rows.foldl put t).find? k = t.find? k) ∨
      ∃ r ∈ rows, key r = k ∧ (rows.foldl put t).find? k = some r := by
  induction rows generalizing t with
  | nil => exact .inl ⟨by simp, rfl⟩
  | cons r rows ih =>
    rcases ih (t.put r) with ⟨hother, hfind⟩ | ⟨s, hs, hkey, hfind⟩
    · by_cases hk : key r = k
      · refine .inr ⟨r, List.mem_cons_self, hk, hfind.trans ?_⟩
        rw [← hk, find?_put_self]
      · exact .inl ⟨List.forall_mem_cons.mpr ⟨hk, hother⟩, hfind.trans (find?_put_other hk)⟩
    · exact .inr ⟨s, List.mem_cons_of_mem _ hs, hkey, hfind⟩

theorem mem_rows_foldl_put {rows : List ρ} {t : Table key} {r : ρ}
    (h : r ∈ (rows.foldl put t).rows) : r ∈ rows ∨ r ∈ t.rows := by
  rcases find?_foldl_put rows t (key r) with ⟨-, hsame⟩ | ⟨s, hs, -, hfind⟩
  · exact .inr (mem_rows_iff.mpr (hsame.symm.trans (mem_rows_iff.mp h)))
  · obtain rfl : r = s := Option.some.inj ((mem_rows_iff.mp h).symm.trans hfind)
    exact .inl hs

/-- A row that is looked up, changed and stored again. -/
theorem find?_put_map {t : Table key} {k : κ} {r : ρ} (hfind : t.find? k = some r) {f : ρ → ρ}
    (hf : key (f r) = key r) (k' : κ) :
    (t.put (f r)).find? k' = if k = k' then (t.find? k').map f else t.find? k' := by
  rw [find?_put, hf, key_of_find? hfind]
  split
  · rename_i heq
    rw [← heq, hfind, Option.map_some]
  · rfl

/-- Nothing to change where no row is found. -/
theorem find?_map_of_none {t : Table key} {k : κ} (hfind : t.find? k = none) (f : ρ → ρ) (k' : κ) :
    t.find? k' = if k = k' then (t.find? k').map f else t.find? k' := by
  split
  · rename_i heq
    rw [← heq, hfind, Option.map_none]
  · rfl

/-- The rows that meet a condition, after a row is stored under a key that was taken. -/
theorem countWhere_put_of_some {t : Table key} {r old : ρ} (h : t.find? (key r) = some old)
    (p : ρ → Bool) : (t.put r).countWhere p + (if p old then 1 else 0) =
      t.countWhere p + (if p r then 1 else 0) := by
  have hold : old ∈ t.rows := List.mem_of_find?_eq_some h
  have hkey : key old = key r := key_of_find? h
  have htaken : key r ∈ t.rows.map key := hkey ▸ List.mem_map_of_mem hold
  have hrows : (t.put r).rows = t.rows.map fun s => if key s = key r then r else s := by
    simp only [put, htaken, dif_pos]
  unfold countWhere
  rw [hrows]
  obtain ⟨before, after, hsplit⟩ := List.append_of_mem hold
  have hnodup := t.nodup_keys
  rw [hsplit, List.map_append, List.map_cons, List.nodup_append] at hnodup
  obtain ⟨-, hafter, hcross⟩ := hnodup
  have hsame : ∀ l : List ρ, (∀ s ∈ l, key s ≠ key r) →
      l.map (fun s => if key s = key r then r else s) = l := by
    intro l hl
    conv_rhs => rw [← List.map_id l]
    exact List.map_congr_left fun s hs => by rw [if_neg (hl s hs), id]
  have hbefore : ∀ s ∈ before, key s ≠ key r := fun s hs heq =>
    hcross (key s) (List.mem_map_of_mem hs) (key old) List.mem_cons_self (heq.trans hkey.symm)
  have hrest : ∀ s ∈ after, key s ≠ key r := fun s hs heq =>
    (List.nodup_cons.mp hafter).1 (hkey ▸ heq ▸ List.mem_map_of_mem hs)
  rw [hsplit, List.map_append, List.map_cons, if_pos hkey, hsame before hbefore, hsame after hrest]
  simp only [List.countP_append, List.countP_cons]
  omega

/-- The rows that meet a condition, after the row under a key is changed. -/
theorem countWhere_updateWhere {t : Table key} {k : κ} {r : ρ} (h : t.find? k = some r) (f : ρ → ρ)
    (hf : ∀ r, key (f r) = key r) (p : ρ → Bool) :
    (t.updateWhere (fun s => key s = k) f hf).countWhere p + (if p r then 1 else 0) =
      t.countWhere p + (if p (f r) then 1 else 0) := by
  have hkey : key r = k := key_of_find? h
  have hfind : t.find? (key (f r)) = some r := by rw [hf, hkey, h]
  have htaken : key (f r) ∈ t.rows.map key := by
    rw [hf]
    exact List.mem_map_of_mem (List.mem_of_find?_eq_some h)
  have hrows : (t.updateWhere (fun s => key s = k) f hf).rows = (t.put (f r)).rows := by
    simp only [updateWhere, put, htaken, dif_pos]
    refine List.map_congr_left ?_
    intro s hs
    rw [hf, hkey]
    by_cases hsk : key s = k
    · rw [if_pos (decide_eq_true hsk), if_pos hsk,
        eq_of_key hs (List.mem_of_find?_eq_some h) (hsk.trans hkey.symm)]
    · rw [if_neg (by rwa [decide_eq_true_eq]), if_neg hsk]
  rw [countWhere, hrows]
  exact countWhere_put_of_some hfind p

/-- The same for a key that was free. -/
theorem countWhere_put_of_none {t : Table key} {r : ρ} (h : t.find? (key r) = none)
    (p : ρ → Bool) : (t.put r).countWhere p = t.countWhere p + (if p r then 1 else 0) := by
  have hfree : key r ∉ t.rows.map key := find?_eq_none.mp h
  have hrows : (t.put r).rows = t.rows ++ [r] := by
    simp only [put, hfree, dif_neg, not_false_eq_true]
  unfold countWhere
  rw [hrows, List.countP_append, List.countP_singleton]

/-- A condition that fixes the key reaches no row exactly when the row under that
key, if there is one, fails the rest of the condition. -/
theorem countWhere_key_eq_zero {t : Table key} {k : κ} {q : ρ → Bool} :
    t.countWhere (fun r => key r = k && q r) = 0 ↔ ∀ r, t.find? k = some r → q r = false := by
  rw [countWhere, List.countP_eq_zero]
  constructor
  · intro h r hr
    have := h r (List.mem_of_find?_eq_some hr)
    simpa [key_of_find? hr] using this
  · intro h r hmem
    by_cases hk : key r = k
    · simp [h r (hk ▸ mem_rows_iff.mp hmem)]
    · simp [hk]

end Table

end OsModa
