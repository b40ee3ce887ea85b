import OsModa.Base.Table

/-!
JavaScript's `Map`: pairs of a key and a value, oldest key first. `get?` after `set` and
`delete` is all that its users need to know.
-/

namespace OsModa

abbrev JsMap (κ ν : Type) := Table (Prod.fst : κ × ν → κ)

namespace JsMap

variable {κ ν : Type} [DecidableEq κ]

def get? (m : JsMap κ ν) (k : κ) : Option ν := (m.find? k).map (·.2)

def set (m : JsMap κ ν) (k : κ) (v : ν) : JsMap κ ν := m.put (k, v)

def delete (m : JsMap κ ν) (k : κ) : JsMap κ ν := m.erase k

@[simp] theorem get?_empty (k : κ) : get? (Table.empty : JsMap κ ν) k = none := rfl

theorem get?_set (m : JsMap κ ν) (k k' : κ) (v : ν) :
    get? (set m k v) k' = if k = k' then some v else get? m k' := by
  unfold get? set
  rw [Table.find?_put]
  split <;> rfl

theorem get?_delete (m : JsMap κ ν) (k k' : κ) :
    get? (delete m k) k' = if k = k' then none else get? m k' := by
  unfold get? delete
  rw [Table.find?_erase]
  split <;> rfl

end JsMap

end OsModa
