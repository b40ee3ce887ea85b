import OsModa.Base.Js

/-!
The values that JSON gives to a program in JavaScript, and what the program sees of them: which
count as true, which are equal, what text they become, what fields they have, and what is left of
them when they are written as JSON again.
-/

namespace OsModa.Js

/-- A value that was read as JSON. A number is the text that `String` makes of it, which tells all
numbers apart but the two zeros. -/
inductive Value where
  | null
  | bool (b : Bool)
  | number (text : JsString)
  | string (s : JsString)
  | array (items : List Value)
  | object (fields : List (JsString × Value))

/-- The properties of an object. -/
abbrev Fields := List (JsString × Value)

namespace Fields

/-- `o[name]`; `none` stands for `undefined`. -/
def get? : Fields → JsString → Option Value
  | [], _ => none
  | (key, v) :: rest, name => if key = name then some v else get? rest name

/-- `o[name] = v` -/
def set (name : JsString) (v : Value) : Fields → Fields
  | [] => [(name, v)]
  | (key, w) :: rest => if key = name then (key, v) :: rest else (key, w) :: set name v rest

theorem get?_set (fields : Fields) (name name' : JsString) (v : Value) :
    get? (set name v fields) name' = if name = name' then some v else get? fields name' := by
  induction fields with
  | nil => rfl
  | cons field rest ih =>
    obtain ⟨key, w⟩ := field
    rw [set]
    by_cases hkey : key = name
    · subst hkey
      rw [if_pos rfl, get?, get?]
      split <;> rfl
    · rw [if_neg hkey, get?, ih, get?]
      by_cases hname : name = name'
      · rw [if_pos hname, if_pos hname, if_neg (hname ▸ hkey)]
      · rw [if_neg hname, if_neg hname]

end Fields

namespace Value

/-- What an `if` takes a value for. -/
def truthy : Option Value → Bool
  | some (bool b) => b
  | some (number text) => text ≠ utf16 "0"
  | some (string s) => s ≠ []
  | some (array _) | some (object _) => true
  | some null | none => false

/-- `===`, of values that are not one object. -/
def strictEq : Option Value → Option Value → Bool
  | none, none => true
  | some null, some null => true
  | some (bool b), some (bool b') => b = b'
  | some (number text), some (number text') => text = text'
  | some (string s), some (string s') => s = s'
  | _, _ => false

theorem strictEq_string {v : Option Value} {s : JsString} :
    strictEq v (some (string s)) = true ↔ v = some (string s) := by
  cases v with
  | none => simp [strictEq]
  | some v => cases v <;> simp [strictEq]

theorem strictEq_comm (v w : Option Value) : strictEq v w = strictEq w v := by
  cases v with
  | none => cases w with
    | none => rfl
    | some w => cases w <;> rfl
  | some v => cases w with
    | none => cases v <;> rfl
    | some w => cases v <;> cases w <;> simp only [strictEq, eq_comm]

/-- `Number.isFinite`, of a number. -/
def isFinite (text : JsString) : Bool := text ≠ utf16 "Infinity" && text ≠ utf16 "-Infinity"

/-- `v < 0`, of a number. -/
def isNegative (text : JsString) : Bool := text.head? = some 45

/-- The properties that can be read; reading one of `null` throws. -/
def fields : Value → Option Fields
  | null => none
  | object fields => some fields
  | _ => some []

/-- The properties that `in` looks for; it throws where there is no object. -/
def ownFields : Value → Option Fields
  | object fields => some fields
  | array _ => some []
  | _ => none

/-! ### The text of a value -/

mutual

/-- `String(v)`; `none` where it throws: the property `toString` of an object is no function. -/
def toText : Value → Option JsString
  | null => some (utf16 "null")
  | bool b => some (utf16 (if b then "true" else "false"))
  | number text => some text
  | string s => some s
  | array items => joinTexts items
  | object fields =>
    if (Fields.get? fields (utf16 "toString")).isSome then none else some (utf16 "[object Object]")

/-- `join(",")`, where `null` is empty. -/
def joinTexts : List Value → Option JsString
  | [] => some []
  | [null] => some []
  | [v] => toText v
  | null :: rest => (joinTexts rest).map (44 :: ·)
  | v :: rest => do return (← toText v) ++ 44 :: (← joinTexts rest)

end

/-! ### Writing a value -/

mutual

/-- What is read back of a value that `JSON.stringify` wrote: no number is infinite. -/
def saved : Value → Value
  | null => null
  | bool b => bool b
  | number text => if isFinite text then number text else null
  | string s => string s
  | array items => array (savedItems items)
  | object fields => object (savedFields fields)

def savedItems : List Value → List Value
  | [] => []
  | v :: rest => saved v :: savedItems rest

def savedFields : Fields → Fields
  | [] => []
  | (key, v) :: rest => (key, saved v) :: savedFields rest

end

mutual

theorem saved_saved (v : Value) : saved (saved v) = saved v := by
  match v with
  | null | bool _ | string _ => simp only [saved]
  | number text =>
    rw [saved]
    split
    · rename_i hfinite
      rw [saved, if_pos hfinite]
    · rw [saved]
  | array items => rw [saved, saved, savedItems_savedItems items]
  | object fields => rw [saved, saved, savedFields_savedFields fields]

theorem savedItems_savedItems (items : List Value) :
    savedItems (savedItems items) = savedItems items := by
  match items with
  | [] => rfl
  | v :: rest => rw [savedItems, savedItems, saved_saved v, savedItems_savedItems rest]

theorem savedFields_savedFields (fields : Fields) :
    savedFields (savedFields fields) = savedFields fields := by
  match fields with
  | [] => rfl
  | (key, v) :: rest => rw [savedFields, savedFields, saved_saved v, savedFields_savedFields rest]

end

theorem map_saved_saved (v : Option Value) : (v.map saved).map saved = v.map saved := by
  cases v with
  | none => rfl
  | some v => rw [Option.map_some, Option.map_some, saved_saved]

theorem savedItems_eq_map (items : List Value) : savedItems items = items.map saved := by
  induction items with
  | nil => rfl
  | cons v rest ih => rw [savedItems, ih, List.map_cons]

theorem get?_savedFields (fields : Fields) (name : JsString) :
    (savedFields fields).get? name = (fields.get? name).map saved := by
  induction fields with
  | nil => rfl
  | cons field rest ih =>
    obtain ⟨key, v⟩ := field
    rw [savedFields, Fields.get?, Fields.get?, ih]
    split <;> rfl

theorem savedFields_set (fields : Fields) (name : JsString) (v : Value) :
    savedFields (fields.set name v) = (savedFields fields).set name (saved v) := by
  induction fields with
  | nil => rfl
  | cons field rest ih =>
    obtain ⟨key, w⟩ := field
    rw [Fields.set, savedFields, Fields.set]
    split
    · rfl
    · rw [savedFields, ih]

/-- Writing a value does not change whether it is a string. -/
theorem saved_eq_string {v : Value} {s : JsString} : saved v = string s ↔ v = string s := by
  cases v with
  | number text =>
    rw [saved]
    split <;> simp
  | _ => simp [saved]

end Value

end OsModa.Js
