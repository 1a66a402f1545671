/-!
# Tables

A table gives each of its names one value. Its entries stand in the order of the names, which is
the order of their code points.

- `Table.get?`, `Table.insert`, `Table.erase`: look-up and change of one name.
- `Table.get?_insert`, `Table.get?_erase`: a change of one name leaves the others alone.
- `Table.mem_of_get?`, `Table.mem_insert`, `Table.mem_of_mem_erase`: where an entry comes from.
-/

namespace CalcDoc

/-- Names and their values, in the order of the names. -/
abbrev Table (α : Type) := List (String × α)

namespace Table

variable {α : Type}

/-- The value of a name. -/
def get? (t : Table α) (x : String) : Option α :=
  match t with
  | [] => none
  | (y, a) :: t => if x = y then some a else get? t x

/-- Whether the name has a value. -/
def contains (t : Table α) (x : String) : Bool :=
  (t.get? x).isSome

/-- The table with a value for a name, in place of any value that it had. -/
def insert (t : Table α) (x : String) (a : α) : Table α :=
  match t with
  | [] => [(x, a)]
  | (y, b) :: t =>
    if x = y then (x, a) :: t
    else if x < y then (x, a) :: (y, b) :: t
    else (y, b) :: insert t x a

/-- The table without a name. -/
def erase (t : Table α) (x : String) : Table α :=
  match t with
  | [] => []
  | (y, b) :: t => if x = y then erase t x else (y, b) :: erase t x

@[simp] theorem get?_nil (x : String) : get? ([] : Table α) x = none := rfl

theorem get?_insert (t : Table α) (x y : String) (a : α) :
    (t.insert x a).get? y = if y = x then some a else t.get? y := by
  induction t with
  | nil => simp [insert, get?]
  | cons p t ih => grind [insert, get?]

theorem get?_erase (t : Table α) (x y : String) :
    (t.erase x).get? y = if y = x then none else t.get? y := by
  induction t with
  | nil => simp [erase, get?]
  | cons p t ih => grind [erase, get?]

theorem mem_of_get? {t : Table α} {x : String} {a : α} (h : t.get? x = some a) : (x, a) ∈ t := by
  induction t with
  | nil => cases h
  | cons p t ih => grind [get?]

/-- An entry of a changed table is the new one, or was there before. -/
theorem mem_insert {t : Table α} {x : String} {a : α} {p : String × α} (h : p ∈ t.insert x a) :
    p = (x, a) ∨ p ∈ t := by
  induction t with
  | nil => exact .inl (List.mem_singleton.1 h)
  | cons q t ih => grind [insert]

theorem mem_of_mem_erase {t : Table α} {x : String} {p : String × α} (h : p ∈ t.erase x) :
    p ∈ t := by
  induction t with
  | nil => exact h
  | cons q t ih => grind [erase]

end Table

end CalcDoc
