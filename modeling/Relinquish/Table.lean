/-!
Tables of objects under numbers that are given out one after the other. A number that has not been
given out stands for the default object, so that reading and changing a table never fail: what
`get` yields after a change or an addition needs no side condition.
-/

namespace Relinquish

structure Table (α : Type) where
  entries : List α := []

namespace Table

variable {α : Type} [Inhabited α]

def get (table : Table α) (i : Nat) : α :=
  table.entries[i]?.getD default

def size (table : Table α) : Nat :=
  table.entries.length

def push (table : Table α) (object : α) : Table α :=
  ⟨table.entries ++ [object]⟩

def updateAt (change : α → α) : Nat → List α → List α
  | 0, [] => [change default]
  | 0, object :: rest => change object :: rest
  | i + 1, [] => default :: updateAt change i []
  | i + 1, object :: rest => object :: updateAt change i rest

def update (table : Table α) (i : Nat) (change : α → α) : Table α :=
  ⟨updateAt change i table.entries⟩

def set (table : Table α) (i : Nat) (object : α) : Table α :=
  table.update i fun _ => object

theorem getD_updateAt (change : α → α) (i j : Nat) (objects : List α) :
    (updateAt change i objects)[j]?.getD default =
      if i = j then change (objects[j]?.getD default) else objects[j]?.getD default := by
  induction i generalizing j objects with
  | zero =>
      cases objects <;> cases j <;> simp [updateAt]
  | succ i ih =>
      cases objects with
      | nil =>
          cases j with
          | zero => simp [updateAt]
          | succ j => simpa [updateAt] using ih j []
      | cons object rest =>
          cases j with
          | zero => simp [updateAt]
          | succ j => simpa [updateAt] using ih j rest

@[simp] theorem get_update (table : Table α) (i j : Nat) (change : α → α) :
    (table.update i change).get j = if i = j then change (table.get j) else table.get j :=
  getD_updateAt change i j table.entries

theorem get_push (table : Table α) (object : α) (j : Nat) :
    (table.push object).get j = if j = table.size then object else table.get j := by
  rcases Nat.lt_trichotomy j table.entries.length with less | equal | more
  · simp [push, get, size, List.getElem?_append_left less, Nat.ne_of_lt less]
  · simp [push, get, size, equal]
  · have beyond : (table.entries ++ [object])[j]? = none := by
      simp only [List.getElem?_eq_none_iff, List.length_append, List.length_singleton]
      omega
    simp [push, get, size, beyond, List.getElem?_eq_none (Nat.le_of_lt more), Nat.ne_of_gt more]

@[simp] theorem get_size (table : Table α) : table.get table.size = default := by
  simp [get, size]

omit [Inhabited α] in
@[simp] theorem size_push (table : Table α) (object : α) :
    (table.push object).size = table.size + 1 := by
  simp [push, size]

end Table

end Relinquish
