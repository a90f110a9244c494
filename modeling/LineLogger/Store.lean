namespace LineLogger

/-- Values under numbers. What was not put under a number reads as `fallback`; numbers from `size`
on have never been given out. -/
structure Store (α : Type) where
  entries : List (Nat × α) := []
  size : Nat := 0
  fallback : α

namespace Store

variable {α : Type}

def get (s : Store α) (i : Nat) : α := (s.entries.lookup i).getD s.fallback

def put (s : Store α) (i : Nat) (a : α) : Store α :=
  { s with entries := (i, a) :: s.entries.filter (fun e => e.1 != i) }

def modify (s : Store α) (i : Nat) (f : α → α) : Store α := s.put i (f (s.get i))

def add (s : Store α) (a : α) : Store α := { s.put s.size a with size := s.size + 1 }

theorem lookup_filter_ne {κ : Type} [BEq κ] [LawfulBEq κ] {i j : κ} (h : j ≠ i)
    (es : List (κ × α)) : (es.filter (fun e => e.1 != i)).lookup j = es.lookup j := by
  induction es with
  | nil => rfl
  | cons e es ih =>
    obtain ⟨k, a⟩ := e
    by_cases hk : k = i
    · subst hk
      have hj : (j == k) = false := by simpa using h
      simp [List.lookup_cons, hj, ih]
    · simp [List.lookup_cons, hk, ih]

theorem get_put (s : Store α) (i j : Nat) (a : α) :
    (s.put i a).get j = if j = i then a else s.get j := by
  by_cases h : j = i
  · subst h
    simp [get, put]
  · have hj : (j == i) = false := by simpa using h
    simp [get, put, List.lookup_cons, hj, h, lookup_filter_ne h]

@[simp]
theorem get_put_self (s : Store α) (i : Nat) (a : α) : (s.put i a).get i = a := by
  simp [get_put]

theorem get_put_of_ne (s : Store α) {i j : Nat} (a : α) (h : j ≠ i) :
    (s.put i a).get j = s.get j := by
  simp [get_put, h]

theorem put_put (s : Store α) (i : Nat) (a b : α) : (s.put i a).put i b = s.put i b := by
  simp [put, List.filter_filter]

theorem get_modify (s : Store α) (i j : Nat) (f : α → α) :
    (s.modify i f).get j = if j = i then f (s.get j) else s.get j := by
  rw [modify, get_put]
  split
  · next h => rw [h]
  · rfl

@[simp]
theorem size_put (s : Store α) (i : Nat) (a : α) : (s.put i a).size = s.size := rfl

@[simp]
theorem size_modify (s : Store α) (i : Nat) (f : α → α) : (s.modify i f).size = s.size := rfl

@[simp]
theorem size_add (s : Store α) (a : α) : (s.add a).size = s.size + 1 := rfl

theorem get_add (s : Store α) (j : Nat) (a : α) :
    (s.add a).get j = if j = s.size then a else s.get j :=
  get_put s s.size j a

theorem modify_add (s : Store α) (a : α) (f : α → α) :
    (s.add a).modify s.size f = s.add (f a) := by
  have hg : (s.add a).get s.size = a := by rw [get_add, if_pos rfl]
  rw [modify, hg]
  exact congrArg (fun t : Store α => { t with size := s.size + 1 }) (put_put s s.size a (f a))

end Store

end LineLogger
