/-!
# Tables of rows found by a key

A write updates the first row with its key, or adds a row at the end.  Rows are never taken away
and never move, so that a list of writes acts on each row by itself: the row that stands first for
a key takes the writes to that key in turn, and the other writes pass it by.
-/
set_option autoImplicit false

namespace ScopeGraph

/-- One change of a table: what becomes of the row with the key, or the row to add if there is
none. -/
structure Write {ρ κ : Type} (keyOf : ρ → κ) where
  key : κ
  fresh : ρ
  update : ρ → ρ
  keyOf_fresh : keyOf fresh = key
  keyOf_update : ∀ row, keyOf (update row) = keyOf row

namespace Write

variable {ρ κ : Type} {keyOf : ρ → κ}

/-- Takes updates in turn. -/
def updateAll (writes : List (Write keyOf)) (row : ρ) : ρ :=
  writes.foldl (fun current write => write.update current) row

@[simp] theorem updateAll_nil (row : ρ) : updateAll ([] : List (Write keyOf)) row = row := rfl

@[simp] theorem updateAll_cons (write : Write keyOf) (rest : List (Write keyOf)) (row : ρ) :
    updateAll (write :: rest) row = updateAll rest (write.update row) := rfl

theorem keyOf_updateAll (writes : List (Write keyOf)) (row : ρ) :
    keyOf (updateAll writes row) = keyOf row := by
  induction writes generalizing row with
  | nil => rfl
  | cons write rest ih => rw [updateAll_cons, ih, write.keyOf_update]

variable [DecidableEq κ]

def into (write : Write keyOf) : List ρ → List ρ
  | [] => [write.fresh]
  | row :: rest =>
    if keyOf row = write.key then write.update row :: rest else row :: write.into rest

def allInto (writes : List (Write keyOf)) (rows : List ρ) : List ρ :=
  writes.foldl (fun current write => write.into current) rows

@[simp] theorem allInto_nil (rows : List ρ) : allInto ([] : List (Write keyOf)) rows = rows := rfl

@[simp] theorem allInto_cons (write : Write keyOf) (rest : List (Write keyOf)) (rows : List ρ) :
    allInto (write :: rest) rows = allInto rest (write.into rows) := rfl

theorem allInto_append (first second : List (Write keyOf)) (rows : List ρ) :
    allInto (first ++ second) rows = allInto second (allInto first rows) := by
  simp [allInto, List.foldl_append]

/-! ## Writes act on each row by itself -/

/-- The writes to a key. -/
def on (key : κ) (writes : List (Write keyOf)) : List (Write keyOf) :=
  writes.filter fun write => write.key = key

/-- The writes to other keys. -/
def off (key : κ) (writes : List (Write keyOf)) : List (Write keyOf) :=
  writes.filter fun write => write.key ≠ key

theorem allInto_row (writes : List (Write keyOf)) (row : ρ) (rest : List ρ) :
    allInto writes (row :: rest) =
      updateAll (on (keyOf row) writes) row :: allInto (off (keyOf row) writes) rest := by
  induction writes generalizing row rest with
  | nil => rfl
  | cons write others ih =>
      rw [allInto_cons, into]
      by_cases same : keyOf row = write.key
      · rw [if_pos same, ih, write.keyOf_update]
        simp [on, off, same]
      · have differ : write.key ≠ keyOf row := fun equal => same equal.symm
        rw [if_neg same, ih]
        simp [on, off, differ]

theorem allInto_first (write : Write keyOf) (others : List (Write keyOf)) :
    allInto (write :: others) [] =
      updateAll (on write.key others) write.fresh :: allInto (off write.key others) [] := by
  rw [allInto_cons, into, allInto_row, write.keyOf_fresh]

/-! ## Finding rows -/

/-- The first row with a key. -/
def lookup (keyOf : ρ → κ) (key : κ) (rows : List ρ) : Option ρ :=
  rows.find? fun row => keyOf row = key

theorem lookup_into (write : Write keyOf) (key : κ) (rows : List ρ) :
    lookup keyOf key (write.into rows) =
      if write.key = key then some ((lookup keyOf key rows).elim write.fresh write.update)
      else lookup keyOf key rows := by
  induction rows with
  | nil =>
      by_cases same : write.key = key <;> simp [into, lookup, write.keyOf_fresh, same]
  | cons row rest ih =>
      simp only [lookup] at ih ⊢
      rw [into]
      by_cases here : keyOf row = write.key
      · rw [if_pos here]
        by_cases same : write.key = key <;> simp [write.keyOf_update, here, same]
      · rw [if_neg here]
        by_cases found : keyOf row = key
        · have apart : write.key ≠ key := fun equal => here (found.trans equal.symm)
          simp [found, apart]
        · simp [found, ih]

/-- The writes to a key decide on its row, one after the other. -/
theorem lookup_allInto (writes : List (Write keyOf)) (key : κ) (rows : List ρ) :
    lookup keyOf key (allInto writes rows) =
      (on key writes).foldl (fun found write => some (found.elim write.fresh write.update))
        (lookup keyOf key rows) := by
  induction writes generalizing rows with
  | nil => rfl
  | cons write rest ih =>
      rw [allInto_cons, ih, lookup_into]
      by_cases same : write.key = key <;> simp [on, same]

theorem mem_keys_into (write : Write keyOf) (key : κ) (rows : List ρ) :
    key ∈ (write.into rows).map keyOf ↔ key = write.key ∨ key ∈ rows.map keyOf := by
  induction rows with
  | nil => simp [into, write.keyOf_fresh]
  | cons row rest ih =>
      rw [into]
      by_cases here : keyOf row = write.key
      · simp [here, write.keyOf_update]
      · simp only [if_neg here, List.map_cons, List.mem_cons, ih]
        exact or_left_comm

theorem mem_keys_allInto (writes : List (Write keyOf)) (key : κ) (rows : List ρ) :
    key ∈ (allInto writes rows).map keyOf ↔
      (∃ write ∈ writes, write.key = key) ∨ key ∈ rows.map keyOf := by
  induction writes generalizing rows with
  | nil => simp
  | cons write rest ih =>
      rw [allInto_cons, ih, mem_keys_into]
      constructor
      · rintro (⟨later, member, same⟩ | same | old)
        · exact .inl ⟨later, List.mem_cons_of_mem write member, same⟩
        · exact .inl ⟨write, List.mem_cons_self, same.symm⟩
        · exact .inr old
      · rintro (⟨later, member, same⟩ | old)
        · rcases List.mem_cons.mp member with first | member
          · subst first
            exact .inr (.inl same.symm)
          · exact .inl ⟨later, member, same⟩
        · exact .inr (.inr old)

theorem nodup_keys_into (write : Write keyOf) (rows : List ρ) (distinct : (rows.map keyOf).Nodup) :
    ((write.into rows).map keyOf).Nodup := by
  induction rows with
  | nil => simp [into]
  | cons row rest ih =>
      obtain ⟨absent, others⟩ := List.nodup_cons.mp distinct
      rw [into]
      by_cases here : keyOf row = write.key
      · rw [if_pos here, List.map_cons, write.keyOf_update]
        exact distinct
      · rw [if_neg here, List.map_cons]
        refine List.nodup_cons.mpr ⟨?_, ih others⟩
        rw [mem_keys_into]
        rintro (same | old)
        · exact here same
        · exact absent old

theorem nodup_keys_allInto (writes : List (Write keyOf)) (rows : List ρ)
    (distinct : (rows.map keyOf).Nodup) : ((allInto writes rows).map keyOf).Nodup := by
  induction writes generalizing rows with
  | nil => exact distinct
  | cons write rest ih => exact ih _ (nodup_keys_into write rows distinct)

theorem mem_iff_lookup (rows : List ρ) (distinct : (rows.map keyOf).Nodup) (row : ρ) :
    row ∈ rows ↔ lookup keyOf (keyOf row) rows = some row := by
  induction rows with
  | nil => simp [lookup]
  | cons head rest ih =>
      obtain ⟨absent, others⟩ := List.nodup_cons.mp distinct
      have later := ih others
      simp only [lookup] at later ⊢
      by_cases here : keyOf head = keyOf row
      · have outside : row ∉ rest := by
          intro member
          exact absent (here ▸ List.mem_map_of_mem member)
        simp [here, outside, eq_comm]
      · have apart : row ≠ head := fun equal => here (congrArg keyOf equal).symm
        simp [here, apart, later]

/-! ## Writing twice -/

/-- However some of the writes are picked, a row that has taken them is left as it is by them. -/
def Absorbing (writes : List (Write keyOf)) : Prop :=
  ∀ part : List (Write keyOf), part.Sublist writes →
    ∀ row, updateAll part (updateAll part row) = updateAll part row

omit [DecidableEq κ] in
theorem Absorbing.sublist {part writes : List (Write keyOf)} (absorbing : Absorbing writes)
    (picked : part.Sublist writes) : Absorbing part := by
  intro smaller inside
  exact absorbing smaller (inside.trans picked)

/-- The row that a write adds is one that the write would leave as it is. -/
def Settled (writes : List (Write keyOf)) : Prop :=
  ∀ write ∈ writes, write.update write.fresh = write.fresh

theorem allInto_twice_from_nothing (count : Nat) :
    ∀ writes : List (Write keyOf), writes.length ≤ count → Absorbing writes → Settled writes →
      allInto writes (allInto writes []) = allInto writes [] := by
  -- The first write takes all writes to its key with it, so the induction is on the length.
  induction count with
  | zero =>
      intro writes short _ _
      have empty : writes = [] := List.length_eq_zero_iff.mp (Nat.le_zero.mp short)
      rw [empty]
      rfl
  | succ count ih =>
      intro writes short absorbing settled
      cases writes with
      | nil => rfl
      | cons write others =>
          have first : on write.key (write :: others) = write :: on write.key others := by
            simp [on]
          have later : off write.key (write :: others) = off write.key others := by
            simp [off]
          have made : updateAll (on write.key others) write.fresh =
              updateAll (on write.key (write :: others)) write.fresh := by
            rw [first, updateAll_cons, settled write List.mem_cons_self]
          have head := absorbing (on write.key (write :: others)) List.filter_sublist write.fresh
          have inside : (off write.key others).Sublist (write :: others) :=
            List.filter_sublist.trans (List.sublist_cons_self write others)
          have shorter : (off write.key others).length ≤ count := by
            have bound := (List.filter_sublist
              (p := fun other => decide (other.key ≠ write.key)) (l := others)).length_le
            simp only [List.length_cons] at short
            exact Nat.le_trans bound (by omega)
          have tail := ih (off write.key others) shorter (absorbing.sublist inside)
            (fun other member => settled other (inside.subset member))
          have key : keyOf (updateAll (on write.key others) write.fresh) = write.key :=
            (keyOf_updateAll _ _).trans write.keyOf_fresh
          rw [allInto_first, allInto_row, key, later, tail, made, head]

/-- Writing a whole list a second time changes no row. -/
theorem allInto_twice (writes : List (Write keyOf)) (rows : List ρ)
    (absorbing : Absorbing writes) (settled : Settled writes) :
    allInto writes (allInto writes rows) = allInto writes rows := by
  induction rows generalizing writes with
  | nil => exact allInto_twice_from_nothing writes.length writes (Nat.le_refl _) absorbing settled
  | cons row rest ih =>
      have head := absorbing (on (keyOf row) writes) List.filter_sublist row
      have inside : (off (keyOf row) writes).Sublist writes := List.filter_sublist
      have tail := ih (off (keyOf row) writes) (absorbing.sublist inside)
        (fun write member => settled write (inside.subset member))
      have key : keyOf (updateAll (on (keyOf row) writes) row) = keyOf row := keyOf_updateAll _ _
      rw [allInto_row, allInto_row, key, head, tail]

end Write
end ScopeGraph
