import Mathlib.Data.List.FinRange
import Mathlib.Data.List.Sort
import Mathlib.Data.String.Basic
import ScopeGraph.Scope.CallChain

/-!
# Chains that count as one

The key of a chain is its sorted list of segments, so two chains have the same key if and only if
one is a reordering of the other.  What is left after repeated chains are dropped has no two chains
of one key: of the chains that are reorderings of each other the first one stays, at its position.
-/
set_option autoImplicit false

namespace ScopeGraph.CallChain

theorem insertSorted_eq (segment : String) (segments : List String) :
    insertSorted segment segments = segments.orderedInsert (· ≤ ·) segment := by
  induction segments with
  | nil => rfl
  | cons head rest ih => rw [insertSorted, List.orderedInsert_cons, ih]

theorem key_eq (chain : CallChain) : chain.key = chain.segments.insertionSort (· ≤ ·) := by
  obtain ⟨segments⟩ := chain
  induction segments with
  | nil => rfl
  | cons head rest ih =>
      rw [List.insertionSort_cons, ← ih, ← insertSorted_eq]
      rfl

theorem key_eq_iff (first second : CallChain) :
    first.key = second.key ↔ first.segments.Perm second.segments := by
  rw [key_eq, key_eq]
  have left := List.perm_insertionSort (· ≤ ·) first.segments
  have right := List.perm_insertionSort (· ≤ ·) second.segments
  constructor
  · intro same
    rw [same] at left
    exact left.symm.trans right
  · intro reordered
    have sorted := List.pairwise_insertionSort (· ≤ ·) first.segments
    have alsoSorted := List.pairwise_insertionSort (· ≤ ·) second.segments
    exact (left.trans (reordered.trans right.symm)).eq_of_pairwise' sorted alsoSorted

theorem uniqueBeyond_sublist (seen : List (List String)) (chains : List CallChain) :
    (uniqueBeyond seen chains).Sublist chains := by
  fun_induction uniqueBeyond seen chains with
  | case1 seen => exact List.Sublist.refl []
  | case2 seen chain rest known ih => exact ih.cons chain
  | case3 seen chain rest fresh ih => exact ih.cons_cons chain

theorem key_notMem_of_mem_uniqueBeyond {seen : List (List String)} {chains : List CallChain}
    {chain : CallChain} (kept : chain ∈ uniqueBeyond seen chains) : chain.key ∉ seen := by
  fun_induction uniqueBeyond seen chains with
  | case1 seen => cases kept
  | case2 seen head rest known ih => exact ih kept
  | case3 seen head rest fresh ih =>
      rcases List.mem_cons.mp kept with rfl | later
      · exact fresh
      · exact fun known => ih later (List.mem_cons_of_mem head.key known)

theorem pairwise_uniqueBeyond (seen : List (List String)) (chains : List CallChain) :
    (uniqueBeyond seen chains).Pairwise fun first second => first.key ≠ second.key := by
  fun_induction uniqueBeyond seen chains with
  | case1 seen => exact List.Pairwise.nil
  | case2 seen chain rest known ih => exact ih
  | case3 seen chain rest fresh ih =>
      refine List.Pairwise.cons ?_ ih
      intro later kept same
      exact key_notMem_of_mem_uniqueBeyond kept (same ▸ List.mem_cons_self)

theorem unique_sublist (chains : List CallChain) : (unique chains).Sublist chains :=
  uniqueBeyond_sublist [] chains

theorem pairwise_unique (chains : List CallChain) :
    (unique chains).Pairwise fun first second => ¬ first.segments.Perm second.segments := by
  refine (pairwise_uniqueBeyond [] chains).imp ?_
  intro first second differ reordered
  exact differ ((key_eq_iff first second).mpr reordered)

/-! ## The chains that stay -/

theorem map_get_filter_cons {α : Type} (head : α) (rest : List α)
    (keeps : Fin (head :: rest).length → Bool) :
    ((List.finRange (head :: rest).length).filter keeps).map (head :: rest).get =
      (if keeps 0 then [head] else []) ++
        ((List.finRange rest.length).filter fun i => keeps i.succ).map rest.get := by
  have later : (((List.finRange rest.length).map Fin.succ).filter keeps).map (head :: rest).get =
      ((List.finRange rest.length).filter fun i => keeps i.succ).map rest.get := by
    rw [List.filter_map, List.map_map]
    rfl
  have positions : List.finRange (head :: rest).length =
      0 :: (List.finRange rest.length).map Fin.succ := List.finRange_succ
  rw [positions, List.filter_cons]
  split
  · rw [List.map_cons, later]
    rfl
  · exact later

theorem forall_before_succ {α : Type} (head : α) (rest : List α) (i : Fin rest.length)
    (holds : α → Prop) :
    (∀ j : Fin (head :: rest).length, j < i.succ → holds (head :: rest)[j]) ↔
      holds head ∧ ∀ j < i, holds rest[j] := by
  constructor
  · intro all
    exact ⟨all 0 i.succ_pos, fun j less => all j.succ (Fin.succ_lt_succ_iff.mpr less)⟩
  · rintro ⟨first, later⟩ j less
    induction j using Fin.cases with
    | zero => exact first
    | succ j => exact later j (Fin.succ_lt_succ_iff.mp less)

/-- The keys seen so far are dropped everywhere, and the key of each chain is dropped behind it. -/
theorem uniqueBeyond_eq (seen : List (List String)) (chains : List CallChain) :
    uniqueBeyond seen chains =
      ((List.finRange chains.length).filter fun i =>
        chains[i].key ∉ seen ∧ ∀ j < i, chains[j].key ≠ chains[i].key).map chains.get := by
  fun_induction uniqueBeyond seen chains with
  | case1 seen => rfl
  | case2 seen chain rest known ih =>
      rw [map_get_filter_cons, ih, if_neg (by simp [known]), List.nil_append]
      congr 1
      refine List.filter_congr fun i _ => decide_eq_decide.mpr ?_
      have here : (chain :: rest)[i.succ] = rest[i] := rfl
      rw [here, forall_before_succ chain rest i (·.key ≠ rest[i].key)]
      constructor
      · rintro ⟨unseen, later⟩
        exact ⟨unseen, fun same => unseen (same ▸ known), later⟩
      · rintro ⟨unseen, _, later⟩
        exact ⟨unseen, later⟩
  | case3 seen chain rest fresh ih =>
      rw [map_get_filter_cons, ih, if_pos (by simp [fresh]), List.singleton_append]
      congr 2
      refine List.filter_congr fun i _ => decide_eq_decide.mpr ?_
      have here : (chain :: rest)[i.succ] = rest[i] := rfl
      rw [here, forall_before_succ chain rest i (·.key ≠ rest[i].key), List.mem_cons, not_or]
      constructor
      · rintro ⟨⟨apart, unseen⟩, later⟩
        exact ⟨unseen, Ne.symm apart, later⟩
      · rintro ⟨unseen, apart, later⟩
        exact ⟨⟨Ne.symm apart, unseen⟩, later⟩

theorem uniqueBeyond_of_pairwise {seen : List (List String)} {chains : List CallChain}
    (unseen : ∀ chain ∈ chains, chain.key ∉ seen)
    (differ : chains.Pairwise fun first second => first.key ≠ second.key) :
    uniqueBeyond seen chains = chains := by
  fun_induction uniqueBeyond seen chains with
  | case1 seen => rfl
  | case2 seen chain rest known ih => exact absurd known (unseen chain List.mem_cons_self)
  | case3 seen chain rest fresh ih =>
      obtain ⟨here, later⟩ := List.pairwise_cons.mp differ
      rw [ih ?_ later]
      intro other member known
      rcases List.mem_cons.mp known with same | known
      · exact here other member same.symm
      · exact unseen other (List.mem_cons_of_mem chain member) known

theorem exists_mem_uniqueBeyond {seen : List (List String)} {chains : List CallChain}
    {chain : CallChain} (member : chain ∈ chains) (unseen : chain.key ∉ seen) :
    ∃ kept ∈ uniqueBeyond seen chains, kept.key = chain.key := by
  fun_induction uniqueBeyond seen chains with
  | case1 seen => cases member
  | case2 seen head rest known ih =>
      rcases List.mem_cons.mp member with rfl | later
      · exact absurd known unseen
      · exact ih later unseen
  | case3 seen head rest fresh ih =>
      by_cases same : head.key = chain.key
      · exact ⟨head, List.mem_cons_self, same⟩
      · have later : chain ∈ rest := by
          rcases List.mem_cons.mp member with rfl | later
          · exact absurd rfl same
          · exact later
        have stillUnseen : chain.key ∉ head.key :: seen := by
          rw [List.mem_cons, not_or]
          exact ⟨Ne.symm same, unseen⟩
        obtain ⟨kept, inRest, reordered⟩ := ih later stillUnseen
        exact ⟨kept, List.mem_cons_of_mem head inRest, reordered⟩

/-- Chains count as one if they are reorderings of each other.  The chains that stay are, in their
order, those that are no reordering of an earlier one: no two of them count as one, each chain
counts as one with a chain that stays, and nothing is left to drop. -/
theorem first_of_reordered_chains_stays (chains : List CallChain) :
    (∀ first second : CallChain,
      first.key = second.key ↔ first.segments.Perm second.segments) ∧
    unique chains =
      ((List.finRange chains.length).filter fun i =>
        ∀ j < i, ¬ chains[j].segments.Perm chains[i].segments).map chains.get ∧
    ((unique chains).Pairwise fun first second => ¬ first.segments.Perm second.segments) ∧
    (∀ chain ∈ chains, ∃ kept ∈ unique chains, kept.segments.Perm chain.segments) ∧
    unique (unique chains) = unique chains := by
  refine ⟨key_eq_iff, ?_, pairwise_unique chains, ?_, ?_⟩
  · simp only [unique, uniqueBeyond_eq, List.not_mem_nil, not_false_eq_true, true_and, ne_eq,
      key_eq_iff]
  · intro chain member
    obtain ⟨kept, stays, same⟩ := exists_mem_uniqueBeyond member List.not_mem_nil
    exact ⟨kept, stays, (key_eq_iff kept chain).mp same⟩
  · exact uniqueBeyond_of_pairwise (fun _ _ => List.not_mem_nil) (pairwise_uniqueBeyond [] chains)

end ScopeGraph.CallChain
