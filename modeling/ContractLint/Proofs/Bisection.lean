/-
# Halving finds the place

A search by halving keeps two places: all entries in front of the first are up to the value that is
searched, all behind the second are beyond it (`Encloses`).  Each step moves one of the two to the
entry in the middle, which is right because the entries are in order, and at the end they meet.

* `Encloses.lower`, `Encloses.upper`: what one step keeps;
* `encloses_bisection`: by induction along the search, the two places meet where it ends;
* `bisection_append`: so it ends between two parts, if the first is up to the value and the second
  is not.
-/
import ContractLint.Bisection
import Mathlib.Order.Lattice
import Mathlib.Data.List.TakeWhile

namespace ContractLint

variable {α : Type} [LinearOrder α]

/-- The entries up to `x` end between the places `lo` and `hi`. -/
structure Encloses (entries : List α) (x : α) (lo hi : Nat) : Prop where
  le : lo ≤ hi
  le_length : hi ≤ entries.length
  front : ∀ n ∈ entries.take lo, n ≤ x
  back : ∀ n ∈ entries.drop hi, x < n

theorem Encloses.whole (entries : List α) (x : α) : Encloses entries x 0 entries.length where
  le := Nat.zero_le _
  le_length := Nat.le_refl _
  front := fun n hn => nomatch hn
  back := fun n hn => by
    rw [List.drop_length] at hn
    cases hn

variable {entries : List α} {x : α} {lo hi middle : Nat}

theorem pairwise_around (hsorted : entries.Pairwise (· < ·)) (h : middle < entries.length) :
    (∀ n ∈ entries.take middle, n < entries[middle]) ∧
      ∀ n ∈ entries.drop (middle + 1), entries[middle] < n := by
  rw [← List.take_append_drop middle entries, List.drop_eq_getElem_cons h] at hsorted
  obtain ⟨-, hback, hfront⟩ := List.pairwise_append.mp hsorted
  exact ⟨fun n hn => hfront n hn _ List.mem_cons_self, (List.pairwise_cons.mp hback).1⟩

theorem Encloses.lower (hsorted : entries.Pairwise (· < ·)) (h : Encloses entries x lo hi)
    (hlo : lo ≤ middle) (hhi : middle < hi) (hx : entries[middle]?.any (x < ·) = true) :
    Encloses entries x lo middle := by
  have hmiddle := Nat.lt_of_lt_of_le hhi h.le_length
  rw [List.getElem?_eq_getElem hmiddle, Option.any_some, decide_eq_true_eq] at hx
  refine ⟨hlo, Nat.le_of_lt hmiddle, h.front, fun n hn => ?_⟩
  rw [List.drop_eq_getElem_cons hmiddle] at hn
  rcases List.mem_cons.mp hn with rfl | hn
  · exact hx
  · exact lt_trans hx ((pairwise_around hsorted hmiddle).2 n hn)

theorem Encloses.upper (hsorted : entries.Pairwise (· < ·)) (h : Encloses entries x lo hi)
    (hhi : middle < hi) (hx : ¬ entries[middle]?.any (x < ·) = true) :
    Encloses entries x (middle + 1) hi := by
  have hmiddle := Nat.lt_of_lt_of_le hhi h.le_length
  rw [List.getElem?_eq_getElem hmiddle, Option.any_some, decide_eq_true_eq, not_lt] at hx
  refine ⟨hhi, h.le_length, fun n hn => ?_, h.back⟩
  rw [List.take_succ_eq_append_getElem hmiddle] at hn
  rcases List.mem_append.mp hn with hn | hn
  · exact le_trans (le_of_lt ((pairwise_around hsorted hmiddle).1 n hn)) hx
  · rw [List.mem_singleton.mp hn]
    exact hx

/-- **Halving narrows the range to one place**, and the entries up to `x` end there. -/
theorem encloses_bisection (hsorted : entries.Pairwise (· < ·)) (h : Encloses entries x lo hi) :
    Encloses entries x (bisection entries x lo hi) (bisection entries x lo hi) := by
  fun_induction bisection entries x lo hi with
  | case1 lo hi hlt middle hx ih =>
    exact ih (h.lower hsorted (by omega) (by omega) hx)
  | case2 lo hi hlt middle hx ih =>
    exact ih (h.upper hsorted (by omega) hx)
  | case3 lo hi hlt =>
    obtain rfl : lo = hi := Nat.le_antisymm h.le (Nat.not_lt.mp hlt)
    exact h

/-- The search ends where the entries up to `x` do. -/
theorem bisection_append {front back : List α} (hsorted : (front ++ back).Pairwise (· < ·))
    (hfront : ∀ n ∈ front, n ≤ x) (hback : ∀ n ∈ back, x < n) :
    bisection (front ++ back) x 0 (front ++ back).length = front.length := by
  have h := encloses_bisection hsorted (.whole (front ++ back) x)
  generalize bisection (front ++ back) x 0 (front ++ back).length = r at h
  rcases Nat.lt_trichotomy r front.length with hlt | heq | hgt
  · -- the last entry of `front` would be beyond `x`
    have hmem : front[r] ∈ (front ++ back).drop r := by
      rw [List.drop_append_of_le_length (Nat.le_of_lt hlt), List.drop_eq_getElem_cons hlt]
      exact List.mem_cons_self
    exact absurd (h.back _ hmem) (not_lt.mpr (hfront _ (List.getElem_mem hlt)))
  · exact heq
  · -- the first entry of `back` would be up to `x`
    have hlength := h.le_length
    rw [List.length_append] at hlength
    obtain ⟨n, back, rfl⟩ := List.exists_cons_of_length_pos (l := back) (by omega)
    have hmem : n ∈ (front ++ n :: back).take r := by
      rw [List.take_append, List.take_of_length_le (Nat.le_of_lt hgt)]
      refine List.mem_append_right _ ?_
      rw [show r - front.length = (r - front.length - 1) + 1 by omega]
      exact List.mem_cons_self
    exact absurd (hback n List.mem_cons_self) (not_lt.mpr (h.front n hmem))

end ContractLint
