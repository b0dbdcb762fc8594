/-
# Decimal numerals

Both formats that this program writes for other programs, S-expressions and JSON, have numbers in
them, written as `toString` writes an integer.  `decimal?` is the reader of such a numeral: a minus
sign that may be missing and ASCII digits, the first of them no zero unless it is the only one.  It is
stricter than `Text.integer?`, which reads what people write.

`decimal?_toString` says that the numeral of an integer is read as that integer.
-/
import Mathlib

namespace ContractLint.Numeral

/-- The number that ASCII digits spell. -/
def natural? (ds : List Char) : Option Nat :=
  if ds = [] ∨ ds.any (!·.isDigit) ∨ (ds.head? = some '0' ∧ ds ≠ ['0']) then none
  else some (Nat.ofDigitChars 10 ds 0)

/-- The integer that a decimal numeral spells. -/
def decimal? : List Char → Option Int
  | '-' :: ds => (natural? ds).map fun n : Nat => -(n : Int)
  | ds => (natural? ds).map fun n : Nat => (n : Int)

/-- Whether `c` stands in decimal numerals. -/
def isSign (c : Char) : Bool :=
  c.isDigit || c == '-'

theorem isDigit_of_mem_toDigits {n : Nat} {c : Char} (h : c ∈ Nat.toDigits 10 n) :
    c.isDigit = true :=
  Nat.isDigit_of_mem_toDigits (by decide) (by decide) h

/-- Only zero is written with a zero in front. -/
theorem head?_toDigits {n : Nat} (h : (Nat.toDigits 10 n).head? = some '0') : n = 0 := by
  induction n using Nat.strong_induction_on with
  | h n ih =>
    by_cases hn : n < 10
    · rw [Nat.toDigits_of_lt_base hn] at h
      interval_cases n <;> first | rfl | cases h
    · rw [Nat.toDigits_of_base_le (by decide) (by omega),
        List.head?_append_of_ne_nil _ Nat.toDigits_ne_nil] at h
      have := ih (n / 10) (by omega) h
      omega

theorem natural?_toDigits (n : Nat) : natural? (Nat.toDigits 10 n) = some n := by
  have hdigits : ¬ (Nat.toDigits 10 n).any (!·.isDigit) = true := by
    simpa using fun c hc => isDigit_of_mem_toDigits hc
  have hzero : ¬ ((Nat.toDigits 10 n).head? = some '0' ∧ Nat.toDigits 10 n ≠ ['0']) := by
    rintro ⟨hhead, hne⟩
    exact hne (by rw [head?_toDigits hhead]; rfl)
  rw [natural?, if_neg (by simp only [not_or]; exact ⟨Nat.toDigits_ne_nil, hdigits, hzero⟩),
    Nat.ofDigitChars_ten_toDigits]

/-- The numeral of an integer. -/
theorem toList_toString (n : Int) : (toString n).toList =
    if 0 ≤ n then Nat.toDigits 10 n.toNat else '-' :: Nat.toDigits 10 (-n).toNat := by
  have hrepr : toString n = n.repr := rfl
  rw [hrepr, Int.repr_eq_if]
  split
  · rw [Nat.repr_eq_ofList_toDigits, String.toList_ofList]
  · rw [String.toList_append, Nat.repr_eq_ofList_toDigits, String.toList_ofList]
    simp

/-- **The numeral of an integer is read as that integer.** -/
theorem decimal?_toString (n : Int) : decimal? (toString n).toList = some n := by
  rw [toList_toString]
  split
  · rename_i hn
    obtain ⟨c, cs, hcs⟩ := List.exists_cons_of_ne_nil (Nat.toDigits_ne_nil (n := n.toNat) (b := 10))
    have hc : c ≠ '-' := by
      rintro rfl
      have hdigit := isDigit_of_mem_toDigits (hcs ▸ List.mem_cons_self)
      cases hdigit
    have hread := natural?_toDigits n.toNat
    rw [hcs] at hread ⊢
    rw [decimal?, hread, Option.map_some, Int.toNat_of_nonneg hn]
    rintro ds ⟨rfl, -⟩
    exact hc rfl
  · rw [decimal?, natural?_toDigits, Option.map_some]
    congr 1
    omega

theorem isSign_of_mem_toString {n : Int} {c : Char} (h : c ∈ (toString n).toList) :
    isSign c = true := by
  rw [toList_toString] at h
  split at h
  · simp [isSign, isDigit_of_mem_toDigits h]
  · rcases List.mem_cons.mp h with rfl | h
    · rfl
    · simp [isSign, isDigit_of_mem_toDigits h]

theorem toString_ne_nil (n : Int) : (toString n).toList ≠ [] := by
  rw [toList_toString]
  split
  · exact Nat.toDigits_ne_nil
  · exact List.cons_ne_nil _ _

end ContractLint.Numeral
