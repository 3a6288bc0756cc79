/-!
# Digits of natural numbers

A natural number is written in a base with its most significant digit
first, no leading zero, and small letters above nine. Reading is the
left-to-right evaluation of the digits.
-/

namespace Caret.Text

/-- The digit for a value below sixteen. -/
def digitChar (n : Nat) : Char :=
  if n < 10 then Char.ofNat (48 + n) else Char.ofNat (87 + n)

/-- The value of a hexadecimal digit, of either case. -/
def hexValue? (c : Char) : Option Nat :=
  let n := c.toNat
  if 48 ≤ n ∧ n ≤ 57 then some (n - 48)
  else if 97 ≤ n ∧ n ≤ 102 then some (n - 87)
  else if 65 ≤ n ∧ n ≤ 70 then some (n - 55)
  else none

/-- The digits of `n` in base `b + 2`, most significant first. -/
def digitsIn (b : Nat) (n : Nat) : List Char :=
  if n < b + 2 then [digitChar n]
  else digitsIn b (n / (b + 2)) ++ [digitChar (n % (b + 2))]
termination_by n
decreasing_by exact Nat.div_lt_self (by omega) (by omega)

/-- The decimal digits of `n`. -/
def decimal (n : Nat) : List Char := digitsIn 8 n

/-- The hexadecimal digits of `n`. -/
def hexadecimal (n : Nat) : List Char := digitsIn 14 n

/-- The value of a decimal digit; other characters count as their distance
from the digit zero. -/
def digitValue (c : Char) : Nat := c.toNat - 48

/-- The number that decimal digits denote. -/
def ofDecimal (cs : List Char) : Nat :=
  cs.foldl (fun n c => 10 * n + digitValue c) 0

/-- The decimal text of `n`. -/
def natText (n : Nat) : String := String.ofList (decimal n)

/-- The decimal digits follow one another from U+0030 on. -/
theorem toNat_digitChar {n : Nat} (h : n < 10) : (digitChar n).toNat = 48 + n := by
  have hvalid : (48 + n).isValidChar := .inl (by omega)
  rw [digitChar, if_pos h, Char.ofNat, dif_pos hvalid]
  rfl

theorem digitValue_digitChar {n : Nat} (h : n < 10) : digitValue (digitChar n) = n := by
  rw [digitValue, toNat_digitChar h, Nat.add_sub_cancel_left]

theorem isDigit_digitChar {n : Nat} (h : n < 10) : (digitChar n).isDigit = true := by
  have hnat : (digitChar n).val.toNat = 48 + n := toNat_digitChar h
  simp only [Char.isDigit, Bool.and_eq_true, decide_eq_true_eq, ge_iff_le,
    UInt32.le_iff_toNat_le, hnat]
  exact ⟨Nat.le_add_right 48 n, Nat.add_le_add_left (Nat.le_of_lt_succ h) 48⟩

theorem decimal_of_lt {n : Nat} (h : n < 10) : decimal n = [digitChar n] := by
  rw [decimal, digitsIn, if_pos (by omega)]

theorem decimal_of_le {n : Nat} (h : 10 ≤ n) :
    decimal n = decimal (n / 10) ++ [digitChar (n % 10)] := by
  rw [decimal, digitsIn, if_neg (by omega)]
  rfl

theorem decimal_ne_nil (n : Nat) : decimal n ≠ [] := by
  rw [decimal, digitsIn]
  split <;> simp

/-- Reading decimal digits undoes writing them. -/
theorem ofDecimal_decimal (n : Nat) : ofDecimal (decimal n) = n := by
  induction n using Nat.strongRecOn with
  | ind n ih =>
    rcases Nat.lt_or_ge n 10 with h | h
    · simp [decimal_of_lt h, ofDecimal, digitValue_digitChar h]
    · have hd := ih (n / 10) (Nat.div_lt_self (by omega) (by omega))
      rw [decimal_of_le h]
      unfold ofDecimal at hd ⊢
      rw [List.foldl_append, hd]
      simp only [List.foldl_cons, List.foldl_nil]
      rw [digitValue_digitChar (Nat.mod_lt _ (by omega))]
      omega

/-- Decimal digits are digits. -/
theorem isDigit_of_mem_decimal {n : Nat} {c : Char} (h : c ∈ decimal n) : c.isDigit = true := by
  induction n using Nat.strongRecOn with
  | ind n ih =>
    rcases Nat.lt_or_ge n 10 with hn | hn
    · rw [decimal_of_lt hn, List.mem_singleton] at h
      exact h ▸ isDigit_digitChar hn
    · rw [decimal_of_le hn, List.mem_append, List.mem_singleton] at h
      rcases h with h | rfl
      · exact ih _ (Nat.div_lt_self (by omega) (by omega)) h
      · exact isDigit_digitChar (Nat.mod_lt _ (by omega))

/-- Different numbers have different digits. -/
theorem decimal_inj {m n : Nat} : decimal m = decimal n ↔ m = n :=
  ⟨fun h => by rw [← ofDecimal_decimal m, h, ofDecimal_decimal], fun h => h ▸ rfl⟩

end Caret.Text
