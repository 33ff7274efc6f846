import Mathlib.Algebra.Group.Nat.Defs
import Mathlib.Data.List.Lex
import Mathlib.Tactic.Common

namespace Decimal

/-- The last digits of a number, as many as asked for. -/
def lastDigits : Nat → Nat → List Char
  | 0, _ => []
  | width + 1, n => lastDigits width (n / 10) ++ [Nat.digitChar (n % 10)]

variable {width n m : Nat}

theorem toList_toString : (toString n).toList = Nat.toDigits 10 n := by
  show (Nat.repr n).toList = _
  rw [Nat.repr, String.toList_ofList]

theorem toString_injective (h : toString n = toString m) : n = m := by
  have hdigits := congrArg String.toList h
  rw [toList_toString, toList_toString] at hdigits
  have hvalue := congrArg (fun digits => Nat.ofDigitChars 10 digits 0) hdigits
  simpa only [Nat.ofDigitChars_ten_toDigits] using hvalue

theorem length_lastDigits : (lastDigits width n).length = width := by
  induction width generalizing n with
  | zero => rfl
  | succ width ih => rw [lastDigits, List.length_append, ih, List.length_singleton]

theorem lastDigits_zero : lastDigits width 0 = List.replicate width '0' := by
  induction width with
  | zero => rfl
  | succ width ih => rw [lastDigits, Nat.zero_div, ih, List.replicate_succ']; rfl

/-- The digits of a number behind the zeros that fill them up. -/
theorem replicate_append_toDigits (hwidth : 0 < width) (h : n < 10 ^ width) :
    List.replicate (width - (Nat.toDigits 10 n).length) '0' ++ Nat.toDigits 10 n =
      lastDigits width n := by
  induction width generalizing n with
  | zero => omega
  | succ width ih =>
    rw [lastDigits]
    by_cases hsmall : n < 10
    · have hdiv : n / 10 = 0 := Nat.div_eq_of_lt hsmall
      have hmod : n % 10 = n := Nat.mod_eq_of_lt hsmall
      rw [Nat.toDigits_of_lt_base hsmall, hdiv, hmod, lastDigits_zero]
      rfl
    · have hpos : 0 < n / 10 := by omega
      have hdiv : n / 10 < 10 ^ width := by
        rw [Nat.pow_succ] at h
        omega
      have hwidth' : 0 < width := by
        rcases Nat.eq_zero_or_pos width with hzero | hpos'
        · rw [hzero] at hdiv
          omega
        · exact hpos'
      have hsplit : Nat.toDigits 10 n =
          Nat.toDigits 10 (n / 10) ++ [Nat.digitChar (n % 10)] := by
        have hlast : n % 10 < 10 := Nat.mod_lt _ (by omega)
        have happend := Nat.toDigits_append_toDigits (b := 10) (by omega) hpos hlast
        rw [Nat.toDigits_of_lt_base hlast, Nat.div_add_mod] at happend
        exact happend.symm
      have hlength : (Nat.toDigits 10 n).length = (Nat.toDigits 10 (n / 10)).length + 1 := by
        rw [hsplit, List.length_append, List.length_singleton]
      have hzeros : width + 1 - (Nat.toDigits 10 n).length =
          width - (Nat.toDigits 10 (n / 10)).length := by omega
      rw [hzeros, hsplit, ← List.append_assoc, ih hwidth' hdiv]

theorem digitChar_lt (h : n < m) (hm : m < 10) : Nat.digitChar n < Nat.digitChar m := by
  have hall : ∀ m : Fin 10, ∀ n : Fin 10, n < m → Nat.digitChar n < Nat.digitChar m := by decide
  exact hall ⟨m, hm⟩ ⟨n, by omega⟩ h

/-- Of two lists of one length the order decides, whatever follows them. -/
theorem lex_append {α : Type*} {r : α → α → Prop} {xs ys : List α}
    (hlength : xs.length = ys.length) (h : List.Lex r xs ys) (s t : List α) :
    List.Lex r (xs ++ s) (ys ++ t) := by
  induction h with
  | nil => simp at hlength
  | cons _ ih => exact .cons (ih (by simpa using hlength))
  | rel hrel => exact .rel hrel

/-- Digits of one width are ordered as their numbers. -/
theorem lastDigits_lt (h : n < m) (hm : m < 10 ^ width) :
    List.Lex (· < ·) (lastDigits width n) (lastDigits width m) := by
  induction width generalizing n m with
  | zero =>
    rw [Nat.pow_zero] at hm
    omega
  | succ width ih =>
    rw [lastDigits, lastDigits]
    by_cases hdiv : n / 10 < m / 10
    · have hbound : m / 10 < 10 ^ width := by
        rw [Nat.pow_succ] at hm
        omega
      have hlength : (lastDigits width (n / 10)).length = (lastDigits width (m / 10)).length := by
        rw [length_lastDigits, length_lastDigits]
      exact lex_append hlength (ih hdiv hbound) _ _
    · have hsame : n / 10 = m / 10 := by omega
      have hlast : n % 10 < m % 10 := by omega
      rw [hsame]
      exact List.Lex.append_left _ (.rel (digitChar_lt hlast (Nat.mod_lt _ (by omega)))) _

end Decimal
