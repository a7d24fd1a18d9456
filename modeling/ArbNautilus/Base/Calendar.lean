import ArbNautilus.Base.Lines
import Mathlib.Algebra.GroupWithZero.Nat

namespace ArbNautilus.Base

def isLeap (year : ℕ) : Bool := year % 4 = 0 ∧ (year % 100 ≠ 0 ∨ year % 400 = 0)

def yearLength (year : ℕ) : ℕ := if isLeap year then 366 else 365

def monthLengths (year : ℕ) : List ℕ :=
  [31, if isLeap year then 29 else 28, 31, 30, 31, 30, 31, 31, 30, 31, 30, 31]

/-- A day of the Gregorian calendar whose year has at most four digits. -/
structure Date where
  year : ℕ
  month : ℕ
  day : ℕ
deriving DecidableEq, Repr

namespace Date

structure Valid (d : Date) : Prop where
  year_pos : 0 < d.year
  year_le : d.year ≤ 9999
  month_pos : 0 < d.month
  day_pos : 0 < d.day
  day_le : ∃ length, (monthLengths d.year)[d.month - 1]? = some length ∧ d.day ≤ length

def isValid (d : Date) : Bool :=
  0 < d.year ∧ d.year ≤ 9999 ∧ 0 < d.month ∧ 0 < d.day ∧
    ((monthLengths d.year)[d.month - 1]?).any (d.day ≤ ·)

theorem isValid_iff (d : Date) : d.isValid = true ↔ d.Valid := by
  simp only [isValid, decide_eq_true_eq, Option.any_eq_true]
  exact ⟨fun ⟨a, b, c, e, f⟩ => ⟨a, b, c, e, f⟩, fun ⟨a, b, c, e, f⟩ => ⟨a, b, c, e, f⟩⟩

section OfDays

/-- The year of a day counted from the first day of this one, and its place there. -/
def walkYears : ℕ → ℕ → ℕ → ℕ × ℕ
  | 0, year, days => (year, days)
  | turns + 1, year, days =>
    if days < yearLength year then (year, days)
    else walkYears turns (year + 1) (days - yearLength year)

/-- The month of a day of the year, and its place there. -/
def walkMonths : List ℕ → ℕ → ℕ → ℕ × ℕ
  | [], month, days => (month, days)
  | length :: lengths, month, days =>
    if days < length then (month, days) else walkMonths lengths (month + 1) (days - length)

/-- The date so many days after 1970-01-01. -/
def ofDays (days : ℕ) : Date :=
  let (year, days) := walkYears (days / 365 + 1) 1970 days
  let (month, days) := walkMonths (monthLengths year) 1 days
  ⟨year, month, days + 1⟩

theorem yearLength_ge (year : ℕ) : 365 ≤ yearLength year := by
  unfold yearLength
  split <;> omega

theorem sum_monthLengths (year : ℕ) : (monthLengths year).sum = yearLength year := by
  unfold monthLengths yearLength
  cases isLeap year <;> rfl

theorem walkYears_spec {turns year days : ℕ} (enough : days < 365 * turns) :
    year ≤ (walkYears turns year days).1 ∧ (walkYears turns year days).1 ≤ year + days / 365 ∧
      (walkYears turns year days).2 < yearLength (walkYears turns year days).1 := by
  induction turns generalizing year days with
  | zero => omega
  | succ turns ih =>
    have long := yearLength_ge year
    rw [walkYears]
    split
    · exact ⟨by omega, by omega, by assumption⟩
    · obtain ⟨low, high, inside⟩ := @ih (year + 1) (days - yearLength year) (by omega)
      exact ⟨by omega, by omega, inside⟩

theorem walkMonths_spec {lengths : List ℕ} {month days : ℕ} (enough : days < lengths.sum) :
    ∃ index length, (walkMonths lengths month days).1 = month + index ∧
      lengths[index]? = some length ∧ (walkMonths lengths month days).2 < length := by
  induction lengths generalizing month days with
  | nil => simp at enough
  | cons length lengths ih =>
    rw [walkMonths]
    split
    · rename_i inside
      exact ⟨0, length, rfl, rfl, inside⟩
    · rw [List.sum_cons] at enough
      obtain ⟨index, other, same, found, inside⟩ := @ih (month + 1) (days - length) (by omega)
      exact ⟨index + 1, other, by omega, found, inside⟩

theorem valid_ofDays {days : ℕ} (early : days < 365 * 8000) : (ofDays days).Valid := by
  obtain ⟨low, high, inside⟩ := @walkYears_spec (days / 365 + 1) 1970 days (by omega)
  rw [← sum_monthLengths] at inside
  obtain ⟨index, length, month, found, day⟩ := @walkMonths_spec _ 1 _ inside
  unfold ofDays
  refine ⟨?_, ?_, ?_, Nat.succ_pos _, length, ?_, day⟩ <;> simp only
  · omega
  · omega
  · omega
  · rw [month, Nat.add_sub_cancel_left, found]

end OfDays

section Text

def twoDigits (number : ℕ) : Text :=
  [Nat.digitChar (number / 10 % 10), Nat.digitChar (number % 10)]

def fourDigits (number : ℕ) : Text :=
  [Nat.digitChar (number / 1000 % 10), Nat.digitChar (number / 100 % 10),
    Nat.digitChar (number / 10 % 10), Nat.digitChar (number % 10)]

/-- `date.isoformat`. -/
def isoformat (d : Date) : Text :=
  fourDigits d.year ++ '-' :: twoDigits d.month ++ '-' :: twoDigits d.day

def numberOf (text : Text) : Option ℕ :=
  if text.all Char.isDigit then some (Nat.ofDigitChars 10 text 0) else none

/-- The date a text in the calendar format names. -/
def ofIsoformat : Text → Option Date
  | [y₁, y₂, y₃, y₄, '-', m₁, m₂, '-', d₁, d₂] => do
    let year ← numberOf [y₁, y₂, y₃, y₄]
    let month ← numberOf [m₁, m₂]
    let day ← numberOf [d₁, d₂]
    if isValid ⟨year, month, day⟩ then some ⟨year, month, day⟩ else none
  | _ => none

theorem isDigit_digitChar (number : ℕ) : (Nat.digitChar (number % 10)).isDigit = true := by
  rw [Nat.isDigit_digitChar]
  exact decide_eq_true (Nat.mod_lt _ (by decide))

theorem numberOf_twoDigits {number : ℕ} (h : number ≤ 99) :
    numberOf (twoDigits number) = some number := by
  have small (n : ℕ) : n % 10 < 10 := Nat.mod_lt n (by decide)
  simp only [numberOf, twoDigits, List.all_cons, isDigit_digitChar, List.all_nil, Bool.and_self,
    if_true, Nat.ofDigitChars_cons_digitChar_of_lt_ten (small _), Nat.ofDigitChars_nil,
    Option.some.injEq]
  omega

theorem numberOf_fourDigits {number : ℕ} (h : number ≤ 9999) :
    numberOf (fourDigits number) = some number := by
  have small (n : ℕ) : n % 10 < 10 := Nat.mod_lt n (by decide)
  simp only [numberOf, fourDigits, List.all_cons, isDigit_digitChar, List.all_nil, Bool.and_self,
    if_true, Nat.ofDigitChars_cons_digitChar_of_lt_ten (small _), Nat.ofDigitChars_nil,
    Option.some.injEq]
  omega

theorem Valid.month_le {d : Date} (h : d.Valid) : d.month ≤ 12 := by
  obtain ⟨length, found, -⟩ := h.day_le
  have inside := (List.getElem?_eq_some_iff.1 found).1
  simp only [monthLengths, List.length_cons, List.length_nil] at inside
  omega

theorem Valid.day_le_31 {d : Date} (h : d.Valid) : d.day ≤ 31 := by
  obtain ⟨length, found, high⟩ := h.day_le
  have short : ∀ length ∈ monthLengths d.year, length ≤ 31 := by
    unfold monthLengths
    cases isLeap d.year <;> decide
  exact Nat.le_trans high (short length (List.mem_of_getElem? found))

theorem ofIsoformat_isoformat {d : Date} (h : d.Valid) : ofIsoformat d.isoformat = some d := by
  have year := numberOf_fourDigits h.year_le
  have month := numberOf_twoDigits (Nat.le_trans h.month_le (show 12 ≤ 99 by decide))
  have day := numberOf_twoDigits (Nat.le_trans h.day_le_31 (show 31 ≤ 99 by decide))
  simp only [twoDigits, fourDigits] at year month day
  simp [isoformat, ofIsoformat, twoDigits, fourDigits, year, month, day, (isValid_iff d).2 h]

end Text

end Date

end ArbNautilus.Base
