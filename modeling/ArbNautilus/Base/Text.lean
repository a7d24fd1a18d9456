import Mathlib.Logic.Basic

namespace ArbNautilus.Base

section Split

variable {α : Type*} [DecidableEq α]

/-- The pieces between separators; there is always at least one. -/
def splitAll (sep : α) : List α → List (List α)
  | [] => [[]]
  | c :: cs =>
    if c = sep then [] :: splitAll sep cs
    else match splitAll sep cs with
      | [] => [[c]]
      | piece :: pieces => (c :: piece) :: pieces

theorem splitAll_append {sep : α} {cs : List α} (h : sep ∉ cs) (rest : List α) :
    splitAll sep (cs ++ sep :: rest) = cs :: splitAll sep rest := by
  induction cs with
  | nil => simp [splitAll]
  | cons c cs ih =>
    simp only [List.mem_cons, not_or] at h
    rw [List.cons_append, splitAll, if_neg (Ne.symm h.1), ih h.2]

variable {sep : α}

theorem splitAll_ne_nil (cs : List α) : splitAll sep cs ≠ [] := by
  cases cs with
  | nil => simp [splitAll]
  | cons c cs =>
    rw [splitAll]
    split
    · simp
    · split <;> simp

theorem splitAll_concat (cs rest : List α) :
    splitAll sep (cs ++ sep :: rest) = splitAll sep cs ++ splitAll sep rest := by
  induction cs with
  | nil => simp [splitAll]
  | cons c cs ih =>
    rw [List.cons_append, splitAll, splitAll, ih]
    by_cases same : c = sep
    · rw [if_pos same, if_pos same, List.cons_append]
    · rw [if_neg same, if_neg same]
      cases pieces : splitAll sep cs with
      | nil => exact absurd pieces (splitAll_ne_nil cs)
      | cons piece pieces => rfl

theorem splitAll_single {cs piece : List α} (one : splitAll sep cs = [piece]) : piece = cs := by
  induction cs generalizing piece with
  | nil =>
    cases one
    rfl
  | cons c cs ih =>
    rw [splitAll] at one
    split at one
    · exact absurd (List.cons.inj one).2 (splitAll_ne_nil cs)
    · cases pieces : splitAll sep cs with
      | nil => exact absurd pieces (splitAll_ne_nil cs)
      | cons first more =>
        rw [pieces] at one
        obtain ⟨rfl, rfl⟩ := List.cons.inj one
        rw [ih pieces]

/-- Where a joined text has two parts, the first is what was joined first. -/
theorem splitAll_pair {first second a b : List α}
    (parts : splitAll sep (first ++ sep :: second) = [a, b]) : a = first := by
  rw [splitAll_concat] at parts
  cases one : splitAll sep first with
  | nil => exact absurd one (splitAll_ne_nil first)
  | cons piece pieces =>
    rw [one] at parts
    obtain ⟨rfl, rest⟩ := List.cons.inj parts
    cases pieces with
    | nil => exact splitAll_single one
    | cons next more =>
      exact absurd (List.append_eq_nil_iff.1 (List.cons.inj rest).2).2 (splitAll_ne_nil second)

end Split

/-- Python's `text.split(sep)` for a separator of one character. -/
def splitText (sep : Char) (text : String) : List String :=
  (splitAll sep text.toList).map String.ofList

theorem splitText_append {sep : Char} {text : String} (h : sep ∉ text.toList) (rest : String) :
    splitText sep (text ++ String.singleton sep ++ rest) = text :: splitText sep rest := by
  simp [splitText, splitAll_append h]

theorem splitText_pair {first second a b : String}
    (parts : splitText '|' (first ++ "|" ++ second) = [a, b]) :
    a = first := by
  have joined : (first ++ "|" ++ second).toList = first.toList ++ '|' :: second.toList := by simp
  rw [splitText, joined] at parts
  obtain ⟨piece, pieces, split, rfl, later⟩ := List.map_eq_cons_iff.1 parts
  obtain ⟨piece', pieces', rfl, -, empty⟩ := List.map_eq_cons_iff.1 later
  rw [List.map_eq_nil_iff.1 empty] at split
  rw [splitAll_pair split, String.ofList_toList]

end ArbNautilus.Base
