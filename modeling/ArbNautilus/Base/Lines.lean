import Mathlib.Data.List.Basic
import Mathlib.Data.List.Induction
import Mathlib.Tactic.Common

namespace ArbNautilus.Base

/-- A text as the characters it is read by. -/
abbrev Text := List Char

/-- One more character in front of the first line. -/
def consLine (c : Char) : List Text → List Text
  | [] => [[c]]
  | line :: rest => (c :: line) :: rest

/-- The lines a text file is read as: a line ends at CRLF, at LF or at the end of the file. -/
def fileLines : Text → List Text
  | [] => []
  | '\n' :: rest => [] :: fileLines rest
  | '\r' :: '\n' :: rest => [] :: fileLines rest
  | c :: rest => consLine c (fileLines rest)

/-- Nothing is cut off: the text is empty or its last line has its terminator. -/
def Terminated (text : Text) : Prop := text = [] ∨ text.getLast? = some '\n'

instance (text : Text) : Decidable (Terminated text) :=
  inferInstanceAs (Decidable (_ ∨ _))

/-- No character of a line end. -/
def OneLine (line : Text) : Prop := '\r' ∉ line ∧ '\n' ∉ line

instance (line : Text) : Decidable (OneLine line) := inferInstanceAs (Decidable (_ ∧ _))

@[simp] theorem fileLines_nil : fileLines [] = [] := rfl

@[simp] theorem terminated_nil : Terminated [] := .inl rfl

theorem terminated_crlf (text line : Text) : Terminated (text ++ line ++ ['\r', '\n']) := by
  right
  simp

theorem Terminated.append_crlf {text line : Text} (_ : Terminated text) :
    Terminated (text ++ (line ++ ['\r', '\n'])) := by
  rw [← List.append_assoc]
  exact terminated_crlf text line

theorem Terminated.of_cons {c : Char} {text : Text} (ends : Terminated (c :: text))
    (more : text ≠ []) : Terminated text := by
  right
  rcases ends with empty | last
  · cases empty
  · cases text with
    | nil => exact absurd rfl more
    | cons d rest => simpa [List.getLast?_cons_cons] using last

theorem Terminated.cons {c : Char} {text : Text} (ends : Terminated text) (some : text ≠ []) :
    Terminated (c :: text) := by
  rcases ends with empty | last
  · exact absurd empty some
  · right
    cases text with
    | nil => exact absurd rfl some
    | cons d rest => simpa [List.getLast?_cons_cons] using last

theorem fileLines_ne_nil {text : Text} (some : text ≠ []) : fileLines text ≠ [] := by
  induction text using fileLines.induct with
  | case1 => exact absurd rfl some
  | case2 rest _ => simp [fileLines]
  | case3 rest _ => simp [fileLines]
  | case4 c rest noLf noCrlf _ =>
    rw [fileLines.eq_4 c rest noLf noCrlf]
    cases fileLines rest <;> simp [consLine]

theorem consLine_append (c : Char) {lines : List Text} (some : lines ≠ []) (more : List Text) :
    consLine c (lines ++ more) = consLine c lines ++ more := by
  cases lines with
  | nil => exact absurd rfl some
  | cons line rest => rfl

/-- What follows a terminated text is read on its own. -/
theorem fileLines_append {text : Text} (ends : Terminated text) (more : Text) :
    fileLines (text ++ more) = fileLines text ++ fileLines more := by
  induction text using fileLines.induct with
  | case1 => rfl
  | case2 rest ih =>
    by_cases empty : rest = []
    · subst empty
      simp [fileLines]
    · simp [fileLines, ih (ends.of_cons empty)]
  | case3 rest ih =>
    by_cases empty : rest = []
    · subst empty
      simp [fileLines]
    · have ends := (ends.of_cons (by simp)).of_cons empty
      simp [fileLines, ih ends]
  | case4 c rest noLf noCrlf ih =>
    have some : rest ≠ [] := by
      rintro rfl
      rcases ends with empty | last
      · cases empty
      · exact noLf (by simpa using last)
    have noCrlf' : ∀ rest', c = '\r' → rest ++ more = '\n' :: rest' → False := by
      intro rest' cr starts
      cases rest with
      | nil => exact some rfl
      | cons d rest =>
        obtain rfl : d = '\n' := by simpa using congrArg List.head? starts
        exact noCrlf rest cr rfl
    rw [List.cons_append, fileLines.eq_4 c (rest ++ more) noLf noCrlf', ih (ends.of_cons some),
      consLine_append c (fileLines_ne_nil some), fileLines.eq_4 c rest noLf noCrlf]

/-- A line and its terminator are read as that line. -/
theorem fileLines_line {line : Text} (one : '\n' ∉ line) (more : Text) :
    fileLines (line ++ '\r' :: '\n' :: more) = line :: fileLines more := by
  induction line with
  | nil => simp [fileLines]
  | cons c rest ih =>
    have noLf : c = '\n' → False := fun lf => one (by simp [lf])
    have noCr : ∀ rest', c = '\r' → rest ++ '\r' :: '\n' :: more = '\n' :: rest' → False := by
      intro rest' _ starts
      cases rest with
      | nil => simp at starts
      | cons d rest =>
        obtain rfl : d = '\n' := by simpa using congrArg List.head? starts
        exact one (by simp)
    rw [List.cons_append, fileLines.eq_4 c _ noLf noCr,
      ih fun inside => one (List.mem_cons_of_mem c inside)]
    rfl

/-- A last line without its terminator is read too. -/
theorem fileLines_open {line : Text} (one : '\n' ∉ line) (some : line ≠ []) :
    fileLines line = [line] := by
  induction line with
  | nil => exact absurd rfl some
  | cons c rest ih =>
    have noLf : c = '\n' → False := fun lf => one (by simp [lf])
    have noCr : ∀ rest', c = '\r' → rest = '\n' :: rest' → False :=
      fun _ _ starts => one (by simp [starts])
    rw [fileLines.eq_4 c _ noLf noCr]
    cases rest with
    | nil => rfl
    | cons d rest => rw [ih (fun inside => one (List.mem_cons_of_mem c inside)) (by simp)]; rfl

/-- Any text is whole lines and then one without a terminator, which may be empty. -/
theorem exists_lastLine (text : Text) :
    ∃ whole last, text = whole ++ last ∧ Terminated whole ∧ '\n' ∉ last := by
  induction text using List.reverseRecOn with
  | nil => exact ⟨[], [], rfl, terminated_nil, by simp⟩
  | append_singleton text c ih =>
    by_cases ends : c = '\n'
    · exact ⟨text ++ [c], [], by simp, .inr (by simp [ends]), by simp⟩
    · obtain ⟨whole, last, rfl, terminated, one⟩ := ih
      exact ⟨whole, last ++ [c], by simp, terminated, by simp [one, Ne.symm ends]⟩

theorem length_consLine (c : Char) {lines : List Text} (some : lines ≠ []) :
    (consLine c lines).length = lines.length := by
  cases lines with
  | nil => exact absurd rfl some
  | cons line rest => rfl

/-- What is appended to a text that was cut off joins its last line. -/
theorem length_fileLines_joined {text more : Text} (cutOff : ¬Terminated text) (added : more ≠ [])
    (starts : more.head? ≠ some '\n') :
    (fileLines (text ++ more)).length + 1 = (fileLines text).length + (fileLines more).length := by
  induction text using fileLines.induct with
  | case1 => exact absurd terminated_nil cutOff
  | case2 rest ih =>
    by_cases empty : rest = []
    · subst empty
      exact absurd (.inr rfl) cutOff
    · have := ih fun ends => cutOff (ends.cons empty)
      simp only [List.cons_append, fileLines, List.length_cons]
      omega
  | case3 rest ih =>
    by_cases empty : rest = []
    · subst empty
      exact absurd (.inr rfl) cutOff
    · have := ih fun ends => cutOff ((ends.cons empty).cons (by simp))
      simp only [List.cons_append, fileLines, List.length_cons]
      omega
  | case4 c rest noLf noCrlf ih =>
    have noCrlf' : ∀ rest', c = '\r' → rest ++ more = '\n' :: rest' → False := by
      intro rest' cr lf
      cases rest with
      | nil =>
        rw [List.nil_append] at lf
        exact starts (by rw [lf]; rfl)
      | cons d rest =>
        obtain rfl : d = '\n' := by simpa using congrArg List.head? lf
        exact noCrlf rest cr rfl
    have joined : rest ++ more ≠ [] := by simp [added]
    rw [List.cons_append, fileLines.eq_4 c (rest ++ more) noLf noCrlf',
      length_consLine c (fileLines_ne_nil joined), fileLines.eq_4 c rest noLf noCrlf]
    by_cases empty : rest = []
    · subst empty
      simp only [List.nil_append, fileLines_nil, consLine, List.length_cons, List.length_nil]
      omega
    · rw [length_consLine c (fileLines_ne_nil empty)]
      exact ih fun ends => cutOff (ends.cons empty)

/-- Two texts side by side share the field they meet in. -/
theorem splitOn_append (mark : Char) (text more : Text) : ∃ front last next rest,
    text.splitOn mark = front ++ [last] ∧ more.splitOn mark = next :: rest ∧
      (text ++ more).splitOn mark = front ++ (last ++ next) :: rest := by
  obtain ⟨next, rest, after⟩ :=
    List.exists_cons_of_ne_nil (List.splitOnP_ne_nil (· == mark) more)
  induction text with
  | nil => exact ⟨[], [], next, rest, rfl, after, after⟩
  | cons c text ih =>
    obtain ⟨front, last, next, rest, before, after, whole⟩ := ih
    simp only [List.splitOn_eq_splitOnP, List.cons_append, List.splitOnP_cons_eq_if_modifyHead]
      at before after whole ⊢
    split
    · exact ⟨[] :: front, last, next, rest, by simp [before], after, by simp [whole]⟩
    · cases front with
      | nil => exact ⟨[], c :: last, next, rest, by simp [before], after, by simp [whole]⟩
      | cons field front =>
        exact ⟨(c :: field) :: front, last, next, rest, by simp [before], after, by simp [whole]⟩

end ArbNautilus.Base
