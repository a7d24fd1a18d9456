import Mathlib.Algebra.Order.Group.Int
import Mathlib.Data.List.MinMax
import Mathlib.Order.Bounds.Basic

/-! Clocks on a wall: what a label of local time says about the instant. -/

namespace ArbNautilus.Base

/-- A zone: the offset in force at an instant, and the one that a label of local time gets for
each fold. A label of several instants gets the earliest of them for the fold 0, the latest for
the fold 1. A label of none gets whatever is in force before and after the gap. -/
structure WallClock where
  offset : ℤ → ℤ
  localOffset : Bool → ℤ → ℤ
  earliest : ∀ label u, u + offset u = label →
    IsLeast {v | v + offset v = label} (label - localOffset false label)
  latest : ∀ label u, u + offset u = label →
    IsGreatest {v | v + offset v = label} (label - localOffset true label)

namespace WallClock

variable (clock : WallClock)

/-- What the wall shows at an instant. -/
def wall (u : ℤ) : ℤ := u + clock.offset u

/-- The instant a label gets for a fold. -/
def instant (fold : Bool) (label : ℤ) : ℤ := label - clock.localOffset fold label

/-- No label is shown at three instants. -/
def AtMostTwice : Prop :=
  ∀ x y z, clock.wall x = clock.wall y → clock.wall y = clock.wall z → x = y ∨ y = z ∨ x = z

section Folds

variable {clock} {u label : ℤ}

theorem wall_instant (fold : Bool) (shown : clock.wall u = label) :
    clock.wall (clock.instant fold label) = label := by
  cases fold with
  | false => exact (clock.earliest label u shown).1
  | true => exact (clock.latest label u shown).1

theorem instant_le (shown : clock.wall u = label) : clock.instant false label ≤ u :=
  (clock.earliest label u shown).2 shown

theorem le_instant (shown : clock.wall u = label) : u ≤ clock.instant true label :=
  (clock.latest label u shown).2 shown

/-- The folds of a label are all the instants it is shown at. -/
theorem eq_instant (twice : clock.AtMostTwice) (shown : clock.wall u = label) :
    u = clock.instant false label ∨ u = clock.instant true label := by
  have first := wall_instant false shown
  have last := wall_instant true shown
  rcases twice u (clock.instant false label) (clock.instant true label) (shown.trans first.symm)
    (first.trans last.symm) with same | same | same
  · exact .inl same
  · have low := instant_le shown
    have high := le_instant shown
    exact .inl (by omega)
  · exact .inr same

end Folds

end WallClock

/-- Changes between constant offsets, in their order. -/
structure Transitions where
  first : ℤ
  changes : List (ℤ × ℤ)
  ordered : changes.Pairwise fun a b => a.1 < b.1

namespace Transitions

/-- The offset in force at an instant. -/
def offsetFrom (current : ℤ) : List (ℤ × ℤ) → ℤ → ℤ
  | [], _ => current
  | (start, next) :: changes, u => if u < start then current else offsetFrom next changes u

/-- The offsets around the gap that swallows a label. -/
def gapFrom (current : ℤ) (fold : Bool) : List (ℤ × ℤ) → ℤ → ℤ
  | [], _ => current
  | (start, next) :: changes, label =>
    if start + current ≤ label ∧ label < start + next then if fold then next else current
    else gapFrom next fold changes label

variable (z : Transitions)

def offset (u : ℤ) : ℤ := offsetFrom z.first z.changes u

/-- The instants at which a label is shown. -/
def instants (label : ℤ) : List ℤ :=
  ((z.first :: z.changes.map Prod.snd).map (label - ·)).filter fun u => u + z.offset u = label

def localOffset (fold : Bool) (label : ℤ) : ℤ :=
  match if fold then (z.instants label).max? else (z.instants label).min? with
  | some u => label - u
  | none => gapFrom z.first fold z.changes label

section Clock

variable {z}

theorem offsetFrom_mem (current : ℤ) (changes : List (ℤ × ℤ)) (u : ℤ) :
    offsetFrom current changes u ∈ current :: changes.map Prod.snd := by
  induction changes generalizing current with
  | nil => exact List.mem_cons_self
  | cons change changes ih =>
    unfold offsetFrom
    split
    · exact List.mem_cons_self
    · exact List.mem_cons_of_mem current (ih change.2)

theorem mem_instants {label u : ℤ} : u ∈ z.instants label ↔ u + z.offset u = label := by
  unfold instants
  rw [List.mem_filter, decide_eq_true_iff, and_iff_right_iff_imp]
  intro shown
  exact List.mem_map.2 ⟨z.offset u, offsetFrom_mem z.first z.changes u, by omega⟩

theorem earliest {label u : ℤ} (shown : u + z.offset u = label) :
    IsLeast {v | v + z.offset v = label} (label - z.localOffset false label) := by
  have member := mem_instants.2 shown
  cases least : (z.instants label).min? with
  | none => exact absurd (List.min?_eq_none_iff.1 least ▸ member) List.not_mem_nil
  | some v =>
    obtain ⟨inside, bound⟩ := List.min?_eq_some_iff.1 least
    have value : label - z.localOffset false label = v := by
      simp only [localOffset, Bool.false_eq_true, if_false, least]
      omega
    rw [value]
    exact ⟨mem_instants.1 inside, fun w shown => bound w (mem_instants.2 shown)⟩

theorem latest {label u : ℤ} (shown : u + z.offset u = label) :
    IsGreatest {v | v + z.offset v = label} (label - z.localOffset true label) := by
  have member := mem_instants.2 shown
  cases most : (z.instants label).max? with
  | none => exact absurd (List.max?_eq_none_iff.1 most ▸ member) List.not_mem_nil
  | some v =>
    obtain ⟨inside, bound⟩ := List.max?_eq_some_iff.1 most
    have value : label - z.localOffset true label = v := by
      simp only [localOffset, if_true, most]
      omega
    rw [value]
    exact ⟨mem_instants.1 inside, fun w shown => bound w (mem_instants.2 shown)⟩

end Clock

/-- The zone that the changes give. -/
def clock : WallClock where
  offset := z.offset
  localOffset := z.localOffset
  earliest _ _ := earliest
  latest _ _ := latest

end Transitions

end ArbNautilus.Base
