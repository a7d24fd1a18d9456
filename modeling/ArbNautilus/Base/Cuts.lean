import ArbNautilus.Base.Drain
import Mathlib.Tactic.Ring

namespace ArbNautilus.Base

section Pieces

variable {K : Type*} [Field K] [LinearOrder K] [IsStrictOrderedRing K]

/-- The length of a span that is not empty. -/
def piece (lo hi : K) : List K := if lo < hi then [hi - lo] else []

/-- Capacities stand end to end from zero, with no end beyond them. The lengths into which
their ends cut the span from `lo` to `hi`. -/
def cut (lo hi : K) : List K → List K
  | [] => piece (max lo 0) hi
  | c :: cs => piece (max lo 0) (min hi c) ++ cut (lo - c) (hi - c) cs

/-- The capacities that are left once an amount is gone. -/
def remaining (amount : K) : List K → List K
  | [] => []
  | c :: cs => if amount < c then (c - amount) :: cs else remaining (amount - c) cs

omit [IsStrictOrderedRing K] in
theorem mem_piece {lo hi x : K} : x ∈ piece lo hi ↔ lo < hi ∧ x = hi - lo := by
  unfold piece
  split <;> simp [*]

theorem piece_add (h lo hi : K) : piece (h + lo) (h + hi) = piece lo hi := by
  simp [piece]

omit [IsStrictOrderedRing K] in
theorem piece_empty {lo hi : K} (empty : hi ≤ lo) : piece lo hi = [] :=
  if_neg (not_lt.2 empty)

/-- A longer span has a piece that is at least as long. -/
theorem piece_le {lo hi lo' hi' x : K} (low : lo' ≤ lo) (high : hi ≤ hi')
    (member : x ∈ piece lo hi) : ∃ y ∈ piece lo' hi', x ≤ y := by
  obtain ⟨less, rfl⟩ := mem_piece.1 member
  exact ⟨hi' - lo', mem_piece.2 ⟨by linarith, rfl⟩, by linarith⟩

omit [IsStrictOrderedRing K] in
/-- What two adjacent spans and sums have, their union has. -/
theorem piece_split {P : K → Prop} (sums : ∀ x y, P x → P y → P (x + y)) {lo mid hi : K}
    (first : ∀ x ∈ piece lo mid, P x) (second : ∀ x ∈ piece mid hi, P x) (low : lo ≤ mid)
    (high : mid ≤ hi) : ∀ x ∈ piece lo hi, P x := by
  intro x member
  obtain ⟨-, rfl⟩ := mem_piece.1 member
  rcases low.eq_or_lt with rfl | before
  · exact second _ member
  rcases high.eq_or_lt with rfl | after
  · exact first _ member
  · have both :=
      sums _ _ (first _ (mem_piece.2 ⟨before, rfl⟩)) (second _ (mem_piece.2 ⟨after, rfl⟩))
    have whole : mid - lo + (hi - mid) = hi - lo := by ring
    rwa [whole] at both

end Pieces

section Cut

variable {K : Type*} [Field K] [LinearOrder K] [IsStrictOrderedRing K]

theorem cut_empty {lo hi : K} (empty : hi ≤ 0) {cs : List K} (capacities : ∀ c ∈ cs, 0 < c) :
    cut lo hi cs = [] := by
  induction cs generalizing lo hi with
  | nil => exact piece_empty (empty.trans (le_max_right _ _))
  | cons c cs ih =>
    obtain ⟨positive, capacities⟩ := List.forall_mem_cons.1 capacities
    have head := piece_empty ((min_le_left hi c).trans (empty.trans (le_max_right lo 0)))
    rw [cut, head, List.nil_append]
    exact ih (by linarith) capacities

/-- Nothing stands before zero. -/
theorem cut_nonpos {lo lo' : K} (before : lo ≤ 0) (before' : lo' ≤ 0) (hi : K) {cs : List K}
    (capacities : ∀ c ∈ cs, 0 < c) : cut lo hi cs = cut lo' hi cs := by
  induction cs generalizing lo lo' hi with
  | nil => rw [cut, cut, max_eq_right before, max_eq_right before']
  | cons c cs ih =>
    obtain ⟨positive, capacities⟩ := List.forall_mem_cons.1 capacities
    have next :=
      ih (sub_nonpos.2 (before.trans positive.le)) (sub_nonpos.2 (before'.trans positive.le))
      (hi - c) capacities
    rw [cut, cut, max_eq_right before, max_eq_right before', next]

theorem cut_le {lo hi lo' hi' x : K} (low : lo' ≤ lo) (high : hi ≤ hi') {cs : List K}
    (member : x ∈ cut lo hi cs) : ∃ y ∈ cut lo' hi' cs, x ≤ y := by
  induction cs generalizing lo hi lo' hi' with
  | nil => exact piece_le (max_le_max low le_rfl) high member
  | cons c cs ih =>
    rcases List.mem_append.1 member with head | later
    · obtain ⟨y, there, le⟩ := piece_le (max_le_max low le_rfl) (min_le_min high le_rfl) head
      exact ⟨y, List.mem_append_left _ there, le⟩
    · obtain ⟨y, there, le⟩ := ih (sub_le_sub_right low c) (sub_le_sub_right high c) later
      exact ⟨y, List.mem_append_right _ there, le⟩

/-- A mark inside a span cuts at most one of its pieces in two. -/
theorem cut_split {P : K → Prop} (sums : ∀ x y, P x → P y → P (x + y)) {lo mid hi : K}
    (low : lo ≤ mid) (high : mid ≤ hi) {cs : List K} (first : ∀ x ∈ cut lo mid cs, P x)
    (second : ∀ x ∈ cut mid hi cs, P x) : ∀ x ∈ cut lo hi cs, P x := by
  induction cs generalizing lo mid hi with
  | nil =>
    rcases le_total mid 0 with before | after
    · simp only [cut, max_eq_right before] at second
      rw [cut, max_eq_right (low.trans before)]
      exact second
    · simp only [cut, max_eq_left after] at second
      exact piece_split sums first second (max_le low after) high
  | cons c cs ih =>
    obtain ⟨head, later⟩ := List.forall_mem_append.1 first
    obtain ⟨head', later'⟩ := List.forall_mem_append.1 second
    refine List.forall_mem_append.2
      ⟨?_, ih (sub_le_sub_right low c) (sub_le_sub_right high c) later later'⟩
    rcases le_total mid 0 with before | after
    · rw [max_eq_right before] at head'
      rwa [max_eq_right (low.trans before)]
    rcases le_total c mid with beyond | inside
    · rw [min_eq_right beyond] at head
      rwa [min_eq_right (beyond.trans high)]
    · rw [min_eq_left inside] at head
      rw [max_eq_left after] at head'
      exact piece_split sums head head' (max_le low after) (le_min high inside)

/-- What the unit spans and sums have, every whole span has. -/
theorem cut_units {P : K → Prop} (sums : ∀ x y, P x → P y → P (x + y)) {cs : List K} {total : ℕ}
    (units : ∀ m < total, ∀ x ∈ cut (m : K) (m + 1) cs, P x) (m n : ℕ) (within : m + n ≤ total)
    (some' : 0 < n) : ∀ x ∈ cut (m : K) ((m + n : ℕ) : K) cs, P x := by
  induction n with
  | zero => exact absurd some' (lt_irrefl _)
  | succ n ih =>
    have last := units (m + n) (by omega)
    rw [Nat.cast_add m (n + 1), Nat.cast_add n 1, Nat.cast_one, ← add_assoc, ← Nat.cast_add]
    rcases Nat.eq_zero_or_pos n with rfl | before
    · simpa using last
    · exact cut_split sums (by exact_mod_cast Nat.le_add_right m n) (by linarith)
        (ih (by omega) before) last

omit [IsStrictOrderedRing K] in
theorem remaining_zero {cs : List K} (capacities : ∀ c ∈ cs, 0 < c) : remaining 0 cs = cs := by
  cases cs with
  | nil => rfl
  | cons c cs => rw [remaining, if_pos (capacities c List.mem_cons_self), sub_zero]

/-- Once an amount is gone, the spans begin where it ended. -/
theorem cut_remaining {gone lo hi : K} (some' : 0 ≤ gone) (low : 0 ≤ lo) (cs : List K) :
    cut lo hi (remaining gone cs) = cut (gone + lo) (gone + hi) cs := by
  induction cs generalizing gone lo hi with
  | nil =>
    have both := piece_add gone (max lo 0) hi
    rw [max_eq_left low] at both
    rw [remaining, cut, cut, max_eq_left low, max_eq_left (add_nonneg some' low), both]
  | cons c cs ih =>
    have start := max_eq_left (add_nonneg some' low)
    by_cases part : gone < c
    · have head : piece (gone + lo) (min (gone + hi) c) = piece lo (min hi (c - gone)) := by
        rw [← piece_add gone lo, ← min_add_add_left, add_sub_cancel]
      have shift (x : K) : x - (c - gone) = gone + x - c := by ring
      rw [remaining, if_pos part, cut, cut, start, max_eq_left low, head, shift, shift]
    · have whole := not_lt.1 part
      have head := piece_empty ((min_le_right (gone + hi) c).trans (by linarith : c ≤ gone + lo))
      have shift (x : K) : gone - c + x = gone + x - c := by ring
      rw [remaining, if_neg part, cut, start, head, List.nil_append,
        ih (sub_nonneg.2 whole) low, shift, shift]

theorem remaining_remaining {gone more : K} (some' : 0 ≤ more) (cs : List K) :
    remaining more (remaining gone cs) = remaining (gone + more) cs := by
  induction cs generalizing gone more with
  | nil => rfl
  | cons c cs ih =>
    by_cases part : gone < c
    · rw [remaining, if_pos part, remaining, remaining]
      by_cases both : gone + more < c
      · have inside : more < c - gone := by linarith
        rw [if_pos both, if_pos inside, sub_sub]
      · have beyond : ¬more < c - gone := by linarith [not_lt.1 both]
        have shift : more - (c - gone) = gone + more - c := by ring
        rw [if_neg both, if_neg beyond, shift]
    · have whole := not_lt.1 part
      have beyond : ¬gone + more < c := by linarith
      have shift : gone - c + more = gone + more - c := by ring
      rw [remaining, if_neg part, ih some', remaining, if_neg beyond, shift]

/-- Draining serves the pieces of the span it takes. -/
theorem drain_cut {α : Type*} (capacity : α → K) {amount : K} (positive : 0 < amount)
    (xs : List α) (capacities : ∀ x ∈ xs, 0 < capacity x) :
    let drained := drain capacity amount xs
    drained.1.map Prod.snd ++ (if 0 < drained.2 then [drained.2] else []) =
      cut 0 amount (xs.map capacity) := by
  induction xs generalizing amount with
  | nil => simp [drain, cut, piece, positive]
  | cons x xs ih =>
    obtain ⟨capacity', capacities⟩ := List.forall_mem_cons.1 capacities
    have others : ∀ c ∈ xs.map capacity, 0 < c := by simpa using capacities
    have before : (0 : K) - capacity x ≤ 0 := by linarith
    rw [List.map_cons, cut, max_self]
    by_cases enough : amount ≤ capacity x
    · rw [min_eq_left enough, cut_empty (sub_nonpos.2 enough) others]
      simp [drain, enough, piece, positive]
    · have more := not_le.1 enough
      have step := ih (sub_pos.2 more) capacities
      rw [min_eq_right more.le, cut_nonpos before le_rfl _ others]
      simp only [drain, if_neg enough, List.map_cons, List.cons_append]
      rw [step]
      simp [piece, capacity']

end Cut

end ArbNautilus.Base
