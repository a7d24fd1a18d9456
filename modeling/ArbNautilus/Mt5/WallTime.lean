import ArbNautilus.Base.Raise
import ArbNautilus.Base.WallClock
import Mathlib.Algebra.Order.Group.Unbundled.Abs
import Mathlib.Data.List.Dedup
import Mathlib.Data.List.Sort

/-! When a tick happened, from the server's wall clock and a UTC fact. -/

namespace ArbNautilus.Mt5.WallTime

open Base

inductive DataError
  | dataError (message : String)
deriving DecidableEq

/-- The instants of a label, each once. -/
def candidates (timezone : WallClock) (serverWallMs : ℤ) : List ℤ :=
  (([false, true].map fun fold => timezone.instant fold serverWallMs).filter fun utc =>
    timezone.wall utc = serverWallMs).dedup

/-- The order of pairs of numbers. -/
def before (a b : ℤ × ℤ) : Prop := a.1 < b.1 ∨ a.1 = b.1 ∧ a.2 ≤ b.2

instance : DecidableRel before := fun _ _ => inferInstanceAs (Decidable (_ ∨ _))

/-- `server_wall_ms_to_utc_ns`, in whole milliseconds up to its result. -/
def serverWallMsToUtcNs (timezone : WallClock) (serverWallMs referenceUtcMs : ℤ) :
    Except DataError ℤ :=
  let distances := ((candidates timezone serverWallMs).map fun candidate =>
    (|candidate - referenceUtcMs|, candidate)).insertionSort before
  match distances with
  | [] => .error (.dataError "MT5 server-wall timestamp falls in a DST gap")
  | [nearest] => .ok (nearest.2 * 1000000)
  | nearest :: other :: _ =>
    if nearest.1 = other.1 then .error (.dataError "MT5 server-wall timestamp is DST-ambiguous")
    else .ok (nearest.2 * 1000000)

section Resolved

variable {timezone : WallClock} {u label r : ℤ}

/-- A label in a gap has no candidate. -/
theorem candidates_gap (gap : ∀ u, timezone.wall u ≠ label) : candidates timezone label = [] := by
  unfold candidates
  rw [List.filter_eq_nil_iff.2]
  · rfl
  · intro utc _
    simpa using gap utc

theorem candidates_once {only : ℤ} (first : timezone.instant false label = only)
    (last : timezone.instant true label = only) (shown : timezone.wall only = label) :
    candidates timezone label = [only] := by
  simp [candidates, first, last, shown, List.dedup_cons_of_mem]

theorem candidates_twice {x y : ℤ} (first : timezone.instant false label = x)
    (last : timezone.instant true label = y) (shown : timezone.wall x = label)
    (again : timezone.wall y = label) (apart : x ≠ y) : candidates timezone label = [x, y] := by
  simp [candidates, first, last, shown, again, List.dedup_cons_of_notMem, apart]

theorem candidates_cases (shown : timezone.wall u = label) :
    (timezone.instant false label = timezone.instant true label ∧
        candidates timezone label = [timezone.instant false label]) ∨
      timezone.instant false label ≠ timezone.instant true label ∧
        candidates timezone label =
        [timezone.instant false label, timezone.instant true label] := by
  have first := WallClock.wall_instant false shown
  have last := WallClock.wall_instant true shown
  by_cases same : timezone.instant false label = timezone.instant true label
  · exact .inl ⟨same, candidates_once rfl same.symm first⟩
  · exact .inr ⟨same, candidates_twice rfl rfl first last same⟩

/-- Of two candidates the nearer is taken, and none of two as near. -/
theorem resolve_two {x y : ℤ} (two : candidates timezone label = [x, y]) :
    serverWallMsToUtcNs timezone label r =
      if |x - r| < |y - r| then .ok (x * 1000000)
      else if |y - r| < |x - r| then .ok (y * 1000000)
      else .error (.dataError "MT5 server-wall timestamp is DST-ambiguous") := by
  have sorted : ([(|x - r|, x), (|y - r|, y)]).insertionSort before =
      if before (|x - r|, x) (|y - r|, y) then [(|x - r|, x), (|y - r|, y)]
      else [(|y - r|, y), (|x - r|, x)] := by
    simp [List.insertionSort, List.orderedInsert]
  unfold serverWallMsToUtcNs
  rw [two]
  simp only [List.map_cons, List.map_nil, sorted]
  rcases lt_trichotomy |x - r| |y - r| with nearer | equal | farther
  · have order : before (|x - r|, x) (|y - r|, y) := .inl nearer
    rw [if_pos order, if_pos nearer]
    exact if_neg nearer.ne
  · rw [if_neg equal.not_lt, if_neg equal.not_gt]
    by_cases order : before (|x - r|, x) (|y - r|, y)
    · rw [if_pos order]
      exact if_pos equal
    · rw [if_neg order]
      exact if_pos equal.symm
  · have order : ¬before (|x - r|, x) (|y - r|, y) := by
      rintro (less | ⟨equal, -⟩)
      · exact lt_asymm farther less
      · exact farther.ne' equal
    rw [if_neg order, if_neg (lt_asymm farther), if_pos farther]
    exact if_neg farther.ne

/-- The label alone decides, or the reference does. -/
theorem resolve_cases (shown : timezone.wall u = label) :
    (timezone.instant false label = timezone.instant true label ∧
        serverWallMsToUtcNs timezone label r = .ok (timezone.instant false label * 1000000)) ∨
      timezone.instant false label ≠ timezone.instant true label ∧
        serverWallMsToUtcNs timezone label r =
          if |timezone.instant false label - r| < |timezone.instant true label - r| then
            .ok (timezone.instant false label * 1000000)
          else if |timezone.instant true label - r| < |timezone.instant false label - r| then
            .ok (timezone.instant true label * 1000000)
          else .error (.dataError "MT5 server-wall timestamp is DST-ambiguous") := by
  rcases candidates_cases shown with ⟨same, one⟩ | ⟨apart, two⟩
  · refine .inl ⟨same, ?_⟩
    unfold serverWallMsToUtcNs
    rw [one]
    rfl
  · exact .inr ⟨apart, resolve_two two⟩

theorem resolve_gap (gap : ∀ u, timezone.wall u ≠ label) :
    serverWallMsToUtcNs timezone label r =
      .error (.dataError "MT5 server-wall timestamp falls in a DST gap") := by
  unfold serverWallMsToUtcNs
  rw [candidates_gap gap]
  rfl

/-- What is returned is an instant at which the wall shows the label. -/
theorem resolve_shown {n : ℤ} (resolved : serverWallMsToUtcNs timezone label r = .ok n) :
    ∃ v, timezone.wall v = label ∧ n = v * 1000000 := by
  by_cases shown : ∃ u, timezone.wall u = label
  · obtain ⟨u, shown⟩ := shown
    have first := WallClock.wall_instant false shown
    have last := WallClock.wall_instant true shown
    rcases resolve_cases (r := r) shown with ⟨-, value⟩ | ⟨-, value⟩
    · exact ⟨_, first, Except.ok.inj (resolved.symm.trans value)⟩
    · rw [value] at resolved
      split at resolved
      · exact ⟨_, first, (Except.ok.inj resolved).symm⟩
      split at resolved
      · exact ⟨_, last, (Except.ok.inj resolved).symm⟩
      · cases resolved
  · rw [resolve_gap fun u found => shown ⟨u, found⟩] at resolved
    cases resolved

/-- A wall label becomes the instant it was shown at, the nearer one to the reference of two;
a label between two as near, or of none, is refused. -/
theorem server_wall_resolves (timezone : WallClock) (twice : timezone.AtMostTwice) :
    (∀ u r, (∀ v, timezone.wall v = timezone.wall u → v ≠ u → |u - r| < |v - r|) →
      serverWallMsToUtcNs timezone (timezone.wall u) r = .ok (u * 1000000)) ∧
    (∀ u v r, v ≠ u → timezone.wall v = timezone.wall u → |u - r| = |v - r| →
      serverWallMsToUtcNs timezone (timezone.wall u) r =
        .error (.dataError "MT5 server-wall timestamp is DST-ambiguous")) ∧
    (∀ label r n, serverWallMsToUtcNs timezone label r = .ok n →
      ∃ v, timezone.wall v = label ∧ n = v * 1000000) ∧
    ∀ label r, (∀ u, timezone.wall u ≠ label) →
      serverWallMsToUtcNs timezone label r =
        .error (.dataError "MT5 server-wall timestamp falls in a DST gap") := by
  refine ⟨?_, ?_, fun label r n => resolve_shown, fun label r => resolve_gap⟩
  · intro u r nearest
    have first := WallClock.wall_instant false (rfl : timezone.wall u = _)
    have last := WallClock.wall_instant true (rfl : timezone.wall u = _)
    rcases resolve_cases (r := r) (rfl : timezone.wall u = _) with ⟨same, value⟩ | ⟨apart, value⟩
    · rcases WallClock.eq_instant twice (rfl : timezone.wall u = _) with here | here
      · rw [value, ← here]
      · rw [value, same, ← here]
    · rcases WallClock.eq_instant twice (rfl : timezone.wall u = _) with here | here
      · have nearer := nearest _ last fun same => apart (here.symm.trans same.symm)
        rw [value, ← here, if_pos nearer]
      · have nearer := nearest _ first fun same => apart (same.trans here)
        rw [value, ← here, if_neg (lt_asymm nearer), if_pos nearer]
  · intro u v r other shown equal
    rcases resolve_cases (r := r) (rfl : timezone.wall u = _) with ⟨same, -⟩ | ⟨-, value⟩
    · have low := WallClock.instant_le shown
      have high := WallClock.le_instant shown
      have low' := WallClock.instant_le (rfl : timezone.wall u = _)
      have high' := WallClock.le_instant (rfl : timezone.wall u = _)
      omega
    · have both : |timezone.instant false (timezone.wall u) - r| = |timezone.instant true
          (timezone.wall u) - r| := by
        rcases WallClock.eq_instant twice (rfl : timezone.wall u = _) with here | here <;>
          rcases WallClock.eq_instant twice shown with there | there
        · exact absurd (there.trans here.symm) other
        · rw [← here, ← there, equal]
        · rw [← here, ← there, equal]
        · exact absurd (there.trans here.symm) other
      rw [value, both, if_neg (lt_irrefl _), if_neg (lt_irrefl _)]

/-- Athens in 2026, in milliseconds of UTC: summer time from 29 March to 25 October. -/
def athens : Transitions where
  first := 7200000
  changes := [(1774746000000, 10800000), (1792890000000, 7200000)]
  ordered := by decide

theorem athens_twice : athens.clock.AtMostTwice := by
  intro x y z
  simp only [WallClock.wall, Transitions.clock, Transitions.offset, athens, Transitions.offsetFrom]
  split_ifs <;> omega

/-- Half past three on the last day of summer time, seen from either side. -/
theorem server_wall_resolves_athens :
    serverWallMsToUtcNs athens.clock (athens.clock.wall 1792888200000) 1792888201000 =
        .ok (1792888200000 * 1000000) ∧
      serverWallMsToUtcNs athens.clock (athens.clock.wall 1792888200000) 1792890000000 =
        .error (.dataError "MT5 server-wall timestamp is DST-ambiguous") := by
  have resolves := server_wall_resolves athens.clock athens_twice
  refine ⟨resolves.1 1792888200000 1792888201000 ?_,
    resolves.2.1 1792888200000 1792891800000 1792890000000
    (by decide) (by decide +kernel) (by decide)⟩
  intro v shown other
  have later : v = 1792891800000 := by
    simp only [WallClock.wall, Transitions.clock, Transitions.offset, athens,
      Transitions.offsetFrom] at shown
    split_ifs at shown <;> omega
  rw [later]
  decide

end Resolved

end ArbNautilus.Mt5.WallTime
