import ArbNautilus.Base.Rounding

namespace ArbNautilus.Base

theorem sum_nonpos {M : Type*} [AddCommMonoid M] [Preorder M] [AddLeftMono M] {xs : List M}
    (h : ∀ x ∈ xs, x ≤ 0) : xs.sum ≤ 0 := by
  simpa using List.sum_le_card_nsmul xs 0 h

section Executed

variable {K : Type*} [Field K] [LinearOrder K] [IsStrictOrderedRing K]

/-- A part of a quantity, from nothing up to the whole, of its sign. -/
def PartOf (n q : K) : Prop := 0 ≤ n ∧ 0 ≤ q ∧ q ≤ n ∨ n ≤ 0 ∧ n ≤ q ∧ q ≤ 0

/-- What was carried out of a list of quantities in order: whole ones, then part of one. -/
inductive Executed : List ℤ → List K → Prop where
  | none (ns : List ℤ) : Executed ns []
  | part {n : ℤ} {q : K} (ns : List ℤ) (within : PartOf (n : K) q) : Executed (n :: ns) [q]
  | whole {n : ℤ} {ns : List ℤ} {qs : List K} : Executed ns qs → Executed (n :: ns) ((n : K) :: qs)

/-- What holds the sum of every prefix holds whatever was carried out. -/
theorem Executed.between {ns : List ℤ} {qs : List K} (h : Executed ns qs) (lo hi : K)
    (prefixes : ∀ j, lo ≤ ((ns.take j).sum : ℤ) ∧ (((ns.take j).sum : ℤ) : K) ≤ hi) :
    lo ≤ qs.sum ∧ qs.sum ≤ hi := by
  induction h generalizing lo hi with
  | none => simpa using prefixes 0
  | @part n q ns within =>
    have before := prefixes 0
    have after := prefixes 1
    simp only [List.take_zero, List.sum_nil, Int.cast_zero, List.take_succ_cons,
      List.sum_cons, add_zero] at before after
    rw [List.sum_singleton]
    rcases within with ⟨_, low, high⟩ | ⟨_, low, high⟩ <;> constructor <;> linarith
  | @whole n ns qs _ ih =>
    have rest := ih (lo - n) (hi - n) fun j => by
      have shifted := prefixes (j + 1)
      simp only [List.take_succ_cons, List.sum_cons, Int.cast_add] at shifted
      constructor <;> linarith
    rw [List.sum_cons]
    constructor <;> linarith

omit [IsStrictOrderedRing K] in
theorem Executed.of_append (done pending : List ℤ) :
    Executed (done ++ pending) (done.map (Int.cast : ℤ → K)) := by
  induction done with
  | nil => exact .none pending
  | cons n done ih => exact .whole ih

omit [IsStrictOrderedRing K] in
theorem Executed.of_part (done pending : List ℤ) {n : ℤ} {q : K} (within : PartOf (n : K) q) :
    Executed (done ++ n :: pending) ((done.map (Int.cast : ℤ → K)) ++ [q]) := by
  induction done with
  | nil => exact .part pending within
  | cons n done ih => exact .whole ih

theorem Executed.nonneg {ns : List ℤ} {qs : List K} (h : Executed ns qs)
    (signs : ∀ n ∈ ns, 0 ≤ n) : ∀ q ∈ qs, 0 ≤ q := by
  induction h with
  | none => simp
  | @part n q ns within =>
    intro q' member
    obtain rfl := List.mem_singleton.1 member
    have positive : (0 : K) ≤ n := Int.cast_nonneg (signs n (by simp))
    rcases within with ⟨_, low, _⟩ | ⟨negative, low, _⟩
    · exact low
    · linarith
  | @whole n ns qs _ ih =>
    rintro q' (_ | ⟨_, member⟩)
    · exact Int.cast_nonneg (signs n (by simp))
    · exact ih (fun n later => signs n (by simp [later])) q' member

theorem Executed.nonpos {ns : List ℤ} {qs : List K} (h : Executed ns qs)
    (signs : ∀ n ∈ ns, n ≤ 0) : ∀ q ∈ qs, q ≤ 0 := by
  induction h with
  | none => simp
  | @part n q ns within =>
    intro q' member
    obtain rfl := List.mem_singleton.1 member
    have negative : (n : K) ≤ 0 := Int.cast_nonpos.2 (signs n (by simp))
    rcases within with ⟨positive, _, high⟩ | ⟨_, _, high⟩
    · linarith
    · exact high
  | @whole n ns qs _ ih =>
    rintro q' (_ | ⟨_, member⟩)
    · exact Int.cast_nonpos.2 (signs n (by simp))
    · exact ih (fun n later => signs n (by simp [later])) q' member

end Executed

section Emits

variable {K : Type*} [Field K] [LinearOrder K] [IsStrictOrderedRing K] [FloorRing K]

theorem nearestEven_nonneg {x : K} (h : -(1 / 2) ≤ x) : 0 ≤ nearestEven x := by
  have near := abs_le.1 (abs_sub_nearestEven_le x)
  by_contra negative
  have low : nearestEven x ≤ -1 := by omega
  have low' : (nearestEven x : K) ≤ -1 := by exact_mod_cast low
  have half : x = -(1 / 2) := by linarith [near.2]
  have floor : ⌊x⌋ = -1 := by
    rw [half, Int.floor_eq_iff]
    constructor <;> norm_num
  unfold nearestEven at low
  rw [floor, half] at low
  norm_num at low

theorem nearestEven_nonpos {x : K} (h : x ≤ 1 / 2) : nearestEven x ≤ 0 := by
  have near := abs_le.1 (abs_sub_nearestEven_le x)
  by_contra positive
  have high : 1 ≤ nearestEven x := by omega
  have high' : (1 : K) ≤ nearestEven x := by exact_mod_cast high
  have half : x = 1 / 2 := by linarith [near.1]
  have floor : ⌊x⌋ = 0 := by
    rw [half, Int.floor_eq_iff]
    constructor <;> norm_num
  unfold nearestEven at high
  rw [floor, half] at high
  norm_num at high

theorem le_nearestEven_of_lt {x : K} {n : ℤ} (less : n - 1 / 2 < x) : n ≤ nearestEven x := by
  have near := (abs_le.1 (abs_sub_nearestEven_le x)).2
  have above : ((n - 1 : ℤ) : K) < ((nearestEven x : ℤ) : K) := by
    push_cast
    linarith
  have := Int.cast_lt.1 above
  omega

/-- A tie goes up exactly to an even number. -/
theorem nearestEven_sub_half (n : ℤ) : nearestEven ((n : K) - 1 / 2) = n ↔ Even n := by
  have floor : ⌊(n : K) - 1 / 2⌋ = n - 1 := by
    rw [Int.floor_eq_iff]
    push_cast
    constructor <;> linarith
  have half : (n : K) - 1 / 2 - ((n - 1 : ℤ) : K) = 1 / 2 := by
    push_cast
    ring
  unfold nearestEven
  rw [floor, half, if_neg (lt_irrefl _), if_neg (lt_irrefl _)]
  by_cases even : Even n
  · simp [even]
  · simp [even]

omit [IsStrictOrderedRing K] in
theorem take_emits (r : K) (xs : List K) (j : ℕ) :
    (emits r xs).take j = emits r (xs.take j) := by
  induction xs generalizing r j with
  | nil => simp [emits]
  | cons x xs ih =>
    cases j with
    | zero => simp [emits]
    | succ j => simp [emits, ih]

/-- A prefix emits what came in, up to what remains. -/
theorem prefix_emits (r : K) (xs : List K) (j : ℕ) :
    ((((emits r xs).take j).sum : ℤ) : K) = r + (xs.take j).sum - carryAll r (xs.take j) := by
  rw [take_emits, eq_sub_iff_add_eq, add_comm]
  exact carryAll_add_emits r (xs.take j)

theorem emits_nonneg {r : K} {xs : List K} (small : |r| ≤ 1 / 2) (signs : ∀ x ∈ xs, 0 ≤ x) :
    ∀ n ∈ emits r xs, 0 ≤ n := by
  induction xs generalizing r with
  | nil => simp [emits]
  | cons x xs ih =>
    have low := (abs_le.1 small).1
    have positive := signs x (by simp)
    rintro n (_ | ⟨_, member⟩)
    · exact nearestEven_nonneg (by linarith)
    · exact ih (abs_carry_le r x) (fun y later => signs y (by simp [later])) n member

/-- Short of a tie, only the total decides how much is emitted. -/
theorem emits_sum_eq {r : K} {xs ys : List K} (small : |r| ≤ 1 / 2) (same : xs.sum = ys.sum)
    (settled : ∀ k : ℤ, r + xs.sum ≠ k + 1 / 2) : (emits r xs).sum = (emits r ys).sum := by
  have first := carryAll_add_emits r xs
  have second := carryAll_add_emits r ys
  have inside := abs_le.1 (abs_carryAll_le small xs)
  have inside' := abs_le.1 (abs_carryAll_le small ys)
  generalize (emits r xs).sum = m at first ⊢
  generalize (emits r ys).sum = n at second ⊢
  have low : -(1 / 2) < carryAll r xs := by
    apply lt_of_le_of_ne inside.1
    intro tie
    apply settled (m - 1)
    push_cast
    linarith
  have high : carryAll r xs < 1 / 2 := by
    apply lt_of_le_of_ne inside.2
    intro tie
    apply settled m
    linarith
  have below : (m : K) < ((n + 1 : ℤ) : K) := by
    push_cast
    linarith
  have above : (n : K) < ((m + 1 : ℤ) : K) := by
    push_cast
    linarith
  have below' := Int.cast_lt.1 below
  have above' := Int.cast_lt.1 above
  omega

/-- Amounts of one sign emit, each time, the rounding of what came in less what went out. -/
theorem emitted_from {xs : List K} (signs : ∀ x ∈ xs, 0 ≤ x) {k : ℕ} {n : ℤ}
    (there : (emits 0 xs)[k]? = some n) :
    ∃ gone : ℕ, ((emits 0 xs).take k).sum = gone ∧
      ∃ arrived ≤ xs.sum, n = nearestEven (arrived - gone) := by
  obtain ⟨x, arrival, rfl⟩ := emits_getElem? there
  have nonneg : 0 ≤ ((emits 0 xs).take k).sum := by
    apply List.sum_nonneg
    intro m member
    exact emits_nonneg (by norm_num) signs m (List.mem_of_mem_take member)
  obtain ⟨gone, same⟩ := Int.eq_ofNat_of_zero_le nonneg
  have before := prefix_emits 0 xs k
  rw [same, Int.cast_natCast] at before
  refine ⟨gone, same, (xs.take k).sum + x, ?_, ?_⟩
  · obtain ⟨inside, rfl⟩ := List.getElem?_eq_some_iff.1 arrival
    have later : 0 ≤ (xs.drop (k + 1)).sum :=
      List.sum_nonneg fun y member => signs y (List.mem_of_mem_drop member)
    rw [← List.sum_take_add_sum_drop xs (k + 1), List.sum_take_succ _ _ inside]
    linarith
  · congr 1
    linarith

theorem emits_nonpos {r : K} {xs : List K} (small : |r| ≤ 1 / 2) (signs : ∀ x ∈ xs, x ≤ 0) :
    ∀ n ∈ emits r xs, n ≤ 0 := by
  induction xs generalizing r with
  | nil => simp [emits]
  | cons x xs ih =>
    have high := (abs_le.1 small).2
    have negative := signs x (by simp)
    rintro n (_ | ⟨_, member⟩)
    · exact nearestEven_nonpos (by linarith)
    · exact ih (abs_carry_le r x) (fun y later => signs y (by simp [later])) n member

end Emits

section Within

variable {K : Type*} [Field K] [LinearOrder K] [IsStrictOrderedRing K]

/-- The amounts of a list lie between the two one-sided totals of any larger list. -/
structure Within (xs : List K) (buy sell : K) : Prop where
  buys : (xs.filter (0 ≤ ·)).sum ≤ buy
  sells : -(xs.filter (· < 0)).sum ≤ sell

omit [IsStrictOrderedRing K] in
theorem sum_split (xs : List K) :
    xs.sum = (xs.filter (0 ≤ ·)).sum + (xs.filter (· < 0)).sum := by
  induction xs with
  | nil => simp
  | cons x xs ih =>
    by_cases sign : 0 ≤ x
    · have other : ¬x < 0 := not_lt.2 sign
      simp [sign, other, ih, add_assoc]
    · have other : x < 0 := not_le.1 sign
      simp [sign, other, ih]
      ring

theorem filter_nonneg_sum (xs : List K) : 0 ≤ (xs.filter (0 ≤ ·)).sum := by
  apply List.sum_nonneg
  intro x member
  simpa using (List.mem_filter.1 member).2

theorem filter_neg_sum (xs : List K) : (xs.filter (· < 0)).sum ≤ 0 := by
  apply sum_nonpos
  intro x member
  exact le_of_lt (by simpa using (List.mem_filter.1 member).2)

theorem Within.bounds {xs : List K} {buy sell : K} (h : Within xs buy sell) :
    -sell ≤ xs.sum ∧ xs.sum ≤ buy := by
  have buys := h.buys
  have sells := h.sells
  have up := filter_nonneg_sum xs
  have down := filter_neg_sum xs
  rw [sum_split]
  constructor <;> linarith

theorem Within.nonneg {xs : List K} {buy sell : K} (h : Within xs buy sell) : 0 ≤ buy ∧ 0 ≤ sell :=
  ⟨(filter_nonneg_sum xs).trans h.buys, (neg_nonneg.2 (filter_neg_sum xs)).trans h.sells⟩

theorem Within.of_append {xs ys : List K} {buy sell : K} (h : Within (xs ++ ys) buy sell) :
    Within xs buy sell ∧ Within ys buy sell := by
  have buys := h.buys
  have sells := h.sells
  rw [List.filter_append, List.sum_append] at buys sells
  have up := filter_nonneg_sum xs
  have up' := filter_nonneg_sum ys
  have down := filter_neg_sum xs
  have down' := filter_neg_sum ys
  exact ⟨⟨by linarith, by linarith⟩, ⟨by linarith, by linarith⟩⟩

theorem Within.split {xs : List K} {buy sell : K} (h : Within xs buy sell) (j : ℕ) :
    Within (xs.take j) buy sell ∧ Within (xs.drop j) buy sell := by
  rw [← List.take_append_drop j xs] at h
  exact h.of_append

theorem Within.nonneg_of_no_sells {xs : List K} {buy : K} (h : Within xs buy 0) :
    ∀ x ∈ xs, 0 ≤ x := by
  intro x member
  by_contra sign
  have negative := not_le.1 sign
  obtain ⟨front, back, rfl⟩ := List.append_of_mem member
  have tail : Within ([x] ++ back) buy 0 := h.of_append.2
  have alone := tail.of_append.1.sells
  simp only [negative, decide_true, List.filter_cons_of_pos, List.filter_nil,
    List.sum_singleton] at alone
  linarith

theorem Within.nonpos_of_no_buys {xs : List K} {sell : K} (h : Within xs 0 sell) :
    ∀ x ∈ xs, x ≤ 0 := by
  intro x member
  by_contra sign
  have positive := not_le.1 sign
  obtain ⟨front, back, rfl⟩ := List.append_of_mem member
  have tail : Within ([x] ++ back) 0 sell := h.of_append.2
  have alone := tail.of_append.1.buys
  simp only [positive.le, decide_true, List.filter_cons_of_pos, List.filter_nil,
    List.sum_singleton] at alone
  linarith

end Within

section WorstCase

variable {K : Type*} [Field K] [LinearOrder K] [IsStrictOrderedRing K] [FloorRing K]
  {r buy sell : K} {xs : List K} (small : |r| ≤ 1 / 2) (within : Within xs buy sell)

include small

include within in
theorem prefix_emits_le (j : ℕ) : ((emits r xs).take j).sum ≤ ⌊r + buy + 1 / 2⌋ := by
  have remains := (abs_le.1 (abs_carryAll_le small (xs.take j))).1
  have came := (within.split j).1.bounds.2
  apply Int.le_floor.2
  rw [prefix_emits]
  linarith

include within in
theorem le_prefix_emits (j : ℕ) : -⌊-r + sell + 1 / 2⌋ ≤ ((emits r xs).take j).sum := by
  have remains := (abs_le.1 (abs_carryAll_le small (xs.take j))).2
  have came := (within.split j).1.bounds.1
  have lower : -((emits r xs).take j).sum ≤ ⌊-r + sell + 1 / 2⌋ := by
    apply Int.le_floor.2
    rw [Int.cast_neg, prefix_emits]
    linarith
  omega

omit small in
/-- What is owed once a prefix was emitted: the later arrivals and what remained then. -/
theorem owed_eq (r : K) (xs : List K) (j : ℕ) :
    r + xs.sum - (((emits r xs).take j).sum : ℤ) =
      (xs.drop j).sum + carryAll r (xs.take j) := by
  have all := List.sum_take_add_sum_drop xs j
  rw [prefix_emits]
  linarith

include within in
theorem abs_owed_le (j : ℕ) :
    |r + xs.sum - (((emits r xs).take j).sum : ℤ)| ≤ 1 / 2 + max buy sell := by
  have remains := abs_le.1 (abs_carryAll_le small (xs.take j))
  have later := (within.split j).2.bounds
  have left := le_max_left buy sell
  have right := le_max_right buy sell
  rw [owed_eq, abs_le]
  constructor <;> linarith

/-- With one side working, the extremes are the residual and its last possible value. -/
theorem abs_owed_buy_le (within : Within xs buy 0) (j : ℕ) :
    |r + xs.sum - (((emits r xs).take j).sum : ℤ)| ≤ max |r| |r + buy| := by
  have signs := within.nonneg_of_no_sells
  have remains := abs_le.1 (abs_carryAll_le small (xs.take j))
  have total := within.bounds.2
  have later : 0 ≤ (xs.drop j).sum :=
    List.sum_nonneg fun x member => signs x (List.mem_of_mem_drop member)
  have sooner : 0 ≤ (xs.take j).sum :=
    List.sum_nonneg fun x member => signs x (List.mem_of_mem_take member)
  have split := List.sum_take_add_sum_drop xs j
  have emitted : 0 ≤ ((emits r xs).take j).sum :=
    List.sum_nonneg fun n member => emits_nonneg small signs n (List.mem_of_mem_take member)
  have prefixed := prefix_emits r xs j
  have ends := le_abs_self (r + buy)
  have outer := le_max_right |r| |r + buy|
  have inner := le_max_left |r| |r + buy|
  have start := neg_abs_le r
  rw [abs_le]
  have emitted' : (0 : K) ≤ ((((emits r xs).take j).sum : ℤ) : K) := by exact_mod_cast emitted
  constructor
  · rcases emitted.eq_or_lt with none | some
    · rw [← none, Int.cast_zero]
      linarith
    · have one : (1 : K) ≤ ((((emits r xs).take j).sum : ℤ) : K) := by exact_mod_cast some
      linarith
  · linarith

theorem abs_owed_sell_le (within : Within xs 0 sell) (j : ℕ) :
    |r + xs.sum - (((emits r xs).take j).sum : ℤ)| ≤ max |r| |r - sell| := by
  have signs := within.nonpos_of_no_buys
  have remains := abs_le.1 (abs_carryAll_le small (xs.take j))
  have total := within.bounds.1
  have later : 0 ≤ -(xs.drop j).sum := neg_nonneg.2 (sum_nonpos fun x member =>
    signs x (List.mem_of_mem_drop member))
  have sooner : 0 ≤ -(xs.take j).sum := neg_nonneg.2 (sum_nonpos fun x member =>
    signs x (List.mem_of_mem_take member))
  have split := List.sum_take_add_sum_drop xs j
  have emitted : ((emits r xs).take j).sum ≤ 0 :=
    sum_nonpos fun n member => emits_nonpos small signs n (List.mem_of_mem_take member)
  have prefixed := prefix_emits r xs j
  have ends := neg_abs_le (r - sell)
  have outer := le_max_right |r| |r - sell|
  have inner := le_max_left |r| |r - sell|
  have start := le_abs_self r
  rw [abs_le]
  have emitted' : ((((emits r xs).take j).sum : ℤ) : K) ≤ 0 := by exact_mod_cast emitted
  constructor
  · linarith
  · rcases emitted.eq_or_lt with none | some
    · rw [none, Int.cast_zero]
      linarith
    · have one : ((((emits r xs).take j).sum : ℤ) : K) ≤ -1 := by
        have : ((emits r xs).take j).sum ≤ -1 := by omega
        exact_mod_cast this
      linarith

/-- One arrival emits no more than the nearest integer of all that may arrive, over what
was carried when it started, or over a half when arrivals the other way may have come first. -/
theorem emit_bounds (within : Within xs buy sell) {k : ℕ} {n : ℤ} {x : K}
    (emitted : (emits r xs)[k]? = some n) (arrival : xs[k]? = some x) (positive : 0 ≤ x) :
    0 ≤ n ∧ n ≤ nearestEven ((if sell ≠ 0 then 1 / 2 else r) + buy) := by
  obtain ⟨y, there, rfl⟩ := emits_getElem? emitted
  obtain rfl : y = x := Option.some.inj (there.symm.trans arrival)
  have remains := abs_le.1 (abs_carryAll_le small (xs.take k))
  refine ⟨nearestEven_nonneg (by linarith [remains.1]), nearestEven_mono ?_⟩
  obtain ⟨inside, here⟩ := List.getElem?_eq_some_iff.1 arrival
  split
  · have alone : Within [y] buy sell := by
      have tail := (within.split k).2
      rw [List.drop_eq_getElem_cons inside, here] at tail
      have both : Within ([y] ++ xs.drop (k + 1)) buy sell := tail
      exact both.of_append.1
    have most := alone.bounds.2
    rw [List.sum_singleton] at most
    linarith [remains.2]
  · rename_i noSells
    obtain rfl := not_not.1 noSells
    have signs := within.nonneg_of_no_sells
    have emittedBefore : 0 ≤ ((emits r xs).take k).sum :=
      List.sum_nonneg fun n member => emits_nonneg small signs n (List.mem_of_mem_take member)
    have emittedBefore' : (0 : K) ≤ ((((emits r xs).take k).sum : ℤ) : K) := by
      exact_mod_cast emittedBefore
    have came := (within.split (k + 1)).1.bounds.2
    rw [List.take_succ_eq_append_getElem inside, List.sum_append, List.sum_singleton, here] at came
    have prefixed := prefix_emits r xs k
    linarith

end WorstCase

section Mirror

variable {K : Type*} [Field K] [LinearOrder K] [IsStrictOrderedRing K]

/-- What arrives one way is what leaves the other way. -/
theorem filter_neg_map (xs : List K) :
    ((xs.map (- ·)).filter (0 ≤ ·)).sum = -(xs.filter (· < 0)).sum ∧
      ((xs.map (- ·)).filter (· < 0)).sum = -(xs.filter (0 ≤ ·)).sum := by
  induction xs with
  | nil => simp
  | cons x xs ih =>
    obtain ⟨nonneg, neg⟩ := ih
    rcases lt_trichotomy x 0 with sign | rfl | sign
    · have other : ¬0 ≤ x := not_le.2 sign
      simp [sign, sign.le, other, nonneg, neg, add_comm]
    · simp [nonneg, neg]
    · have other : ¬x < 0 := not_lt.2 sign.le
      have above : ¬x ≤ 0 := not_le.2 sign
      simp [sign, sign.le, other, above, nonneg, neg, add_comm]

theorem Within.neg {xs : List K} {buy sell : K} (h : Within xs buy sell) :
    Within (xs.map (- ·)) sell buy := by
  obtain ⟨nonneg, neg⟩ := filter_neg_map xs
  refine ⟨nonneg.trans_le h.sells, ?_⟩
  rw [neg, neg_neg]
  exact h.buys

/-- The same of an arrival the other way. -/
theorem emit_bounds_neg [FloorRing K] {r buy sell : K} {xs : List K} (small : |r| ≤ 1 / 2)
    (within : Within xs buy sell) {k : ℕ} {n : ℤ} {x : K} (emitted : (emits r xs)[k]? = some n)
    (arrival : xs[k]? = some x) (negative : x ≤ 0) :
    n ≤ 0 ∧ -n ≤ nearestEven ((if buy ≠ 0 then 1 / 2 else -r) + sell) := by
  have mirrored : (emits (-r) (xs.map (- ·)))[k]? = some (-n) := by
    rw [emits_neg, List.getElem?_map, emitted, Option.map_some]
  have there : (xs.map (- ·))[k]? = some (-x) := by
    rw [List.getElem?_map, arrival, Option.map_some]
  have bounds := emit_bounds (by rwa [abs_neg]) within.neg mirrored there (neg_nonneg.2 negative)
  exact ⟨neg_nonneg.1 bounds.1, bounds.2⟩

end Mirror

end ArbNautilus.Base
