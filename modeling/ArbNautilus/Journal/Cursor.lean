import ArbNautilus.Journal.Append
import ArbNautilus.Mt5.Scalars

namespace ArbNautilus.Journal

open Base Mt5.Codec

/-- `StringCompare`. -/
def stringCompare (left right : Text) : ℤ :=
  if left < right then -1 else if right < left then 1 else 0

def compareUint (left right : Text) : ℤ :=
  if left.length < right.length then -1
  else if right.length < left.length then 1
  else stringCompare left right

/-- The number that a cursor's digits write. -/
def cursorValue (cursor : Text) : ℕ := Nat.ofDigitChars 10 cursor 0

section Digits

theorem isUint_of_value {value : Text} (some : value ≠ []) (digits : ∀ c ∈ value, c.isDigit = true)
    (large : 1 < value.length → 10 ^ (value.length - 1) ≤ cursorValue value) :
    isUint value = true := by
  refine (isUint_iff value).2 ⟨some, digits, ?_⟩
  rintro ⟨long, zero⟩
  cases value with
  | nil => cases zero
  | cons c rest =>
    obtain rfl := Option.some.inj zero
    have small := ofDigitChars_lt fun d member => digits d (List.mem_cons_of_mem _ member)
    have bound := large long
    rw [cursorValue, ofDigitChars_cons_zero, List.length_cons, Nat.add_sub_cancel] at bound
    simp only [Nat.reduceSub, Char.reduceToNat, Nat.mul_zero, Nat.zero_add] at bound
    omega

theorem isUint_toDigits (n : ℕ) : isUint (Nat.toDigits 10 n) = true := by
  refine isUint_of_value Nat.toDigits_ne_nil (Decimal.isDigit_toDigits n) fun long => ?_
  rw [cursorValue, Nat.ofDigitChars_ten_toDigits]
  by_contra small
  have short := (Nat.length_toDigits_le_iff (by decide) (by omega)).2 (not_le.1 small)
  omega

theorem cursorValue_lt_of_shorter {a b : Text} (left : isUint a = true) (right : isUint b = true)
    (shorter : a.length < b.length) : cursorValue a < cursorValue b := by
  obtain ⟨some, digits, -⟩ := (isUint_iff a).1 left
  have more := List.length_pos_iff.2 some
  have low := ofDigitChars_lt digits
  have high := isUint_bound right (by omega)
  have scale : 10 ^ a.length ≤ 10 ^ (b.length - 1) := Nat.pow_le_pow_right (by decide) (by omega)
  unfold cursorValue
  omega

theorem cursorValue_lt_iff {a b : Text} (left : isUint a = true) (right : isUint b = true)
    (same : a.length = b.length) : a < b ↔ cursorValue a < cursorValue b :=
  lt_iff_ofDigitChars same ((isUint_iff a).1 left).2.1 ((isUint_iff b).1 right).2.1

/-- Canonical digits are the decimal of the number they write. -/
theorem eq_toDigits {value : Text} (digits : isUint value = true) :
    value = Nat.toDigits 10 (cursorValue value) := by
  have written := isUint_toDigits (cursorValue value)
  have worth : cursorValue (Nat.toDigits 10 (cursorValue value)) = cursorValue value :=
    Nat.ofDigitChars_ten_toDigits
  have same : value.length = (Nat.toDigits 10 (cursorValue value)).length := by
    rcases Nat.lt_trichotomy value.length (Nat.toDigits 10 (cursorValue value)).length with
      shorter | same | longer
    · have less := cursorValue_lt_of_shorter digits written shorter
      omega
    · exact same
    · have less := cursorValue_lt_of_shorter written digits longer
      omega
  have up := cursorValue_lt_iff digits written same
  have down := cursorValue_lt_iff written digits same.symm
  rw [worth] at up down
  exact List.le_antisymm (List.not_lt.1 fun less => absurd (down.1 less) (Nat.lt_irrefl _))
    (List.not_lt.1 fun less => absurd (up.1 less) (Nat.lt_irrefl _))

theorem canonicalUint64_value {value : Text} :
    canonicalUint64 value false = true ↔ isUint value = true ∧ cursorValue value ≤ uint64Max := by
  rw [canonicalUint64_iff]
  constructor
  · rintro ⟨digits, short, -, range⟩
    exact ⟨digits, (isUint_range digits).2 ⟨short, range⟩⟩
  · rintro ⟨digits, range⟩
    obtain ⟨short, within⟩ := (isUint_range digits).1 range
    exact ⟨digits, short, nofun, within⟩

end Digits

section Increment

/-- A carry over a text of digits adds one to their number. -/
theorem incrementDigits_value {value : Text} (digits : ∀ c ∈ value, c.isDigit = true) :
    (∀ c ∈ (incrementDigits value).1, c.isDigit = true) ∧
      (incrementDigits value).1.length = value.length ∧
      cursorValue (incrementDigits value).1 +
        (if (incrementDigits value).2 then 10 ^ value.length else 0) = cursorValue value + 1 := by
  induction value with
  | nil => simp [incrementDigits, cursorValue]
  | cons c rest ih =>
    obtain ⟨all, length, worth⟩ := ih fun d member => digits d (List.mem_cons_of_mem c member)
    have range := digit_range (digits c List.mem_cons_self)
    cases stepped : incrementDigits rest with
    | mk front carries =>
      rw [stepped] at all length worth
      dsimp only at all length worth
      cases carries with
      | false =>
        simp only [incrementDigits, stepped]
        refine ⟨List.forall_mem_cons.2 ⟨digits c List.mem_cons_self, all⟩, by simp [length], ?_⟩
        simp only [cursorValue, ofDigitChars_cons_zero, length, Bool.false_eq_true,
          if_false] at worth ⊢
        omega
      | true =>
        simp only [incrementDigits, stepped]
        -- the digit after the carry is '0' + n, and the carry goes on exactly after a nine
        generalize turned : (c.toNat - '0'.toNat + 1) = digit
        have zero : '0'.toNat = 48 := rfl
        rw [zero] at turned
        have small : digit % 10 < 10 := Nat.mod_lt _ (by decide)
        have code : (Char.ofNat ('0'.toNat + digit % 10)).toNat = 48 + digit % 10 := by
          have every : ∀ n < 10, (Char.ofNat ('0'.toNat + n)).toNat = 48 + n := by decide
          exact every _ small
        have decimal : (Char.ofNat ('0'.toNat + digit % 10)).isDigit = true := by
          have every : ∀ n < 10, (Char.ofNat ('0'.toNat + n)).isDigit = true := by decide
          exact every _ small
        refine ⟨List.forall_mem_cons.2 ⟨decimal, all⟩, by simp [length], ?_⟩
        simp only [cursorValue, ofDigitChars_cons_zero, length, code, List.length_cons,
          Nat.pow_succ, beq_iff_eq, if_true] at worth ⊢
        generalize 10 ^ rest.length = scale at *
        by_cases nine : digit = 10
        · have carry : digit / 10 = 1 ∧ digit % 10 = 0 := by omega
          have worth' : c.toNat - 48 = 9 := by omega
          rw [carry.1, carry.2, worth']
          simp only [if_true]
          omega
        · have kept : digit / 10 = 0 ∧ digit % 10 = c.toNat - 48 + 1 := by omega
          have split : 48 + (c.toNat - 48 + 1) - 48 = c.toNat - 48 + 1 := by omega
          rw [kept.1, kept.2, split, Nat.mul_add, Nat.mul_one]
          simp only [Nat.zero_ne_one, if_false]
          omega

theorem carried_value {value : Text} (digits : isUint value = true) :
    isUint (carried value) = true ∧ cursorValue (carried value) = cursorValue value + 1 := by
  obtain ⟨some, all, -⟩ := (isUint_iff value).1 digits
  obtain ⟨all', length, worth⟩ := incrementDigits_value all
  unfold carried
  cases stepped : incrementDigits value with
  | mk front carries =>
    rw [stepped] at all' length worth
    dsimp only at all' length worth
    cases carries with
    | true =>
      have grown : cursorValue ('1' :: front) = cursorValue value + 1 := by
        rw [cursorValue, ofDigitChars_cons_zero, length]
        simp only [if_true, cursorValue, Char.reduceToNat, Nat.reduceSub, Nat.mul_one] at worth ⊢
        omega
      refine ⟨isUint_of_value (by simp) (List.forall_mem_cons.2 ⟨by decide, all'⟩) fun _ => ?_,
        grown⟩
      rw [cursorValue, ofDigitChars_cons_zero, List.length_cons, Nat.add_sub_cancel]
      simp only [Char.reduceToNat, Nat.reduceSub, Nat.mul_one, Nat.le_add_right]
    | false =>
      simp only [Bool.false_eq_true, if_false, Nat.add_zero] at worth
      refine ⟨isUint_of_value ?_ all' fun long => ?_, worth⟩
      · rintro rfl
        exact some (List.length_eq_zero_iff.1 length.symm)
      · dsimp only at long ⊢
        rw [length] at long ⊢
        have bound := isUint_bound digits long
        unfold cursorValue at worth ⊢
        omega

/-- The next cursor is the decimal of the next number, and there is none past the largest. -/
theorem increment_value {value : Text} (canonical : canonicalUint64 value false = true) :
    increment value = if cursorValue value = 2 ^ 64 - 1 then []
      else Nat.toDigits 10 (cursorValue value + 1) := by
  obtain ⟨digits, range⟩ := canonicalUint64_value.1 canonical
  obtain ⟨digits', worth⟩ := carried_value digits
  have limit : uint64Max = 2 ^ 64 - 1 := rfl
  have positive : ¬(true = true ∧ carried value = ['0']) := by
    rintro ⟨-, zero⟩
    have none := (isUint_zero digits').1 zero
    unfold cursorValue at worth
    omega
  have fits : canonicalUint64 (carried value) true = true ↔
      cursorValue (carried value) ≤ uint64Max := by
    rw [canonicalUint64_iff, cursorValue, isUint_range digits']
    tauto
  unfold increment
  by_cases last : cursorValue value = 2 ^ 64 - 1
  · rw [if_pos last, if_neg]
    rw [fits, worth, limit]
    omega
  · rw [if_neg last, if_pos (fits.2 (by rw [worth, limit]; omega)), eq_toDigits digits', worth]

theorem compareUint_sign {a b : Text} (left : isUint a = true) (right : isUint b = true) :
    (compareUint a b).sign = ((cursorValue a : ℤ) - cursorValue b).sign := by
  have below {x y : ℕ} (less : x < y) : ((x : ℤ) - y).sign = -1 :=
    Int.sign_eq_neg_one_of_neg (by omega)
  have above {x y : ℕ} (less : y < x) : ((x : ℤ) - y).sign = 1 :=
    Int.sign_eq_one_of_pos (by omega)
  unfold compareUint stringCompare
  rcases Nat.lt_trichotomy a.length b.length with shorter | same | longer
  · rw [if_pos shorter, below (cursorValue_lt_of_shorter left right shorter)]
    rfl
  · rw [if_neg (by omega), if_neg (by omega)]
    have up := cursorValue_lt_iff left right same
    have down := cursorValue_lt_iff right left same.symm
    rcases Nat.lt_trichotomy (cursorValue a) (cursorValue b) with less | equal | more
    · rw [if_pos (up.2 less), below less]
      rfl
    · rw [if_neg (by rw [up]; omega), if_neg (by rw [down]; omega), equal]
      simp
    · rw [if_neg (by rw [up]; omega), if_pos (down.2 more), above more]
      rfl
  · rw [if_neg (by omega), if_pos longer, above (cursorValue_lt_of_shorter right left longer)]
    rfl

end Increment

section Runs

/-- What one expert keeps: a start on any disk, then append calls with any answer. -/
inductive Driven : Ea → Prop
  | init (journalNamespace : Text) (enabled : Bool) (disk : Disk) (newStreamId : Text)
      (identityWrite headerWrite : WriteAnswer) :
      Driven (init journalNamespace enabled disk newStreamId identityWrite headerWrite).ea
  | call {ea : Ea} (before : Driven ea) (call : AppendCall) (write : WriteAnswer) (stored : Bool) :
      Driven (call.run ea write stored).ea

/-- Each event has the cursor after the one before it. -/
def Chained : Text → List JournalEvent → Prop
  | _, [] => True
  | cursor, event :: events =>
    increment cursor ≠ [] ∧ event.eventSeq = increment cursor ∧ Chained event.eventSeq events

theorem Chained.concat {cursor : Text} {events : List JournalEvent}
    (chained : Chained cursor events)
    {event : JournalEvent}
    (next : event.eventSeq = increment ((events.getLast?.map (·.eventSeq)).getD cursor))
    (some : event.eventSeq ≠ []) : Chained cursor (events ++ [event]) := by
  induction events generalizing cursor with
  | nil => exact ⟨next ▸ some, next, trivial⟩
  | cons first rest ih =>
    obtain ⟨more, sequence, chained⟩ := chained
    refine ⟨more, sequence, ih chained ?_⟩
    rw [next, List.getLast?_cons]
    cases rest.getLast? <;> rfl

theorem Chained.value {cursor : Text} (canonical : canonicalUint64 cursor false = true)
    {events : List JournalEvent} (chained : Chained cursor events) {k : ℕ} {event : JournalEvent}
    (found : events[k]? = some event) :
    event.eventSeq = Nat.toDigits 10 (cursorValue cursor + k + 1) ∧
      cursorValue cursor + k + 1 < 2 ^ 64 := by
  induction events generalizing cursor k with
  | nil => simp at found
  | cons first rest ih =>
    obtain ⟨more, sequence, chained⟩ := chained
    have next := increment_value canonical
    have range := (canonicalUint64_value.1 canonical).2
    have limit : uint64Max = 2 ^ 64 - 1 := rfl
    by_cases last : cursorValue cursor = 2 ^ 64 - 1
    · rw [if_pos last] at next
      exact absurd next more
    rw [if_neg last] at next
    have worth : cursorValue first.eventSeq = cursorValue cursor + 1 := by
      rw [sequence, next]
      exact Nat.ofDigitChars_ten_toDigits
    cases k with
    | zero =>
      obtain rfl := Option.some.inj found
      exact ⟨by rw [sequence, next, Nat.add_zero], by omega⟩
    | succ k =>
      have canonical' : canonicalUint64 first.eventSeq false = true := by
        rw [canonicalUint64_value, worth, sequence, next]
        exact ⟨isUint_toDigits _, by omega⟩
      have later := ih canonical' chained found
      rw [worth] at later
      have sum : cursorValue cursor + 1 + k + 1 = cursorValue cursor + (k + 1) + 1 := by omega
      rwa [sum] at later

/-- An append leaves the events, or adds one with the next cursor. -/
structure Appends (ea ea' : Ea) : Prop where
  firstCursor : ea'.firstCursor = ea.firstCursor
  events : ea'.events = ea.events ∨ ∃ event, ea'.events = ea.events ++ [event] ∧
    event.eventSeq = increment (lastCursor ea) ∧ event.eventSeq ≠ []

theorem Appends.refl (ea : Ea) : Appends ea ea := ⟨rfl, .inl rfl⟩

theorem storeEvent_appends {ea : Ea} {event : JournalEvent}
    (next : event.eventSeq = increment (lastCursor ea)) (more : event.eventSeq ≠ [])
    (stored : Bool) :
    Appends ea (storeEvent ea event stored).2 := by
  cases stored with
  | true => exact ⟨rfl, .inr ⟨event, rfl, next, more⟩⟩
  | false => exact ⟨rfl, .inl rfl⟩

theorem appendTerminal_appends {ea : Ea} {event : JournalEvent}
    (next : event.eventSeq = increment (lastCursor ea)) (more : event.eventSeq ≠ [])
    (write : WriteAnswer) (stored : Bool) :
    Appends ea (appendTerminal ea event write stored).ea := by
  have kept := storeEvent_appends next more stored
  unfold appendTerminal
  dsimp only
  split
  · exact ⟨rfl, .inl rfl⟩
  · split <;> exact ⟨kept.firstCursor, kept.events⟩

theorem prepareTerminal_next {ea : Ea} {bootId eventTimeMs clientRequestId sequence : Text}
    {order : Submission}
    (prepared : prepareTerminal ea bootId eventTimeMs clientRequestId = some (sequence, order)) :
    sequence = increment (lastCursor ea) ∧ sequence ≠ [] := by
  unfold prepareTerminal at prepared
  split at prepared
  · cases prepared
  · split at prepared
    · cases prepared
    · split at prepared
      · cases prepared
      · rename_i more
        cases prepared
        exact ⟨rfl, more⟩

theorem AppendCall.run_appends (ea : Ea) (write : WriteAnswer) (stored : Bool) (call : AppendCall) :
    Appends ea (call.run ea write stored).ea := by
  cases call with
  | streamStarted bootId eventTimeMs eaBuildId enabled =>
    simp only [AppendCall.run, appendStreamStarted]
    split
    · exact .refl ea
    split
    · exact .refl ea
    split
    · exact .refl ea
    rename_i more
    split
    · exact .refl ea
    · exact ⟨rfl, .inr ⟨_, rfl, rfl, more⟩⟩
  | reserved bootId eventTimeMs order =>
    simp only [AppendCall.run, appendReserved]
    split
    · exact .refl ea
    split
    · exact .refl ea
    rename_i more
    split
    · exact .refl ea
    · cases stored with
      | true => exact ⟨rfl, .inr ⟨_, rfl, rfl, more⟩⟩
      | false => exact ⟨rfl, .inl rfl⟩
  | rejectedOrUnknown bootId eventTimeMs outcome clientRequestId reason brokerRetcode =>
    simp only [AppendCall.run, appendRejectedOrUnknown]
    split
    · exact .refl ea
    split
    · exact .refl ea
    · rename_i prepared
      obtain ⟨next, more⟩ := prepareTerminal_next prepared
      exact appendTerminal_appends next more write stored
  | filled bootId eventTimeMs clientRequestId fill =>
    simp only [AppendCall.run, appendFilled]
    split
    · exact .refl ea
    split
    · exact .refl ea
    · rename_i prepared
      obtain ⟨next, more⟩ := prepareTerminal_next prepared
      exact appendTerminal_appends next more write stored

theorem readEvents_chained {streamId : Text} (safe : safeToken streamId = true) {lines : List Text}
    {cursor : Text} {events : List JournalEvent}
    (read : readEvents streamId (increment cursor) lines = some events) :
    Chained cursor events := by
  induction lines generalizing cursor events with
  | nil =>
    cases read
    trivial
  | cons line rest ih =>
    unfold readEvents at read
    split at read
    · cases read
    · split at read
      · cases read
      · rename_i event parsed
        simp only [Option.ite_none_left_eq_some, Option.map_eq_some_iff] at read
        obtain ⟨-, later, read, rfl⟩ := read
        obtain ⟨valid, sequence, -⟩ := parseEvent_spec safe parsed
        simp only [JournalEvent.valid, Bool.and_eq_true] at valid
        have some := ne_nil_of_canonicalUint64 valid.1.1.1.1
        rw [← sequence] at read
        exact ⟨sequence ▸ some, sequence, ih read⟩

theorem loadEvents_chained {journalNamespace streamId content : Text}
    (safe : safeToken streamId = true) {first : Text} {events : List JournalEvent} {recovery : Bool}
    (loaded : loadEvents journalNamespace streamId content = some (first, events, recovery)) :
    canonicalUint64 first false = true ∧ Chained first events := by
  unfold loadEvents at loaded
  split at loaded
  · cases loaded
  · split at loaded
    · cases loaded
    · simp only [Option.ite_none_left_eq_some] at loaded
      obtain ⟨checks, loaded⟩ := loaded
      split at loaded
      · cases loaded
      · rename_i read
        simp only [Option.ite_none_right_eq_some, Option.some.injEq, Prod.mk.injEq] at loaded
        obtain ⟨-, rfl, rfl, -⟩ := loaded
        simp only [not_or, not_not] at checks
        exact ⟨checks.2.2.2.2, readEvents_chained safe read⟩

theorem init_chained (journalNamespace : Text) (enabled : Bool) (disk : Disk) (newStreamId : Text)
    (identityWrite headerWrite : WriteAnswer) :
    let ea := (init journalNamespace enabled disk newStreamId identityWrite headerWrite).ea
    canonicalUint64 ea.firstCursor false = true ∧ Chained ea.firstCursor ea.events := by
  have fresh : canonicalUint64 "0".toList false = true ∧ Chained "0".toList [] :=
    ⟨by decide, trivial⟩
  intro ea
  unfold ea init
  dsimp only
  split
  · exact fresh
  · split
    · unfold createNew
      dsimp only
      split
      · exact fresh
      split
      · exact fresh
      split <;> exact fresh
    · exact fresh
    · split
      · exact fresh
      · rename_i known
        split
        · exact fresh
        · rename_i read
          obtain ⟨content, -, read⟩ := Option.bind_eq_some_iff.1 read
          exact loadEvents_chained (loadIdentity_safe known) read

theorem Driven.chained {ea : Ea} (driven : Driven ea) :
    canonicalUint64 ea.firstCursor false = true ∧ Chained ea.firstCursor ea.events := by
  induction driven with
  | init => exact init_chained ..
  | @call ea _ call write stored ih =>
    obtain ⟨canonical, chained⟩ := ih
    obtain ⟨first, same | ⟨event, added, next, more⟩⟩ := call.run_appends ea write stored
    · rw [first, same]
      exact ⟨canonical, chained⟩
    · rw [first, added]
      refine ⟨canonical, chained.concat ?_ more⟩
      rw [next, lastCursor]
      cases ea.events.getLast? <;> rfl

end Runs

/-- Cursors count: the next one is the decimal of the next number while 64 bits hold it, they
compare as their numbers, and whatever an expert loads and appends is numbered one by one. -/
theorem cursor_arithmetic :
    (∀ cursor, canonicalUint64 cursor false = true →
      increment cursor = if cursorValue cursor = 2 ^ 64 - 1 then []
        else Nat.toDigits 10 (cursorValue cursor + 1)) ∧
    (∀ left right, canonicalUint64 left false = true → canonicalUint64 right false = true →
      (compareUint left right).sign = ((cursorValue left : ℤ) - cursorValue right).sign) ∧
    ∀ ea, Driven ea → ∀ (k : ℕ) (event : JournalEvent), ea.events[k]? = some event →
      event.eventSeq = Nat.toDigits 10 (cursorValue ea.firstCursor + k + 1) ∧
        cursorValue ea.firstCursor + k + 1 < 2 ^ 64 := by
  refine ⟨fun cursor canonical => increment_value canonical, ?_, ?_⟩
  · intro left right canonical canonical'
    exact compareUint_sign (canonicalUint64_value.1 canonical).1
      (canonicalUint64_value.1 canonical').1
  · intro ea driven k event found
    obtain ⟨canonical, chained⟩ := driven.chained
    exact chained.value canonical found

/-- A fresh journal that is started, reserves an order and rejects it. -/
def countedEa : Ea :=
  let fresh := (init bootNamespace true ⟨none, none⟩ "stream-1".toList (.wrote 500 true)
    (.wrote 500 true)).ea
  let order : Submission :=
    ⟨"request-1".toList, .sell, "0.01".toList, "42".toList, "43".toList⟩
  [.streamStarted "boot-1".toList "1000".toList "ea-1".toList true,
    .reserved "boot-1".toList "1001".toList order,
    .rejectedOrUnknown "boot-1".toList "1002".toList .rejected "request-1".toList
      "BROKER_REJECTED".toList "10006".toList].foldl
    (fun ea (call : AppendCall) => (call.run ea (.wrote 500 true) true).ea) fresh

theorem countedEa_driven : Driven countedEa :=
  .call (.call (.call (.init ..) _ _ _) _ _ _) _ _ _

theorem cursor_arithmetic_counted :
    countedEa.events.map (·.eventSeq) = ["1".toList, "2".toList, "3".toList] ∧
    increment "999".toList = "1000".toList ∧
    (compareUint "999".toList "1000".toList).sign = -1 ∧
    ∀ (k : ℕ) (event : JournalEvent), countedEa.events[k]? = some event →
      event.eventSeq = Nat.toDigits 10 (cursorValue countedEa.firstCursor + k + 1) ∧
        cursorValue countedEa.firstCursor + k + 1 < 2 ^ 64 := by
  obtain ⟨next, compared, numbered⟩ := cursor_arithmetic
  refine ⟨by decide +kernel, ?_, ?_, numbered _ countedEa_driven⟩
  · rw [next _ (by decide +kernel)]
    decide +kernel
  · rw [compared _ _ (by decide +kernel) (by decide +kernel)]
    decide +kernel

end ArbNautilus.Journal
