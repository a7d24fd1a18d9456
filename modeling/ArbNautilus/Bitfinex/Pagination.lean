import ArbNautilus.Base.Coroutine
import ArbNautilus.Base.Dict
import ArbNautilus.Base.Json
import ArbNautilus.Base.Raise
import Mathlib.Data.Finset.Card
import Mathlib.Data.List.Perm.Basic

namespace ArbNautilus.Bitfinex

open Base Handler Coroutine

/-- One row of a report, as the decoded response has it. -/
abbrev Row := List (Json ℚ)

/-- What a history query raises: the client's own errors, or a failed request. -/
inductive Failure
  | executionError (message : String)
  | request (message : String)
deriving DecidableEq, Repr

/-- A signed read with its window and page limit. -/
inductive Request
  | orderHistoryBySymbol (start stop : ℤ) (limit : ℕ)
  | tradesBySymbol (start stop : ℤ) (limit : ℕ)
deriving DecidableEq, Repr

/-- A query of the client. Every request may fail instead of answering. -/
abbrev Query := Coroutine Unit Failure (fun _ : Request => Json ℚ)

def rowOf : Json ℚ → Option Row
  | .arr row => some row
  | _ => none

/-- `_rows`. -/
def rows (value : Json ℚ) (label : String) : Except Failure (List Row) :=
  let refused := Failure.executionError
    ("Bitfinex " ++ label ++ " response must be an array of arrays")
  match value with
  | .arr items => match items.mapM rowOf with
    | some page => .ok page
    | none => .error refused
  | _ => .error refused

/-- `_row_int`. -/
def rowInt (row : Row) (index : ℕ) (label : String) : Except Failure ℤ :=
  match row[index]? with
  | some (.int value) => .ok value
  | _ => .error (.executionError ("Bitfinex " ++ label ++ " must be an exact integer"))

section OrderHistory

structure Window where
  start : ℤ
  stop : ℤ
deriving DecidableEq, Repr

def axisLabel (index : ℕ) : String :=
  if index = 4 then "order creation timestamp" else "order update timestamp"

def candidateAxes : List ℕ := [4, 5]

/-- The axes on which every row of the page lies in its window. -/
def pageAxes (axes : List ℕ) (window : Window) (page : List Row) : Except Failure (List ℕ) :=
  axes.filterM fun index => page.allM fun row => do
    let ms ← rowInt row index (axisLabel index)
    pure (decide (window.start ≤ ms ∧ ms ≤ window.stop))

/-- The loop of `_order_history_rows`, over at most this many turns; the window
appended last is at the head of `pending`. -/
def orderHistoryLoop (limit : ℕ) :
    ℕ → List Window → List Row → List ℕ → Query (Option (List Row))
  | _, [], result, _ => pure (some result)
  | 0, _ :: _, _, _ => pure none
  | turns + 1, window :: pending, result, axes => do
    let reply ← ask (.orderHistoryBySymbol window.start window.stop limit)
    let page ← perform (check (rows reply "order history"))
    let axes ← perform (check (pageAxes axes window page))
    perform (check (raiseIf (axes = [])
      (.executionError "Bitfinex order history has no consistent requested-window timestamp")))
    if page.length < limit then orderHistoryLoop limit turns pending (result ++ page) axes
    else do
      perform (check (raiseIf (window.start = window.stop)
        (.executionError "Bitfinex order history saturated a one-millisecond window")))
      let midpoint := (window.start + window.stop) / 2
      orderHistoryLoop limit turns
        (⟨window.start, midpoint⟩ :: ⟨midpoint + 1, window.stop⟩ :: pending) result axes

def orderHistoryRows (limit turns : ℕ) (start stop : ℤ) : Query (Option (List Row)) :=
  orderHistoryLoop limit turns [⟨start, stop⟩] [] candidateAxes

end OrderHistory

section TradeHistory

/-- What `_trade_history_rows` keeps while it reads a page. -/
structure PageReading where
  previousKey : Option (ℤ × ℤ)
  newIds : ℕ
  lastMs : ℤ
  result : Dict ℤ Row

def readTrade (cursor stop : ℤ) (s : PageReading) (row : Row) : Except Failure PageReading := do
  let tradeId ← rowInt row 0 "trade ID"
  let eventMs ← rowInt row 2 "trade timestamp"
  raiseIf (¬(cursor ≤ eventMs ∧ eventMs ≤ stop))
    (.executionError "Bitfinex trade history escaped its requested window")
  raiseIf (∃ key ∈ s.previousKey, eventMs < key.1 ∨ eventMs = key.1 ∧ tradeId < key.2)
    (.executionError "Bitfinex trade history is not ascending")
  let s := { s with previousKey := some (eventMs, tradeId), lastMs := eventMs }
  match s.result.get? tradeId with
  | some previous =>
    raiseIf (Json.sameItems previous row = false)
      (.executionError "Bitfinex trade ID changed report facts")
    pure s
  | none => pure { s with result := s.result.set tradeId row, newIds := s.newIds + 1 }

/-- The loop of `_trade_history_rows`, over at most this many turns. -/
def tradeHistoryLoop (limit : ℕ) (stop : ℤ) : ℕ → ℤ → Dict ℤ Row → Query (Option (List Row))
  | 0, _, _ => pure none
  | turns + 1, cursor, result => do
    let reply ← ask (.tradesBySymbol cursor stop limit)
    let page ← perform (check (rows reply "trade history"))
    let read ← perform (check (page.foldlM (readTrade cursor stop) ⟨none, 0, cursor, result⟩))
    if page.length < limit then pure (some read.result.values)
    else do
      perform (check (raiseIf (read.newIds = 0 ∨ read.lastMs < cursor)
        (.executionError "Bitfinex trade pagination is saturated")))
      tradeHistoryLoop limit stop turns read.lastMs read.result

def tradeHistoryRows (limit turns : ℕ) (start stop : ℤ) : Query (Option (List Row)) :=
  tradeHistoryLoop limit stop turns start .empty

end TradeHistory

section Venue

/-- The timestamp of a row on one axis, where it has one. -/
def stamp (axis : ℕ) (row : Row) : Option ℤ :=
  match row[axis]? with
  | some (.int ms) => some ms
  | _ => none

/-- The rows of a history whose timestamp lies in the window. -/
def inWindow (history : List Row) (axis : ℕ) (window : Window) : List Row :=
  history.filter fun row =>
    (stamp axis row).any fun ms => decide (window.start ≤ ms ∧ ms ≤ window.stop)

/-- All rows of the window where they are fewer than the limit, else as many as
the limit. -/
def AnswersOrders (matching : List Row) (limit : ℕ) (page : List Row) : Prop :=
  page.Subperm matching ∧ page.length = min limit matching.length

/-- Ascending by timestamp and trade id. -/
def Before (a b : Row) : Prop :=
  ∀ ms ms', stamp 2 a = some ms → stamp 2 b = some ms' → ms < ms' ∨ ms = ms' ∧
    ∀ id id', stamp 0 a = some id → stamp 0 b = some id' → id ≤ id'

/-- The first rows of the window, as many as the limit has room for. -/
def AnswersTrades (matching : List Row) (limit : ℕ) (page : List Row) : Prop :=
  ∃ rest, (page ++ rest).Perm matching ∧ page.length = min limit matching.length ∧
    page.Pairwise Before ∧ ∀ a ∈ page, ∀ b ∈ rest, Before a b

/-- A venue whose histories stay as they are while they are read. It files
orders under one axis. -/
def venue (orders trades : List Row) (axis : ℕ) :
    Discipline Unit Unit Failure (fun _ : Request => Json ℚ) where
  inv _ := True
  admits request _ reply := ∀ value, reply = .ok value → ∃ page : List Row,
    value = .arr (page.map .arr) ∧ match request with
    | .orderHistoryBySymbol start stop limit =>
      AnswersOrders (inWindow orders axis ⟨start, stop⟩) limit page
    | .tradesBySymbol start stop limit =>
      AnswersTrades (inWindow trades 2 ⟨start, stop⟩) limit page
  rely _ _ := True
  guarantee _ _ := True

end Venue

section Reading

variable {row : Row} {index : ℕ} {label : String} {value : ℤ}

theorem rows_arr (page : List Row) : rows (.arr (page.map .arr)) label = .ok page := by
  have read : (page.map Json.arr).mapM rowOf = some page := by
    induction page with
    | nil => rfl
    | cons row page ih => simp [rowOf, ih]
  simp [rows, read]

theorem rowInt_eq_ok : rowInt row index label = .ok value ↔ stamp index row = some value := by
  unfold rowInt stamp
  split <;> simp

theorem mem_inWindow {history : List Row} {axis : ℕ} {window : Window} :
    row ∈ inWindow history axis window ↔
      row ∈ history ∧ ∃ ms, stamp axis row = some ms ∧ window.start ≤ ms ∧ ms ≤ window.stop := by
  simp [inWindow, Option.any_eq_true]

end Reading

section OrderHistory

variable {orders trades : List Row} {axis limit : ℕ}

/-- How many turns a window takes at most. -/
def Window.turns (window : Window) : ℕ := 2 * (window.stop - window.start).toNat + 1

/-- The halves of a window hold its rows between them. -/
theorem inWindow_split (history : List Row) (axis : ℕ) {window : Window} {midpoint : ℤ}
    (low : window.start ≤ midpoint) (high : midpoint < window.stop) :
    (inWindow history axis ⟨window.start, midpoint⟩ ++
      inWindow history axis ⟨midpoint + 1, window.stop⟩).Perm (inWindow history axis window) := by
  have parts := List.filter_append_perm
    (fun row => (stamp axis row).any fun ms => decide (ms ≤ midpoint))
      (inWindow history axis window)
  refine List.Perm.trans (List.Perm.of_eq ?_) parts
  unfold inWindow
  rw [List.filter_filter, List.filter_filter]
  congr 1 <;> refine List.filter_congr fun row _ => ?_
  · cases stamp axis row with
    | none => rfl
    | some ms => simp only [Option.any_some, ← Bool.decide_and]; exact decide_eq_decide.2 (by omega)
  · cases stamp axis row with
    | none => rfl
    | some ms =>
      simp only [Option.any_some, ← decide_not, ← Bool.decide_and]
      exact decide_eq_decide.2 (by omega)

variable {since : Unit} {now : Unit × Unit}

/-- The windows still pending hold the rows still missing. -/
theorem orderHistoryLoop_safe (positive : 0 < limit) {turns : ℕ} {pending : List Window}
    {result : List Row} {axes : List ℕ} (enough : (pending.map Window.turns).sum ≤ turns) :
    (orderHistoryLoop limit turns pending result axes).Safe (venue orders trades axis)
      (fun outcome _ _ => ∀ found, outcome = .ok found → ∃ all, found = some all ∧
        all.Perm (result ++ pending.flatMap (inWindow orders axis))) since now := by
  have failed (e : Failure) (P : List Row → Prop) :
      ∀ found, Except.error e = Except.ok found → ∃ all, found = some all ∧ P all := nofun
  induction turns generalizing pending result axes since now with
  | zero =>
    cases pending with
    | nil =>
      rintro found ⟨⟩
      exact ⟨result, rfl, by simp⟩
    | cons window pending => simp [Window.turns] at enough
  | succ turns ih =>
    cases pending with
    | nil =>
      rintro found ⟨⟩
      exact ⟨result, rfl, by simp⟩
    | cons window pending =>
      simp only [List.map_cons, List.sum_cons] at enough
      have later : 0 < window.turns := Nat.succ_pos _
      refine safe_ask_bind _ ⟨trivial, trivial⟩ fun _ _ _ => ⟨fun e _ => failed e _, ?_⟩
      intro reply admitted
      obtain ⟨page, rfl, subperm, length⟩ := admitted reply rfl
      rw [rows_arr]
      refine (safe_check_bind _ _).2 ⟨fun e _ => failed e _, fun _ read => ?_⟩
      obtain rfl := Except.ok.inj read
      refine (safe_check_bind _ _).2 ⟨fun e _ => failed e _, fun axes _ => ?_⟩
      refine (safe_check_bind _ _).2 ⟨fun e _ => failed e _, fun _ _ => ?_⟩
      rw [safe_ite]
      refine ⟨fun short => ?_, fun saturated => ?_⟩
      · have whole := subperm.perm_of_length_le (by omega)
        refine (ih (by omega)).mono ?_
        rintro outcome _ _ kept found same
        obtain ⟨all, rfl, perm⟩ := kept found same
        refine ⟨all, rfl, perm.trans ?_⟩
        rw [List.append_assoc, List.flatMap_cons]
        exact (whole.append_right _).append_left _
      · refine (safe_check_bind _ _).2 ⟨fun e _ => failed e _, fun _ wide => ?_⟩
        rw [raiseIf_eq_ok] at wide
        -- A saturated window has a row, so its ends are in order.
        have ordered : window.start < window.stop := by
          obtain ⟨row, member⟩ := List.exists_mem_of_length_pos
            (show 0 < (inWindow orders axis ⟨window.start, window.stop⟩).length by omega)
          obtain ⟨-, ms, -, low, high⟩ := mem_inWindow.1 member
          have ends : window.start ≤ window.stop := Int.le_trans low high
          omega
        have split := inWindow_split orders axis
          (show window.start ≤ (window.start + window.stop) / 2 by omega)
          (show (window.start + window.stop) / 2 < window.stop by omega)
        refine (ih ?_).mono ?_
        · simp only [List.map_cons, List.sum_cons, Window.turns] at enough ⊢
          omega
        · rintro outcome _ _ kept found same
          obtain ⟨all, rfl, perm⟩ := kept found same
          refine ⟨all, rfl, perm.trans ?_⟩
          rw [List.flatMap_cons, List.flatMap_cons, List.flatMap_cons, ← List.append_assoc
            (inWindow orders axis _)]
          exact (split.append_right _).append_left _

end OrderHistory

section TradeHistory

variable {orders trades : List Row} {axis limit : ℕ} {cursor stop : ℤ} {s t : PageReading}
  {row : Row} {page : List Row}

/-- The kept row of a trade: this row, or one equal to it. -/
def Retains (result : Dict ℤ Row) (row : Row) : Prop :=
  ∃ id kept, stamp 0 row = some id ∧ result.get? id = some kept ∧
    (kept = row ∨ Json.sameItems kept row = true)

/-- What one row adds to the reading. -/
theorem readTrade_cases (read : readTrade cursor stop s row = .ok t) :
    ∃ id ms, stamp 0 row = some id ∧ stamp 2 row = some ms ∧ cursor ≤ ms ∧ ms ≤ stop ∧
      t.lastMs = ms ∧
      ((∃ kept, s.result.get? id = some kept ∧ Json.sameItems kept row = true ∧
          t.result = s.result ∧ t.newIds = s.newIds) ∨
        (s.result.get? id = none ∧ t.result = s.result.set id row ∧ t.newIds = s.newIds + 1)) := by
  simp only [readTrade, bind_eq_ok, rowInt_eq_ok, raiseIf_eq_ok, not_not] at read
  obtain ⟨id, named, ms, stamped, _, inside, _, _, read⟩ := read
  refine ⟨id, ms, named, stamped, inside.1, inside.2, ?_⟩
  split at read
  · rename_i kept known
    simp only [bind_eq_ok, raiseIf_eq_ok, Bool.not_eq_false, pure_eq_ok] at read
    obtain ⟨-, same, rfl⟩ := read
    exact ⟨rfl, .inl ⟨kept, known, same, rfl, rfl⟩⟩
  · rename_i fresh
    cases read
    exact ⟨rfl, .inr ⟨fresh, rfl, rfl⟩⟩

/-- What a page adds to the reading. -/
structure PageReading.Reads (s t : PageReading) (cursor stop : ℤ) (page : List Row) : Prop where
  grows : ∀ {id kept}, s.result.get? id = some kept → t.result.get? id = some kept
  keeps : ∀ row ∈ page, Retains t.result row
  only : ∀ {id kept}, t.result.get? id = some kept →
    s.result.get? id = some kept ∨ kept ∈ page ∧ stamp 0 kept = some id
  inside : ∀ row ∈ page, ∃ ms, stamp 2 row = some ms ∧ cursor ≤ ms ∧ ms ≤ stop
  last : ∀ row, page.getLast? = some row → stamp 2 row = some t.lastMs
  fresh : t.newIds ≠ s.newIds → ∃ row ∈ page, ∃ id, stamp 0 row = some id ∧
    s.result.get? id = none ∧ t.result.get? id ≠ none

theorem readTrade_reads (read : readTrade cursor stop s row = .ok t) :
    s.Reads t cursor stop [row] := by
  obtain ⟨id, ms, named, stamped, low, high, lastMs, added⟩ := readTrade_cases read
  have last : ∀ other, [row].getLast? = some other → stamp 2 other = some t.lastMs := by
    intro other found
    obtain rfl : row = other := by simpa using found
    rw [lastMs, stamped]
  have inside : ∀ other ∈ [row], ∃ ms, stamp 2 other = some ms ∧ cursor ≤ ms ∧ ms ≤ stop := by
    intro other member
    obtain rfl := List.mem_singleton.1 member
    exact ⟨ms, stamped, low, high⟩
  rcases added with ⟨kept, known, same, result, newIds⟩ | ⟨unknown, result, newIds⟩
  · refine ⟨fun found => result ▸ found, ?_, fun found => .inl (result ▸ found), inside, last,
      fun more => absurd newIds more⟩
    intro other member
    obtain rfl := List.mem_singleton.1 member
    exact ⟨id, kept, named, result ▸ known, .inr same⟩
  · refine ⟨fun {k kept} found => ?_, ?_, fun {k kept} found => ?_, inside, last, fun _ => ?_⟩
    · rw [result, Dict.get?_set_of_ne]
      · exact found
      · rintro rfl
        rw [unknown] at found
        cases found
    · intro other member
      obtain rfl := List.mem_singleton.1 member
      exact ⟨id, other, named, by rw [result, Dict.get?_set_self], .inl rfl⟩
    · rw [result, Dict.get?_set] at found
      split at found
      · rename_i same
        cases found
        exact .inr ⟨List.mem_singleton_self _, same ▸ named⟩
      · exact .inl found
    · exact ⟨row, List.mem_singleton_self _, id, named, unknown, by simp [result]⟩

theorem PageReading.Reads.append {u : PageReading} (first : s.Reads t cursor stop page)
    (rest : t.Reads u cursor stop [row]) : s.Reads u cursor stop (page ++ [row]) := by
  have member {other : Row} : other ∈ page ++ [row] ↔ other ∈ page ∨ other ∈ [row] :=
    List.mem_append
  refine ⟨fun found => rest.grows (first.grows found), fun other h => ?_, fun {k kept} found => ?_,
    fun other h => ?_, fun other found => ?_, fun more => ?_⟩
  · rcases member.1 h with old | new
    · obtain ⟨id, kept, named, found, agrees⟩ := first.keeps other old
      exact ⟨id, kept, named, rest.grows found, agrees⟩
    · exact rest.keeps other new
  · rcases rest.only found with found | ⟨new, named⟩
    · exact (first.only found).imp_right fun h => ⟨member.2 (.inl h.1), h.2⟩
    · exact .inr ⟨member.2 (.inr new), named⟩
  · exact (member.1 h).elim (first.inside other) (rest.inside other)
  · rw [List.getLast?_append_of_ne_nil _ (by simp)] at found
    exact rest.last other found
  · by_cases same : t.newIds = s.newIds
    · obtain ⟨other, new, id, named, unknown, known⟩ := rest.fresh (same ▸ more)
      refine ⟨other, member.2 (.inr new), id, named, ?_, known⟩
      by_contra already
      obtain ⟨kept, found⟩ := Option.ne_none_iff_exists'.1 already
      rw [first.grows found] at unknown
      cases unknown
    · obtain ⟨other, old, id, named, unknown, known⟩ := first.fresh same
      obtain ⟨kept, found⟩ := Option.ne_none_iff_exists'.1 known
      exact ⟨other, member.2 (.inl old), id, named, unknown, by rw [rest.grows found]; simp⟩

theorem readTrades_reads (read : page.foldlM (readTrade cursor stop) s = .ok t) :
    s.Reads t cursor stop page := by
  induction page using List.reverseRecOn generalizing t with
  | nil =>
    cases read
    exact ⟨id, by simp, .inl, by simp, by simp, fun more => absurd rfl more⟩
  | append_singleton page row ih =>
    simp only [List.foldlM_append, List.foldlM_cons, List.foldlM_nil, bind_eq_ok,
      pure_eq_ok] at read
    obtain ⟨u, first, _, rest, rfl⟩ := read
    exact (ih first).append (readTrade_reads rest)

variable {start : ℤ} {result : Dict ℤ Row}

/-- All rows of the window before the cursor are kept, and nothing else is. -/
structure Covered (history : List Row) (start stop cursor : ℤ) (result : Dict ℤ Row) : Prop where
  from_start : start ≤ cursor
  keeps : ∀ row ∈ inWindow history 2 ⟨start, stop⟩, ∀ ms, stamp 2 row = some ms → ms < cursor →
    Retains result row
  only : ∀ {id kept}, result.get? id = some kept →
    kept ∈ inWindow history 2 ⟨start, stop⟩ ∧ stamp 0 kept = some id

/-- Each trade of the window by one of its rows, which agree with each other. -/
structure TradesOnce (window found : List Row) : Prop where
  sound : ∀ row ∈ found, row ∈ window
  once : (found.map (stamp 0)).Nodup
  complete : ∀ row ∈ window, ∃ kept ∈ found, stamp 0 kept = stamp 0 row ∧
    (kept = row ∨ Json.sameItems kept row = true)

theorem Retains.grow {result' : Dict ℤ Row}
    (grows : ∀ {id kept}, result.get? id = some kept → result'.get? id = some kept)
    (h : Retains result row) : Retains result' row := by
  obtain ⟨id, kept, named, found, agrees⟩ := h
  exact ⟨id, kept, named, grows found, agrees⟩

/-- The trade ids of the window that were not read yet. -/
def missing (window : List Row) (result : Dict ℤ Row) : Finset ℤ :=
  (window.filterMap (stamp 0)).toFinset.filter (· ∉ result.keys)

theorem missing_decreases {window : List Row}
    (grows : ∀ {id kept}, s.result.get? id = some kept → t.result.get? id = some kept)
    (fresh : ∃ row ∈ window, ∃ id, stamp 0 row = some id ∧ s.result.get? id = none ∧
      t.result.get? id ≠ none) :
    (missing window t.result).card < (missing window s.result).card := by
  obtain ⟨row, member, id, named, unknown, known⟩ := fresh
  have listed : id ∈ (window.filterMap (stamp 0)).toFinset :=
    List.mem_toFinset.2 (List.mem_filterMap.2 ⟨row, member, named⟩)
  refine Finset.card_lt_card (Finset.ssubset_iff_of_subset ?_ |>.2 ⟨id, ?_, ?_⟩)
  · intro other h
    simp only [missing, Finset.mem_filter] at h ⊢
    refine ⟨h.1, fun old => h.2 ?_⟩
    obtain ⟨kept, found⟩ := (Dict.mem_keys_iff _ _).1 old
    exact (Dict.mem_keys_iff _ _).2 ⟨kept, grows found⟩
  · exact Finset.mem_filter.2 ⟨listed, (Dict.get?_eq_none_iff _ _).1 unknown⟩
  · intro h
    exact known ((Dict.get?_eq_none_iff _ _).2 (Finset.mem_filter.1 h).2)

section Page

variable {history : List Row}

theorem Covered.window (covered : Covered history start stop cursor result)
    (member : row ∈ inWindow history 2 ⟨cursor, stop⟩) :
    row ∈ inWindow history 2 ⟨start, stop⟩ := by
  obtain ⟨recorded, ms, stamped, low, high⟩ := mem_inWindow.1 member
  exact mem_inWindow.2 ⟨recorded, ms, stamped, Int.le_trans covered.from_start low, high⟩

theorem Covered.only_page (covered : Covered history start stop cursor s.result)
    (reads : s.Reads t cursor stop page)
    (inside : ∀ row ∈ page, row ∈ inWindow history 2 ⟨cursor, stop⟩) {id : ℤ} {kept : Row}
    (found : t.result.get? id = some kept) :
    kept ∈ inWindow history 2 ⟨start, stop⟩ ∧ stamp 0 kept = some id := by
  rcases reads.only found with old | ⟨new, named⟩
  · exact covered.only old
  · exact ⟨covered.window (inside kept new), named⟩

/-- Once every row of the window is kept, the values are its trades. -/
theorem Covered.tradesOnce (covered : Covered history start stop cursor s.result)
    (reads : s.Reads t cursor stop page)
    (inside : ∀ row ∈ page, row ∈ inWindow history 2 ⟨cursor, stop⟩)
    (whole : ∀ row ∈ inWindow history 2 ⟨cursor, stop⟩, row ∈ page) :
    TradesOnce (inWindow history 2 ⟨start, stop⟩) t.result.values := by
  have only {id : ℤ} {kept : Row} (found : t.result.get? id = some kept) :=
    covered.only_page reads inside found
  refine ⟨fun row member => ?_, ?_, fun row member => ?_⟩
  · obtain ⟨id, found⟩ := (Dict.mem_values_iff _ _).1 member
    exact (only found).1
  · have named : t.result.values.map (stamp 0) = t.result.keys.map some := by
      simp only [Dict.values, Dict.keys, List.map_map]
      refine List.map_congr_left fun entry member => ?_
      exact (only ((Dict.mem_entries_iff _ _ _).1 member)).2
    rw [named]
    exact t.result.nodup.map (Option.some_injective _)
  · have kept : Retains t.result row := by
      obtain ⟨recorded, ms, stamped, low, high⟩ := mem_inWindow.1 member
      by_cases early : ms < cursor
      · exact (covered.keeps row member ms stamped early).grow reads.grows
      · exact reads.keeps row
          (whole row (mem_inWindow.2 ⟨recorded, ms, stamped, Int.not_lt.1 early, high⟩))
    obtain ⟨id, kept, named, found, agrees⟩ := kept
    exact ⟨kept, (Dict.mem_values_iff _ _).2 ⟨id, found⟩, (only found).2.trans named.symm, agrees⟩

/-- A full page covers the window up to its last row. -/
theorem Covered.next (covered : Covered history start stop cursor s.result)
    (reads : s.Reads t cursor stop page)
    (answers : AnswersTrades (inWindow history 2 ⟨cursor, stop⟩) limit page) {last : Row}
    (ends : page.getLast? = some last) : Covered history start stop t.lastMs t.result := by
  obtain ⟨rest, perm, -, -, ascending⟩ := answers
  have member : last ∈ page := List.mem_of_getLast? ends
  have stamped := reads.last last ends
  obtain ⟨ms, stamped', low, -⟩ := reads.inside last member
  obtain rfl : ms = t.lastMs := Option.some.inj (stamped'.symm.trans stamped)
  refine ⟨Int.le_trans covered.from_start low, fun row inside ms at_ms early => ?_,
    covered.only_page reads fun row new => perm.mem_iff.1 (List.mem_append_left _ new)⟩
  by_cases before : ms < cursor
  · exact (covered.keeps row inside ms at_ms before).grow reads.grows
  · obtain ⟨recorded, ms', at_ms', -, high⟩ := mem_inWindow.1 inside
    obtain rfl : ms' = ms := Option.some.inj (at_ms'.symm.trans at_ms)
    have matching : row ∈ page ++ rest :=
      perm.mem_iff.2 (mem_inWindow.2 ⟨recorded, ms', at_ms, Int.not_lt.1 before, high⟩)
    rcases List.mem_append.1 matching with new | after
    · exact reads.keeps row new
    · rcases ascending last member row after _ _ stamped at_ms with less | ⟨same, -⟩ <;> omega

end Page

variable {since : Unit} {now : Unit × Unit}

theorem tradeHistoryLoop_safe (positive : 0 < limit) {turns : ℕ}
    (covered : Covered trades start stop cursor result)
    (enough : (missing (inWindow trades 2 ⟨start, stop⟩) result).card < turns) :
    (tradeHistoryLoop limit stop turns cursor result).Safe (venue orders trades axis)
      (fun outcome _ _ => ∀ found, outcome = .ok found → ∃ all, found = some all ∧
        TradesOnce (inWindow trades 2 ⟨start, stop⟩) all) since now := by
  have failed (e : Failure) (P : List Row → Prop) :
      ∀ found, Except.error e = Except.ok found → ∃ all, found = some all ∧ P all := nofun
  induction turns generalizing cursor result since now with
  | zero => cases enough
  | succ turns ih =>
    refine safe_ask_bind _ ⟨trivial, trivial⟩ fun _ _ _ => ⟨fun e _ => failed e _, ?_⟩
    intro reply admitted
    obtain ⟨page, rfl, answers⟩ := admitted reply rfl
    rw [rows_arr]
    refine (safe_check_bind _ _).2 ⟨fun e _ => failed e _, fun _ read => ?_⟩
    obtain rfl := Except.ok.inj read
    refine (safe_check_bind _ _).2 ⟨fun e _ => failed e _, fun t turned => ?_⟩
    have reads := readTrades_reads turned
    have page_inside : ∀ row ∈ page, row ∈ inWindow trades 2 ⟨cursor, stop⟩ := by
      obtain ⟨rest, perm, -⟩ := answers
      exact fun row new => perm.mem_iff.1 (List.mem_append_left _ new)
    rw [safe_ite]
    refine ⟨fun short => ?_, fun full => ?_⟩
    · rintro found ⟨⟩
      refine ⟨_, rfl, covered.tradesOnce reads page_inside fun row member => ?_⟩
      obtain ⟨rest, perm, length, -⟩ := answers
      have none_left : rest = [] := by
        have total := perm.length_eq
        rw [List.length_append] at total
        exact List.eq_nil_of_length_eq_zero (by omega)
      rw [none_left, List.append_nil] at perm
      exact perm.mem_iff.2 member
    · refine (safe_check_bind _ _).2 ⟨fun e _ => failed e _, fun _ moved => ?_⟩
      rw [raiseIf_eq_ok, not_or] at moved
      obtain ⟨last, ends⟩ : ∃ last, page.getLast? = some last := by
        cases found : page.getLast? with
        | none =>
          rw [List.getLast?_eq_none_iff] at found
          rw [found, List.length_nil] at full
          exact absurd positive full
        | some last => exact ⟨last, rfl⟩
      refine ih (covered.next reads answers ends) ?_
      have fewer := @missing_decreases ⟨none, 0, cursor, result⟩ t (inWindow trades 2 ⟨start, stop⟩)
        reads.grows ?_
      · exact Nat.lt_of_lt_of_le fewer (Nat.lt_succ_iff.1 enough)
      · obtain ⟨row, new, id, named, unknown, known⟩ := reads.fresh moved.1
        exact ⟨row, covered.window (page_inside row new), id, named, unknown, known⟩

end TradeHistory

/-- Given turns enough, each query raises or returns each row of its window once. -/
theorem history_complete {limit : ℕ} (positive : 0 < limit) (orders trades : List Row) (axis : ℕ)
    (start stop : ℤ) :
    (∀ turns outcome last, Window.turns ⟨start, stop⟩ ≤ turns →
      (orderHistoryRows limit turns start stop).Ends (venue orders trades axis) ((), ()) outcome
      last →
      (∃ e, outcome = .error e) ∨ ∃ found, outcome = .ok (some found) ∧
        found.Perm (inWindow orders axis ⟨start, stop⟩)) ∧
    ∀ turns outcome last, trades.length < turns →
      (tradeHistoryRows limit turns start stop).Ends (venue orders trades axis) ((), ()) outcome
      last →
      (∃ e, outcome = .error e) ∨ ∃ found, outcome = .ok (some found) ∧
        TradesOnce (inWindow trades 2 ⟨start, stop⟩) found := by
  constructor
  · intro turns outcome last enough ends
    have safe := @orderHistoryLoop_safe orders trades axis limit () ((), ()) positive turns
      [⟨start, stop⟩] [] candidateAxes (by simpa using enough)
    obtain ⟨-, found⟩ := safe.ends ends
    cases outcome with
    | error e => exact .inl ⟨e, rfl⟩
    | ok result =>
      obtain ⟨all, rfl, perm⟩ := found result rfl
      exact .inr ⟨all, rfl, by simpa using perm⟩
  · intro turns outcome last enough ends
    have covered : Covered trades start stop start .empty :=
      ⟨Int.le_refl _, fun row member ms stamped early => by
        obtain ⟨-, ms', stamped', low, -⟩ := mem_inWindow.1 member
        obtain rfl : ms' = ms := Option.some.inj (stamped'.symm.trans stamped)
        exact absurd early (Int.not_lt.2 low), nofun⟩
    have few : (missing (inWindow trades 2 ⟨start, stop⟩) .empty).card < turns := by
      refine Nat.lt_of_le_of_lt (Finset.card_filter_le _ _) (Nat.lt_of_le_of_lt ?_ enough)
      exact (List.toFinset_card_le _).trans
        ((List.length_filterMap_le _ _).trans (List.length_filter_le _ _))
    have safe := @tradeHistoryLoop_safe orders trades axis limit start stop start .empty () ((), ())
      positive turns covered few
    obtain ⟨-, found⟩ := safe.ends ends
    cases outcome with
    | error e => exact .inl ⟨e, rfl⟩
    | ok result =>
      obtain ⟨all, rfl, once⟩ := found result rfl
      exact .inr ⟨all, rfl, once⟩

section Demo

def demoRow (id ms : ℤ) : Row := [.int id, .null, .int ms, .null, .int ms, .int ms]

/-- Two orders, which fill one page of two; the halves of the window hold one each. -/
def demoOrderPages : List ((_ : Request) × Except Failure (Json ℚ)) :=
  [⟨.orderHistoryBySymbol 0 9 2, .ok (.arr [.arr (demoRow 1 1), .arr (demoRow 2 6)])⟩,
    ⟨.orderHistoryBySymbol 0 4 2, .ok (.arr [.arr (demoRow 1 1)])⟩,
    ⟨.orderHistoryBySymbol 5 9 2, .ok (.arr [.arr (demoRow 2 6)])⟩]

/-- Each page of two trades starts with the last one of the page before. -/
def demoTradePages : List ((_ : Request) × Except Failure (Json ℚ)) :=
  [⟨.tradesBySymbol 0 9 2, .ok (.arr [.arr (demoRow 1 1), .arr (demoRow 2 6)])⟩,
    ⟨.tradesBySymbol 6 9 2, .ok (.arr [.arr (demoRow 2 6)])⟩]

def demoVenue : Discipline Unit Unit Failure (fun _ : Request => Json ℚ) :=
  venue [demoRow 1 1, demoRow 2 6] [demoRow 1 1, demoRow 2 6] 4

theorem demoOrderPages_admitted : ∀ answer ∈ demoOrderPages, ∀ s,
    demoVenue.admits answer.1 s answer.2 := by
  simp only [demoOrderPages, List.forall_mem_cons, List.not_mem_nil, IsEmpty.forall_iff,
    implies_true, and_true]
  refine ⟨?_, ?_, ?_⟩
  · rintro - value ⟨⟩
    exact ⟨[demoRow 1 1, demoRow 2 6], rfl, .refl _, rfl⟩
  · rintro - value ⟨⟩
    exact ⟨[demoRow 1 1], rfl, .refl _, rfl⟩
  · rintro - value ⟨⟩
    exact ⟨[demoRow 2 6], rfl, .refl _, rfl⟩

theorem demo_before : Before (demoRow 1 1) (demoRow 2 6) := by
  rintro ms ms' ⟨⟩ ⟨⟩
  exact .inl (by decide)

theorem demoTradePages_admitted : ∀ answer ∈ demoTradePages, ∀ s,
    demoVenue.admits answer.1 s answer.2 := by
  simp only [demoTradePages, List.forall_mem_cons, List.not_mem_nil, IsEmpty.forall_iff,
    implies_true, and_true]
  refine ⟨?_, ?_⟩
  · rintro - value ⟨⟩
    exact ⟨[demoRow 1 1, demoRow 2 6], rfl, [], .refl _, rfl, by simp [demo_before], by simp⟩
  · rintro - value ⟨⟩
    exact ⟨[demoRow 2 6], rfl, [], .refl _, rfl, by simp, by simp⟩

theorem demo_history :
    (∃ found, (orderHistoryRows 2 19 0 9).replay demoOrderPages () = some (.ok (some found), ()) ∧
      found.Perm (inWindow [demoRow 1 1, demoRow 2 6] 4 ⟨0, 9⟩)) ∧
    ∃ found, (tradeHistoryRows 2 3 0 9).replay demoTradePages () = some (.ok (some found), ()) ∧
      TradesOnce (inWindow [demoRow 1 1, demoRow 2 6] 2 ⟨0, 9⟩) found := by
  have whole := history_complete (by decide : 0 < 2) [demoRow 1 1, demoRow 2 6]
    [demoRow 1 1, demoRow 2 6] 4 0 9
  constructor
  · have run : (orderHistoryRows 2 19 0 9).replay demoOrderPages () =
      some (.ok (some [demoRow 1 1, demoRow 2 6]), ()) := rfl
    have ends : (orderHistoryRows 2 19 0 9).Ends demoVenue ((), ()) _ _ :=
      ends_of_replay (fun _ => trivial) (fun _ => trivial) demoOrderPages_admitted run
    refine ⟨_, run, ?_⟩
    rcases whole.1 19 _ _ (by decide) ends with ⟨e, failed⟩ | ⟨found, returned, perm⟩
    · cases failed
    · cases returned
      exact perm
  · have run : (tradeHistoryRows 2 3 0 9).replay demoTradePages () =
      some (.ok (some [demoRow 1 1, demoRow 2 6]), ()) := rfl
    have ends : (tradeHistoryRows 2 3 0 9).Ends demoVenue ((), ()) _ _ :=
      ends_of_replay (fun _ => trivial) (fun _ => trivial) demoTradePages_admitted run
    refine ⟨_, run, ?_⟩
    rcases whole.2 3 _ _ (by decide) ends with ⟨e, failed⟩ | ⟨found, returned, once⟩
    · cases failed
    · cases returned
      exact once

end Demo

end ArbNautilus.Bitfinex
