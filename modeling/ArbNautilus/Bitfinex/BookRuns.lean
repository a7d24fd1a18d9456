import ArbNautilus.Bitfinex.Book

namespace ArbNautilus.Bitfinex.Book

open Base

section Sides

/-- One side of the book: each level under its own price, every amount of one sign. -/
structure SideOf (Sign : ℚ → Prop) (side : Side) : Prop where
  keyed : ∀ k level, side.get? k = some level → level.price.value = k
  signed : ∀ k level, side.get? k = some level → Sign level.amount.value

/-- The two sides, with no price on both. -/
structure Sides (bids asks : Side) : Prop where
  buys : SideOf (0 < ·) bids
  sells : SideOf (· < 0) asks
  apart : ∀ k, bids.get? k = none ∨ asks.get? k = none

variable {Sign : ℚ → Prop} {bids asks side : Side}

theorem SideOf.empty : SideOf Sign (.empty : Side) := ⟨by simp, by simp⟩

theorem Sides.empty : Sides .empty .empty := ⟨.empty, .empty, fun _ => .inl (by simp)⟩

theorem SideOf.set (h : SideOf Sign side) {level : Level} (sign : Sign level.amount.value) :
    SideOf Sign (side.set level.price.value level) := by
  constructor <;> intro k other found <;> rw [Dict.get?_set] at found <;> split at found
  · rename_i same
    obtain rfl := Option.some.inj found
    exact same
  · exact h.keyed k other found
  · obtain rfl := Option.some.inj found
    exact sign
  · exact h.signed k other found

theorem SideOf.erase (h : SideOf Sign side) (k : ℚ) : SideOf Sign (side.erase k) := by
  constructor <;> intro k' level found <;> rw [Dict.get?_erase] at found <;> split at found
  · cases found
  · exact h.keyed k' level found
  · cases found
  · exact h.signed k' level found

theorem get?_erase_of_none {k k' : ℚ} (free : side.get? k' = none) :
    (side.erase k).get? k' = none := by
  rw [Dict.get?_erase, free, ite_self]

theorem Sides.swap (h : Sides bids asks) (k : ℚ) : asks.get? k = none ∨ bids.get? k = none :=
  (h.apart k).symm

/-- A price free on the other side may be set on this one. -/
theorem apart_set {taken other : Side} (apart : ∀ k, taken.get? k = none ∨ other.get? k = none)
    {k : ℚ} (free : other.get? k = none) (level : Level) (k' : ℚ) :
    (taken.set k level).get? k' = none ∨ other.get? k' = none := by
  by_cases same : k = k'
  · exact .inr (same ▸ free)
  · rw [Dict.get?_set, if_neg same]
    exact apart k'

theorem apart_erase {taken other : Side} (apart : ∀ k, taken.get? k = none ∨ other.get? k = none)
    (k k' : ℚ) : (taken.erase k).get? k' = none ∨ other.get? k' = none :=
  (apart k').imp_left get?_erase_of_none

end Sides

section Calls

variable {book after : P0Book}

/-- A row that is read has a nonzero amount. -/
theorem bookRow_amount {value : Value} {level : Level} {count : ℤ}
    (h : bookRow value = .ok (level, count)) : level.amount.value ≠ 0 := by
  unfold bookRow at h
  split at h
  · simp only [bind_eq_ok, raiseIf_eq_ok, pure_eq_ok] at h
    obtain ⟨price, -, n, -, amount, -, -, valid, -, -, same⟩ := h
    cases same
    exact fun zero => valid (.inr (.inr zero))
  · cases h

theorem addRow_sides {sides after : Side × Side} {item : Value} (h : Sides sides.1 sides.2)
    (added : P0Book.addRow sides item = .ok after) : Sides after.1 after.2 := by
  simp only [P0Book.addRow, bind_eq_ok, raiseIf_eq_ok, pure_eq_ok] at added
  obtain ⟨⟨level, count⟩, row, -, fresh, rfl⟩ := added
  simp only [not_or, ← Dict.get?_eq_none_iff] at fresh
  obtain ⟨-, noBid, noAsk⟩ := fresh
  have amount := bookRow_amount row
  split
  · rename_i positive
    exact ⟨h.buys.set positive, h.sells, apart_set h.apart noAsk level⟩
  · rename_i negative
    refine ⟨h.buys, h.sells.set (lt_of_le_of_ne (not_lt.1 negative) amount), fun k => ?_⟩
    exact (apart_set h.swap noBid level k).symm

theorem applySnapshot_sides {rows : List Value} (h : book.applySnapshot rows = .ok after) :
    Sides after.bids after.asks ∧ after.hasSnapshot = true ∧ after.bids.entries.length = 25 ∧
      after.asks.entries.length = 25 := by
  simp only [P0Book.applySnapshot, bind_eq_ok, raiseIf_eq_ok, pure_eq_ok] at h
  obtain ⟨-, -, ⟨bids, asks⟩, loop, -, complete, rfl⟩ := h
  have sides := foldlM_invariant (P := fun sides => Sides sides.1 sides.2)
    (fun s a t kept turn => addRow_sides kept turn) .empty loop
  simp only [not_or, not_not] at complete
  exact ⟨sides, rfl, complete⟩

theorem applyDelta_sides {row : List Value} (sides : Sides book.bids book.asks)
    (h : book.applyDelta row = .ok after) :
    Sides after.bids after.asks ∧ after.actionable = false := by
  simp only [P0Book.applyDelta, bind_eq_ok, raiseIf_eq_ok, pure_eq_ok] at h
  obtain ⟨-, -, ⟨level, count⟩, read, rfl⟩ := h
  have amount := bookRow_amount read
  have buys := sides.buys.erase level.price.value
  have sells := sides.sells.erase level.price.value
  have apart := apart_erase sides.apart level.price.value
  have swapped := apart_erase sides.swap level.price.value
  have gone : ∀ side : Side, (side.erase level.price.value).get? level.price.value = none :=
    fun side => by rw [Dict.get?_erase, if_pos rfl]
  dsimp only
  split <;> split
  · exact ⟨⟨buys, sides.sells, apart⟩, rfl⟩
  · exact ⟨⟨sides.buys, sells, fun k => (swapped k).symm⟩, rfl⟩
  · rename_i positive
    refine ⟨⟨buys.set positive, sells, apart_set (fun k => ?_) (gone _) level⟩, rfl⟩
    exact (apart_erase (fun k => (apart k).symm) _ k).symm
  · rename_i negative
    refine ⟨⟨buys, sells.set (lt_of_le_of_ne (not_lt.1 negative) amount), fun k => ?_⟩, rfl⟩
    refine (apart_set (fun k => ?_) (gone _) level k).symm
    exact (apart_erase (fun k => (swapped k).symm) _ k).symm

/-- What a verification that returns has compared. -/
theorem verify_eq_ok {venueChecksum : ℤ} {same : Bool}
    (h : book.verify venueChecksum = .ok (after, same)) :
    after = { book with actionable := same } ∧ ∃ crc, book.checksum = .ok crc ∧
      (same = true ↔ (crc.toNat : ℤ) = venueChecksum % 2 ^ 32) ∧ book.hasSnapshot = true ∧
      25 ≤ book.bids.entries.length ∧ 25 ≤ book.asks.entries.length := by
  simp only [P0Book.verify, bind_eq_ok, raiseIf_eq_ok, pure_eq_ok] at h
  obtain ⟨-, complete, crc, hash, result⟩ := h
  cases result
  simp only [not_or, not_lt, Bool.not_eq_false] at complete
  exact ⟨rfl, crc, hash, by simp, complete⟩

theorem verify_of_complete {venueChecksum : ℤ} {crc : BitVec 32} (has : book.hasSnapshot = true)
    (bids : 25 ≤ book.bids.entries.length) (asks : 25 ≤ book.asks.entries.length)
    (hash : book.checksum = .ok crc) : ∃ result, book.verify venueChecksum = .ok result := by
  have complete : ¬(book.hasSnapshot = false ∨ book.bids.entries.length < 25 ∨
      book.asks.entries.length < 25) := by
    simp [has, not_lt.2 bids, not_lt.2 asks]
  rw [P0Book.verify, raiseIf, if_neg complete, hash]
  exact ⟨_, rfl⟩

end Calls

section Runs

inductive Call
  | snapshot (rows : List Value)
  | delta (row : List Value)
  | verify (venueChecksum : ℤ)
  | clear

/-- The book, the last call that changed its levels, and the latest verification with its
answer where it gave one. -/
structure Trace where
  book : P0Book
  changed : Option Call
  verified : Option (ℤ × Option Bool)

namespace Trace

def start : Trace := ⟨.empty, none, none⟩

/-- One call; one that raises leaves the book as it was. -/
def step (t : Trace) : Call → Trace
  | .snapshot rows => match t.book.applySnapshot rows with
    | .ok book => { t with book, changed := some (.snapshot rows) }
    | .error _ => t
  | .delta row => match t.book.applyDelta row with
    | .ok book => { t with book, changed := some (.delta row) }
    | .error _ => t
  | .verify venueChecksum => match t.book.verify venueChecksum with
    | .ok (book, same) => { t with book, verified := some (venueChecksum, some same) }
    | .error _ => { t with verified := some (venueChecksum, none) }
  | .clear => { t with book := t.book.clear, changed := some .clear }

def run (t : Trace) (calls : List Call) : Trace := calls.foldl step t

/-- The levels are those of a full snapshot, the last call that changed them. -/
def FromSnapshot (t : Trace) : Prop :=
  ∃ rows, t.changed = some (.snapshot rows) ∧ P0Book.empty.applySnapshot rows = .ok t.book ∧
    t.book.bids.entries.length = 25 ∧ t.book.asks.entries.length = 25

/-- The latest verification matched the checksum of the levels. -/
def Verified (t : Trace) : Prop :=
  ∃ venueChecksum crc, t.verified = some (venueChecksum, some true) ∧
    t.book.checksum = .ok crc ∧ (crc.toNat : ℤ) = venueChecksum % 2 ^ 32 ∧
    25 ≤ t.book.bids.entries.length ∧ 25 ≤ t.book.asks.entries.length

structure Sound (t : Trace) : Prop where
  sides : Sides t.book.bids t.book.asks
  complete : t.book.actionable = true → t.book.hasSnapshot = true
  gated : t.book.actionable = true → t.FromSnapshot ∨ t.Verified

end Trace

theorem start_sound : Trace.start.Sound := ⟨.empty, nofun, nofun⟩

theorem step_sound {t : Trace} (call : Call) (h : t.Sound) : (t.step call).Sound := by
  cases call with
  | snapshot rows =>
    cases applied : t.book.applySnapshot rows with
    | error =>
      simp only [Trace.step, applied]
      exact h
    | ok book =>
      simp only [Trace.step, applied]
      obtain ⟨sides, has, bids, asks⟩ := applySnapshot_sides applied
      exact ⟨sides, fun _ => has, fun _ => .inl ⟨rows, rfl, applied, bids, asks⟩⟩
  | delta row =>
    cases applied : t.book.applyDelta row with
    | error =>
      simp only [Trace.step, applied]
      exact h
    | ok book =>
      simp only [Trace.step, applied]
      obtain ⟨sides, waits⟩ := applyDelta_sides h.sides applied
      have never : book.actionable ≠ true := by simp [waits]
      exact ⟨sides, fun ready => absurd ready never, fun ready => absurd ready never⟩
  | clear => exact ⟨.empty, nofun, nofun⟩
  | verify venueChecksum =>
    cases checked : t.book.verify venueChecksum with
    | error =>
      simp only [Trace.step, checked]
      refine ⟨h.sides, h.complete, fun ready => .inl ?_⟩
      rcases h.gated ready with snapshot | ⟨c, crc, -, hash, -, bids, asks⟩
      · exact snapshot
      · -- A verified book is complete and has a checksum, so its verification returns.
        obtain ⟨result, returns⟩ := verify_of_complete (h.complete ready) bids asks hash
        rw [checked] at returns
        cases returns
    | ok result =>
      obtain ⟨book, same⟩ := result
      simp only [Trace.step, checked]
      obtain ⟨rfl, crc, hash, agrees, has, bids, asks⟩ := verify_eq_ok checked
      refine ⟨h.sides, fun _ => has, fun ready => .inr ?_⟩
      obtain rfl : same = true := ready
      exact ⟨venueChecksum, crc, rfl, hash, agrees.1 rfl, bids, asks⟩

theorem run_sound {t : Trace} (calls : List Call) (h : t.Sound) : (t.run calls).Sound := by
  induction calls generalizing t with
  | nil => exact h
  | cons call calls ih => exact ih (step_sound call h)

end Runs

section Levels

variable {Sign : ℚ → Prop} {side : Side} {book : P0Book}

theorem prices_nodup (h : SideOf Sign side) : (side.values.map (·.price.value)).Nodup := by
  have keys : side.values.map (·.price.value) = side.keys := by
    unfold Dict.values Dict.keys
    rw [List.map_map]
    apply List.map_congr_left
    intro e member
    exact h.keyed e.1 e.2 ((side.mem_entries_iff e.1 e.2).1 member)
  rw [keys]
  exact side.nodup

/-- Sorting levels of distinct prices orders them strictly. -/
theorem insertionSort_strict {r : ℚ → ℚ → Prop} [DecidableRel r] [Std.Total r] [IsTrans ℚ r]
    (h : SideOf Sign side) :
    (side.values.insertionSort fun a b => r a.price.value b.price.value).Pairwise
      fun a b => r a.price.value b.price.value ∧ a.price.value ≠ b.price.value := by
  have : Std.Total fun a b : Level => r a.price.value b.price.value :=
    ⟨fun a b => Std.Total.total a.price.value b.price.value⟩
  have : IsTrans Level fun a b => r a.price.value b.price.value :=
    ⟨fun a b c => Trans.trans (r := r)⟩
  have apart := prices_nodup h
  rw [← ((List.perm_insertionSort (fun a b : Level => r a.price.value b.price.value)
    side.values).map _).nodup_iff, List.Nodup, List.pairwise_map] at apart
  exact (List.pairwise_insertionSort _ _).and apart

theorem bestBids_descending (h : Sides book.bids book.asks) :
    book.bestBids.Pairwise fun a b => b.price.value < a.price.value := by
  have : Std.Total fun a b : ℚ => b ≤ a := ⟨fun a b => le_total b a⟩
  have : IsTrans ℚ fun a b => b ≤ a := ⟨fun a b c first second => second.trans first⟩
  have strict := insertionSort_strict (r := fun a b => b ≤ a) h.buys
  exact (strict.imp fun ⟨le, apart⟩ => lt_of_le_of_ne le apart.symm).take

theorem bestAsks_ascending (h : Sides book.bids book.asks) :
    book.bestAsks.Pairwise fun a b => a.price.value < b.price.value := by
  have strict := insertionSort_strict (r := fun a b => a ≤ b) h.sells
  exact (strict.imp fun ⟨le, apart⟩ => lt_of_le_of_ne le apart).take

theorem length_best {r : Level → Level → Prop} [DecidableRel r] (full : 25 ≤ side.entries.length) :
    ((side.values.insertionSort r).take 25).length = 25 := by
  rw [List.length_take, List.length_insertionSort, Dict.values, List.length_map]
  exact min_eq_left full

/-- What a book that answers publishes. -/
structure Published (book : P0Book) (bids asks : List P0Book.Quoted) : Prop where
  bidCount : bids.length = 25
  askCount : asks.length = 25
  descending : bids.Pairwise fun a b => b.price.value < a.price.value
  ascending : asks.Pairwise fun a b => a.price.value < b.price.value
  uncrossed : ∀ bid ∈ bids, ∀ ask ∈ asks, bid.price.value < ask.price.value
  hashedBids : bids = book.hashed.map fun pair => ⟨pair.1.price, pair.1.amount⟩
  /-- An ask is published without its sign, rounded where it has too many digits. -/
  hashedAsks : List.Forall₂ (fun pair ask => ask.price = pair.2.price ∧
    pair.2.amount.abs defaultContext = .ok ask.size ∧
    (Decimal.Fits defaultContext pair.2.amount →
      ask.size = { pair.2.amount with negative := false })) book.hashed asks

theorem quotedAsk_eq_ok {level : Level} {ask : P0Book.Quoted}
    (h : P0Book.quotedAsk level = .ok ask) :
    ask.price = level.price ∧ level.amount.abs defaultContext = .ok ask.size := by
  unfold P0Book.quotedAsk at h
  split at h
  · cases h
  · rename_i size rounded
    cases h
    exact ⟨rfl, rounded⟩

theorem map_price_of_quoted {asks : List P0Book.Quoted} {levels : List Level}
    (quoted : List.Forall₂ (fun level ask => P0Book.quotedAsk level = .ok ask) levels asks) :
    asks.map (·.price) = levels.map (·.price) := by
  induction quoted with
  | nil => rfl
  | cons first _ ih => rw [List.map_cons, List.map_cons, ih, (quotedAsk_eq_ok first).1]

/-- The first of two ordered sides decides for all. -/
theorem uncrossed_of_heads {bids asks : List P0Book.Quoted} {bid ask : P0Book.Quoted}
    (descending : bids.Pairwise fun a b => b.price.value < a.price.value)
    (ascending : asks.Pairwise fun a b => a.price.value < b.price.value)
    (best : bids.head? = some bid) (least : asks.head? = some ask)
    (heads : bid.price.value < ask.price.value) :
    ∀ b ∈ bids, ∀ a ∈ asks, b.price.value < a.price.value := by
  obtain ⟨bids, rfl⟩ := List.head?_eq_some_iff.1 best
  obtain ⟨asks, rfl⟩ := List.head?_eq_some_iff.1 least
  rw [List.pairwise_cons] at descending ascending
  intro b listed a listed'
  have below : b.price.value ≤ bid.price.value := by
    rcases List.mem_cons.1 listed with rfl | later
    · exact le_rfl
    · exact (descending.1 b later).le
  have above : ask.price.value ≤ a.price.value := by
    rcases List.mem_cons.1 listed' with rfl | later
    · exact le_rfl
    · exact (ascending.1 a later).le
  exact (below.trans_lt heads).trans_le above

theorem levels_published (sides : Sides book.bids book.asks)
    (full : book.actionable = true →
      25 ≤ book.bids.entries.length ∧ 25 ≤ book.asks.entries.length)
    {bids asks : List P0Book.Quoted} (h : book.levels = .ok (bids, asks)) :
    Published book bids asks := by
  simp only [P0Book.levels, bind_eq_ok, raiseIf_eq_ok] at h
  obtain ⟨-, ready, asks', quoted, h⟩ := h
  rw [mapM_eq_ok] at quoted
  split at h
  · rename_i bid ask best least
    simp only [bind_eq_ok, raiseIf_eq_ok, pure_eq_ok, Prod.mk.injEq] at h
    obtain ⟨-, heads, rfl, rfl⟩ := h
    obtain ⟨bidsFull, asksFull⟩ := full (by simpa using ready)
    have bidCount : book.bestBids.length = 25 := length_best bidsFull
    have askCount : book.bestAsks.length = 25 := length_best asksFull
    have descending := bestBids_descending sides
    have ascending := bestAsks_ascending sides
    have prices := map_price_of_quoted quoted
    have ordered : asks'.Pairwise fun a b => a.price.value < b.price.value := by
      have mapped : (asks'.map (·.price)).Pairwise fun a b => a.value < b.value := by
        rw [prices, List.pairwise_map]
        exact ascending
      rwa [List.pairwise_map] at mapped
    have ordered' : (book.bestBids.map fun level =>
        (⟨level.price, level.amount⟩ : P0Book.Quoted)).Pairwise
          fun a b => b.price.value < a.price.value := by
      rw [List.pairwise_map]
      exact descending
    refine ⟨?_, ?_, ordered', ordered, uncrossed_of_heads ordered' ordered best least
      (not_le.1 heads), ?_, ?_⟩
    · rw [List.length_map, bidCount]
    · rw [← quoted.length_eq, askCount]
    · have firsts : book.hashed.map Prod.fst = book.bestBids :=
        List.map_fst_zip (bidCount.trans askCount.symm).le
      rw [← firsts, List.map_map]
      rfl
    · have seconds : book.hashed.map Prod.snd = book.bestAsks :=
        List.map_snd_zip (askCount.trans bidCount.symm).le
      rw [← seconds, List.forall₂_map_left_iff] at quoted
      refine quoted.imp fun pair ask made => ?_
      obtain ⟨price, rounded⟩ := quotedAsk_eq_ok made
      refine ⟨price, rounded, fun fits => ?_⟩
      rw [Decimal.abs_of_fits fits, Except.ok.injEq] at rounded
      exact rounded.symm
  · cases h

end Levels

theorem sound_full {t : Trace} (h : t.Sound) (ready : t.book.actionable = true) :
    25 ≤ t.book.bids.entries.length ∧ 25 ≤ t.book.asks.entries.length := by
  rcases h.gated ready with ⟨-, -, -, bids, asks⟩ | ⟨-, -, -, -, -, bids, asks⟩
  · exact ⟨bids.ge, asks.ge⟩
  · exact ⟨bids, asks⟩

/-- Whatever the calls, the sides stay apart, only a full snapshot or a matching checksum of
the current levels opens the book, and an open book publishes the levels it hashes. -/
theorem book_gated (calls : List Call) :
    let t := Trace.start.run calls
    Sides t.book.bids t.book.asks ∧ (t.book.actionable = true → t.FromSnapshot ∨ t.Verified) ∧
      ∀ bids asks, t.book.levels = .ok (bids, asks) → Published t.book bids asks := by
  have sound := run_sound calls start_sound
  exact ⟨sound.sides, sound.gated, fun _ _ => levels_published sound.sides (sound_full sound)⟩

/-- A full snapshot whose best ask has 29 digits. -/
def wideSnapshot : List Value :=
  (List.range 50).map fun (k : ℕ) => .arr [.int (k + 1), .int 1,
    if k < 25 then .int 1
    else if k = 25 then .real (.finite ⟨true, 10 ^ 28 + 1, -28⟩)
    else .int (-1)]

/-- An ask of too many digits is not published as it is hashed. -/
theorem wide_ask_rounded : ∃ bids asks,
    (Trace.start.run [.snapshot wideSnapshot]).book.levels = .ok (bids, asks) ∧
      asks.map (·.size.value) ≠ (Trace.start.run [.snapshot wideSnapshot]).book.hashed.map
        fun pair => -pair.2.amount.value := by
  have differs : (match (Trace.start.run [.snapshot wideSnapshot]).book.levels with
      | .ok (_, asks) => decide (asks.map (·.size.value) ≠
        (Trace.start.run [.snapshot wideSnapshot]).book.hashed.map
          fun pair => -pair.2.amount.value)
      | .error _ => false) = true := by decide +kernel
  split at differs
  · rename_i bids asks returned
    exact ⟨bids, asks, returned, of_decide_eq_true differs⟩
  · cases differs

end ArbNautilus.Bitfinex.Book
