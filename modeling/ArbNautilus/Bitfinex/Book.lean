import ArbNautilus.Base.DecimalContext
import ArbNautilus.Base.Dict
import ArbNautilus.Base.Json
import ArbNautilus.Base.Text
import Mathlib.Data.List.Sort

namespace ArbNautilus.Bitfinex.Book

open Base

/-- What the book's calls raise. -/
inductive BookError
  | dataError (message : String)
  | decimal (error : DecimalError)
  | indexError
deriving DecidableEq

/-- The default arithmetic. -/
def defaultContext : Context := ⟨28, -999999, 999999⟩

/-- A decoded frame; its numbers with a fraction are decimals. -/
abbrev Value := Json Numeral

section Rows

structure Level where
  price : Decimal
  amount : Decimal
deriving DecidableEq

def decimal (value : Value) (label : String) : Except BookError Decimal :=
  match value with
  | .int number => pure ⟨decide (number < 0), number.natAbs, 0⟩
  | .real (.finite number) => pure number
  | .real .special => throw (.dataError ("Bitfinex " ++ label ++ " must be finite"))
  | _ => throw (.dataError ("Bitfinex " ++ label ++ " must be a JSON number"))

def integer (value : Value) (label : String) : Except BookError ℤ :=
  match value with
  | .int number => pure number
  | _ => throw (.dataError ("Bitfinex " ++ label ++ " must be an integer"))

/-- `_book_row`: a level and its order count. -/
def bookRow (value : Value) : Except BookError (Level × ℤ) :=
  match value with
  | .arr [price, count, amount] => do
    let price ← decimal price "price"
    let count ← integer count "count"
    let amount ← decimal amount "amount"
    raiseIf (price.value ≤ 0 ∨ count < 0 ∨ amount.value = 0)
      (.dataError "Bitfinex book level has invalid values")
    raiseIf (count = 0 ∧ amount.value ≠ -1 ∧ amount.value ≠ 1)
      (.dataError "Bitfinex deletion amount must be exactly -1 or 1")
    pure (⟨price, amount⟩, count)
  | _ => throw (.dataError "Bitfinex book level must have three fields")

end Rows

section Checksum

def shortenZero : Text → Text
  | 'e' :: '-' :: '0' :: text => 'e' :: '-' :: shortenZero text
  | c :: text => c :: shortenZero text
  | [] => []

def shortenPlus : Text → Text
  | 'e' :: '+' :: text => 'e' :: shortenPlus text
  | c :: text => c :: shortenPlus text
  | [] => []

/-- `text.rstrip(c)`. -/
def stripEnd (c : Char) (text : Text) : Text := (text.reverse.dropWhile (· = c)).reverse

/-- `_crc_token`. -/
def crcToken (value : Decimal) : Except BookError Text :=
  if value.IsWhole then pure (value.format.takeWhile (· ≠ '.'))
  else if -6 ≤ value.adjusted then pure (stripEnd '.' (stripEnd '0' value.format))
  else match value.normalize defaultContext with
    | .error error => throw (.decimal error)
    | .ok normal => pure (shortenPlus (shortenZero (normal.toText.map lower)))

def crcBit (crc : BitVec 32) : BitVec 32 :=
  if crc.getLsbD 0 then (crc >>> 1) ^^^ 0xEDB88320#32 else crc >>> 1

/-- `zlib.crc32`. -/
def crc32 (bytes : List ℕ) : BitVec 32 :=
  ~~~(bytes.foldl (fun crc byte => crcBit^[8] (crc ^^^ BitVec.ofNat 32 byte)) (~~~0#32))

example : crc32 ("123456789".toList.map Char.toNat) = 0xCBF43926#32 := by decide +kernel

end Checksum

/-- The levels of one side under what their prices compare by. -/
abbrev Side := Dict ℚ Level

structure P0Book where
  bids : Side
  asks : Side
  hasSnapshot : Bool
  actionable : Bool

namespace P0Book

def empty : P0Book := ⟨.empty, .empty, false, false⟩

section Calls

def clear (_ : P0Book) : P0Book := empty

/-- One row of a snapshot, onto the side of its sign. -/
def addRow (sides : Side × Side) (item : Value) : Except BookError (Side × Side) := do
  let (level, count) ← bookRow item
  raiseIf (count = 0 ∨ level.price.value ∈ sides.1.keys ∨ level.price.value ∈ sides.2.keys)
    (.dataError "Bitfinex snapshot contains an invalid level")
  pure (if 0 < level.amount.value then (sides.1.set level.price.value level, sides.2)
    else (sides.1, sides.2.set level.price.value level))

def applySnapshot (_ : P0Book) (value : List Value) : Except BookError P0Book := do
  raiseIf (value.length ≠ 50) (.dataError "Bitfinex len25 snapshot must contain 50 levels")
  let (bids, asks) ← value.foldlM addRow (.empty, .empty)
  raiseIf (bids.entries.length ≠ 25 ∨ asks.entries.length ≠ 25)
    (.dataError "Bitfinex snapshot must contain 25 levels per side")
  pure ⟨bids, asks, true, true⟩

def applyDelta (book : P0Book) (value : List Value) : Except BookError P0Book := do
  raiseIf (book.hasSnapshot = false)
    (.dataError "Bitfinex delta arrived before the book snapshot")
  let (level, count) ← bookRow (.arr value)
  let key := level.price.value
  pure <| if count = 0 then
      if 0 < level.amount.value then { book with bids := book.bids.erase key, actionable := false }
      else { book with asks := book.asks.erase key, actionable := false }
    else if 0 < level.amount.value then { book with
      bids := (book.bids.erase key).set key level
      asks := book.asks.erase key
      actionable := false }
    else { book with
      bids := book.bids.erase key
      asks := (book.asks.erase key).set key level
      actionable := false }

/-- `sorted(self._bids.items(), reverse=True)[:25]`; no two prices are equal. -/
def bestBids (book : P0Book) : List Level :=
  ((book.bids.values).insertionSort fun a b => b.price.value ≤ a.price.value).take 25

def bestAsks (book : P0Book) : List Level :=
  ((book.asks.values).insertionSort fun a b => a.price.value ≤ b.price.value).take 25

/-- The pairs of levels whose tokens are hashed. -/
def hashed (book : P0Book) : List (Level × Level) := book.bestBids.zip book.bestAsks

/-- The checksum of the hashed levels. -/
def checksum (book : P0Book) : Except BookError (BitVec 32) := do
  let values := book.hashed.flatMap fun (bid, ask) => [bid.price, bid.amount, ask.price, ask.amount]
  let tokens ← values.mapM crcToken
  pure (crc32 ((List.intercalate [':'] tokens).map Char.toNat))

def verify (book : P0Book) (venueChecksum : ℤ) : Except BookError (P0Book × Bool) := do
  raiseIf (book.hasSnapshot = false ∨ book.bids.entries.length < 25 ∨ book.asks.entries.length < 25)
    (.dataError "Bitfinex book is not complete enough for CRC validation")
  let crc ← book.checksum
  let matches' := decide ((crc.toNat : ℤ) = venueChecksum % 2 ^ 32)
  pure ({ book with actionable := matches' }, matches')

/-- A published level: its price and how much there is. -/
structure Quoted where
  price : Decimal
  size : Decimal
deriving DecidableEq

def quotedAsk (level : Level) : Except BookError Quoted :=
  match level.amount.abs defaultContext with
  | .error error => throw (.decimal error)
  | .ok size => pure ⟨level.price, size⟩

def levels (book : P0Book) : Except BookError (List Quoted × List Quoted) := do
  raiseIf (book.actionable = false)
    (.dataError "Bitfinex book has no actionable snapshot or latest CRC")
  let bids := book.bestBids.map fun level => (⟨level.price, level.amount⟩ : Quoted)
  let asks ← book.bestAsks.mapM quotedAsk
  match bids.head?, asks.head? with
  | some bid, some ask =>
    raiseIf (ask.price.value ≤ bid.price.value) (.dataError "Bitfinex book is crossed")
    pure (bids, asks)
  | _, _ => throw .indexError

/-- The best bid and ask with their sizes. -/
def quote (book : P0Book) : Except BookError (Quoted × Quoted) := do
  let (bids, asks) ← book.levels
  match bids.head?, asks.head? with
  | some bid, some ask => pure (bid, ask)
  | _, _ => throw .indexError

end Calls

end P0Book

end ArbNautilus.Bitfinex.Book
