import ArbNautilus.Base.Dict
import ArbNautilus.Base.Raise
import ArbNautilus.Journal.Event
import Mathlib.Data.List.Sort
import Mathlib.Data.Rat.Init

namespace ArbNautilus.Mt5

open Base Journal

/-- What the execution client's calls raise. -/
inductive Raised
  | executionError (message : String)
  | requestTimeout (message : String)
  | remoteError (code message : String)
  | transportError (message : String)
  | timeoutError
  | cancelledError
  | other (name message : String)
deriving DecidableEq, Repr

/-- `str(exc)`. -/
def Raised.message : Raised → String
  | .executionError message | .requestTimeout message | .transportError message
  | .other _ message => message
  | .remoteError code message => code ++ ": " ++ message
  | .timeoutError | .cancelledError => ""

def Raised.typeName : Raised → String
  | .executionError _ => "Mt5V1ExecutionError"
  | .requestTimeout _ => "Mt5V1RequestTimeout"
  | .remoteError .. => "Mt5V1RemoteError"
  | .transportError _ => "Mt5V1TransportError"
  | .timeoutError => "TimeoutError"
  | .cancelledError => "CancelledError"
  | .other name _ => name

/-- `f"{type(exc).__name__}: {exc}"`. -/
def Raised.text (e : Raised) : String := e.typeName ++ ": " ++ e.message

def Raised.describe (e : Raised) : String := String.ofList (e.text.toList.take 300)

/-- The error is a `Mt5V1TransportError`, a subclass of it included. -/
def Raised.isTransport : Raised → Bool
  | .requestTimeout _ | .remoteError .. | .transportError _ => true
  | _ => false

def intOf (digits : Text) : ℕ :=
  digits.foldl (fun value code => 10 * value + (code.toNat - '0'.toNat)) 0

/-- The number a decimal text stands for. -/
def decimalOf (text : Text) : ℚ :=
  let unsigned := if text.head? = some '-' then text.tail else text
  let whole := unsigned.takeWhile (· ≠ '.')
  let fraction := (unsigned.dropWhile (· ≠ '.')).tail
  let magnitude : ℚ := intOf (whole ++ fraction) / 10 ^ fraction.length
  if text.head? = some '-' then -magnitude else magnitude

/-- A payload's optional field, which the empty text stands for when absent. -/
def optionalField (text : Text) : Option Text := if text = [] then none else some text

def sorted (names : List Text) : List Text := names.insertionSort fun a b => ¬b < a

def joined (names : List Text) : String := String.ofList ([',', ' '].intercalate names)

/-- The reservations and terminal events by request id; a terminal has a reservation. -/
structure JournalProjection where
  reservations : Dict Text JournalEvent
  terminals : Dict Text JournalEvent
  reserved : ∀ id ∈ terminals.keys, id ∈ reservations.keys
deriving DecidableEq

namespace JournalProjection

def empty : JournalProjection := ⟨.empty, .empty, by simp⟩

def seenRequestIds (p : JournalProjection) : List Text := p.reservations.keys

def unknown (p : JournalProjection) : List Text :=
  (p.terminals.entries.filter (·.2.body.eventType = .orderUnknown)).map Prod.fst

def dangling (p : JournalProjection) : List Text :=
  p.reservations.keys.filter (· ∉ p.terminals.keys)

/-- A fill of another quantity than the request `id` reserved. -/
def mismatches (p : JournalProjection) (id : Text) (event : JournalEvent) : Bool :=
  match event.body with
  | .orderFilled _ fill => ((p.reservations.get? id).bind (·.body.order)).any fun order =>
    decimalOf fill.filledQuantityLots ≠ decimalOf order.quantityLots
  | _ => false

def mismatchedFills (p : JournalProjection) : List Text :=
  (p.terminals.entries.filter fun entry => p.mismatches entry.1 entry.2).map Prod.fst

def holdReason (p : JournalProjection) : Option String :=
  if p.unknown ≠ [] then
    some ("journal contains UNKNOWN request(s): " ++ joined (sorted p.unknown))
  else if p.dangling ≠ [] then
    some ("journal contains dangling reservation(s): " ++ joined (sorted p.dangling))
  else if p.mismatchedFills ≠ [] then
    some ("journal contains mismatched FOK fill(s): " ++ joined (sorted p.mismatchedFills))
  else none

def reserve (p : JournalProjection) (id : Text) (event : JournalEvent) : JournalProjection where
  reservations := p.reservations.set id event
  terminals := p.terminals
  reserved other member := by
    obtain ⟨held, found⟩ := (Dict.mem_keys_iff _ _).1 (p.reserved other member)
    refine (Dict.mem_keys_iff _ _).2 ?_
    rw [Dict.get?_set]
    split
    · exact ⟨event, rfl⟩
    · exact ⟨held, found⟩

def settle (p : JournalProjection) (id : Text) (event : JournalEvent)
    (known : id ∈ p.reservations.keys) : JournalProjection where
  reservations := p.reservations
  terminals := p.terminals.set id event
  reserved other member := by
    obtain ⟨held, found⟩ := (Dict.mem_keys_iff _ _).1 member
    rw [Dict.get?_set] at found
    split at found
    · rename_i same
      exact same ▸ known
    · exact p.reserved other ((Dict.mem_keys_iff _ _).2 ⟨held, found⟩)

end JournalProjection

def submissionSignature (order : Submission) : Side × Text × Option Text × Option Text :=
  (order.side, order.quantityLots, optionalField order.positionTicket,
    optionalField order.positionIdentifier)

def validateCloseFillTarget (reservation : JournalEvent) (terminal : EventBody) :
    Except Raised Unit :=
  match reservation.body.order.bind fun order => optionalField order.positionIdentifier,
    terminal with
  | some positionIdentifier, .orderFilled _ fill =>
    raiseIf (fill.venuePositionId ≠ positionIdentifier)
      (.executionError "MT5 close fill does not match reserved target position")
  | _, _ => pure ()

namespace JournalProjection

/-- `_record_reservation`. -/
def recordReservation (p : JournalProjection) (event : JournalEvent) (order : Submission) :
    Except Raised JournalProjection := do
  raiseIf (order.clientRequestId ∈ p.reservations.keys ∨ order.clientRequestId ∈ p.terminals.keys)
    (.executionError "execution journal repeats a request reservation")
  pure (p.reserve order.clientRequestId event)

/-- `_record_terminal`. -/
def recordTerminal (p : JournalProjection) (event : JournalEvent) (order : Submission) :
    Except Raised JournalProjection :=
  match found : p.reservations.get? order.clientRequestId with
  | none => .error (.executionError "terminal execution event has no reservation")
  | some reservation => do
    raiseIf (order.clientRequestId ∈ p.terminals.keys)
      (.executionError "execution journal repeats a terminal outcome")
    raiseIf (reservation.bootId ≠ event.bootId)
      (.executionError "terminal execution event changed EA boot")
    raiseIf (some (submissionSignature order) ≠ reservation.body.order.map submissionSignature)
      (.executionError "terminal execution payload differs from its reservation")
    validateCloseFillTarget reservation event.body
    pure (p.settle order.clientRequestId event ((Dict.mem_keys_iff _ _).2 ⟨reservation, found⟩))

end JournalProjection

/-- What the batch projection has read so far. -/
structure Projecting where
  projection : JournalProjection
  bootIds : List Text
  activeBootId : Option Text

namespace Projecting

def start : Projecting := ⟨.empty, [], none⟩

/-- One turn of the loop over the journal. -/
def turn (s : Projecting) (event : JournalEvent) : Except Raised Projecting :=
  match event.body.order with
  | none => do
    raiseIf (event.bootId ∈ s.bootIds) (.executionError "execution journal repeats a boot ID")
    pure { s with bootIds := event.bootId :: s.bootIds, activeBootId := some event.bootId }
  | some order => do
    let requestId := order.clientRequestId
    raiseIf (some event.bootId ≠ s.activeBootId)
      (.executionError "execution event belongs to an inactive EA boot")
    if event.body.eventType = .submissionReserved then
      raiseIf (requestId ∈ s.projection.reservations.keys ∨ requestId ∈ s.projection.terminals.keys)
        (.executionError "execution journal repeats a request reservation")
      pure { s with projection := s.projection.reserve requestId event }
    else
      match found : s.projection.reservations.get? requestId with
      | none => .error (.executionError "terminal execution event has no reservation")
      | some reservation =>
        raiseIf (requestId ∈ s.projection.terminals.keys)
          (.executionError "execution journal repeats a terminal outcome")
        raiseIf (reservation.bootId ≠ event.bootId)
          (.executionError "terminal execution event changed EA boot")
        raiseIf (some (submissionSignature order) ≠ reservation.body.order.map submissionSignature)
          (.executionError "terminal execution payload differs from its reservation")
        validateCloseFillTarget reservation event.body
        pure { s with
          projection := s.projection.settle requestId event
            ((Dict.mem_keys_iff _ _).2 ⟨reservation, found⟩) }

end Projecting

/-- `_project_journal`. -/
def projectJournal (events : List JournalEvent) (currentBootId : Text) :
    Except Raised JournalProjection := do
  raiseIf (events.head?.map (·.body.eventType) ≠ some .streamStarted)
    (.executionError "execution journal does not begin with stream_started")
  let last ← events.foldlM Projecting.turn .start
  raiseIf (last.activeBootId ≠ none ∧ last.activeBootId ≠ some currentBootId)
    (.executionError "execution journal does not end at the current EA boot")
  pure last.projection

end ArbNautilus.Mt5
