import ArbNautilus.Journal.Scalars
import Mathlib.Algebra.Group.Nat.Defs

namespace ArbNautilus.Journal

open Base

/-- Texts are looked up letter by letter. -/
instance (text : Text) (texts : List Text) : Decidable (text ∈ texts) := inferInstance

inductive Side
  | buy
  | sell
deriving DecidableEq, Repr

def Side.text : Side → Text
  | .buy => "buy".toList
  | .sell => "sell".toList

def Side.ofText (text : Text) : Option Side :=
  if text = "buy".toList then some .buy
  else if text = "sell".toList then some .sell
  else none

inductive EventType
  | streamStarted
  | submissionReserved
  | orderRejected
  | orderFilled
  | orderUnknown
deriving DecidableEq, Repr

def EventType.text : EventType → Text
  | .streamStarted => "stream_started".toList
  | .submissionReserved => "submission_reserved".toList
  | .orderRejected => "order_rejected".toList
  | .orderFilled => "order_filled".toList
  | .orderUnknown => "order_unknown".toList

def EventType.ofText (text : Text) : Option EventType :=
  if text = "stream_started".toList then some .streamStarted
  else if text = "submission_reserved".toList then some .submissionReserved
  else if text = "order_rejected".toList then some .orderRejected
  else if text = "order_unknown".toList then some .orderUnknown
  else if text = "order_filled".toList then some .orderFilled
  else none

/-- What a reservation reserves; an absent close target is the empty text twice. -/
structure Submission where
  clientRequestId : Text
  side : Side
  quantityLots : Text
  positionTicket : Text
  positionIdentifier : Text
deriving DecidableEq, Repr

structure Fill where
  filledQuantityLots : Text
  fillPrice : Text
  venueOrderId : Text
  venueDealId : Text
  venuePositionId : Text
  commission : Text
  brokerRetcode : Text
deriving DecidableEq, Repr

inductive EventBody
  | streamStarted (eaBuildId : Text) (executionEnabled : Bool)
  | submissionReserved (order : Submission)
  | orderRejected (order : Submission) (reason brokerRetcode : Text)
  | orderUnknown (order : Submission) (reason brokerRetcode : Text)
  | orderFilled (order : Submission) (fill : Fill)
deriving DecidableEq, Repr

structure JournalEvent where
  eventSeq : Text
  eventTimeMs : Text
  streamId : Text
  bootId : Text
  body : EventBody
deriving DecidableEq, Repr

def EventBody.eventType : EventBody → EventType
  | .streamStarted .. => .streamStarted
  | .submissionReserved .. => .submissionReserved
  | .orderRejected .. => .orderRejected
  | .orderUnknown .. => .orderUnknown
  | .orderFilled .. => .orderFilled

/-- The order an event is about, unless it starts a stream. -/
def EventBody.order : EventBody → Option Submission
  | .streamStarted .. => none
  | .submissionReserved order | .orderRejected order .. | .orderUnknown order ..
  | .orderFilled order .. => some order

def EventType.isTerminal : EventType → Bool
  | .orderRejected | .orderFilled | .orderUnknown => true
  | .streamStarted | .submissionReserved => false

def EventType.isOrderEvent (type : EventType) : Bool :=
  type == .submissionReserved || type.isTerminal

/-- The event carries this `client_request_id`. -/
def JournalEvent.isFor (event : JournalEvent) (clientRequestId : Text) : Bool :=
  event.body.order.any fun order => order.clientRequestId == clientRequestId

def JournalEvent.reserves (event : JournalEvent) (clientRequestId : Text) : Bool :=
  event.body.eventType == .submissionReserved && event.isFor clientRequestId

def JournalEvent.settles (event : JournalEvent) (clientRequestId : Text) : Bool :=
  event.body.eventType.isTerminal && event.isFor clientRequestId

def Submission.hasCloseTarget (order : Submission) : Bool :=
  0 < order.positionTicket.length && 0 < order.positionIdentifier.length

def Submission.closeTargetValid (order : Submission) : Bool :=
  let ticketPresent := decide (0 < order.positionTicket.length)
  let identifierPresent := decide (0 < order.positionIdentifier.length)
  ticketPresent == identifierPresent && (!ticketPresent ||
    (canonicalUint64 order.positionTicket true && canonicalUint64 order.positionIdentifier true))

/-- Sixteen lower-case hexadecimal digits. -/
def hex64 (value : ℕ) : Text :=
  (List.range 16).map fun index =>
    "0123456789abcdef".toList.getD ((value >>> (60 - 4 * index)) &&& 0x0f) '0'

/-- FNV-1a over the UTF-8 bytes of the text. -/
def checksum (value : Text) : Text :=
  hex64 <| (value.flatMap String.utf8EncodeChar).foldl
    (fun hash byte => (hash ^^^ byte.toNat) * 0x00000100000001b3 % 2 ^ 64) 0xcbf29ce484222325

def joinFields (fields : List Text) : Text := ['|'].intercalate fields

/-- A line's body, then its checksum as one more field. -/
def sealLine (fields : List Text) : Text :=
  joinFields fields ++ '|' :: checksum (joinFields fields)

def verifiedParts (line : Text) (expected : ℕ) : Option (List Text) :=
  let parts := line.splitOn '|'
  if parts.length ≠ expected then none
  else if parts.getLast? = some (checksum (joinFields parts.dropLast)) then some parts
  else none

def Submission.fields (order : Submission) : List Text :=
  [order.clientRequestId, order.side.text, order.quantityLots] ++
    if order.hasCloseTarget then [order.positionTicket, order.positionIdentifier] else []

def Fill.fields (fill : Fill) : List Text :=
  [fill.filledQuantityLots, fill.fillPrice, fill.venueOrderId, fill.venueDealId,
    fill.venuePositionId, fill.commission, fill.brokerRetcode]

/-- `demo-v1` when execution is enabled. -/
def executionMode (enabled : Bool) : Text :=
  if enabled then "demo-v1".toList else "readonly-v1".toList

def EventBody.fields : EventBody → List Text
  | .streamStarted eaBuildId enabled => [eaBuildId, executionMode enabled]
  | .submissionReserved order => order.fields
  | .orderRejected order reason brokerRetcode | .orderUnknown order reason brokerRetcode =>
    order.fields ++ [reason, brokerRetcode]
  | .orderFilled order fill => order.fields ++ fill.fields

def JournalEvent.fields (event : JournalEvent) : List Text :=
  ["E".toList, event.eventSeq, event.eventTimeMs, event.streamId, event.bootId,
    event.body.eventType.text] ++ event.body.fields

def JournalEvent.line (event : JournalEvent) : Text := sealLine event.fields

/-- The fields all order events share, from the seventh on. -/
def parseOrder (parts : List Text) (closeEvent : Bool) : Option Submission :=
  let part index := parts.getD index []
  match Side.ofText (part 7) with
  | none => none
  | some side =>
    if safeToken (part 6) ∧ positiveDecimal (part 8) ∧ (closeEvent → canonicalUint64 (part 9) true ∧
        canonicalUint64 (part 10) true) then
      some {
        clientRequestId := part 6
        side
        quantityLots := part 8
        positionTicket := if closeEvent then part 9 else []
        positionIdentifier := if closeEvent then part 10 else [] }
    else none

def parseStreamStarted (parts : List Text) : Option EventBody :=
  let part index := parts.getD index []
  if parts.length ≠ 9 ∨ ¬safeToken (part 6) ∨
      (part 7 ≠ executionMode false ∧ part 7 ≠ executionMode true) then none
  else some (.streamStarted (part 6) (part 7 = executionMode true))

def parseReserved (parts : List Text) : Option EventBody :=
  let closeEvent := parts.length == 12
  if parts.length ≠ 10 ∧ ¬closeEvent then none
  else (parseOrder parts closeEvent).map .submissionReserved

def parseRejectedOrUnknown (parts : List Text) : Option (Submission × Text × Text) :=
  let closeEvent := parts.length == 14
  let reason := parts.getD (if closeEvent then 11 else 9) []
  let brokerRetcode := parts.getD (if closeEvent then 12 else 10) []
  if parts.length ≠ 12 ∧ ¬closeEvent then none
  else if ¬safeToken reason ∨ ¬canonicalUint64 brokerRetcode false then none
  else (parseOrder parts closeEvent).map fun order => (order, reason, brokerRetcode)

def Fill.valid (fill : Fill) : Bool :=
  positiveDecimal fill.filledQuantityLots && positiveDecimal fill.fillPrice &&
    canonicalUint64 fill.venueOrderId true && canonicalUint64 fill.venueDealId true &&
    canonicalUint64 fill.venuePositionId true && signedDecimal fill.commission &&
    canonicalUint64 fill.brokerRetcode false

def parseFilled (parts : List Text) : Option EventBody :=
  let closeEvent := parts.length == 19
  let part index := parts.getD ((if closeEvent then 11 else 9) + index) []
  let fill : Fill := ⟨part 0, part 1, part 2, part 3, part 4, part 5, part 6⟩
  if parts.length ≠ 17 ∧ ¬closeEvent then none
  else if ¬fill.valid then none
  else (parseOrder parts closeEvent).map (.orderFilled · fill)

def parseBody (parts : List Text) : Option EventBody :=
  match EventType.ofText (parts.getD 5 []) with
  | none => none
  | some .streamStarted => parseStreamStarted parts
  | some .submissionReserved => parseReserved parts
  | some .orderRejected =>
    (parseRejectedOrUnknown parts).map fun (order, reason, retcode) =>
      .orderRejected order reason retcode
  | some .orderUnknown =>
    (parseRejectedOrUnknown parts).map fun (order, reason, retcode) =>
      .orderUnknown order reason retcode
  | some .orderFilled => parseFilled parts

/-- One line of the events file as the event it records. -/
def parseEvent (streamId line expectedSequence : Text) : Option JournalEvent :=
  let count := (line.splitOn '|').length
  if count < 7 then none
  else match verifiedParts line count with
  | none => none
  | some parts =>
    let part index := parts.getD index []
    if part 0 ≠ "E".toList ∨ part 1 ≠ expectedSequence ∨ ¬canonicalUint64 (part 1) true ∨
        ¬canonicalUint64 (part 2) true ∨ part 3 ≠ streamId ∨ ¬safeToken (part 4) then none
    else (parseBody parts).map fun body => ⟨part 1, part 2, part 3, part 4, body⟩

/-- What the append functions check of an order before they write it. -/
def Submission.valid (order : Submission) : Bool :=
  safeToken order.clientRequestId && positiveDecimal order.quantityLots && order.closeTargetValid

def EventBody.valid : EventBody → Bool
  | .streamStarted eaBuildId _ => safeToken eaBuildId
  | .submissionReserved order => order.valid
  | .orderRejected order reason brokerRetcode | .orderUnknown order reason brokerRetcode =>
    order.valid && safeToken reason && canonicalUint64 brokerRetcode false
  | .orderFilled order fill => order.valid && fill.valid

def JournalEvent.valid (event : JournalEvent) : Bool :=
  canonicalUint64 event.eventSeq true && canonicalUint64 event.eventTimeMs true &&
    safeToken event.streamId && safeToken event.bootId && event.body.valid

@[simp] theorem Side.ofText_text (side : Side) : Side.ofText side.text = some side := by
  cases side <;> decide

@[simp] theorem EventType.ofText_text (type : EventType) :
    EventType.ofText type.text = some type := by
  cases type <;> decide

theorem Side.clean_text (side : Side) : Clean side.text := by
  cases side <;> decide

theorem EventType.clean_text (type : EventType) : Clean type.text := by
  cases type <;> decide

theorem clean_executionMode (enabled : Bool) : Clean (executionMode enabled) := by
  cases enabled <;> decide

theorem clean_hex64 (value : ℕ) : Clean (hex64 value) := by
  refine clean_of_all (fun code => "0123456789abcdef".toList.contains code) (by decide) (by decide)
    (by decide) ?_
  rw [List.all_eq_true]
  intro code member
  obtain ⟨index, -, rfl⟩ := List.mem_map.1 member
  have digit : (value >>> (60 - 4 * index)) &&& 0x0f < 16 :=
    Nat.and_lt_two_pow _ (by decide : 0x0f < 2 ^ 4)
  generalize (value >>> (60 - 4 * index)) &&& 0x0f = nibble at digit
  have all : ∀ n < 16, "0123456789abcdef".toList.contains
      ("0123456789abcdef".toList.getD n '0') = true := by decide
  exact all nibble digit

theorem clean_checksum (value : Text) : Clean (checksum value) := clean_hex64 _

@[simp] theorem joinFields_cons (field next : Text) (rest : List Text) :
    joinFields (field :: next :: rest) = field ++ '|' :: joinFields (next :: rest) := by
  simp [joinFields, List.intercalate, List.intersperse]

@[simp] theorem joinFields_single (field : Text) : joinFields [field] = field := by
  simp [joinFields, List.intercalate, List.intersperse]

theorem joinFields_concat {fields : List Text} (some : fields ≠ []) (last : Text) :
    joinFields (fields ++ [last]) = joinFields fields ++ '|' :: last := by
  induction fields with
  | nil => exact absurd rfl some
  | cons field rest ih =>
    cases rest with
    | nil => simp
    | cons next rest =>
      have shorter := ih (by simp)
      simp only [List.cons_append, joinFields_cons, List.append_assoc] at shorter ⊢
      rw [shorter]

theorem sealLine_eq {fields : List Text} (some : fields ≠ []) :
    sealLine fields = joinFields (fields ++ [checksum (joinFields fields)]) :=
  (joinFields_concat some _).symm

theorem splitOn_sealLine {fields : List Text} (some : fields ≠ [])
    (clean : ∀ field ∈ fields, Clean field) :
    (sealLine fields).splitOn '|' = fields ++ [checksum (joinFields fields)] := by
  rw [sealLine_eq some]
  apply List.splitOn_intercalate
  · intro field member
    rcases List.mem_append.1 member with old | new
    · exact (clean field old).1
    · rw [List.mem_singleton.1 new]
      exact (clean_checksum _).1
  · simp

/-- A sealed line verifies, and its fields are read back. -/
theorem verifiedParts_sealLine {fields : List Text} (some : fields ≠ [])
    (clean : ∀ field ∈ fields, Clean field) :
    verifiedParts (sealLine fields) (fields.length + 1) =
      .some (fields ++ [checksum (joinFields fields)]) := by
  simp [verifiedParts, splitOn_sealLine some clean]

theorem oneLine_joinFields {fields : List Text} (clean : ∀ field ∈ fields, Clean field) :
    OneLine (joinFields fields) := by
  induction fields with
  | nil => decide
  | cons field rest ih =>
    have first := (clean field List.mem_cons_self).2
    have others := ih fun other member => clean other (List.mem_cons_of_mem field member)
    cases rest with
    | nil => simpa using first
    | cons next rest =>
      rw [joinFields_cons]
      exact ⟨by simp [first.1, others.1], by simp [first.2, others.2]⟩

theorem oneLine_sealLine {fields : List Text} (some : fields ≠ [])
    (clean : ∀ field ∈ fields, Clean field) : OneLine (sealLine fields) := by
  rw [sealLine_eq some]
  apply oneLine_joinFields
  intro field member
  rcases List.mem_append.1 member with old | new
  · exact clean field old
  · rw [List.mem_singleton.1 new]
    exact clean_checksum _

theorem Submission.clean_fields {order : Submission} (valid : order.valid = true) :
    ∀ field ∈ order.fields, Clean field := by
  simp only [Submission.valid, Bool.and_eq_true] at valid
  obtain ⟨⟨id, lots⟩, target⟩ := valid
  intro field member
  simp only [Submission.fields, List.mem_append, List.mem_cons, List.not_mem_nil,
    or_false] at member
  rcases member with (rfl | rfl | rfl) | close
  · exact clean_of_safeToken id
  · exact order.side.clean_text
  · exact clean_of_positiveDecimal lots
  · split at close
    · rename_i present
      simp only [Submission.hasCloseTarget, Bool.and_eq_true, decide_eq_true_eq] at present
      simp [Submission.closeTargetValid, present] at target
      rcases List.mem_cons.1 close with rfl | close
      · exact clean_of_canonicalUint64 target.1
      · rw [List.mem_singleton.1 close]
        exact clean_of_canonicalUint64 target.2
    · cases close

theorem Fill.clean_fields {fill : Fill} (valid : fill.valid = true) :
    ∀ field ∈ fill.fields, Clean field := by
  simp only [Fill.valid, Bool.and_eq_true] at valid
  obtain ⟨⟨⟨⟨⟨⟨filled, price⟩, order⟩, deal⟩, position⟩, commission⟩, retcode⟩ := valid
  intro field member
  simp only [Fill.fields, List.mem_cons, List.not_mem_nil, or_false] at member
  rcases member with rfl | rfl | rfl | rfl | rfl | rfl | rfl
  · exact clean_of_positiveDecimal filled
  · exact clean_of_positiveDecimal price
  · exact clean_of_canonicalUint64 order
  · exact clean_of_canonicalUint64 deal
  · exact clean_of_canonicalUint64 position
  · exact clean_of_signedDecimal commission
  · exact clean_of_canonicalUint64 retcode

theorem EventBody.clean_fields {body : EventBody} (valid : body.valid = true) :
    ∀ field ∈ body.fields, Clean field := by
  cases body with
  | streamStarted eaBuildId enabled =>
    intro field member
    simp only [EventBody.fields, List.mem_cons, List.not_mem_nil, or_false] at member
    rcases member with rfl | rfl
    · exact clean_of_safeToken valid
    · exact clean_executionMode enabled
  | submissionReserved order => exact order.clean_fields valid
  | orderRejected order reason retcode | orderUnknown order reason retcode =>
    simp only [EventBody.valid, Bool.and_eq_true] at valid
    intro field member
    simp only [EventBody.fields, List.mem_append, List.mem_cons, List.not_mem_nil,
      or_false] at member
    rcases member with shared | rfl | rfl
    · exact order.clean_fields valid.1.1 field shared
    · exact clean_of_safeToken valid.1.2
    · exact clean_of_canonicalUint64 valid.2
  | orderFilled order fill =>
    simp only [EventBody.valid, Bool.and_eq_true] at valid
    intro field member
    rcases List.mem_append.1 member with shared | filled
    · exact order.clean_fields valid.1 field shared
    · exact fill.clean_fields valid.2 field filled

theorem JournalEvent.clean_fields {event : JournalEvent} (valid : event.valid = true) :
    ∀ field ∈ event.fields, Clean field := by
  simp only [JournalEvent.valid, Bool.and_eq_true] at valid
  obtain ⟨⟨⟨⟨seq, time⟩, stream⟩, boot⟩, body⟩ := valid
  intro field member
  simp only [JournalEvent.fields, List.mem_append, List.mem_cons, List.not_mem_nil,
    or_false] at member
  rcases member with (rfl | rfl | rfl | rfl | rfl | rfl) | own
  · decide
  · exact clean_of_canonicalUint64 seq
  · exact clean_of_canonicalUint64 time
  · exact clean_of_safeToken stream
  · exact clean_of_safeToken boot
  · exact event.body.eventType.clean_text
  · exact event.body.clean_fields body field own

theorem JournalEvent.fields_ne_nil (event : JournalEvent) : event.fields ≠ [] := by
  simp [JournalEvent.fields]

theorem JournalEvent.oneLine {event : JournalEvent} (valid : event.valid = true) :
    OneLine event.line :=
  oneLine_sealLine event.fields_ne_nil (event.clean_fields valid)

theorem JournalEvent.line_starts (event : JournalEvent) : ∃ rest, event.line = 'E' :: rest := by
  simp [JournalEvent.line, sealLine, JournalEvent.fields]

theorem Submission.closeTarget_eq {order : Submission} (valid : order.valid = true) :
    (order.hasCloseTarget = true ∧ canonicalUint64 order.positionTicket true = true ∧
      canonicalUint64 order.positionIdentifier true = true) ∨
    (order.hasCloseTarget = false ∧ order.positionTicket = [] ∧ order.positionIdentifier = []) := by
  simp only [Submission.valid, Bool.and_eq_true] at valid
  obtain ⟨-, target⟩ := valid
  by_cases ticket : 0 < order.positionTicket.length
  · by_cases identifier : 0 < order.positionIdentifier.length
    · left
      simp only [Submission.closeTargetValid, ticket, identifier, decide_true, BEq.rfl,
        Bool.not_true, Bool.false_or, Bool.true_and, Bool.and_eq_true] at target
      exact ⟨by simp [Submission.hasCloseTarget, ticket, identifier], target⟩
    · simp [Submission.closeTargetValid, ticket, identifier] at target
  · by_cases identifier : 0 < order.positionIdentifier.length
    · simp [Submission.closeTargetValid, ticket, identifier] at target
    · right
      have ticket : order.positionTicket = [] := List.length_eq_zero_iff.1 (by omega)
      have identifier : order.positionIdentifier = [] := List.length_eq_zero_iff.1 (by omega)
      exact ⟨by simp [Submission.hasCloseTarget, ticket], ticket, identifier⟩

/-- The seventh field on, as an order wrote it. -/
theorem parseOrder_fields {order : Submission} (valid : order.valid = true)
    (a b c d e f : Text) (rest : List Text) :
    parseOrder (a :: b :: c :: d :: e :: f :: (order.fields ++ rest)) order.hasCloseTarget =
      some order := by
  have target := order.closeTarget_eq valid
  simp only [Submission.valid, Bool.and_eq_true] at valid
  obtain ⟨⟨id, lots⟩, -⟩ := valid
  rcases target with ⟨present, ticket, identifier⟩ | ⟨absent, ticket, identifier⟩
  · simp [parseOrder, Submission.fields, present, id, lots, ticket, identifier]
  · have same : { order with positionTicket := [], positionIdentifier := [] } = order := by
      cases order
      simp_all
    simpa [parseOrder, Submission.fields, absent, id, lots] using same

theorem parseRejectedOrUnknown_fields {order : Submission} (valid : order.valid = true)
    {reason retcode : Text} (safe : safeToken reason = true)
    (canonical : canonicalUint64 retcode false = true) (a b c d e f last : Text) :
    parseRejectedOrUnknown
        (a :: b :: c :: d :: e :: f :: (order.fields ++ [reason, retcode, last])) =
      some (order, reason, retcode) := by
  have parsed := parseOrder_fields valid a b c d e f [reason, retcode, last]
  cases target : order.hasCloseTarget <;> rw [target] at parsed <;>
    simpa [parseRejectedOrUnknown, Submission.fields, target, safe, canonical] using parsed

theorem parseBody_fields {body : EventBody} (valid : body.valid = true) (a b c d e last : Text) :
    parseBody (a :: b :: c :: d :: e :: body.eventType.text :: (body.fields ++ [last])) =
      some body := by
  cases body with
  | streamStarted eaBuildId enabled =>
    have safe : safeToken eaBuildId = true := valid
    have modes : executionMode false ≠ executionMode true := by decide
    cases enabled <;>
      simp [parseBody, EventBody.eventType, EventBody.fields, parseStreamStarted, safe, modes,
        modes.symm]
  | submissionReserved order =>
    have checked : order.valid = true := valid
    have parsed := parseOrder_fields checked a b c d e EventType.submissionReserved.text [last]
    cases target : order.hasCloseTarget <;> rw [target] at parsed <;>
      simp only [Submission.fields, target] at parsed ⊢ <;>
      simpa [parseBody, EventBody.eventType, EventBody.fields, Submission.fields, target,
        parseReserved] using parsed
  | orderRejected order reason retcode =>
    simp only [EventBody.valid, Bool.and_eq_true] at valid
    have parsed := parseRejectedOrUnknown_fields valid.1.1 valid.1.2 valid.2 a b c d e
      EventType.orderRejected.text last
    simp [parseBody, EventBody.eventType, EventBody.fields, parsed]
  | orderUnknown order reason retcode =>
    simp only [EventBody.valid, Bool.and_eq_true] at valid
    have parsed := parseRejectedOrUnknown_fields valid.1.1 valid.1.2 valid.2 a b c d e
      EventType.orderUnknown.text last
    simp [parseBody, EventBody.eventType, EventBody.fields, parsed]
  | orderFilled order fill =>
    simp only [EventBody.valid, Bool.and_eq_true] at valid
    have parsed := parseOrder_fields valid.1 a b c d e
      EventType.orderFilled.text (fill.fields ++ [last])
    cases target : order.hasCloseTarget <;> rw [target] at parsed <;>
      simpa [parseBody, EventBody.eventType, EventBody.fields, Submission.fields, target,
        Fill.fields, parseFilled, valid.2] using parsed

/-- A written line is read as its own event, and under its own sequence only. -/
theorem parseEvent_line {event : JournalEvent} (valid : event.valid = true) (streamId : Text)
    (expected : Text) : parseEvent streamId event.line expected =
      if expected = event.eventSeq ∧ streamId = event.streamId then some event else none := by
  have parts : event.line.splitOn '|' =
      event.fields ++ [checksum (joinFields event.fields)] :=
    splitOn_sealLine event.fields_ne_nil (event.clean_fields valid)
  have verified : verifiedParts event.line (event.fields.length + 1) =
      some (event.fields ++ [checksum (joinFields event.fields)]) :=
    verifiedParts_sealLine event.fields_ne_nil (event.clean_fields valid)
  simp only [JournalEvent.valid, Bool.and_eq_true] at valid
  obtain ⟨⟨⟨⟨seq, time⟩, stream⟩, boot⟩, body⟩ := valid
  generalize checksum (joinFields event.fields) = sum at parts verified
  have parsed := parseBody_fields body ['E'] event.eventSeq event.eventTimeMs event.streamId
    event.bootId sum
  have count : ¬event.fields.length + 1 < 7 := by
    simp only [JournalEvent.fields, List.length_append, List.length_cons]
    omega
  have own : parseEvent streamId event.line expected =
      if event.eventSeq ≠ expected ∨ event.streamId ≠ streamId then none else some event := by
    simp only [parseEvent, parts, List.length_append, List.length_singleton, count, if_false,
      verified]
    simp only [JournalEvent.fields, List.cons_append, List.nil_append]
    simp [parsed, seq, time, boot]
  rw [own]
  by_cases expects : expected = event.eventSeq <;> by_cases streams : streamId = event.streamId <;>
    simp [expects, streams, eq_comm]

theorem parseOrder_valid {parts : List Text} {closeEvent : Bool} {order : Submission}
    (parsed : parseOrder parts closeEvent = some order) : order.valid = true := by
  unfold parseOrder at parsed
  dsimp only at parsed
  split at parsed
  · cases parsed
  · split at parsed
    · rename_i checks
      obtain ⟨id, lots, target⟩ := checks
      cases parsed
      simp only [Submission.valid, id, lots, Bool.true_and]
      cases closeEvent with
      | false => rfl
      | true =>
        obtain ⟨ticket, identifier⟩ := target rfl
        have some := List.length_pos_iff.2 (ne_nil_of_canonicalUint64 ticket)
        have some' := List.length_pos_iff.2 (ne_nil_of_canonicalUint64 identifier)
        simp only [Submission.closeTargetValid, if_true, some, some', ticket, identifier]
        rfl
    · cases parsed

theorem parseRejectedOrUnknown_valid {parts : List Text} {order : Submission}
    {reason retcode : Text}
    (parsed : parseRejectedOrUnknown parts = some (order, reason, retcode)) :
    (order.valid && safeToken reason && canonicalUint64 retcode false) = true := by
  simp only [parseRejectedOrUnknown, Option.ite_none_left_eq_some, Option.map_eq_some_iff] at parsed
  obtain ⟨-, checks, order', parsed, same⟩ := parsed
  cases same
  simp only [not_or, not_not] at checks
  rw [parseOrder_valid parsed, checks.1, checks.2]
  rfl

theorem parseBody_valid {parts : List Text} {body : EventBody}
    (parsed : parseBody parts = some body) : body.valid = true := by
  unfold parseBody at parsed
  split at parsed
  · cases parsed
  · simp only [parseStreamStarted, Option.ite_none_left_eq_some, Option.some.injEq] at parsed
    obtain ⟨checks, rfl⟩ := parsed
    simp only [not_or, not_not] at checks
    exact checks.2.1
  · simp only [parseReserved, Option.ite_none_left_eq_some, Option.map_eq_some_iff] at parsed
    obtain ⟨-, order, parsed, rfl⟩ := parsed
    exact parseOrder_valid parsed
  · simp only [Option.map_eq_some_iff] at parsed
    obtain ⟨⟨order, reason, retcode⟩, parsed, rfl⟩ := parsed
    exact parseRejectedOrUnknown_valid parsed
  · simp only [Option.map_eq_some_iff] at parsed
    obtain ⟨⟨order, reason, retcode⟩, parsed, rfl⟩ := parsed
    exact parseRejectedOrUnknown_valid parsed
  · simp only [parseFilled, Option.ite_none_left_eq_some, Option.map_eq_some_iff] at parsed
    obtain ⟨-, fill, order, parsed, rfl⟩ := parsed
    simp only [not_not] at fill
    simp only [EventBody.valid, parseOrder_valid parsed, fill, Bool.and_self]

/-- What is read from the file could have been written to it. -/
theorem parseEvent_spec {streamId line expected : Text} {event : JournalEvent}
    (safe : safeToken streamId = true) (parsed : parseEvent streamId line expected = some event) :
    event.valid = true ∧ event.eventSeq = expected ∧ event.streamId = streamId := by
  unfold parseEvent at parsed
  dsimp only at parsed
  split at parsed
  · cases parsed
  · split at parsed
    · cases parsed
    · simp only [Option.ite_none_left_eq_some, Option.map_eq_some_iff] at parsed
      obtain ⟨checks, body, parsed, rfl⟩ := parsed
      simp only [not_or, not_not] at checks
      obtain ⟨-, sequence, seq, time, stream, boot⟩ := checks
      refine ⟨?_, sequence, stream⟩
      simp only [JournalEvent.valid, seq, time, boot, stream, safe, parseBody_valid parsed,
        Bool.and_self]

end ArbNautilus.Journal
