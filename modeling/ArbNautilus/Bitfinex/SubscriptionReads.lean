import ArbNautilus.Bitfinex.Subscriptions

/-! What each message of a conforming venue does to the client that reads it. -/

namespace ArbNautilus.Bitfinex.DataClient

open Base Book

section Members

@[simp] theorem isText_text (a b : String) : isText (text a) b = decide (a = b) := by
  simp [isText, text, String.ext_iff]

@[simp] theorem get_member (key value : String) (rest : Members) (other : String) :
    get (member key value :: rest) other = if key = other then text value else get rest other := by
  unfold get member
  rw [Json.member?]
  by_cases same : key = other
  · simp [same]
  · have differs : key.toList ≠ other.toList := fun eq => same (String.ext eq)
    simp [same, differs]

@[simp] theorem get_chanId (channelId : ℤ) (rest : Members) (other : String) :
    get (chanId channelId :: rest) other = if "chanId" = other then .int channelId
      else get rest other := by
  unfold get chanId
  rw [Json.member?]
  by_cases same : "chanId" = other
  · simp [← same]
  · have differs : "chanId".toList ≠ other.toList := fun eq => same (String.ext eq)
    rw [if_neg (by simpa using differs), if_neg same]

/-- The answer to a subscription, as the client looks it up. -/
theorem get_subscribed (cfg : Config) (k : Kind) (channelId : ℤ) : ∃ frame : Members,
    (Message.subscribed k channelId).frame cfg = .control frame ∧
    get frame "event" = text "subscribed" ∧
      Client.subscribedKind frame = .ok k ∧
      get frame "chanId" = .int channelId ∧
      (subscription cfg k).forM (checkMember frame) = .ok () := by
  refine ⟨_, rfl, by simp, ?_, ?_, ?_⟩
  · cases k <;> simp [subscription, Client.subscribedKind]
  · cases k <;> simp [subscription]
  · cases k <;> simp [subscription, checkMember, raiseIf, bind, Except.bind, pure, Except.pure]

end Members

section Reads

variable {cfg : Config} {c : Client} {k : Kind} {channelId : ℤ} {nowNs : ℤ}

theorem read_conf : c.readFrame cfg (Message.conf.frame cfg) nowNs = (c, []) := by
  simp [Client.readFrame, Client.consumeFrame, Message.frame, Client.consumeControl, pure,
    Except.pure, Except.map]

theorem read_info : c.readFrame cfg (Message.info.frame cfg) nowNs = (c, []) := by
  have control : c.consumeControl cfg [member "event" "info", (.text "version".toList, .int 2),
      (.text "platform".toList, .obj [(.text "status".toList, .int 1)])] = .ok c := by
    unfold Client.consumeControl
    rw [if_pos
      ⟨by simp, by simp [get, member, Json.member?, Client.isTwo], by simp [member, Json.member?]⟩]
    simp [get, member, Json.member?, integer, raiseIf, bind, Except.bind, pure, Except.pure]
  unfold Client.readFrame
  rw [Message.frame, Client.consumeFrame, control]
  rfl

/-- No lane holds the channel, as its own or as one that it gives up. -/
def Client.Unused (c : Client) (channelId : ℤ) : Prop :=
  ∀ k, (c.lanes k).channelId ≠ some channelId ∧
    (c.lanes k).pendingUnsubscribeChannelId ≠ some channelId

theorem read_subscribed (requested : (c.lanes k).subscriptionRequested = true)
    (without : (c.lanes k).channelId = none) (positive : 0 < channelId)
    (unused : c.Unused channelId)
    (counted : channelId ∈ c.preAckHeartbeatChannelIds ∨
      c.preAckHeartbeatChannelIds.card + 1 ≤ c.pendingSubscriptionAckCount) :
    c.readFrame cfg ((Message.subscribed k channelId).frame cfg) nowNs =
      ({ c with preAckHeartbeatChannelIds :=
        c.preAckHeartbeatChannelIds.erase channelId }.bindChannel k channelId,
        []) := by
  have free : some channelId ∉
    [(c.lanes .book).channelId, (c.lanes .book).pendingUnsubscribeChannelId,
      (c.lanes .funding).channelId, (c.lanes .funding).pendingUnsubscribeChannelId] := by
    obtain ⟨book, bookPending⟩ := unused .book
    obtain ⟨funding, fundingPending⟩ := unused .funding
    simp [book.symm, bookPending.symm, funding.symm, fundingPending.symm]
  have room : ¬(channelId ∉ c.preAckHeartbeatChannelIds ∧
      c.pendingSubscriptionAckCount < c.preAckHeartbeatChannelIds.card + 1) := by
    rintro ⟨fresh, full⟩
    obtain listed | room := counted
    · exact fresh listed
    · omega
  obtain ⟨frame, same, event, channel, number, members⟩ := get_subscribed cfg k channelId
  have taken : c.consumeSubscribed cfg frame = .ok
      ({ c with preAckHeartbeatChannelIds :=
        c.preAckHeartbeatChannelIds.erase channelId }.bindChannel k channelId) := by
    simp only [Client.consumeSubscribed, bind_eq_ok, raiseIf_eq_ok, pure_eq_ok, exists_const]
    refine ⟨k, channel, by simp [requested], by simp [without], ⟨⟩, members, channelId,
      ?_, by omega, free, room, rfl⟩
    rw [number]
    rfl
  simp [Client.readFrame, Client.consumeFrame, same, Client.consumeControl, event, taken,
    Except.map]

theorem read_unsubscribed (pending : (c.lanes k).pendingUnsubscribeChannelId = some channelId)
    (apart : k = .funding → (c.lanes .book).pendingUnsubscribeChannelId ≠ some channelId) :
    c.readFrame cfg ((Message.unsubscribed channelId).frame cfg) nowNs = (c.endPending k, []) := by
  have taken :
    c.consumeUnsubscribed [member "event" "unsubscribed", member "status" "OK", chanId channelId] =
      .ok (c.endPending k) := by
    unfold Client.consumeUnsubscribed
    simp only [bind_eq_ok, raiseIf_eq_ok]
    refine ⟨⟨⟩, by simp, channelId, by simp [integer], ?_⟩
    cases k with
    | book => rw [if_pos pending.symm]; rfl
    | funding => rw [if_neg (Ne.symm (apart rfl)), if_pos pending.symm]; rfl
  simp [Client.readFrame, Client.consumeFrame, Message.frame, Client.consumeControl, taken,
    Except.map]

end Reads

section Data

variable {cfg : Config} {c : Client} {k : Kind} {channelId nowNs : ℤ} {payload : Value}
  {rest : List Value}
  {book after : P0Book} {items : List Value}

theorem quoteTick_any (asked : ∃ item, quoteTick cfg book nowNs = .ok item) (laterNs : ℤ) :
    ∃ item, quoteTick cfg book laterNs = .ok item := by
  obtain ⟨item, asked⟩ := asked
  simp only [quoteTick, bind_eq_ok, raiseIf_eq_ok, pure_eq_ok, Prod.exists] at asked ⊢
  obtain ⟨bid, ask, quoted, u, exact', -⟩ := asked
  exact ⟨_, bid, ask, quoted, u, exact', rfl⟩

theorem orderBookSnapshot_any (asked : ∃ item, orderBookSnapshot cfg book nowNs = .ok item)
    (laterNs : ℤ) :
    ∃ item, orderBookSnapshot cfg book laterNs = .ok item := by
  obtain ⟨item, asked⟩ := asked
  simp only [orderBookSnapshot, bind_eq_ok, raiseIf_eq_ok, pure_eq_ok, Prod.exists] at asked ⊢
  obtain ⟨bids, asks, levels, u, exact', -⟩ := asked
  exact ⟨_, bids, asks, levels, u, exact', rfl⟩

theorem onlyIf_any (flag : Bool) {item : Except BookError Published}
    (asked : ∃ value, item = .ok value) :
    ∃ items, onlyIf flag item = .ok items := by
  obtain ⟨value, rfl⟩ := asked
  cases flag
  · exact ⟨_, rfl⟩
  · exact ⟨_, rfl⟩

/-- Every book that can be published in full can be published in part, at any time. -/
theorem publishBook_any {published : List Published}
    (asked : publishBook cfg true true book nowNs = .ok published)
    (quotes deltas : Bool) (laterNs : ℤ) : (∃ item, quoteTick cfg book laterNs = .ok item) ∧
      ∃ items, publishBook cfg quotes deltas book laterNs = .ok items := by
  simp only [publishBook, onlyIf, if_true, bind_eq_ok, pure_eq_ok] at asked
  obtain ⟨first, ⟨quote, ticks, -⟩, second, ⟨levels, snaps, -⟩, -⟩ := asked
  have quoted := quoteTick_any ⟨quote, ticks⟩ laterNs
  obtain ⟨one, first⟩ := onlyIf_any quotes quoted
  obtain ⟨two, second⟩ := onlyIf_any deltas (orderBookSnapshot_any ⟨levels, snaps⟩ laterNs)
  refine ⟨quoted, one ++ two, ?_⟩
  simp only [publishBook, bind_eq_ok, pure_eq_ok]
  exact ⟨one, first, two, second, rfl⟩

/-- A book that is open can be quoted. -/
def Quotable (cfg : Config) (book : P0Book) : Prop :=
  book.actionable = true → ∀ nowNs, ∃ item, quoteTick cfg book nowNs = .ok item

theorem quotable_empty : Quotable cfg .empty := fun never => Bool.noConfusion never

theorem applyDelta_waits {row : List Value} (h : book.applyDelta row = .ok after) :
    after.actionable = false := by
  simp only [P0Book.applyDelta, bind_eq_ok, raiseIf_eq_ok, pure_eq_ok] at h
  obtain ⟨-, -, ⟨level, count⟩, -, rfl⟩ := h
  dsimp only
  split <;> split <;> rfl

/-- The items of a frame that a book takes: no heartbeat, and of a length that the client reads. -/
structure Taken (cfg : Config) (book : P0Book) (items : List Value) (after : P0Book) : Prop where
  any : ∀ quotes deltas nowNs, ∃ published, consumeBookFrame cfg quotes deltas book items nowNs =
    .ok (after, published)
  quotable : Quotable cfg after
  shaped : ∃ number payload rest, items = number :: payload :: rest ∧ rest.length ≤ 1 ∧
    ¬(isText payload "hb" ∧ rest = [])

theorem taken_of_consumed {published : List Published}
    (h : consumeBookFrame cfg true true book items nowNs = .ok (after, published)) :
    Taken cfg book items after := by
  unfold consumeBookFrame at h
  split at h
  · rename_i number payload checksum
    split at h
    · rename_i cs
      simp only [bind_eq_ok, raiseIf_eq_ok, pure_eq_ok, Prod.mk.injEq, Prod.exists] at h
      obtain ⟨value, reads, verified, same, verify, u, matched, items, publishes, rfl, -⟩ := h
      refine ⟨?_, ?_, number, payload, [checksum], rfl, by simp, by simp⟩
      · intro quotes deltas laterNs
        obtain ⟨-, others, publishes'⟩ := publishBook_any publishes quotes deltas laterNs
        refine ⟨others, ?_⟩
        simp only [consumeBookFrame, if_pos cs, bind_eq_ok, raiseIf_eq_ok, pure_eq_ok,
          Prod.mk.injEq, Prod.exists]
        exact ⟨value, reads, verified, same, verify, u, matched, others, publishes', rfl, rfl⟩
      · exact fun _ laterNs => (publishBook_any publishes true true laterNs).1
    · cases h
  · rename_i number first rest
    simp only [bind_eq_ok, pure_eq_ok, Prod.mk.injEq] at h
    obtain ⟨applied, snapshot, items, publishes, rfl, -⟩ := h
    refine ⟨?_, ?_, number, _, [], rfl, by simp, by simp [isText]⟩
    · intro quotes deltas laterNs
      obtain ⟨-, others, publishes'⟩ := publishBook_any publishes quotes deltas laterNs
      refine ⟨others, ?_⟩
      simp only [consumeBookFrame, bind_eq_ok, pure_eq_ok, Prod.mk.injEq]
      exact ⟨applied, snapshot, others, publishes', rfl, rfl⟩
    · exact fun _ laterNs => (publishBook_any publishes true true laterNs).1
  · rename_i number first rest single
    simp only [bind_eq_ok, pure_eq_ok, Prod.mk.injEq] at h
    obtain ⟨applied, delta, rfl, -⟩ := h
    refine ⟨?_, ?_, number, _, [], rfl, by simp, by simp [isText]⟩
    · intro quotes deltas laterNs
      refine ⟨[], ?_⟩
      cases first with
      | arr row => exact (single row rfl).elim
      | _ => simp only [consumeBookFrame, bind_eq_ok, pure_eq_ok]; exact ⟨applied, delta, rfl⟩
    · intro ready
      rw [applyDelta_waits delta] at ready
      cases ready
  · cases h

/-- The same of a funding frame. -/
structure FundingTaken (items : List Value) : Prop where
  any : ∀ funding nowNs, ∃ published, consumeFundingFrame funding items nowNs = .ok published
  shaped : ∃ number payload, items = [number, payload] ∧ isText payload "hb" = false

theorem fundingTaken_of_consumed {published : List Published}
    (h : consumeFundingFrame true items nowNs = .ok published) : FundingTaken items := by
  unfold consumeFundingFrame at h
  split at h
  · rename_i number payload
    split at h
    · rename_i fields
      split at h
      · rename_i long
        simp only [bind_eq_ok, raiseIf_eq_ok] at h
        obtain ⟨timestampMs, reads, u, timely, rate, amount, rest⟩ := h
        split at rest
        · cases rest
        · rename_i size sized
          simp only [bind_eq_ok, raiseIf_eq_ok] at rest
          obtain ⟨v, bounded, -⟩ := rest
          refine ⟨?_, number, _, rfl, by simp [isText]⟩
          intro funding laterNs
          refine ⟨if funding then [.funding rate timestampMs laterNs] else [], ?_⟩
          simp only [consumeFundingFrame, if_pos long, bind_eq_ok, raiseIf_eq_ok]
          refine ⟨timestampMs, reads, u, timely, rate, amount, ?_⟩
          rw [sized]
          simp only [bind_eq_ok, raiseIf_eq_ok, pure_eq_ok]
          exact ⟨v, bounded, trivial⟩
      · cases h
    · cases h
  · cases h

/-- A lane holds the channel, as its own or as one that it gives up. -/
def Client.Holds (c : Client) (channelId : ℤ) : Prop :=
  ∃ k, (c.lanes k).channelId = some channelId ∨
    (c.lanes k).pendingUnsubscribeChannelId = some channelId

theorem consumeFrame_channel (short : rest.length ≤ 1) :
    c.consumeFrame cfg (.channel (.int channelId :: payload :: rest)) nowNs =
      if some channelId = (c.lanes .book).pendingUnsubscribeChannelId ∨
          some channelId = (c.lanes .funding).pendingUnsubscribeChannelId then pure (c, [])
      else if isText payload "hb" ∧ rest = [] then c.consumeHeartbeat cfg channelId nowNs
      else if some channelId = (c.lanes .book).channelId then do
        let (book, published) ← consumeBookFrame cfg c.publishQuotes c.publishDeltas c.book
          (.int channelId :: payload :: rest) nowNs
        pure ({ c with book := book }, published)
      else if some channelId = (c.lanes .funding).channelId then do
        let published ← consumeFundingFrame c.publishFunding (.int channelId :: payload :: rest)
          nowNs
        pure (c, published)
      else throw (c.unexpectedChannel channelId) := by
  unfold Client.consumeFrame
  dsimp only
  rw [if_neg (by omega)]
  rfl

theorem readFrame_of_ok {frame : Frame} {result : Client × List Published}
    (h : c.consumeFrame cfg frame nowNs = .ok result) : c.readFrame cfg frame nowNs = result := by
  unfold Client.readFrame
  rw [h]

theorem read_pending (pending : (c.lanes k).pendingUnsubscribeChannelId = some channelId)
    (short : rest.length ≤ 1) :
    c.readFrame cfg (.channel (.int channelId :: payload :: rest)) nowNs = (c, []) := by
  apply readFrame_of_ok
  rw [consumeFrame_channel short, if_pos]
  · rfl
  · cases k with
    | book => exact .inl pending.symm
    | funding => exact .inr pending.symm

/-- No lane gives up the channel. -/
def Client.Kept (c : Client) (channelId : ℤ) : Prop :=
  ∀ k, (c.lanes k).pendingUnsubscribeChannelId ≠ some channelId

theorem Client.Kept.not_pending (h : c.Kept channelId) :
    ¬(some channelId = (c.lanes .book).pendingUnsubscribeChannelId ∨
      some channelId = (c.lanes .funding).pendingUnsubscribeChannelId) := by
  rintro (book | funding)
  · exact h .book book.symm
  · exact h .funding funding.symm

theorem read_heartbeat_held (held : c.Holds channelId) (quotable : Quotable cfg c.book) :
    (c.readFrame cfg ((Message.heartbeat channelId).frame cfg) nowNs).1 = c := by
  by_cases kept : c.Kept channelId
  · have bound : ∃ published, c.consumeHeartbeat cfg channelId nowNs = .ok (c, published) := by
      unfold Client.consumeHeartbeat
      by_cases book : some channelId = (c.lanes .book).channelId
      · rw [if_pos book]
        by_cases open' : c.book.actionable = true
        · obtain ⟨items, quoted⟩ :=
            onlyIf_any (c.publishQuotes && c.book.actionable) (quotable open' nowNs)
          refine ⟨items, ?_⟩
          simp only [bind_eq_ok]
          exact ⟨items, quoted, rfl⟩
        · rw [Bool.not_eq_true] at open'
          rw [open', Bool.and_false]
          exact ⟨[], rfl⟩
      · have funding : some channelId = (c.lanes .funding).channelId := by
          obtain ⟨_ | _, own | pending⟩ := held
          · exact absurd own.symm book
          · exact absurd pending (kept _)
          · exact own.symm
          · exact absurd pending (kept _)
        rw [if_neg book, if_pos funding]
        exact ⟨[], rfl⟩
    obtain ⟨published, bound⟩ := bound
    have read : c.consumeFrame cfg ((Message.heartbeat channelId).frame cfg) nowNs =
        .ok (c, published) := by
      rw [Message.frame, consumeFrame_channel (by simp), if_neg kept.not_pending, if_pos (by simp),
        bound]
    rw [readFrame_of_ok read]
  · unfold Client.Kept at kept
    push Not at kept
    obtain ⟨k, pending⟩ := kept
    rw [Message.frame, read_pending pending (by simp)]

/-- A heartbeat ahead of its channel's answer is counted. -/
theorem read_heartbeat_early (unused : c.Unused channelId)
    (room : (insert channelId c.preAckHeartbeatChannelIds).card ≤ c.pendingSubscriptionAckCount) :
    c.readFrame cfg ((Message.heartbeat channelId).frame cfg) nowNs =
      ({ c with preAckHeartbeatChannelIds := insert channelId c.preAckHeartbeatChannelIds },
        []) := by
  have kept : c.Kept channelId := fun k => (unused k).2
  apply readFrame_of_ok
  rw [Message.frame, consumeFrame_channel (by simp), if_neg kept.not_pending, if_pos (by simp)]
  unfold Client.consumeHeartbeat
  rw [if_neg (unused .book).1.symm, if_neg (unused .funding).1.symm]
  by_cases counted : channelId ∈ c.preAckHeartbeatChannelIds
  · rw [Finset.insert_eq_of_mem counted] at room ⊢
    have some' := Finset.card_pos.2 ⟨channelId, counted⟩
    rw [if_pos ⟨by omega, counted⟩]
    rfl
  · rw [Finset.card_insert_of_notMem counted] at room
    rw [if_neg (fun both => counted both.2), if_pos (by omega)]
    rfl

theorem read_book (kept : c.Kept channelId) (own : (c.lanes .book).channelId = some channelId)
    (taken : Taken cfg c.book (.int channelId :: payload :: rest) after) :
    (c.readFrame cfg ((Message.data channelId payload rest).frame cfg) nowNs).1 =
    { c with book := after } := by
  obtain ⟨number, payload', rest', same, short, noHeartbeat⟩ := taken.shaped
  cases same
  obtain ⟨published, consumed⟩ := taken.any c.publishQuotes c.publishDeltas nowNs
  have read : c.consumeFrame cfg ((Message.data channelId payload rest).frame cfg) nowNs =
      .ok ({ c with book := after }, published) := by
    rw [Message.frame, consumeFrame_channel short, if_neg kept.not_pending, if_neg noHeartbeat,
      if_pos own.symm,
      bind_eq_ok]
    exact ⟨_, consumed, rfl⟩
  rw [readFrame_of_ok read]

theorem read_funding (kept : c.Kept channelId) (other : (c.lanes .book).channelId ≠ some channelId)
    (own : (c.lanes .funding).channelId = some channelId)
    (taken : FundingTaken (.int channelId :: payload :: rest)) :
    (c.readFrame cfg ((Message.data channelId payload rest).frame cfg) nowNs).1 = c := by
  obtain ⟨number, payload', same, noHeartbeat⟩ := taken.shaped
  cases same
  obtain ⟨published, consumed⟩ := taken.any c.publishFunding nowNs
  have read : c.consumeFrame cfg ((Message.data channelId payload []).frame cfg) nowNs =
      .ok (c, published) := by
    rw [Message.frame, consumeFrame_channel (by simp), if_neg kept.not_pending,
      if_neg (by simp [noHeartbeat]),
      if_neg other.symm, if_pos own.symm, bind_eq_ok]
    exact ⟨published, consumed, rfl⟩
  rw [readFrame_of_ok read]

end Data

section Published

variable {cfg : Config} {c : Client} {nowNs : ℤ}

theorem onlyIf_published {flag : Bool} {item : Except BookError Published} {items : List Published}
    (h : onlyIf flag item = .ok items) (published : items ≠ []) : flag = true := by
  cases flag with
  | true => rfl
  | false =>
    cases h
    exact absurd rfl published

theorem publishBook_published {quotes deltas : Bool} {book : P0Book} {items : List Published}
    (h : publishBook cfg quotes deltas book nowNs = .ok items) (published : items ≠ []) :
    quotes ∨ deltas := by
  simp only [publishBook, bind_eq_ok, pure_eq_ok] at h
  obtain ⟨first, ticks, second, snaps, rfl⟩ := h
  by_cases none' : first = []
  · refine .inr (onlyIf_published snaps fun empty => published ?_)
    rw [none', empty]
    rfl
  · exact .inl (onlyIf_published ticks none')

theorem consumeBookFrame_published {quotes deltas : Bool} {book : P0Book} {items : List Value}
    {result : P0Book × List Published}
    (h : consumeBookFrame cfg quotes deltas book items nowNs = .ok result)
    (published : result.2 ≠ []) : quotes ∨ deltas := by
  unfold consumeBookFrame at h
  split at h
  · split at h
    · simp only [bind_eq_ok, pure_eq_ok, Prod.exists] at h
      obtain ⟨number, -, book, same, -, -, -, items, publishes, rfl⟩ := h
      exact publishBook_published publishes published
    · cases h
  · simp only [bind_eq_ok, pure_eq_ok] at h
    obtain ⟨book, -, items, publishes, rfl⟩ := h
    exact publishBook_published publishes published
  · simp only [bind_eq_ok, pure_eq_ok] at h
    obtain ⟨book, -, rfl⟩ := h
    exact absurd rfl published
  · cases h

theorem consumeFundingFrame_published {funding : Bool} {items : List Value}
    {result : List Published}
    (h : consumeFundingFrame funding items nowNs = .ok result) (published : result ≠ []) :
    funding = true := by
  cases funding with
  | true => rfl
  | false =>
    unfold consumeFundingFrame at h
    split at h
    · split at h
      · split at h
        · simp only [bind_eq_ok] at h
          obtain ⟨timestampMs, -, -, -, rate, -, h⟩ := h
          split at h
          · cases h
          · simp only [bind_eq_ok] at h
            obtain ⟨-, -, h⟩ := h
            cases h
            exact absurd rfl published
        · cases h
      · cases h
    · cases h

theorem consumeHeartbeat_published {channelId : ℤ} {result : Client × List Published}
    (h : c.consumeHeartbeat cfg channelId nowNs = .ok result) (published : result.2 ≠ []) :
    (c.lanes .book).channelId = some channelId ∧ c.publishQuotes = true := by
  unfold Client.consumeHeartbeat at h
  split at h
  · rename_i own
    simp only [bind_eq_ok, pure_eq_ok] at h
    obtain ⟨items, ticks, rfl⟩ := h
    have asked := onlyIf_published ticks published
    rw [Bool.and_eq_true] at asked
    exact ⟨own.symm, asked.1⟩
  · split at h
    · cases h
      exact absurd rfl published
    · split at h
      · cases h
        exact absurd rfl published
      · split at h
        · cases h
          exact absurd rfl published
        · cases h

/-- Nothing is published but for a kind that is wanted, from the channel that its lane has. -/
theorem readFrame_published {frame : Frame} (published : (c.readFrame cfg frame nowNs).2 ≠ []) :
    ∃ k channelId rest, frame = .channel (.int channelId :: rest) ∧
      (c.lanes k).channelId = some channelId ∧
      c.Kept channelId ∧ c.wanted k = true := by
  unfold Client.readFrame at published
  split at published
  · rename_i result consumed
    cases frame with
    | control members =>
      simp only [Client.consumeFrame] at consumed
      cases control : c.consumeControl cfg members with
      | error e => rw [control] at consumed; cases consumed
      | ok d => rw [control] at consumed; cases consumed; exact absurd rfl published
    | channel items =>
      simp only [Client.consumeFrame] at consumed
      split at consumed
      · rename_i number payload rest
        split at consumed
        · cases consumed
        · simp only [bind_eq_ok] at consumed
          obtain ⟨channelId, reads, consumed⟩ := consumed
          have same : number = .int channelId := by
            unfold integer at reads
            split at reads <;> simp_all
          subst same
          split at consumed
          · cases consumed
            exact absurd rfl published
          · rename_i kept
            have keeps : c.Kept channelId := by
              intro k pending
              cases k with
              | book => exact kept (.inl pending.symm)
              | funding => exact kept (.inr pending.symm)
            split at consumed
            · obtain ⟨own, asked⟩ := consumeHeartbeat_published consumed published
              exact ⟨.book, channelId, _, rfl, own, keeps, by simp [Client.wanted, asked]⟩
            · split at consumed
              · rename_i own
                simp only [bind_eq_ok, pure_eq_ok, Prod.exists] at consumed
                obtain ⟨book, items, consumed, rfl⟩ := consumed
                have asked := consumeBookFrame_published consumed published
                exact ⟨.book, channelId, _, rfl, own.symm,
                  keeps, by simpa [Client.wanted] using asked⟩
              · split at consumed
                · rename_i own
                  simp only [bind_eq_ok, pure_eq_ok] at consumed
                  obtain ⟨items, consumed, rfl⟩ := consumed
                  exact ⟨.funding, channelId, _, rfl, own.symm, keeps,
                    consumeFundingFrame_published consumed published⟩
                · cases consumed
      · cases consumed
  · exact absurd rfl published

end Published

end ArbNautilus.Bitfinex.DataClient
