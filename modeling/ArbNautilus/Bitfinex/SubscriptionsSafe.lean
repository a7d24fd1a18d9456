import ArbNautilus.Bitfinex.SubscriptionVenue

/-! The read loop keeps what the client and the venue agree on, and so does every run. -/

namespace ArbNautilus.Bitfinex.DataClient

open Base Book

section Counting

variable {cfg : Config} {s : System}

/-- The lane that a channel is owed to waits for it, and for no other. -/
theorem Sound.pending (h : Sound cfg s) {k : Kind} {given : Option ℤ}
    (owed : .subscribed k given ∈ s.owed) :
    s.client.pending k = true ∧ ∀ other, .subscribed k other ∈ s.owed → other = given := by
  have ok := h.lane k
  have listed : .subscribed k given ∈ s.owedTo k := mem_owedTo.2 ⟨owed, by simp [Owed.isOf]⟩
  obtain ⟨before, after, split⟩ := List.append_of_mem listed
  have asks := ok
  rw [split] at asks
  obtain ⟨requested, unbound, -, rfl, rfl⟩ := asks.of_asked
  refine ⟨by simp [Client.pending, requested, unbound], fun other also => ?_⟩
  have listed' : .subscribed k other ∈ s.owedTo k := mem_owedTo.2 ⟨also, by simp [Owed.isOf]⟩
  rw [split, List.mem_append, List.mem_singleton] at listed'
  have same := listed'.resolve_left (not_subscribed_of_answers k)
  cases same
  rfl

theorem card_pending (c : Client) :
    (({.book, .funding} : Finset Kind).filter (c.pending ·)).card =
    c.pendingSubscriptionAckCount := by
  unfold Client.pendingSubscriptionAckCount
  rw [Finset.filter_insert, Finset.filter_singleton]
  cases c.pending .book <;> cases c.pending .funding <;> rfl

/-- Heartbeats come early on one channel of each kind that waits, at most. -/
theorem Sound.card_le (h : Sound cfg s) {channels : Finset ℤ}
    (owed : ∀ channelId ∈ channels, ∃ k, .subscribed k (some channelId) ∈ s.owed) :
    channels.card ≤ s.client.pendingSubscriptionAckCount := by
  rw [← card_pending]
  have : Nonempty Kind := ⟨.book⟩
  choose! kind given using owed
  apply Finset.card_le_card_of_injOn kind
  · intro channelId listed
    have waits := (h.pending (given channelId listed)).1
    rw [Finset.mem_coe, Finset.mem_filter]
    exact ⟨by cases kind channelId <;> simp, waits⟩
  · intro channelId listed other listed' same
    have also := given other listed'
    rw [← show kind channelId = kind other from same] at also
    exact (Option.some.inj ((h.pending (given channelId listed)).2 _ also)).symm

end Counting

section Read

variable {cfg : Config} {s : System} {message : Message} {rest : List Message} {c : Client}

theorem plain_owed (plain : message.owed = none) (first : s.inbound = message :: rest) :
    ({ s with client := c, inbound := rest } : System).owed = s.owed := by
  simp [System.owed, first, plain]

/-- A message that is no answer to a request of a channel. -/
theorem Sound.read_plain (h : Sound cfg s) (first : s.inbound = message :: rest)
    (plain : message.owed = none)
    (lanes : c.lanes = s.client.lanes) (wanted : c.wanted = s.client.wanted)
    (configuring : c.configuring = s.client.configuring)
    (alive : c.lastFailure = s.client.lastFailure)
    (counted : ∀ channelId ∈ c.preAckHeartbeatChannelIds, ∃ k, .subscribed k (some channelId) ∈
      s.owed)
    (quotable : Quotable cfg c.book)
    (bound : ∀ channelId, (s.client.lanes .book).channelId = some channelId →
      Replays cfg channelId s.client.book (message :: rest) (s.books channelId) →
        Replays cfg channelId c.book rest (s.books channelId)) :
    Sound cfg { s with client := c, inbound := rest } := by
  have held : c.held = s.client.held := by simp only [Client.held, Client.Holds, lanes]
  have turns (live : Set ℤ) : turn live message = live := by
    cases message with
    | subscribed => cases plain
    | unsubscribed => cases plain
    | _ => rfl
  constructor
  case alive => exact alive.trans h.alive
  case lane =>
    intro k
    have ok := h.lane k
    unfold System.owedTo
    rw [plain_owed plain first, lanes, wanted, configuring]
    exact ok
  case nodup => exact configuring ▸ h.nodup
  case kinds => exact lanes ▸ h.kinds
  case given =>
    intro k channelId owed
    rw [plain_owed plain first] at owed
    rw [lanes]
    exact h.given k channelId owed
  case returned =>
    intro channelId owed
    rw [plain_owed plain first] at owed
    exact h.returned channelId owed
  case opened =>
    have opened := h.opened
    rw [first, List.foldl_cons, turns] at opened
    rw [held]
    exact opened
  case orderly =>
    have orderly := h.orderly
    rw [first] at orderly
    show Orderly s.kinds _ c.held rest
    rw [held, ← turns s.client.held]
    exact orderly.2
  case early =>
    intro k awake channelId listed
    rw [lanes] at awake
    exact h.early k awake channelId (first ▸ List.mem_cons_of_mem _ listed)
  case counted =>
    intro channelId listed
    rw [plain_owed plain first]
    exact counted channelId listed
  case quotable => exact quotable
  case bound =>
    intro channelId own
    rw [lanes] at own
    exact bound channelId own (first ▸ h.bound channelId own)
  case opens =>
    intro channelId listed
    have opens := h.opens channelId (first ▸ List.mem_cons_of_mem _ listed)
    rw [first] at opens
    cases message with
    | subscribed => cases plain
    | _ => exact opens
  case spent =>
    intro channelId sent
    rw [plain_owed plain first, lanes]
    exact h.spent channelId sent

/-- A heartbeat or data that the client takes for its book, or does not need. -/
theorem Sound.read_same (h : Sound cfg s) (first : s.inbound = message :: rest)
    (plain : message.owed = none)
    (elsewhere : ∀ channelId, (s.client.lanes .book).channelId = some channelId →
      message.Elsewhere channelId) :
    Sound cfg { s with inbound := rest } := by
  refine h.read_plain first plain rfl rfl rfl rfl h.counted h.quotable fun channelId own replays =>
    ?_
  have other := elsewhere channelId own
  cases message with
  | data number payload items =>
    rw [Replays, if_neg other] at replays
    exact replays
  | _ => exact replays

theorem Sound.read_heartbeat (h : Sound cfg s) {channelId : ℤ} (nowNs : ℤ)
    (first : s.inbound = .heartbeat channelId :: rest) : Sound cfg { s with
      client := (s.client.readFrame cfg ((Message.heartbeat channelId).frame cfg) nowNs).1,
      inbound := rest } := by
  by_cases held : s.client.Holds channelId
  · rw [read_heartbeat_held held h.quotable]
    exact h.read_same first rfl fun _ _ => trivial
  · have fits := h.orderly
    rw [first] at fits
    obtain ⟨k, later⟩ := fits.1.resolve_left held
    have owed : .subscribed k (some channelId) ∈ s.owed := by
      rw [System.owed, first]
      exact later
    have counted : ∀ number ∈ insert channelId s.client.preAckHeartbeatChannelIds,
        ∃ j, .subscribed j (some number) ∈ s.owed := by
      intro number listed
      obtain rfl | old := Finset.mem_insert.1 listed
      · exact ⟨k, owed⟩
      · exact h.counted number old
    have unused : s.client.Unused channelId :=
      fun j => ⟨fun own => held ⟨j, .inl own⟩, fun own => held ⟨j, .inr own⟩⟩
    rw [read_heartbeat_early unused (h.card_le counted)]
    exact h.read_plain first rfl rfl rfl rfl rfl counted h.quotable fun _ _ => id

theorem Sound.read_data (h : Sound cfg s) {channelId : ℤ} {payload : Value} {items : List Value}
    (nowNs : ℤ)
    (first : s.inbound = .data channelId payload items :: rest) : Sound cfg { s with
      client := (s.client.readFrame cfg ((Message.data channelId payload items).frame cfg) nowNs).1
      inbound := rest } := by
  have fits := h.orderly
  rw [first] at fits
  obtain ⟨held, -, short, funding⟩ := fits.1
  by_cases kept : s.client.Kept channelId
  · obtain ⟨k, own⟩ : ∃ k, (s.client.lanes k).channelId = some channelId := by
      obtain ⟨k, own | pending⟩ := held
      · exact ⟨k, own⟩
      · exact absurd pending (kept k)
    have kind := h.kinds k channelId (.inl own)
    cases k with
    | book =>
      have replays := h.bound channelId own
      rw [first, Replays, if_pos rfl] at replays
      obtain ⟨after, taken, replays⟩ := replays
      rw [read_book kept own taken]
      refine h.read_plain first rfl rfl rfl rfl rfl h.counted taken.quotable fun number also _ => ?_
      obtain rfl := Option.some.inj (own.symm.trans also)
      exact replays
    | funding =>
      have other : (s.client.lanes .book).channelId ≠ some channelId := by
        intro also
        rw [h.kinds .book channelId (.inl also)] at kind
        cases kind
      rw [read_funding kept other own (funding kind)]
      refine h.read_same first rfl fun number also => ?_
      rintro rfl
      exact other also
  · unfold Client.Kept at kept
    push Not at kept
    obtain ⟨k, pending⟩ := kept
    rw [Message.frame, read_pending pending short]
    refine h.read_same first rfl fun number own => ?_
    rintro rfl
    obtain rfl :=
      Option.some.inj
      ((h.kinds k channelId (.inr pending)).symm.trans (h.kinds .book channelId (.inl own)))
    have free := ((h.lane .book).alone (by simp [own])).2
    rw [pending] at free
    cases free

end Read

section Answers

variable {cfg : Config} {s : System} {rest : List Message} {k : Kind} {channelId : ℤ}

/-- What reading an answer of the lane `k` takes off what is owed. -/
theorem owedTo_tail {message : Message} {answer : Owed} {c : Client}
    (first : s.inbound = message :: rest)
    (same : message.owed = some answer) (mine : ∀ j, answer.isOf s.kinds j = decide (j = k))
    (j : Kind) :
    s.owedTo j = (if j = k then [answer] else []) ++
      ({ s with client := c, inbound := rest } : System).owedTo j := by
  have owed : s.owed = answer :: ({ s with client := c, inbound := rest } : System).owed := by
    simp [System.owed, first, same]
  unfold System.owedTo
  rw [owed, List.filter_cons, mine j]
  by_cases own : j = k <;> simp [own]

theorem mem_owed_tail {message : Message} {answer owed : Owed} {c : Client}
    (first : s.inbound = message :: rest)
    (same : message.owed = some answer) :
    owed ∈ s.owed ↔ owed = answer ∨
      owed ∈ ({ s with client := c, inbound := rest } : System).owed := by
  simp [System.owed, first, same]

/-- The lane that has its answer: bound to the channel, or giving it up at once. -/
theorem LaneOk.bound {lane : Lane} {queued : Prop} [Decidable queued] {wanted : Bool}
    {mine : List Owed}
    {given : Option ℤ} (h : LaneOk k lane queued wanted (.subscribed k given :: mine)) (c : Client)
    (own : c.lanes k = lane) (asleep : lane.woken = 0) :
    LaneOk k ((c.bindChannel k channelId).lanes k) queued wanted mine ∧
      (((c.bindChannel k channelId).lanes k).channelId = some channelId ∧
          ((c.bindChannel k channelId).lanes k).pendingUnsubscribeChannelId = none ∨
        ((c.bindChannel k channelId).lanes k).channelId = none ∧
          ((c.bindChannel k channelId).lanes k).pendingUnsubscribeChannelId = some channelId) := by
  subst own
  unfold Client.bindChannel
  dsimp only
  split
  · rename_i postponed
    rw [setLane_lanes]
    exact ⟨h.bindEnd postponed asleep, .inr ⟨rfl, rfl⟩⟩
  · rw [setLane_lanes]
    exact ⟨h.bind, .inl ⟨rfl, h.of_subscribed.2.2.1⟩⟩

theorem bindChannel_others (c : Client) {j : Kind} (other : j ≠ k) :
    (c.bindChannel k channelId).lanes j = c.lanes j := by
  unfold Client.bindChannel
  dsimp only
  split <;> cases k <;> simp [Client.setLane, Client.clearData, Function.update_of_ne other]

theorem bindChannel_keeps (c : Client) : (c.bindChannel k channelId).wanted = c.wanted ∧
    (c.bindChannel k channelId).configuring = c.configuring ∧
    (c.bindChannel k channelId).lastFailure = c.lastFailure ∧
    (c.bindChannel k channelId).preAckHeartbeatChannelIds = c.preAckHeartbeatChannelIds ∧
    (c.bindChannel k channelId).book = (c.clearData k).book := by
  unfold Client.bindChannel
  dsimp only
  refine ⟨?_, ?_, ?_, ?_, ?_⟩ <;> split <;> cases k <;> rfl

theorem Sound.read_subscribed (h : Sound cfg s) (nowNs : ℤ)
    (first : s.inbound = .subscribed k channelId :: rest) :
    Sound cfg { s with
      client := (s.client.readFrame cfg ((Message.subscribed k channelId).frame cfg) nowNs).1,
      inbound := rest } := by
  have owed : .subscribed k (some channelId) ∈ s.owed :=
    mem_owed_of_inbound (first ▸ List.mem_cons_self)
  obtain ⟨kind, positive, -⟩ := h.given k channelId owed
  have mine (j : Kind) : (Owed.subscribed k (some channelId)).isOf s.kinds j = decide (j = k) := by
    simp [Owed.isOf, eq_comm]
  have asleep : (s.client.lanes k).woken = 0 := by
    by_contra awake
    exact h.early k awake channelId (first ▸ List.mem_cons_self)
  have unheld := h.unheld owed
  have unused : s.client.Unused channelId :=
    fun j => ⟨fun own => unheld ⟨j, .inl own⟩, fun own => unheld ⟨j, .inr own⟩⟩
  have ok := h.lane k
  rw [owedTo_tail (c := s.client) first rfl mine k, if_pos rfl, List.singleton_append] at ok
  obtain ⟨requested, unbound, idle, -, none'⟩ := ok.of_subscribed
  have counted : channelId ∈ s.client.preAckHeartbeatChannelIds ∨
      s.client.preAckHeartbeatChannelIds.card + 1 ≤ s.client.pendingSubscriptionAckCount := by
    by_cases listed : channelId ∈ s.client.preAckHeartbeatChannelIds
    · exact .inl listed
    · right
      rw [← Finset.card_insert_of_notMem listed]
      apply h.card_le
      intro number member
      obtain rfl | old := Finset.mem_insert.1 member
      · exact ⟨k, owed⟩
      · exact h.counted number old
  rw [DataClient.read_subscribed requested unbound positive unused counted]
  generalize erased : ({ s.client with
    preAckHeartbeatChannelIds := s.client.preAckHeartbeatChannelIds.erase channelId } : Client) = d
  have lanes : d.lanes = s.client.lanes := by rw [← erased]
  obtain ⟨bound, ends⟩ := @LaneOk.bound k channelId _ _ _ _ _ _ ok d (by rw [lanes]) asleep
  obtain ⟨wanted, configuring, alive, preAck, book⟩ :=
    @bindChannel_keeps k channelId d
  have others {j : Kind} (other : j ≠ k) : (d.bindChannel k channelId).lanes j =
      s.client.lanes j := by
    rw [bindChannel_others d other, lanes]
  generalize d.bindChannel k channelId =
    c at bound ends wanted configuring alive preAck book others ⊢
  subst erased
  have later {owed : Owed}
      (listed : owed ∈ ({ s with client := c, inbound := rest } : System).owed) :
      owed ∈ s.owed := (mem_owed_tail first rfl).2 (.inr listed)
  have once (given : Option ℤ) :
      .subscribed k given ∉ ({ s with client := c, inbound := rest } : System).owed := by
    intro listed
    have member :
        .subscribed k given ∈ ({ s with client := c, inbound := rest } : System).owedTo k :=
      mem_owedTo.2 ⟨listed, by simp [Owed.isOf]⟩
    rw [show ({ s with client := c, inbound := rest } : System).owedTo k = [] from none'] at member
    cases member
  have own {number : ℤ} (held : (c.lanes k).channelId = some number ∨
      (c.lanes k).pendingUnsubscribeChannelId = some number) : number = channelId := by
    obtain ⟨here, there⟩ | ⟨here, there⟩ :=
      ends <;> rw [here, there] at held <;> simpa [eq_comm] using held
  have held : c.held = insert channelId s.client.held := by
    ext number
    constructor
    · rintro ⟨j, held⟩
      by_cases same : j = k
      · exact .inl (own (same ▸ held))
      · exact .inr ⟨j, others same ▸ held⟩
    · rintro (rfl | ⟨j, held⟩)
      · exact ⟨k, ends.imp And.left And.right⟩
      · have other : j ≠ k := by
          rintro rfl
          rw [unbound, idle] at held
          simp at held
        exact ⟨j, (others other).symm ▸ held⟩
  constructor
  case alive => exact alive.trans h.alive
  case lane =>
    intro j
    show LaneOk j (c.lanes j) (j ∈ c.configuring) (c.wanted j) _
    rw [wanted, configuring]
    by_cases same : j = k
    · subst same
      exact bound
    · have kept := h.lane j
      rw [owedTo_tail (c := c) first rfl mine j, if_neg same, List.nil_append] at kept
      rw [others same]
      exact kept
  case nodup => exact configuring ▸ h.nodup
  case kinds =>
    intro j number held
    by_cases same : j = k
    · subst same
      exact own held ▸ kind
    · exact h.kinds j number (others same ▸ held)
  case given =>
    intro j number listed
    have other : j ≠ k := fun same => once (some number) (same ▸ listed)
    rw [others other]
    exact h.given j number (later listed)
  case returned => exact fun number listed => h.returned number (later listed)
  case opened =>
    have opened := h.opened
    rw [first, List.foldl_cons] at opened
    rw [held]
    exact opened
  case orderly =>
    have orderly := h.orderly
    rw [first] at orderly
    show Orderly s.kinds _ c.held rest
    rw [held]
    exact orderly.2
  case early =>
    intro j awake number listed
    have other : j ≠ k := fun same => once (some number) (same ▸ mem_owed_of_inbound listed)
    rw [others other] at awake
    exact h.early j awake number (first ▸ List.mem_cons_of_mem _ listed)
  case counted =>
    intro number listed
    rw [preAck, Finset.mem_erase] at listed
    obtain ⟨j, given⟩ := h.counted number listed.2
    refine ⟨j, ((mem_owed_tail first rfl).1 given).resolve_left fun same => listed.1 ?_⟩
    cases same
    rfl
  case quotable =>
    rw [book]
    cases k with
    | book => exact quotable_empty
    | funding => exact h.quotable
  case bound =>
    intro number here
    rw [book]
    cases k with
    | book =>
      obtain rfl := own (.inl here)
      have opens := h.opens number (first ▸ List.mem_cons_self)
      rw [first, Opens, if_pos rfl] at opens
      exact opens
    | funding =>
      rw [others (by simp)] at here
      have replays := h.bound number here
      rw [first] at replays
      exact replays
  case opens =>
    intro number listed
    cases k with
    | book => exact absurd (mem_owed_of_inbound listed) (once (some number))
    | funding =>
      have opens := h.opens number (first ▸ List.mem_cons_of_mem _ listed)
      rw [first] at opens
      exact opens
  case spent =>
    intro number sent
    obtain ⟨some', unbound, unowed⟩ := h.spent number sent
    refine ⟨some', fun j here => ?_, fun j listed => unowed j (later listed)⟩
    by_cases same : j = k
    · subst same
      exact unowed j (own (.inl here) ▸ owed)
    · exact unbound j (others same ▸ here)

theorem Sound.read_unsubscribed (h : Sound cfg s) (nowNs : ℤ)
    (first : s.inbound = .unsubscribed channelId :: rest) :
    Sound cfg { s with
      client := (s.client.readFrame cfg ((Message.unsubscribed channelId).frame cfg) nowNs).1,
      inbound := rest } := by
  have owed : .unsubscribed channelId ∈ s.owed :=
    List.mem_append_left _ (List.mem_filterMap.2 ⟨_, first ▸ List.mem_cons_self, rfl⟩)
  obtain ⟨k, kind⟩ := Option.ne_none_iff_exists'.1 (h.known owed)
  have mine (j : Kind) : (Owed.unsubscribed channelId).isOf s.kinds j = decide (j = k) := by
    simp [Owed.isOf, kind, eq_comm]
  have ok := h.lane k
  rw [owedTo_tail (c := s.client.endPending k) first rfl mine k, if_pos rfl,
    List.singleton_append] at ok
  have pending := ok.of_unsubscribed.1
  have unbound : (s.client.lanes k).channelId = none := by
    by_contra bound
    have free := (ok.alone bound).2
    rw [pending] at free
    cases free
  have apart (other : k = .funding) : (s.client.lanes .book).pendingUnsubscribeChannelId ≠
      some channelId := by
    intro also
    have same := h.kinds .book channelId (.inr also)
    rw [kind, other] at same
    cases same
  rw [DataClient.read_unsubscribed pending apart]
  have others {j : Kind} (other : j ≠ k) : (s.client.endPending k).lanes j = s.client.lanes j := by
    simp [Client.endPending, Client.setLane, Function.update_of_ne other]
  have self : (s.client.endPending k).lanes k =
      { s.client.lanes k with pendingUnsubscribeChannelId := none } :=
    setLane_lanes _ _ _
  have channels (j : Kind) : ((s.client.endPending k).lanes j).channelId =
      (s.client.lanes j).channelId := by
    by_cases same : j = k
    · subst same
      rw [self]
    · rw [others same]
  have lessOf {j : Kind} {number : ℤ}
      (held : ((s.client.endPending k).lanes j).pendingUnsubscribeChannelId = some number) :
      (s.client.lanes j).pendingUnsubscribeChannelId = some number ∧ j ≠ k := by
    have other : j ≠ k := by
      rintro rfl
      rw [self] at held
      cases held
    exact ⟨others other ▸ held, other⟩
  have held : (s.client.endPending k).held = s.client.held \ {channelId} := by
    ext number
    constructor
    · rintro ⟨j, own⟩
      have old : ((s.client.lanes j).channelId = some number ∨
          (s.client.lanes j).pendingUnsubscribeChannelId = some number) ∧ j ≠ k := by
        obtain own | pending := own
        · rw [channels] at own
          refine ⟨.inl own, ?_⟩
          rintro rfl
          rw [unbound] at own
          cases own
        · exact ⟨.inr (lessOf pending).1, (lessOf pending).2⟩
      refine ⟨⟨j, old.1⟩, fun same => old.2 ?_⟩
      have also := h.kinds j number old.1
      rw [Set.mem_singleton_iff.1 same, kind] at also
      exact (Option.some.inj also).symm
    · rintro ⟨⟨j, own⟩, other⟩
      have apart : j ≠ k := by
        rintro rfl
        rw [unbound, pending] at own
        simp only [reduceCtorEq, Option.some.injEq, false_or] at own
        exact other own.symm
      exact ⟨j, (others apart).symm ▸ own⟩
  generalize client : s.client.endPending k = c at self others channels lessOf held ⊢
  have wanted : c.wanted = s.client.wanted := by
    rw [← client]
    rfl
  have configuring : c.configuring = s.client.configuring := by rw [← client]; rfl
  have later {owed : Owed}
      (listed : owed ∈ ({ s with client := c, inbound := rest } : System).owed) :
      owed ∈ s.owed := (mem_owed_tail first rfl).2 (.inr listed)
  constructor
  case alive => exact client ▸ h.alive
  case lane =>
    intro j
    show LaneOk j (c.lanes j) (j ∈ c.configuring) (c.wanted j) _
    rw [wanted, configuring]
    by_cases same : j = k
    · subst same
      rw [self]
      exact ok.end
    · have kept := h.lane j
      rw [owedTo_tail (c := c) first rfl mine j, if_neg same, List.nil_append] at kept
      rw [others same]
      exact kept
  case nodup => exact configuring ▸ h.nodup
  case kinds =>
    intro j number own
    apply h.kinds j number
    obtain own | pending := own
    · exact .inl (channels j ▸ own)
    · exact .inr (lessOf pending).1
  case given =>
    intro j number listed
    obtain ⟨kind, positive, apart⟩ := h.given j number (later listed)
    exact ⟨kind, positive, fun pending => apart (lessOf pending).1⟩
  case returned => exact fun number listed => h.returned number (later listed)
  case opened =>
    have opened := h.opened
    rw [first, List.foldl_cons] at opened
    rw [held]
    exact opened
  case orderly =>
    have orderly := h.orderly
    rw [first] at orderly
    show Orderly s.kinds _ c.held rest
    rw [held]
    exact orderly.2
  case early =>
    intro j awake number listed
    have old : (s.client.lanes j).woken ≠ 0 := by
      by_cases same : j = k
      · subst same
        rw [self] at awake
        exact awake
      · exact others same ▸ awake
    exact h.early j old number (first ▸ List.mem_cons_of_mem _ listed)
  case counted =>
    intro number listed
    rw [← client] at listed
    obtain ⟨j, given⟩ := h.counted number listed
    exact ⟨j, ((mem_owed_tail first rfl).1 given).resolve_left (by simp)⟩
  case quotable => exact client ▸ h.quotable
  case bound =>
    intro number here
    rw [channels] at here
    have replays := h.bound number here
    rw [first] at replays
    rw [← client]
    exact replays
  case opens =>
    intro number listed
    have opens := h.opens number (first ▸ List.mem_cons_of_mem _ listed)
    rw [first] at opens
    exact opens
  case spent =>
    intro number sent
    obtain ⟨some', unbound, unowed⟩ := h.spent number sent
    exact ⟨some', fun j here => unbound j (channels j ▸ here),
      fun j listed => unowed j (later listed)⟩

end Answers

section Runs

variable {cfg : Config} {s t : System}

theorem sound_start (cfg : Config) : Sound cfg {} where
  alive := rfl
  lane k := by
    refine ⟨⟨none, rfl⟩, ?_, ?_, ?_, ?_, ?_⟩
    · exact fun _ never => by cases never
    · exact fun never => absurd rfl never
    · exact fun never => absurd rfl never
    · exact fun never => by cases never
    · cases k <;> exact fun never => by cases never
  nodup := List.nodup_nil
  kinds k channelId own := by obtain never | never := own <;> cases never
  given k channelId never := by cases never
  returned channelId never := by cases never
  opened := by
    ext channelId
    constructor
    · exact fun never => by simp at never
    · rintro ⟨k, never | never⟩ <;> cases never
  orderly := trivial
  early k awake := absurd rfl awake
  counted channelId never := by simp at never
  quotable := quotable_empty
  bound channelId never := by cases never
  opens channelId never := by cases never
  spent channelId never := by cases never

theorem Sound.step {call : Option Command} (h : Sound cfg s) (step : Step cfg s call t) :
    Sound cfg t := by
  cases step with
  | command command =>
    obtain ⟨k, answers, acted⟩ := @command_acted cfg s h command
    exact acted.sound h
  | configured =>
    obtain ⟨k, answers, acted⟩ := configured_acted h
    exact acted.sound h
  | unsubscribeTask k =>
    obtain ⟨answers, acted⟩ := runTask_acted h k
    exact acted.sound h
  | resume k =>
    obtain ⟨answers, acted⟩ := resume_acted h k
    exact acted.sound h
  | read message rest nowNs first =>
    cases message with
    | info =>
      rw [read_info]
      exact h.read_same first rfl fun _ _ => trivial
    | conf =>
      rw [read_conf]
      exact h.read_same first rfl fun _ _ => trivial
    | subscribed k channelId => exact h.read_subscribed nowNs first
    | unsubscribed channelId => exact h.read_unsubscribed nowNs first
    | refused =>
      have fits := h.orderly
      rw [first] at fits
      exact fits.1.elim
    | heartbeat channelId => exact h.read_heartbeat nowNs first
    | data channelId payload items => exact h.read_data nowNs first
  | give k earlier later channelId _ waits positive fresh => exact h.give waits positive fresh
  | info settled => exact h.send_plain settled rfl rfl trivial (fun _ => trivial) (by simp)
  | answerConf later settled first =>
    refine h.send_plain settled ?_ rfl trivial (fun _ => trivial) (by simp)
    rw [first]
    rfl
  | answerSubscribe k channelId later settled first => exact h.answerSubscribe settled first
  | answerUnsubscribe channelId later settled first live =>
    refine h.send_plain settled ?_ (by simp [turn]) trivial (fun _ => trivial) (by simp)
    rw [first]
    rfl
  | refuse channelId later settled first closed => exact absurd (h.live_of_returned first) closed
  | heartbeat channelId settled given =>
    refine h.send_plain settled rfl rfl ?_ (fun _ => trivial) (by simp)
    obtain live | ⟨k, asked⟩ := given
    · exact .inl live
    · exact .inr ⟨k, List.mem_filterMap.2 ⟨_, asked, rfl⟩⟩
  | data channelId payload items book settled live conforms => exact h.data settled live conforms

theorem Reachable.sound {meets : Client → Command → Prop} (h : Reachable cfg meets s) :
    Sound cfg s := by
  induction h with
  | start => exact sound_start cfg
  | next _ step _ ih => exact ih.step step

end Runs

end ArbNautilus.Bitfinex.DataClient
