import ArbNautilus.Bitfinex.SubscriptionLanes
import ArbNautilus.Bitfinex.SubscriptionReads

/-! What holds of the client and the venue together after every step. -/

namespace ArbNautilus.Bitfinex.DataClient

open Base Book

section Invariant

def Message.owed : Message → Option Owed
  | .subscribed k channelId => some (.subscribed k (some channelId))
  | .unsubscribed channelId => some (.unsubscribed channelId)
  | _ => none

def Asked.owed : Asked → Option Owed
  | .conf => none
  | .subscribe k given => some (.subscribed k given)
  | .unsubscribe channelId => some (.unsubscribed channelId)

/-- The answers that the client has not read, in their order. -/
def System.owed (s : System) :
    List Owed := s.inbound.filterMap Message.owed ++ s.queue.filterMap Asked.owed

def Owed.isOf (kinds : ℤ → Option Kind) (k : Kind) : Owed → Bool
  | .subscribed other _ => other = k
  | .unsubscribed channelId => kinds channelId = some k

def System.owedTo (s : System) (k : Kind) : List Owed := s.owed.filter (Owed.isOf s.kinds k)

/-- The channels that the client knows of. -/
def Client.held (c : Client) : Set ℤ := {channelId | c.Holds channelId}

/-- What a message changes about the channels that are live for its reader. -/
def turn (live : Set ℤ) : Message → Set ℤ
  | .subscribed _ channelId => insert channelId live
  | .unsubscribed channelId => live \ {channelId}
  | _ => live

/-- A message that a client takes that has `live` and is owed `later` after it. -/
def Fits (kinds : ℤ → Option Kind) (live : Set ℤ) (later : List Owed) : Message → Prop
  | .heartbeat channelId => channelId ∈ live ∨ ∃ k, .subscribed k (some channelId) ∈ later
  | .data channelId payload rest => channelId ∈ live ∧ kinds channelId ≠ none ∧ rest.length ≤ 1 ∧
    (kinds channelId = some .funding → FundingTaken (.int channelId :: payload :: rest))
  | .refused => False
  | _ => True

def Orderly (kinds : ℤ → Option Kind) (queue : List Owed) : Set ℤ → List Message → Prop
  | _, [] => True
  | live, message :: rest =>
    Fits kinds live (rest.filterMap Message.owed ++ queue) message ∧
      Orderly kinds queue (turn live message) rest

/-- A book takes the data of a channel, and is then the one that the venue has. -/
def Replays (cfg : Config) (channelId : ℤ) : P0Book → List Message → P0Book → Prop
  | book, [], last => book = last
  | book, .data other payload rest :: messages, last =>
    if other = channelId then
      ∃ after, Taken cfg book (.int other :: payload :: rest) after ∧
        Replays cfg channelId after messages last
    else Replays cfg channelId book messages last
  | book, _ :: messages, last => Replays cfg channelId book messages last

/-- An empty book takes the data that follows the channel's answer. -/
def Opens (cfg : Config) (channelId : ℤ) : List Message → P0Book → Prop
  | [], _ => False
  | .subscribed .book other :: messages, last =>
    if other = channelId then Replays cfg channelId .empty messages last
      else Opens cfg channelId messages last
  | _ :: messages, last => Opens cfg channelId messages last

structure Sound (cfg : Config) (s : System) : Prop where
  alive : s.client.lastFailure = none
  lane : ∀ k, LaneOk k (s.client.lanes k) (k ∈ s.client.configuring) (s.client.wanted k)
    (s.owedTo k)
  nodup : s.client.configuring.Nodup
  kinds : ∀ k channelId, (s.client.lanes k).channelId = some channelId ∨
    (s.client.lanes k).pendingUnsubscribeChannelId = some channelId → s.kinds channelId = some k
  given : ∀ k channelId, .subscribed k (some channelId) ∈ s.owed → s.kinds channelId = some k ∧
    0 < channelId ∧
    (s.client.lanes k).pendingUnsubscribeChannelId ≠ some channelId
  returned : ∀ channelId, .unsubscribed channelId ∈ s.owed → .unsubscribe channelId ∈ s.sent
  opened : (s.opened : Set ℤ) = s.inbound.foldl turn s.client.held
  orderly : Orderly s.kinds (s.queue.filterMap Asked.owed) s.client.held s.inbound
  early : ∀ k, (s.client.lanes k).woken ≠ 0 → ∀ channelId, .subscribed k channelId ∉ s.inbound
  counted : ∀ channelId ∈ s.client.preAckHeartbeatChannelIds, ∃ k, .subscribed k (some channelId) ∈
    s.owed
  quotable : Quotable cfg s.client.book
  bound : ∀ channelId, (s.client.lanes .book).channelId = some channelId →
    Replays cfg channelId s.client.book s.inbound (s.books channelId)
  opens : ∀ channelId, .subscribed .book channelId ∈ s.inbound →
    Opens cfg channelId s.inbound (s.books channelId)
  spent : ∀ channelId, .unsubscribe channelId ∈ s.sent → s.kinds channelId ≠ none ∧
    (∀ k, (s.client.lanes k).channelId ≠ some channelId) ∧
    ∀ k, .subscribed k (some channelId) ∉ s.owed

end Invariant

section Act

variable {cfg : Config} {s : System} {k : Kind}

theorem LaneOk.congr {lane : Lane} {p q : Prop} [Decidable p] [Decidable q] {wanted : Bool}
    {mine : List Owed}
    (h : LaneOk k lane p wanted mine) (same : p ↔ q) : LaneOk k lane q wanted mine where
  owes := by
    obtain ⟨given, rfl⟩ := h.owes
    exact ⟨given, by simp only [Lane.asked, same]⟩
  deferred := h.deferred
  waits := h.waits
  alone := h.alone
  unsent waits := h.unsent (same.2 waits)
  wants := h.wants

/-- Nothing is asked for on behalf of a lane that has its channel or wants none. -/
theorem LaneOk.not_asked {lane : Lane} {queued : Prop} [Decidable queued] {wanted : Bool}
    {mine : List Owed}
    (h : LaneOk k lane queued wanted mine) (idle : lane.subscriptionRequested = false ∨
      lane.channelId ≠ none)
    (given : Option ℤ) : .subscribed k given ∉ mine := by
  obtain ⟨other, rfl⟩ := h.owes
  have none' : lane.asked k queued other = [] := by
    obtain without | bound := idle
    · simp [Lane.asked, without]
    · simp [Lane.asked, bound]
  rw [none', List.append_nil]
  unfold Lane.answers
  split <;> simp

theorem mem_owedTo {owed : Owed} : owed ∈ s.owedTo k ↔ owed ∈ s.owed ∧ owed.isOf s.kinds k = true :=
  List.mem_filter

/-- A channel that is owed to its lane is in no lane yet. -/
theorem Sound.unheld (h : Sound cfg s) {channelId : ℤ}
    (owed : .subscribed k (some channelId) ∈ s.owed) :
    ¬s.client.Holds channelId := by
  rintro ⟨j, own⟩
  obtain ⟨kind, -, apart⟩ := h.given k channelId owed
  obtain rfl := Option.some.inj ((h.kinds j channelId own).symm.trans kind)
  obtain bound | pending := own
  · exact (h.lane j).not_asked (.inr (by simp [bound])) (some channelId)
      (mem_owedTo.2 ⟨owed, by simp [Owed.isOf]⟩)
  · exact apart pending

/-- A channel that is to be given back was given. -/
theorem Sound.known (h : Sound cfg s) {channelId : ℤ} (owed : .unsubscribed channelId ∈ s.owed) :
    s.kinds channelId ≠ none := (h.spent channelId (h.returned channelId owed)).1

/-- What the client keeps of everything but the lane `k`. -/
structure Elsewhere (s : System) (k : Kind) (c : Client) : Prop where
  lanes : ∀ j ≠ k, c.lanes j = s.client.lanes j
  wanted : ∀ j ≠ k, c.wanted j = s.client.wanted j
  configuring : ∀ j ≠ k, j ∈ c.configuring ↔ j ∈ s.client.configuring
  nodup : c.configuring.Nodup
  preAck : c.preAckHeartbeatChannelIds = s.client.preAckHeartbeatChannelIds
  alive : c.lastFailure = s.client.lastFailure

/-- What the client's own step does to the lane `k`, and the answers that its requests will have. -/
structure Acted (s : System) (k : Kind) (c : Client) (requests : List Request)
    (answers : List Owed) : Prop
    extends Elsewhere s k c where
  asks : (requests.map Asked.of).filterMap Asked.owed = answers
  mine : ∀ owed ∈ answers, ∀ j, owed.isOf s.kinds j = decide (j = k)
  lane : LaneOk k (c.lanes k) (k ∈ c.configuring) (c.wanted k) (s.owedTo k ++ answers)
  channel : ∀ channelId, (c.lanes k).channelId = some channelId →
    (s.client.lanes k).channelId = some channelId
  held : ∀ channelId, ((c.lanes k).channelId = some channelId ∨
      (c.lanes k).pendingUnsubscribeChannelId = some channelId) ↔
        ((s.client.lanes k).channelId = some channelId ∨
      (s.client.lanes k).pendingUnsubscribeChannelId = some channelId)
  woken : (c.lanes k).woken ≠ 0 → (s.client.lanes k).woken ≠ 0 ∨
    (s.client.lanes k).subscriptionRequested = false
  book : c.book = s.client.book ∨ c.book = .empty ∧ (c.lanes .book).channelId = none
  unsubscribes : ∀ channelId, .unsubscribe channelId ∈ requests → s.client.Holds channelId ∧
    (c.lanes k).channelId ≠ some channelId ∧ s.kinds channelId = some k

theorem orderly_mono {kinds : ℤ → Option Kind} {queue more : List Owed} {live : Set ℤ}
    {messages : List Message}
    (h : Orderly kinds queue live messages)
    (grows : ∀ k channelId, .subscribed k (some channelId) ∈ queue →
      .subscribed k (some channelId) ∈ more) : Orderly kinds more live messages := by
  induction messages generalizing live with
  | nil => trivial
  | cons message messages ih =>
    refine ⟨?_, ih h.2⟩
    cases message with
    | heartbeat channelId =>
      obtain live | ⟨k, later⟩ := h.1
      · exact .inl live
      · refine .inr ⟨k, ?_⟩
        rw [List.mem_append] at later ⊢
        exact later.imp_right (grows k channelId)
    | _ => exact h.1

theorem act_owed {result : Client × List Request} :
    (s.act result).owed = s.owed ++ (result.2.map Asked.of).filterMap Asked.owed := by
  simp [System.owed, System.act]

theorem Asked.of_given {requests : List Request} {channelId : ℤ} :
    .subscribed k (some channelId) ∉ (requests.map Asked.of).filterMap Asked.owed := by
  intro listed
  obtain ⟨asked, member, same⟩ := List.mem_filterMap.1 listed
  obtain ⟨request, -, rfl⟩ := List.mem_map.1 member
  cases request <;> cases same

theorem Acted.sound {c : Client} {requests : List Request} {answers : List Owed} (h : Sound cfg s)
    (acted : Acted s k c requests answers) : Sound cfg (s.act (c, requests)) := by
  have owed : (s.act (c, requests)).owed = s.owed ++ answers := by rw [act_owed, acted.asks]
  have owedTo (j : Kind) : (s.act (c, requests)).owedTo j = s.owedTo j ++ if j = k then answers
      else [] := by
    have own : answers.filter (Owed.isOf s.kinds j) = if j = k then answers else [] := by
      split
      · rename_i same
        exact List.filter_eq_self.2 fun owed member => by simp [acted.mine owed member, same]
      · rename_i other
        exact List.filter_eq_nil_iff.2 fun owed member => by simp [acted.mine owed member, other]
    unfold System.owedTo
    rw [owed, List.filter_append]
    exact congrArg _ own
  have givenOld {j : Kind} {channelId : ℤ}
    (new : .subscribed j (some channelId) ∈ (s.act (c, requests)).owed) :
      .subscribed j (some channelId) ∈ s.owed := by
    rw [act_owed, List.mem_append] at new
    exact new.resolve_right Asked.of_given
  have heldOf (j : Kind) (channelId : ℤ) : ((c.lanes j).channelId = some channelId ∨
      (c.lanes j).pendingUnsubscribeChannelId = some channelId) ↔
        ((s.client.lanes j).channelId = some channelId ∨
      (s.client.lanes j).pendingUnsubscribeChannelId = some channelId) := by
    by_cases same : j = k
    · exact same ▸ acted.held channelId
    · rw [acted.lanes j same]
  have held : c.held = s.client.held :=
    Set.ext fun channelId => exists_congr fun j => heldOf j channelId
  have channelOf (j : Kind) (channelId : ℤ) (own : (c.lanes j).channelId = some channelId) :
      (s.client.lanes j).channelId = some channelId := by
    by_cases same : j = k
    · exact same ▸ acted.channel channelId (same ▸ own)
    · rw [← acted.lanes j same]
      exact own
  constructor
  case alive => exact acted.alive.trans h.alive
  case lane =>
    intro j
    by_cases same : j = k
    · subst same
      rw [owedTo, if_pos rfl]
      exact acted.lane
    · have kept := h.lane j
      rw [owedTo, if_neg same, List.append_nil]
      show LaneOk j (c.lanes j) (j ∈ c.configuring) (c.wanted j) (s.owedTo j)
      rw [acted.lanes j same, acted.wanted j same]
      exact kept.congr (acted.configuring j same).symm
  case nodup => exact acted.nodup
  case kinds => exact fun j channelId own => h.kinds j channelId ((heldOf j channelId).1 own)
  case given =>
    intro j channelId new
    obtain ⟨kind, positive, -⟩ := h.given j channelId (givenOld new)
    refine ⟨kind, positive, fun pending => ?_⟩
    exact h.unheld (givenOld new) ⟨j, (heldOf j channelId).1 (.inr pending)⟩
  case returned =>
    intro channelId new
    rw [owed, List.mem_append] at new
    refine List.mem_append.2 (new.imp (h.returned channelId) fun listed => ?_)
    rw [← acted.asks] at listed
    obtain ⟨asked, member, same⟩ := List.mem_filterMap.1 listed
    obtain ⟨request, sent, rfl⟩ := List.mem_map.1 member
    cases request <;> cases same
    exact sent
  case opened => exact h.opened.trans (congrArg (fun live => s.inbound.foldl turn live) held.symm)
  case orderly =>
    show Orderly s.kinds _ c.held s.inbound
    rw [held]
    refine orderly_mono h.orderly fun j channelId listed => ?_
    simp only [System.act, List.filterMap_append, List.mem_append]
    exact .inl listed
  case early =>
    intro j awake channelId listed
    have old : (s.client.lanes j).woken ≠ 0 ∨ (s.client.lanes j).subscriptionRequested = false := by
      by_cases same : j = k
      · exact same ▸ acted.woken (same ▸ awake)
      · have still : (c.lanes j).woken ≠ 0 := awake
        rw [acted.lanes j same] at still
        exact .inl still
    obtain awake | without := old
    · exact h.early j awake channelId listed
    · refine (h.lane j).not_asked (.inl without) (some channelId)
        (mem_owedTo.2 ⟨?_, by simp [Owed.isOf]⟩)
      exact List.mem_append_left _ (List.mem_filterMap.2 ⟨_, listed, rfl⟩)
  case counted =>
    intro channelId listed
    have old : channelId ∈ s.client.preAckHeartbeatChannelIds := acted.preAck ▸ listed
    obtain ⟨j, given⟩ := h.counted channelId old
    exact ⟨j, owed ▸ List.mem_append_left _ given⟩
  case quotable =>
    obtain same | ⟨empty, -⟩ := acted.book
    · exact same ▸ h.quotable
    · show Quotable cfg c.book
      rw [empty]
      exact quotable_empty
  case bound =>
    intro channelId own
    have old := h.bound channelId (channelOf .book channelId own)
    obtain same | ⟨-, none'⟩ := acted.book
    · show Replays cfg channelId c.book s.inbound _
      rw [same]
      exact old
    · rw [show (c.lanes .book).channelId = some channelId from own] at none'
      cases none'
  case opens => exact h.opens
  case spent =>
    intro channelId sent
    obtain old | new := List.mem_append.1 sent
    · obtain ⟨some', unbound, unowed⟩ := h.spent channelId old
      exact ⟨some', fun j own => unbound j (channelOf j channelId own),
        fun j new => unowed j (givenOld new)⟩
    · obtain ⟨⟨other, own⟩, unbound, kind⟩ := acted.unsubscribes channelId new
      refine ⟨by simp [System.act, kind], fun j bound => ?_,
        fun j listed => h.unheld (givenOld listed) ⟨other, own⟩⟩
      obtain rfl :=
        Option.some.inj ((h.kinds j channelId (.inl (channelOf j channelId bound))).symm.trans kind)
      exact unbound bound

end Act

section Actions

variable {cfg : Config} {s : System} {k : Kind} {c : Client}

theorem LaneOk.any {lane : Lane} {queued : Prop} [Decidable queued] {mine : List Owed}
    (h : LaneOk k lane queued true mine) (wanted : Bool) : LaneOk k lane queued wanted mine := by
  cases wanted
  · exact h.unwanted
  · exact h

/-- A client that differs from that of `s` in what it publishes, its book and the calls it has
woken. -/
structure Near (s : System) (k : Kind) (c : Client) : Prop where
  others : ∀ j ≠ k, c.lanes j = s.client.lanes j
  own : ∃ left, c.lanes k = { s.client.lanes k with woken := left } ∧
    (left ≠ 0 → (s.client.lanes k).woken ≠ 0) ∧
    ((s.client.lanes k).woken = 0 → left = 0)
  wanted : ∀ j ≠ k, c.wanted j = s.client.wanted j
  configuring : c.configuring = s.client.configuring
  preAck : c.preAckHeartbeatChannelIds = s.client.preAckHeartbeatChannelIds
  alive : c.lastFailure = s.client.lastFailure

theorem Near.lane (near : Near s k c) (h : Sound cfg s) :
    LaneOk k (c.lanes k) (k ∈ c.configuring) false (s.owedTo k) := by
  obtain ⟨left, same, -, asleep⟩ := near.own
  have old := h.lane k
  rw [same, near.configuring]
  refine ⟨old.owes, fun channelId task => ?_, old.waits, old.alone, old.unsent,
    fun never => Bool.noConfusion never⟩
  obtain ⟨pending, without, zero⟩ := old.deferred channelId task
  exact ⟨pending, without, asleep zero⟩

@[simp] theorem setLane_lanes (c : Client) (k : Kind) (lane : Lane) :
    (c.setLane k lane).lanes k = lane := by
  simp [Client.setLane]

/-- A step that sets the lane, and what waits for the lock. -/
theorem Near.acted (near : Near s k c) (configuring : List Kind) (configured : Bool) {lane : Lane}
    {requests : List Request} {answers : List Owed}
    (same : ∀ j ≠ k, j ∈ configuring ↔ j ∈ s.client.configuring) (nodup : configuring.Nodup)
    (asks : (requests.map Asked.of).filterMap Asked.owed = answers)
    (mine : ∀ owed ∈ answers, ∀ j, owed.isOf s.kinds j = decide (j = k))
    (ok : LaneOk k lane (k ∈ configuring) (c.wanted k) (s.owedTo k ++ answers))
    (channel : ∀ channelId, lane.channelId = some channelId →
      (s.client.lanes k).channelId = some channelId)
    (held : ∀ channelId,
      (lane.channelId = some channelId ∨ lane.pendingUnsubscribeChannelId = some channelId) ↔
      ((s.client.lanes k).channelId = some channelId ∨
        (s.client.lanes k).pendingUnsubscribeChannelId = some channelId))
    (woken : lane.woken ≠ 0 → (s.client.lanes k).woken ≠ 0 ∨
      (s.client.lanes k).subscriptionRequested = false)
    (book : c.book = s.client.book ∨ c.book = .empty ∧ k = .book ∧ lane.channelId = none)
    (unsubscribes : ∀ channelId, .unsubscribe channelId ∈ requests → s.client.Holds channelId ∧
      lane.channelId ≠ some channelId ∧ s.kinds channelId = some k) :
    Acted s k { c.setLane k lane with configuring := configuring, checksumConfigured := configured }
      requests
      answers where
  lanes j other := by simp [Client.setLane, Function.update_of_ne other, near.others j other]
  wanted j other := by
    rw [← near.wanted j other]
    cases j <;> rfl
  configuring := same
  nodup := nodup
  preAck := near.preAck
  alive := near.alive
  asks := asks
  mine := mine
  lane := by
    have own :
        { c.setLane k lane with configuring := configuring, checksumConfigured :=
        configured }.wanted k =
        c.wanted k := by cases k <;> rfl
    rw [own]
    show LaneOk k ((c.setLane k lane).lanes k) _ _ _
    rw [setLane_lanes]
    exact ok
  channel := by
    show ∀ channelId, ((c.setLane k lane).lanes k).channelId = _ → _
    rw [setLane_lanes]
    exact channel
  held := by
    show ∀ channelId, (((c.setLane k lane).lanes k).channelId = _ ∨
      ((c.setLane k lane).lanes k).pendingUnsubscribeChannelId = _) ↔ _
    rw [setLane_lanes]
    exact held
  woken := by
    show ((c.setLane k lane).lanes k).woken ≠ 0 → _
    rw [setLane_lanes]
    exact woken
  book := by
    obtain kept | ⟨empty, rfl, none'⟩ := book
    · exact .inl kept
    · refine .inr ⟨empty, ?_⟩
      show ((c.setLane .book lane).lanes .book).channelId = none
      rw [setLane_lanes]
      exact none'
  unsubscribes := by
    show ∀ channelId, _ → _ ∧ ((c.setLane k lane).lanes k).channelId ≠ _ ∧ _
    rw [setLane_lanes]
    exact unsubscribes

/-- Asking for the channel, once no deferred task holds the call up. -/
theorem Near.request (near : Near s k c) (h : Sound cfg s) (book : c.book = s.client.book)
    (free : ∀ channelId, ¬(s.client.lanes k).Deferred channelId) :
    ∃ answers, Acted s k (c.requestSubscription k).1 (c.requestSubscription k).2 answers := by
  have base := near.lane h
  obtain ⟨left, own, awake, -⟩ := near.own
  have free' : ∀ channelId, ¬(c.lanes k).Deferred channelId := by
    rw [own]
    exact free
  have other (j : Kind) (_ : j ≠ k) : j ∈ c.configuring ↔ j ∈ s.client.configuring := by
    rw [near.configuring]
  have nodup : c.configuring.Nodup := near.configuring ▸ h.nodup
  unfold Client.requestSubscription
  dsimp only
  split
  · rename_i requested
    refine ⟨[], near.acted c.configuring c.checksumConfigured other nodup rfl (by simp) ?_ ?_ ?_ ?_
      (.inl book)
      (by simp)⟩
    · rw [List.append_nil]
      exact (base.again free' requested).any _
    · rw [own]
      exact fun channelId => id
    · rw [own]
      exact fun channelId => Iff.rfl
    · rw [own]
      exact fun some' => .inl (awake some')
  · rename_i without
    rw [Bool.not_eq_true] at without
    have unqueued : k ∉ c.configuring := by
      intro waits
      rw [(base.unsent waits).1] at without
      cases without
    unfold Client.sendSubscription
    split
    · -- Another call holds the lock.
      refine ⟨[], near.acted (c.configuring ++ [k]) c.checksumConfigured ?_ ?_ rfl (by simp) ?_ ?_
        ?_ ?_ (.inl book)
        (by simp)⟩
      · intro j apart
        rw [List.mem_append, List.mem_singleton, or_iff_left apart]
        exact other j apart
      · exact nodup.append (List.nodup_singleton k) (by simpa using unqueued)
      · have asks := base.ask (k ∈ c.configuring ++ [k]) free' without
        rw [if_pos (List.mem_append_right _ (List.mem_singleton_self k))] at asks
        rw [List.append_nil]
        exact asks.any _
      · rw [own]
        exact fun channelId => id
      · rw [own]
        exact fun channelId => Iff.rfl
      · rw [own]
        exact fun some' => .inl (awake some')
    · split
      · refine ⟨[.subscribed k none], near.acted c.configuring c.checksumConfigured other nodup
          rfl ?_ ?_ ?_ ?_ ?_
          (.inl book) (by simp)⟩
        · intro owed member j
          rw [List.mem_singleton.1 member]
          simp [Owed.isOf, eq_comm]
        · have asks := base.ask (k ∈ c.configuring) free' without
          rw [if_neg unqueued] at asks
          exact asks.any _
        · rw [own]
          exact fun channelId => id
        · rw [own]
          exact fun channelId => Iff.rfl
        · rw [own]
          exact fun some' => .inl (awake some')
      · rename_i idle _
        refine ⟨[], near.acted [k] c.checksumConfigured ?_ (List.nodup_singleton k) rfl (by simp) ?_
          ?_ ?_ ?_
          (.inl book) (by simp)⟩
        · intro j apart
          have empty : s.client.configuring = [] := by
            rw [← near.configuring]
            simpa [Client.setLane] using idle
          simp [apart, empty]
        · have asks := base.ask (k ∈ [k]) free' without
          rw [if_pos (List.mem_singleton_self k)] at asks
          rw [List.append_nil]
          exact asks.any _
        · rw [own]
          exact fun channelId => id
        · rw [own]
          exact fun channelId => Iff.rfl
        · rw [own]
          exact fun some' => .inl (awake some')

/-- A step that leaves the lane as it was. -/
theorem Near.idle (near : Near s k c) (h : Sound cfg s) (own : c.lanes k = s.client.lanes k)
    (ok : LaneOk k (s.client.lanes k) (k ∈ s.client.configuring) (c.wanted k) (s.owedTo k))
    (book : c.book = s.client.book ∨ c.book = .empty ∧ k = .book ∧
      (s.client.lanes k).channelId = none) :
    Acted s k c [] [] where
  lanes := near.others
  wanted := near.wanted
  configuring j _ := by rw [near.configuring]
  nodup := near.configuring ▸ h.nodup
  preAck := near.preAck
  alive := near.alive
  asks := rfl
  mine := by simp
  lane := by
    rw [List.append_nil, own, near.configuring]
    exact ok
  channel := by
    rw [own]
    exact fun _ => id
  held := by
    rw [own]
    exact fun _ => Iff.rfl
  woken := by
    rw [own]
    exact .inl
  book := by
    obtain same | ⟨empty, rfl, none'⟩ := book
    · exact .inl same
    · exact .inr ⟨empty, own ▸ none'⟩
  unsubscribes := by simp

theorem Near.ensure (near : Near s k c) (h : Sound cfg s) (book : c.book = s.client.book)
    (own : c.lanes k = s.client.lanes k) :
    ∃ answers, Acted s k (c.ensureSubscription k).1 (c.ensureSubscription k).2 answers := by
  unfold Client.ensureSubscription
  split
  · rename_i channelId task
    have waits := (h.lane k).wait (own ▸ task)
    refine ⟨[], near.acted c.configuring c.checksumConfigured (fun j _ => by rw [near.configuring])
      (near.configuring ▸ h.nodup) rfl (by simp) ?_ ?_ ?_ ?_ (.inl book) (by simp)⟩
    · rw [List.append_nil, own, near.configuring]
      exact waits.any _
    · rw [own]
      exact fun channelId => id
    · rw [own]
      exact fun channelId => Iff.rfl
    · rw [own]
      exact fun awake => .inl awake
  · rename_i free
    exact near.request h book fun channelId task => free channelId (own ▸ task)

theorem near_self (s : System) (k : Kind) : Near s k s.client where
  others _ _ := rfl
  own := ⟨(s.client.lanes k).woken, rfl, id, id⟩
  wanted _ _ := rfl
  configuring := rfl
  preAck := rfl
  alive := rfl

theorem idle_acted (h : Sound cfg s) (k : Kind) : Acted s k s.client [] [] :=
  (near_self s k).idle h rfl (h.lane k) (.inl rfl)

theorem resume_acted (h : Sound cfg s) (k : Kind) : ∃ answers,
    Acted s k (s.client.resumeSubscription k).1 (s.client.resumeSubscription k).2 answers := by
  unfold Client.resumeSubscription
  split
  · exact ⟨[], idle_acted h k⟩
  · rename_i left woken
    have near : Near s k (s.client.setLane k { s.client.lanes k with woken := left }) := by
      refine ⟨?_, ⟨left, setLane_lanes _ _ _, ?_, ?_⟩, ?_, rfl, rfl, rfl⟩
      · exact fun j other => by simp [Client.setLane, Function.update_of_ne other]
      · exact fun _ none' => by omega
      · exact fun none' => by omega
      · exact fun j _ => by cases j <;> rfl
    refine near.request h rfl fun channelId task => ?_
    have asleep := ((h.lane k).deferred channelId task).2.2
    omega

theorem runTask_acted (h : Sound cfg s) (k : Kind) : ∃ answers,
    Acted s k (s.client.runUnsubscribeTask k).1 (s.client.runUnsubscribeTask k).2 answers := by
  unfold Client.runUnsubscribeTask
  split
  · rename_i channelId task
    have ok := h.lane k
    obtain ⟨pending, without, -⟩ := ok.deferred channelId task
    have kind := h.kinds k channelId (.inr pending)
    refine ⟨[.unsubscribed channelId], (near_self s k).acted s.client.configuring
      s.client.checksumConfigured
      (fun _ _ => Iff.rfl) h.nodup rfl ?_ (ok.runTask task) (fun _ => id) (fun _ => Iff.rfl)
        (fun _ => .inr without)
      (.inl rfl) ?_⟩
    · intro owed member j
      rw [List.mem_singleton.1 member]
      simp [Owed.isOf, kind, eq_comm]
    · intro other member
      obtain rfl : other = channelId := by simpa using member
      refine ⟨⟨k, .inr pending⟩, ?_, kind⟩
      intro bound
      have some' : (s.client.lanes k).channelId ≠ none := by
        rw [show (s.client.lanes k).channelId = some other from bound]
        exact Option.some_ne_none other
      have requested := (ok.alone some').1
      rw [without] at requested
      cases requested
  · exact ⟨[], idle_acted h k⟩

theorem configured_acted (h : Sound cfg s) : ∃ k answers,
    Acted s k s.client.configured.1 s.client.configured.2 answers := by
  unfold Client.configured
  split
  · exact ⟨.book, [], idle_acted h .book⟩
  · rename_i k rest waits
    have nodup := h.nodup
    rw [waits, List.nodup_cons] at nodup
    have ok := h.lane k
    refine ⟨k, [.subscribed k none], ?_⟩
    have same : { s.client with checksumConfigured := true, configuring := rest } =
        { s.client.setLane k (s.client.lanes k) with configuring := rest, checksumConfigured :=
          true } := by
      simp [Client.setLane]
    rw [same]
    refine (near_self s k).acted rest true ?_ nodup.2 rfl ?_ (ok.send ?_ nodup.1) (fun _ => id)
      (fun _ => Iff.rfl)
      .inl (.inl rfl) (by simp)
    · intro j other
      rw [waits, List.mem_cons, or_iff_right other]
    · intro owed member j
      rw [List.mem_singleton.1 member]
      simp [Owed.isOf, eq_comm]
    · rw [waits]
      exact List.mem_cons_self

/-- Giving the channel up, once nothing publishes the kind. -/
theorem Near.giveUp (near : Near s k c) (h : Sound cfg s) (own : c.lanes k = s.client.lanes k)
    (unwanted : c.wanted k = false)
    (book : c.book = s.client.book ∨ c.book = .empty ∧ k = .book) :
    ∃ answers, Acted s k (c.giveUpChannel k).1 (c.giveUpChannel k).2 answers := by
  have ok := h.lane k
  have other (j : Kind) (_ : j ≠ k) : j ∈ c.configuring ↔ j ∈ s.client.configuring := by
    rw [near.configuring]
  have nodup : c.configuring.Nodup := near.configuring ▸ h.nodup
  unfold Client.giveUpChannel
  dsimp only
  split
  · rename_i without
    rw [own] at without
    refine ⟨[],
      near.idle h own (unwanted ▸ ok.unwanted) (book.imp_right fun both => ⟨both.1, both.2, ?_⟩)⟩
    by_contra bound
    rw [(ok.alone bound).1] at without
    cases without
  · split
    · rename_i unbound
      rw [own] at unbound
      refine ⟨[], near.acted c.configuring c.checksumConfigured other nodup rfl (by simp) ?_ ?_ ?_
        ?_
        (book.imp_right fun both => ⟨both.1, both.2, own ▸ unbound⟩) (by simp)⟩
      · rw [List.append_nil, unwanted, own, near.configuring]
        exact ok.postpone
      · rw [own]
        exact fun _ => id
      · rw [own]
        exact fun _ => Iff.rfl
      · rw [own]
        exact .inl
    · rename_i channelId bound
      rw [own] at bound
      have kind := h.kinds k channelId (.inl bound)
      have idle := (ok.alone (by simp [bound])).2
      refine ⟨[.unsubscribed channelId], near.acted c.configuring c.checksumConfigured other nodup
        rfl ?_ ?_ ?_ ?_ ?_
        (book.imp_right fun both => ⟨both.1, both.2, rfl⟩) ?_⟩
      · intro owed member j
        rw [List.mem_singleton.1 member]
        simp [Owed.isOf, kind, eq_comm]
      · rw [unwanted, own, near.configuring]
        exact ok.giveUp bound
      · intro other never
        cases never
      · intro other
        simp [idle, bound]
      · rw [own]
        exact .inl
      · intro other member
        obtain rfl : other = channelId := by simpa using member
        exact ⟨⟨k, .inl bound⟩, by simp, kind⟩

/-- What is published changes; the kind `k` alone may depend on it. -/
theorem near_publish (s : System) (k : Kind) {quotes deltas funding : Bool}
    (same : ∀ j ≠ k,
      ({ s.client with publishQuotes := quotes, publishDeltas := deltas, publishFunding :=
      funding } :
      Client).wanted j = s.client.wanted j) (book : P0Book) : Near s k { s.client with
        publishQuotes := quotes, publishDeltas := deltas, publishFunding := funding, book := book }
          where
  others _ _ := rfl
  own := ⟨(s.client.lanes k).woken, rfl, id, id⟩
  wanted j other := by
    rw [← same j other]
    cases j <;> rfl
  configuring := rfl
  preAck := rfl
  alive := rfl

theorem unsubscribeBook_acted (h : Sound cfg s) {quotes deltas : Bool}
    (less : (quotes || deltas) = true → s.client.wanted .book = true) : ∃ k answers, Acted s k
      ({ s.client with publishQuotes := quotes, publishDeltas := deltas } :
        Client).unsubscribeBookIfUnused.1
      ({ s.client with publishQuotes := quotes, publishDeltas := deltas } :
        Client).unsubscribeBookIfUnused.2
      answers := by
  have same (j : Kind) (other : j ≠ .book) : ({ s.client with
      publishQuotes := quotes, publishDeltas := deltas, publishFunding :=
        s.client.publishFunding } :
        Client).wanted j = s.client.wanted j := by
    cases j with
    | book => exact absurd rfl other
    | funding => rfl
  unfold Client.unsubscribeBookIfUnused
  split
  · rename_i still
    have wanted : (quotes || deltas) = true := by simpa using still
    refine ⟨.book, [], (near_publish s .book same s.client.book).idle h rfl ?_ (.inl rfl)⟩
    show LaneOk .book _ _ (quotes || deltas) _
    rw [wanted, ← less wanted]
    exact h.lane .book
  · rename_i unused
    refine ⟨.book, (near_publish s .book same .empty).giveUp h rfl ?_ (.inr ⟨rfl, rfl⟩)⟩
    simpa [Client.wanted] using unused

theorem command_acted (h : Sound cfg s) (command : Command) : ∃ k answers,
    Acted s k (s.client.command cfg command).1 (s.client.command cfg command).2 answers := by
  have ignored : ∃ k answers, Acted s k (s.client, ([] : List Request)).1
      (s.client, ([] : List Request)).2 answers :=
    ⟨.book, [], idle_acted h .book⟩
  unfold Client.command
  cases command with
  | subscribeQuoteTicks instrumentId =>
    dsimp only
    split
    · exact ignored
    · refine ⟨.book, (near_publish s .book ?_ s.client.book).ensure h rfl rfl⟩
      intro j other
      cases j with
      | book => exact absurd rfl other
      | funding => rfl
  | subscribeOrderBookDeltas instrumentId deep =>
    dsimp only
    split
    · exact ignored
    · refine ⟨.book, (near_publish s .book ?_ s.client.book).ensure h rfl rfl⟩
      intro j other
      cases j with
      | book => exact absurd rfl other
      | funding => rfl
  | subscribeFundingRates instrumentId =>
    dsimp only
    split
    · exact ignored
    · refine ⟨.funding, (near_publish s .funding ?_ s.client.book).ensure h rfl rfl⟩
      intro j other
      cases j with
      | book => rfl
      | funding => exact absurd rfl other
  | unsubscribeQuoteTicks instrumentId =>
    dsimp only
    split
    · exact ignored
    · exact unsubscribeBook_acted h fun deltas => by
        simp only [Bool.false_or] at deltas
        simp [Client.wanted, deltas]
  | unsubscribeOrderBookDeltas instrumentId =>
    dsimp only
    split
    · exact ignored
    · exact unsubscribeBook_acted h fun quotes => by
        simp only [Bool.or_false] at quotes
        simp [Client.wanted, quotes]
  | unsubscribeFundingRates instrumentId =>
    dsimp only
    split
    · exact ignored
    · refine ⟨.funding, (near_publish s .funding ?_ s.client.book).giveUp h rfl rfl (.inl rfl)⟩
      intro j other
      cases j with
      | book => rfl
      | funding => exact absurd rfl other

end Actions

end ArbNautilus.Bitfinex.DataClient
