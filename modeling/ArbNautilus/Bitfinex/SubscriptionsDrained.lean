import ArbNautilus.Bitfinex.SubscriptionsSafe

/-! Once all traffic has drained, a kind has its channel exactly where something still publishes
it. -/

namespace ArbNautilus.Bitfinex.DataClient

open Base Book

section Tidy

/-- A lane that nothing publishes keeps no channel, and no call of it is suspended. -/
structure Lane.Idle (lane : Lane) : Prop where
  leaves : lane.subscriptionRequested = true → lane.unsubscribeOnAck = true ∧ lane.channelId = none
  waiting : lane.waiting = 0
  woken : lane.woken = 0

def Tidy (c : Client) : Prop := ∀ k, c.wanted k = false → (c.lanes k).Idle

def TidyElsewhere (c : Client) (k : Kind) : Prop := ∀ j ≠ k, c.wanted j = false → (c.lanes j).Idle

/-- The kind that a call leaves without a publisher. -/
def Command.givesUp (cfg : Config) (c : Client) : Command → Option Kind
  | .unsubscribeQuoteTicks instrumentId =>
    if instrumentId = cfg.instrumentId ∧ c.publishDeltas = false then some .book else none
  | .unsubscribeOrderBookDeltas instrumentId =>
    if instrumentId = cfg.instrumentId ∧ c.publishQuotes = false then some .book else none
  | .unsubscribeFundingRates instrumentId => if instrumentId = cfg.instrumentId then some .funding
    else none
  | _ => none

/-- No call gives a kind up while a subscribe call of that kind is suspended on the deferred
task. -/
def Timely (cfg : Config) (c : Client) (command : Command) : Prop :=
  ∀ k ∈ command.givesUp cfg c, (c.lanes k).waiting = 0 ∧ (c.lanes k).woken = 0

variable {cfg : Config} {c d : Client} {k : Kind} {lane : Lane} {channelId nowNs : ℤ}

@[simp] theorem setLane_wanted (c : Client) (k : Kind) (lane : Lane) :
    (c.setLane k lane).wanted = c.wanted := by
  ext j
  cases j <;> rfl

theorem setLane_other (c : Client) (lane : Lane) {j : Kind} (other : j ≠ k) :
    (c.setLane k lane).lanes j = c.lanes j := by
  simp [Client.setLane, Function.update_of_ne other]

theorem TidyElsewhere.tidy (h : TidyElsewhere c k) (own : c.wanted k = false → (c.lanes k).Idle) :
    Tidy c := by
  intro j unwanted
  by_cases same : j = k
  · subst same
    exact own unwanted
  · exact h j same unwanted

theorem Tidy.elsewhere (h : Tidy c) (k : Kind) : TidyElsewhere c k := fun j _ => h j

theorem TidyElsewhere.of_wanted (h : TidyElsewhere c k) (wanted : c.wanted k = true) : Tidy c := by
  apply h.tidy
  intro unwanted
  rw [wanted] at unwanted
  cases unwanted

theorem TidyElsewhere.setLane (h : TidyElsewhere c k) (own : c.wanted k = false → lane.Idle) :
    Tidy (c.setLane k lane) := by
  apply TidyElsewhere.tidy (k := k)
  · intro j other unwanted
    rw [setLane_wanted] at unwanted
    rw [setLane_other c lane other]
    exact h j other unwanted
  · intro unwanted
    rw [setLane_wanted] at unwanted
    rw [setLane_lanes]
    exact own unwanted

theorem requestSubscription_others (c : Client) (k : Kind) :
    (c.requestSubscription k).1.wanted = c.wanted ∧
    ∀ j ≠ k, (c.requestSubscription k).1.lanes j = c.lanes j := by
  unfold Client.requestSubscription Client.sendSubscription
  dsimp only
  constructor
  · repeat' split
    all_goals
      ext j
      cases j <;> rfl
  · intro j other
    repeat' split
    all_goals simp [Client.setLane, Function.update_of_ne other]

/-- A subscribe call touches the lane of its own kind, which is wanted. -/
theorem TidyElsewhere.request (h : TidyElsewhere c k) (wanted : c.wanted k = true) :
    Tidy (c.requestSubscription k).1 := by
  obtain ⟨keeps, others⟩ := requestSubscription_others c k
  have kept : TidyElsewhere (c.requestSubscription k).1 k := by
    intro j other unwanted
    rw [keeps] at unwanted
    rw [others j other]
    exact h j other unwanted
  exact kept.of_wanted (keeps ▸ wanted)

theorem TidyElsewhere.ensure (h : TidyElsewhere c k) (wanted : c.wanted k = true) :
    Tidy (c.ensureSubscription k).1 := by
  unfold Client.ensureSubscription
  split
  · exact h.setLane fun unwanted => by simp [wanted] at unwanted
  · exact h.request wanted

/-- An unsubscribe call, where no subscribe call is suspended. -/
theorem TidyElsewhere.giveUp (h : TidyElsewhere c k)
    (asleep : (c.lanes k).waiting = 0 ∧ (c.lanes k).woken = 0) : Tidy (c.giveUpChannel k).1 := by
  unfold Client.giveUpChannel
  dsimp only
  split
  · rename_i without
    exact h.tidy fun _ => ⟨fun requested => by simp [without] at requested, asleep.1, asleep.2⟩
  · split
    · rename_i unbound
      exact h.setLane fun _ => ⟨fun _ => ⟨rfl, unbound⟩, asleep.1, asleep.2⟩
    · exact h.setLane fun _ => ⟨fun never => Bool.noConfusion never, asleep.1, asleep.2⟩

theorem Tidy.resume (h : Tidy c) (k : Kind) : Tidy (c.resumeSubscription k).1 := by
  unfold Client.resumeSubscription
  split
  · exact h
  · rename_i left woken
    have wanted : c.wanted k = true := by
      by_contra unwanted
      rw [Bool.not_eq_true] at unwanted
      rw [(h k unwanted).woken] at woken
      cases woken
    have tidy : Tidy (c.setLane k { c.lanes k with woken := left }) :=
      (h.elsewhere k).setLane fun unwanted => by simp [wanted] at unwanted
    exact (tidy.elsewhere k).request (by rw [setLane_wanted, wanted])

theorem Tidy.runTask (h : Tidy c) (k : Kind) : Tidy (c.runUnsubscribeTask k).1 := by
  unfold Client.runUnsubscribeTask
  split
  · refine (h.elsewhere k).setLane fun unwanted => ?_
    have idle := h k unwanted
    exact ⟨idle.leaves, rfl, by simp [idle.waiting, idle.woken]⟩
  · exact h

theorem Tidy.configured (h : Tidy c) : Tidy c.configured.1 := by
  unfold Client.configured
  split
  · exact h
  · intro k unwanted
    refine h k ?_
    cases k <;> exact unwanted

theorem Tidy.command (h : Tidy c) {command : Command} (timely : Timely cfg c command) :
    Tidy (c.command cfg command).1 := by
  have published (quotes deltas : Bool) (book : P0Book) : TidyElsewhere
      { c with publishQuotes := quotes, publishDeltas := deltas, book := book } .book := by
    intro j other unwanted
    cases j with
    | book => exact absurd rfl other
    | funding => exact h .funding unwanted
  have funded (funding : Bool) : TidyElsewhere { c with publishFunding := funding } .funding := by
    intro j other unwanted
    cases j with
    | book => exact h .book unwanted
    | funding => exact absurd rfl other
  cases command with
  | subscribeQuoteTicks instrumentId =>
    rw [Client.command]
    split
    · exact h
    · exact (published true c.publishDeltas c.book).ensure rfl
  | subscribeOrderBookDeltas instrumentId deep =>
    rw [Client.command]
    split
    · exact h
    · exact (published c.publishQuotes true c.book).ensure (by simp [Client.wanted])
  | subscribeFundingRates instrumentId =>
    rw [Client.command]
    split
    · exact h
    · exact (funded true).ensure rfl
  | unsubscribeQuoteTicks instrumentId =>
    rw [Client.command]
    split
    · exact h
    · rename_i own
      unfold Client.unsubscribeBookIfUnused
      split
      · rename_i still
        exact (published false c.publishDeltas c.book).of_wanted
          (by simpa [Client.wanted] using still)
      · rename_i unused
        apply (published false c.publishDeltas _).giveUp
        exact timely .book (by simp_all [Command.givesUp])
  | unsubscribeOrderBookDeltas instrumentId =>
    rw [Client.command]
    split
    · exact h
    · rename_i own
      unfold Client.unsubscribeBookIfUnused
      split
      · rename_i still
        exact (published c.publishQuotes false c.book).of_wanted
          (by simpa [Client.wanted] using still)
      · rename_i unused
        apply (published c.publishQuotes false _).giveUp
        exact timely .book (by simp_all [Command.givesUp])
  | unsubscribeFundingRates instrumentId =>
    rw [Client.command]
    split
    · exact h
    · rename_i own
      apply (funded false).giveUp
      exact timely .funding (by simp_all [Command.givesUp])

end Tidy

section Reads

variable {cfg : Config} {c d : Client} {k : Kind} {channelId nowNs : ℤ}

/-- What a client publishes and has asked for, without its book and its counted heartbeats. -/
theorem Tidy.congr (h : Tidy c) (wanted : d.wanted = c.wanted) (lanes : d.lanes = c.lanes) :
    Tidy d := by
  intro k unwanted
  rw [wanted] at unwanted
  rw [lanes]
  exact h k unwanted

theorem Tidy.clearData (h : Tidy c) (k : Kind) : Tidy (c.clearData k) := by
  cases k
  · exact h.congr rfl rfl
  · exact h

/-- A kind that is given up before its answer keeps no channel. -/
theorem Tidy.bindChannel (h : Tidy c) (requested : (c.lanes k).subscriptionRequested = true) :
    Tidy (c.bindChannel k channelId) := by
  have lanes : (c.clearData k).lanes = c.lanes := by cases k <;> rfl
  have wanted : (c.clearData k).wanted = c.wanted := by cases k <;> rfl
  unfold Client.bindChannel
  dsimp only
  split
  · refine ((h.clearData k).elsewhere k).setLane fun unwanted => ?_
    have idle := h k (wanted ▸ unwanted)
    exact ⟨fun never => Bool.noConfusion never, idle.waiting, idle.woken⟩
  · rename_i kept
    refine ((h.clearData k).elsewhere k).setLane fun unwanted => ?_
    exact absurd ((h k (wanted ▸ unwanted)).leaves requested).1 kept

theorem Tidy.consumeSubscribed {frame : Members} (h : Tidy c)
    (consumed : c.consumeSubscribed cfg frame = .ok d) :
    Tidy d := by
  simp only [Client.consumeSubscribed, bind_eq_ok, raiseIf_eq_ok, pure_eq_ok,
    exists_const] at consumed
  obtain ⟨k, -, requested, -, -, -, channelId, -, -, -, -, rfl⟩ := consumed
  have erased : Tidy { c with
      preAckHeartbeatChannelIds := c.preAckHeartbeatChannelIds.erase channelId } := h.congr rfl rfl
  exact erased.bindChannel (by simpa using requested)

theorem Tidy.endPending (h : Tidy c) (k : Kind) : Tidy (c.endPending k) :=
  (h.elsewhere k).setLane fun unwanted =>
    ⟨(h k unwanted).leaves, (h k unwanted).waiting, (h k unwanted).woken⟩

theorem Tidy.endActive (h : Tidy c) (ended : c.endActive k = .ok d) : Tidy d := by
  simp only [Client.endActive, bind_eq_ok, raiseIf_eq_ok, pure_eq_ok, exists_const] at ended
  obtain ⟨done, rfl⟩ := ended
  refine ((h.clearData k).elsewhere k).setLane fun unwanted => ?_
  have idle := h k (by cases k <;> exact unwanted)
  exact ⟨fun requested => ⟨(idle.leaves requested).1, rfl⟩, idle.waiting, idle.woken⟩

theorem Tidy.consumeUnsubscribed {frame : Members} (h : Tidy c)
    (consumed : c.consumeUnsubscribed frame = .ok d) :
    Tidy d := by
  simp only [Client.consumeUnsubscribed, bind_eq_ok, raiseIf_eq_ok, exists_const] at consumed
  obtain ⟨-, channelId, -, consumed⟩ := consumed
  repeat' split at consumed
  · cases consumed
    exact h.endPending .book
  · cases consumed
    exact h.endPending .funding
  · exact h.endActive consumed
  · exact h.endActive consumed
  · cases consumed

theorem Tidy.consumeControl {frame : Members} (h : Tidy c)
    (consumed : c.consumeControl cfg frame = .ok d) :
    Tidy d := by
  unfold Client.consumeControl at consumed
  dsimp only at consumed
  split at consumed
  · split at consumed
    · simp only [bind_eq_ok, raiseIf_eq_ok, pure_eq_ok, exists_const] at consumed
      obtain ⟨status, -, -, rfl⟩ := consumed
      exact h
    · cases consumed
  · split at consumed
    · cases consumed
      exact h
    · split at consumed
      · exact h.consumeSubscribed consumed
      · split at consumed
        · exact h.consumeUnsubscribed consumed
        · cases consumed

/-- A heartbeat is counted at most. -/
theorem Tidy.consumeHeartbeat {published : List Published} (h : Tidy c)
    (consumed : c.consumeHeartbeat cfg channelId nowNs = .ok (d, published)) : Tidy d := by
  unfold Client.consumeHeartbeat at consumed
  split at consumed
  · simp only [bind_eq_ok, pure_eq_ok, Prod.mk.injEq] at consumed
    obtain ⟨items, -, rfl, -⟩ := consumed
    exact h
  · repeat' split at consumed
    · cases consumed
      exact h
    · cases consumed
      exact h
    · cases consumed
      exact h.congr rfl rfl
    · cases consumed

theorem Tidy.consumeFrame {frame : Frame} {published : List Published} (h : Tidy c)
    (consumed : c.consumeFrame cfg frame nowNs = .ok (d, published)) : Tidy d := by
  cases frame with
  | control members =>
    rw [Client.consumeFrame] at consumed
    cases control : c.consumeControl cfg members with
    | error e =>
      rw [control] at consumed
      cases consumed
    | ok result =>
      rw [control] at consumed
      cases consumed
      exact h.consumeControl control
  | channel items =>
    rw [Client.consumeFrame.eq_def] at consumed
    dsimp only at consumed
    split at consumed
    · split at consumed
      · cases consumed
      · simp only [bind_eq_ok] at consumed
        obtain ⟨channelId, -, consumed⟩ := consumed
        repeat' split at consumed
        · cases consumed
          exact h
        · exact h.consumeHeartbeat consumed
        · simp only [bind_eq_ok, pure_eq_ok, Prod.mk.injEq, Prod.exists] at consumed
          obtain ⟨book, items, -, rfl, -⟩ := consumed
          exact h.congr rfl rfl
        · simp only [bind_eq_ok, pure_eq_ok, Prod.mk.injEq] at consumed
          obtain ⟨items, -, rfl, -⟩ := consumed
          exact h
        · cases consumed
    · cases consumed

theorem Tidy.readFrame {frame : Frame} (h : Tidy c) : Tidy (c.readFrame cfg frame nowNs).1 := by
  unfold Client.readFrame
  split
  · rename_i result consumed
    exact h.consumeFrame consumed
  · exact fun k _ => ⟨fun never => Bool.noConfusion never, rfl, rfl⟩

end Reads

section Runs

variable {cfg : Config} {s t : System}

theorem Tidy.step {call : Option Command} (h : Tidy s.client) (step : Step cfg s call t)
    (timely : ∀ command ∈ call, Timely cfg s.client command) : Tidy t.client := by
  cases step with
  | command command => exact h.command (timely command rfl)
  | configured => exact h.configured
  | unsubscribeTask k => exact h.runTask k
  | resume k => exact h.resume k
  | read message rest nowNs first => exact h.readFrame
  | _ => exact h

theorem Reachable.tidy (h : Reachable cfg (Timely cfg) s) : Tidy s.client := by
  induction h with
  | start => exact fun k _ => ⟨fun never => Bool.noConfusion never, rfl, rfl⟩
  | next _ step timely ih => exact ih.step step timely

/-- Nothing is on its way, and no task of the client is suspended. -/
structure System.Drained (s : System) : Prop where
  queue : s.queue = []
  inbound : s.inbound = []
  configuring : s.client.configuring = []
  sent : ∀ k channelId, ¬(s.client.lanes k).Deferred channelId
  settled : s.Settled

theorem System.Drained.owed (h : s.Drained) : s.owed = [] := by
  rw [System.owed, h.inbound, h.queue]
  rfl

/-- What the lane asked for has been answered. -/
theorem Sound.bound_of_drained (h : Sound cfg s) (drained : s.Drained) {k : Kind}
    (requested : (s.client.lanes k).subscriptionRequested = true) :
    (s.client.lanes k).channelId ≠ none := by
  obtain ⟨given, same⟩ := (h.lane k).owes
  rw [System.owedTo, drained.owed] at same
  have none' := (List.append_eq_nil_iff.1 same.symm).2
  intro unbound
  simp [Lane.asked, requested, unbound, drained.configuring] at none'

theorem Sound.drained_iff (h : Sound cfg s) (tidy : Tidy s.client) (drained : s.Drained)
    (k : Kind) :
    (s.client.lanes k).channelId ≠ none ↔ s.client.wanted k = true := by
  constructor
  · intro bound
    by_contra unwanted
    rw [Bool.not_eq_true] at unwanted
    exact bound ((tidy k unwanted).leaves ((h.lane k).alone bound).1).2
  · intro wanted
    obtain ⟨requested, -⟩ | waiting | woken := (h.lane k).wants wanted
    · exact h.bound_of_drained drained requested
    · obtain ⟨channelId, task⟩ := (h.lane k).waits waiting
      exact absurd task (drained.sent k channelId)
    · exact absurd (drained.settled k) woken

/-- The venue's channel of a kind is the one that the client has. -/
theorem Sound.drained_opened (h : Sound cfg s) (drained : s.Drained) (k : Kind) (channelId : ℤ) :
    channelId ∈ s.opened ∧
      s.kinds channelId = some k ↔ (s.client.lanes k).channelId = some channelId := by
  have held : channelId ∈ s.opened ↔ s.client.Holds channelId := by
    have opened := h.opened
    rw [drained.inbound, List.foldl_nil] at opened
    rw [← Finset.mem_coe, opened]
    rfl
  have idle (j : Kind) : (s.client.lanes j).pendingUnsubscribeChannelId = none := by
    obtain ⟨given, same⟩ := (h.lane j).owes
    rw [System.owedTo, drained.owed] at same
    have none' := (List.append_eq_nil_iff.1 same.symm).1
    rw [Lane.answers_of_free (drained.sent j)] at none'
    cases pending : (s.client.lanes j).pendingUnsubscribeChannelId with
    | none => rfl
    | some other => simp [pending] at none'
  rw [held]
  constructor
  · rintro ⟨⟨j, own | pending⟩, kind⟩
    · obtain rfl := Option.some.inj ((h.kinds j channelId (.inl own)).symm.trans kind)
      exact own
    · rw [idle j] at pending
      cases pending
  · intro own
    exact ⟨⟨k, .inl own⟩, h.kinds k channelId (.inl own)⟩

end Runs

section Active

variable {cfg : Config} {s : System} {k : Kind} {channelId other : ℤ}

theorem of_mem_foldl_turn {live : Set ℤ} {messages : List Message}
    (h : channelId ∈ messages.foldl turn live) :
    channelId ∈ live ∨ ∃ k, .subscribed k channelId ∈ messages := by
  induction messages generalizing live with
  | nil => exact .inl h
  | cons first messages ih =>
    obtain before | ⟨k, later⟩ := ih h
    · cases first with
      | subscribed k number =>
        obtain rfl | old := before
        · exact .inr ⟨k, List.mem_cons_self⟩
        · exact .inl old
      | unsubscribed number => exact .inl before.1
      | _ => exact .inl before
    · exact .inr ⟨k, List.mem_cons_of_mem _ later⟩

/-- An open channel that no request gives up is the lane's, the deferred task's or the next
answer's. -/
theorem Sound.active (h : Sound cfg s) (opened : channelId ∈ s.opened)
    (kind : s.kinds channelId = some k)
    (kept : .unsubscribe channelId ∉ s.sent) : (s.client.lanes k).channelId = some channelId ∨
      (s.client.lanes k).Deferred channelId ∨ .subscribed k (some channelId) ∈ s.owed := by
  rw [← Finset.mem_coe, h.opened] at opened
  obtain ⟨j, own | pending⟩ | ⟨j, listed⟩ := of_mem_foldl_turn opened
  · obtain rfl := Option.some.inj ((h.kinds j channelId (.inl own)).symm.trans kind)
    exact .inl own
  · obtain rfl := Option.some.inj ((h.kinds j channelId (.inr pending)).symm.trans kind)
    by_cases deferred : ∃ number, (s.client.lanes j).Deferred number
    · obtain ⟨number, task⟩ := deferred
      obtain rfl := Option.some.inj (((h.lane j).deferred number task).1.symm.trans pending)
      exact .inr (.inl task)
    · -- The task has sent its request, so the answer is owed.
      obtain ⟨given, owes⟩ := (h.lane j).owes
      rw [Lane.answers_of_free (fun number task => deferred ⟨number, task⟩), pending] at owes
      have listed : .unsubscribed channelId ∈ s.owedTo j := by
        rw [owes]
        exact List.mem_cons_self
      exact absurd (h.returned channelId (mem_owedTo.1 listed).1) kept
  · have owed := mem_owed_of_inbound listed
    obtain rfl := Option.some.inj ((h.given j channelId owed).1.symm.trans kind)
    exact .inr (.inr owed)

/-- A kind has one channel at most that is open and not given up. -/
theorem Sound.one_channel (h : Sound cfg s) (opened : channelId ∈ s.opened)
    (also : other ∈ s.opened)
    (kind : s.kinds channelId = some k) (same : s.kinds other = some k)
    (kept : .unsubscribe channelId ∉ s.sent) (kept' : .unsubscribe other ∉ s.sent) :
    channelId = other := by
  have ok := h.lane k
  have unasked {number : ℤ} (idle : (s.client.lanes k).subscriptionRequested = false ∨
      (s.client.lanes k).channelId ≠ none) : .subscribed k (some number) ∉ s.owed := by
    intro owed
    exact ok.not_asked idle (some number) (mem_owedTo.2 ⟨owed, by simp [Owed.isOf]⟩)
  have apart {number later : ℤ} (own : (s.client.lanes k).channelId = some number) :
      ¬(s.client.lanes k).Deferred later := by
    intro task
    have idle := (ok.alone (by simp [own])).2
    rw [(ok.deferred later task).1] at idle
    cases idle
  obtain own | task | owed := h.active opened kind kept
  · obtain own' | task' | owed' := h.active also same kept'
    · exact Option.some.inj (own.symm.trans own')
    · exact absurd task' (apart own)
    · exact absurd owed' (unasked (.inr (by simp [own])))
  · obtain own' | task' | owed' := h.active also same kept'
    · exact absurd task (apart own')
    · exact congrArg Prod.fst (Option.some.inj (task.symm.trans task'))
    · exact absurd owed' (unasked (.inl (ok.deferred channelId task).2.1))
  · obtain own' | task' | owed' := h.active also same kept'
    · exact absurd owed (unasked (.inr (by simp [own'])))
    · exact absurd owed (unasked (.inl (ok.deferred other task').2.1))
    · exact (Option.some.inj ((h.pending owed).2 _ owed')).symm

end Active

section Served

/-- What the client promises of its subscriptions in a state. -/
structure Served (cfg : Config) (s : System) : Prop where
  alive : s.client.lastFailure = none
  takes : ∀ message rest nowNs, s.inbound = message :: rest →
    ∃ result, s.client.consumeFrame cfg (message.frame cfg) nowNs = .ok result
  single : ∀ k channelId other, channelId ∈ s.opened → other ∈ s.opened →
    s.kinds channelId = some k →
    s.kinds other = some k → .unsubscribe channelId ∉ s.sent → .unsubscribe other ∉ s.sent →
    channelId = other
  published : ∀ message rest nowNs, s.inbound = message :: rest →
    (s.client.readFrame cfg (message.frame cfg) nowNs).2 ≠ [] → ∃ k channelId items,
      message.frame cfg = .channel (.int channelId :: items) ∧
      (s.client.lanes k).channelId = some channelId ∧
        s.client.wanted k = true ∧ .unsubscribe channelId ∉ s.sent
  drained : s.Drained → ∀ k, ((s.client.lanes k).channelId ≠ none ↔ s.client.wanted k = true) ∧
    ∀ channelId, channelId ∈ s.opened ∧
    s.kinds channelId = some k ↔ (s.client.lanes k).channelId = some channelId

variable {cfg : Config} {s : System}

/-- A frame that raised would have closed the client. -/
theorem Sound.takes (h : Sound cfg s) {message : Message} {rest : List Message} (nowNs : ℤ)
    (first : s.inbound = message :: rest) :
    ∃ result, s.client.consumeFrame cfg (message.frame cfg) nowNs = .ok result := by
  have alive := (h.step (.read s message rest nowNs first)).alive
  cases consumed : s.client.consumeFrame cfg (message.frame cfg) nowNs with
  | ok result => exact ⟨result, rfl⟩
  | error e => simp [Client.readFrame, consumed, Client.failClosed] at alive

theorem Sound.served (h : Sound cfg s) (tidy : Tidy s.client) : Served cfg s where
  alive := h.alive
  takes _ _ nowNs first := h.takes nowNs first
  single _ _ _ := h.one_channel
  published message rest nowNs first some' := by
    obtain ⟨k, channelId, items, same, own, -, wanted⟩ := readFrame_published some'
    refine ⟨k, channelId, items, same, own, wanted, fun sent => ?_⟩
    exact (h.spent channelId sent).2.1 k own
  drained drained k := ⟨h.drained_iff tidy drained k, h.drained_opened drained k⟩

/-- In every interleaving with a conforming venue, where no call gives a kind up under a suspended
subscribe call of the same kind: the client takes every frame, keeps one channel of a kind at most
and publishes nothing from a channel that it has given up. Once the traffic has drained, a kind has
its channel if and only if it is still wanted. -/
theorem subscriptions_served (h : Reachable cfg (Timely cfg) s) : Served cfg s :=
  h.sound.served h.tidy

end Served

section Overlap

variable {cfg : Config} {meets : Client → Command → Prop} {s t : System}

theorem Reachable.call (h : Reachable cfg meets s) (command : Command)
    (allowed : meets s.client command) :
    Reachable cfg meets (s.act (s.client.command cfg command)) := by
  refine h.next (.command s command) ?_
  rintro _ ⟨⟩
  exact allowed

theorem Reachable.silent (h : Reachable cfg meets s) (step : Step cfg s none t) :
    Reachable cfg meets t := by
  refine h.next step ?_
  rintro _ ⟨⟩

theorem Reachable.reads (h : Reachable cfg meets s) {message : Message} {rest : List Message}
    {c : Client}
    (first : s.inbound = message :: rest)
    (read : s.client.readFrame cfg (message.frame cfg) 0 = (c, [])) :
    Reachable cfg meets { s with client := c, inbound := rest } := by
  have next := h.silent (.read s message rest 0 first)
  rw [read] at next
  exact next

def sampleConfig : Config where
  instrumentId := "XAUTF0-USTF0.BITFINEX"
  rawSymbol := "tXAUTF0:USTF0"
  exactPrice _ := true
  exactQuantity _ := true
  repr _ := ""

/-- A subscription given up ahead of its answer, before the deferred task has sent its request. -/
def deferred : System where
  client := {
    lanes := Function.update (fun _ => {}) .funding
      { pendingUnsubscribeChannelId := some 1, unsubscribeTask := some (1, false) }
    checksumConfigured := true }
  sent := [.conf, .subscribe .funding]
  kinds := Function.update (fun _ => none) 1 (some .funding)
  opened := {1}

theorem deferred_reachable : Reachable sampleConfig (Timely sampleConfig) deferred := by
  have begun : Reachable sampleConfig (Timely sampleConfig) {} := .start
  have asked :=
    (begun.call (.subscribeFundingRates sampleConfig.instrumentId) (by rintro _ ⟨⟩)).silent
    (.configured _)
  have flagged :=
    (asked.silent
    (.answerConf _ [.subscribe .funding none] (fun k => by cases k <;> rfl) rfl)).reads
    rfl read_conf
  have gives := flagged.call (.unsubscribeFundingRates sampleConfig.instrumentId)
    (by intro k _; cases k <;> exact ⟨rfl, rfl⟩)
  have given :=
    gives.silent (.give _ .funding [] [] 1 (fun k => by cases k <;> rfl) rfl (by decide) rfl)
  have answered := given.silent (.answerSubscribe _ .funding 1 [] (fun k => by cases k <;> rfl) rfl)
  have bound := answered.reads rfl (read_subscribed rfl rfl (by decide)
    (fun k => by cases k <;> exact ⟨by rintro ⟨⟩, by rintro ⟨⟩⟩) (.inr (by decide)))
  convert bound using 1
  · simp [deferred, System.act, System.send, Client.command, Client.ensureSubscription,
      Client.requestSubscription, Client.sendSubscription, Client.setLane, Client.configured,
      Client.giveUpChannel, Client.bindChannel, Client.clearData, Function.update_idem]

theorem Reachable.mono {meets' : Client → Command → Prop} (h : Reachable cfg meets s)
    (weaker : ∀ c command, meets c command → meets' c command) : Reachable cfg meets' s := by
  induction h with
  | start => exact .start
  | next _ step allowed ih =>
    exact ih.next step fun command called => weaker _ _ (allowed command called)

/-- The deferred task has sent its request, and a subscribe call that it woke has asked for the
channel again. -/
def askedAgain (publishFunding : Bool) : System where
  client := {
    lanes := Function.update (fun _ => {}) .funding
      { pendingUnsubscribeChannelId := some 1, subscriptionRequested := true }
    publishFunding := publishFunding
    checksumConfigured := true }
  sent := [.conf, .subscribe .funding, .unsubscribe 1, .subscribe .funding]
  queue := [.unsubscribe 1, .subscribe .funding none]
  kinds := Function.update (fun _ => none) 1 (some .funding)
  opened := {1}

/-- The venue closes the old channel and opens a new one, whether or not it is still wanted. -/
theorem askedAgain_drains {publishFunding : Bool}
    (h : Reachable sampleConfig meets (askedAgain publishFunding)) :
    ∃ t, Reachable sampleConfig meets t ∧ t.Drained ∧ t.client.wanted .funding = publishFunding ∧
      (t.client.lanes .funding).channelId = some 2 := by
  have ended :=
    (h.silent (.answerUnsubscribe _ 1 [.subscribe .funding none] (fun k => by cases k <;> rfl) rfl
    (Finset.mem_singleton_self 1))).reads
      rfl (read_unsubscribed (k := .funding) rfl (by rintro _ ⟨⟩))
  have given :=
    ended.silent (.give _ .funding [] [] 2 (fun k => by cases k <;> rfl) rfl (by decide) rfl)
  have answered := given.silent (.answerSubscribe _ .funding 2 [] (fun k => by cases k <;> rfl) rfl)
  have bound := answered.reads rfl (read_subscribed rfl rfl (by decide)
    (fun k => by cases k <;> exact ⟨by rintro ⟨⟩, by rintro ⟨⟩⟩) (.inr (Nat.le_refl 1)))
  exact ⟨_, bound,
    ⟨rfl, rfl, rfl, fun k => by cases k <;> rintro _ ⟨⟩, fun k => by cases k <;> rfl⟩, rfl, rfl⟩

/-- A subscribe call that waits for the deferred task, and is given up before it goes on, asks for a
channel that nothing publishes. -/
theorem overlapping_subscribe_survives :
    ∃ s, Reachable sampleConfig (fun _ _ => True) s ∧ s.Drained ∧
    s.client.wanted .funding = false ∧ (s.client.lanes .funding).channelId = some 2 ∧
    ¬Served sampleConfig s := by
  have begun : Reachable sampleConfig (fun _ _ => True) deferred :=
    deferred_reachable.mono fun _ _ _ => trivial
  have waits := begun.call (.subscribeFundingRates sampleConfig.instrumentId) trivial
  have gives := waits.call (.unsubscribeFundingRates sampleConfig.instrumentId) trivial
  have resumes := (gives.silent (.unsubscribeTask _ .funding)).silent (.resume _ .funding)
  have asked : Reachable sampleConfig (fun _ _ => True) (askedAgain false) := by
    convert resumes using 1
    simp [askedAgain, deferred, System.act, Client.command, Client.ensureSubscription,
      Client.requestSubscription,
      Client.sendSubscription, Client.setLane, Client.runUnsubscribeTask, Client.resumeSubscription,
      Client.giveUpChannel, Asked.of]
  obtain ⟨s, run, drained, unwanted, own⟩ := askedAgain_drains asked
  refine ⟨s, run, drained, unwanted, own, fun served => ?_⟩
  have wanted := (served.drained drained .funding).1.1 (by simp [own])
  rw [unwanted] at wanted
  cases wanted

/-- A subscribe call that waits for the deferred task, and is still wanted when it goes on. -/
theorem subscriptions_served_again :
    ∃ s, Reachable sampleConfig (Timely sampleConfig) s ∧ s.Drained ∧
    s.client.wanted .funding = true ∧ (s.client.lanes .funding).channelId = some 2 ∧
    Served sampleConfig s := by
  have waits :=
    deferred_reachable.call (.subscribeFundingRates sampleConfig.instrumentId) (by rintro _ ⟨⟩)
  have resumes := (waits.silent (.unsubscribeTask _ .funding)).silent (.resume _ .funding)
  have asked : Reachable sampleConfig (Timely sampleConfig) (askedAgain true) := by
    convert resumes using 1
    simp [askedAgain, deferred, System.act, Client.command, Client.ensureSubscription,
      Client.requestSubscription,
      Client.sendSubscription, Client.setLane, Client.runUnsubscribeTask, Client.resumeSubscription,
      Asked.of]
  obtain ⟨s, run, drained, wanted, own⟩ := askedAgain_drains asked
  exact ⟨s, run, drained, wanted, own, subscriptions_served run⟩

end Overlap
end ArbNautilus.Bitfinex.DataClient
