import ArbNautilus.Bitfinex.Subscriptions

/-! One kind's subscription: what the client holds of it beside the answers that the venue still
owes. -/

namespace ArbNautilus.Bitfinex.DataClient

open Base Book

section Lanes

/-- An answer that the client has not read, whether or not the venue has given it. -/
inductive Owed
  | subscribed (kind : Kind) (channelId : Option ℤ)
  | unsubscribed (channelId : ℤ)
deriving DecidableEq

/-- The deferred task has not sent its request. -/
def Lane.Deferred (lane : Lane) (channelId : ℤ) :
    Prop := lane.unsubscribeTask = some (channelId, false)

/-- The answer owed for a channel that was given up. -/
def Lane.answers (lane : Lane) : List Owed :=
  match lane.pendingUnsubscribeChannelId, lane.unsubscribeTask with
  | none, _ => []
  | some _, some (_, false) => []
  | some channelId, _ => [.unsubscribed channelId]

/-- The answer owed for a channel that was asked for; none while the request still waits to be
sent. -/
def Lane.asked (k : Kind) (lane : Lane) (queued : Prop) [Decidable queued] (given : Option ℤ) :
    List Owed :=
  if lane.subscriptionRequested = true ∧ lane.channelId = none ∧ ¬queued then [.subscribed k given]
    else []

/-- The lane and what is owed to it agree. -/
structure LaneOk (k : Kind) (lane : Lane) (queued : Prop) [Decidable queued] (wanted : Bool)
    (mine : List Owed) : Prop where
  owes : ∃ given, mine = lane.answers ++ lane.asked k queued given
  deferred : ∀ channelId, lane.Deferred channelId →
    lane.pendingUnsubscribeChannelId = some channelId ∧
    lane.subscriptionRequested = false ∧ lane.woken = 0
  waits : lane.waiting ≠ 0 → ∃ channelId, lane.Deferred channelId
  alone : lane.channelId ≠ none → lane.subscriptionRequested = true ∧
    lane.pendingUnsubscribeChannelId = none
  unsent : queued → lane.subscriptionRequested = true ∧ lane.channelId = none
  wants : wanted = true → lane.subscriptionRequested = true ∧ lane.unsubscribeOnAck = false ∨
    lane.waiting ≠ 0 ∨ lane.woken ≠ 0

variable {k : Kind} {lane : Lane} {queued : Prop} [Decidable queued] {wanted : Bool}
  {mine rest : List Owed}
  {channelId : ℤ} {given : Option ℤ}

theorem LaneOk.unwanted (h : LaneOk k lane queued wanted mine) : LaneOk k lane queued false mine :=
  ⟨h.owes, h.deferred, h.waits, h.alone, h.unsent, fun never => Bool.noConfusion never⟩

theorem Lane.answers_of_free (free : ∀ channelId, ¬lane.Deferred channelId) : lane.answers =
    (lane.pendingUnsubscribeChannelId.map Owed.unsubscribed).toList := by
  unfold Lane.answers
  split
  · rename_i none'
    rw [none']
    rfl
  · rename_i channelId other pending task
    exact absurd task (free other)
  · rename_i channelId pending _
    rw [pending]
    rfl

/-- A subscribe call that waits for the deferred task. -/
theorem LaneOk.wait (h : LaneOk k lane queued wanted mine) (task : lane.Deferred channelId) :
    LaneOk k { lane with waiting := lane.waiting + 1 } queued true mine where
  owes := h.owes
  deferred := h.deferred
  waits _ := ⟨channelId, task⟩
  alone := h.alone
  unsent := h.unsent
  wants _ := .inr (.inl (Nat.succ_ne_zero _))

/-- A subscribe call of a kind that has been asked for already. -/
theorem LaneOk.again (h : LaneOk k lane queued wanted mine)
    (free : ∀ channelId, ¬lane.Deferred channelId)
    (requested : lane.subscriptionRequested = true) :
    LaneOk k { lane with unsubscribeTask := none, unsubscribeOnAck := false } queued true mine where
  owes := by
    obtain ⟨given, rfl⟩ := h.owes
    refine ⟨given, ?_⟩
    rw [Lane.answers_of_free free, Lane.answers_of_free (fun _ => by simp [Lane.Deferred])]
    rfl
  deferred _ never := by cases never
  waits some' := by
    obtain ⟨other, task⟩ := h.waits some'
    exact absurd task (free other)
  alone := h.alone
  unsent := h.unsent
  wants _ := .inl ⟨requested, rfl⟩

/-- A subscribe call that asks for the channel: the request is sent, or waits for the lock. -/
theorem LaneOk.ask (queued' : Prop) [Decidable queued'] (h : LaneOk k lane queued wanted mine)
    (free : ∀ channelId, ¬lane.Deferred channelId) (without : lane.subscriptionRequested = false) :
    LaneOk k
      { lane with unsubscribeTask := none, unsubscribeOnAck := false, subscriptionRequested :=
      true }
      queued' true (if queued' then mine else mine ++ [.subscribed k none]) where
  owes := by
    obtain ⟨given, rfl⟩ := h.owes
    have unasked : lane.asked k queued given = [] := by simp [Lane.asked, without]
    have unbound : lane.channelId = none := by
      by_contra bound
      rw [(h.alone bound).1] at without
      cases without
    refine ⟨none, ?_⟩
    rw [unasked, Lane.answers_of_free free, Lane.answers_of_free (fun _ => by simp [Lane.Deferred])]
    split <;> simp_all [Lane.asked]
  deferred _ never := by cases never
  waits some' := by
    obtain ⟨other, task⟩ := h.waits some'
    exact absurd task (free other)
  alone bound := by
    rw [(h.alone bound).1] at without
    cases without
  unsent _ := by
    refine ⟨rfl, ?_⟩
    by_contra bound
    rw [(h.alone bound).1] at without
    cases without
  wants _ := .inl ⟨rfl, rfl⟩

/-- The request that waited for the lock is sent. -/
theorem LaneOk.send {queued' : Prop} [Decidable queued'] (h : LaneOk k lane queued wanted mine)
    (waits : queued)
    (sent : ¬queued') : LaneOk k lane queued' wanted (mine ++ [.subscribed k none]) where
  owes := by
    obtain ⟨given, rfl⟩ := h.owes
    obtain ⟨requested, unbound⟩ := h.unsent waits
    exact ⟨none, by simp [Lane.asked, waits, sent, requested, unbound]⟩
  deferred := h.deferred
  waits := h.waits
  alone := h.alone
  unsent still := absurd still sent
  wants := h.wants

/-- The deferred task has sent its request. -/
theorem LaneOk.runTask (h : LaneOk k lane queued wanted mine) (task : lane.Deferred channelId) :
    LaneOk k { lane with
      unsubscribeTask := some (channelId, true)
      waiting := 0
      woken := lane.woken + lane.waiting } queued wanted (mine ++ [.unsubscribed channelId]) where
  owes := by
    obtain ⟨given, rfl⟩ := h.owes
    obtain ⟨pending, without, -⟩ := h.deferred channelId task
    refine ⟨none, ?_⟩
    simp [Lane.answers, Lane.asked, pending, without, show lane.unsubscribeTask =
      some (channelId, false) from task]
  deferred _ never := by cases never
  waits never := absurd rfl never
  alone := h.alone
  unsent := h.unsent
  wants kept := by
    obtain requested | waiting | woken := h.wants kept
    · exact .inl requested
    · exact .inr (.inr (by simp only; omega))
    · exact .inr (.inr (by simp only; omega))

/-- An unsubscribe call ahead of the channel's answer. -/
theorem LaneOk.postpone (h : LaneOk k lane queued wanted mine) :
    LaneOk k { lane with unsubscribeOnAck := true } queued false mine :=
  ⟨h.owes, h.deferred, h.waits, h.alone, h.unsent, fun never => Bool.noConfusion never⟩

theorem LaneOk.free_of_requested (h : LaneOk k lane queued wanted mine)
    (requested : lane.subscriptionRequested = true) : ∀ other, ¬lane.Deferred other := by
  intro other task
  rw [(h.deferred other task).2.1] at requested
  cases requested

/-- An unsubscribe call that gives the channel up. -/
theorem LaneOk.giveUp (h : LaneOk k lane queued wanted mine)
    (bound : lane.channelId = some channelId) :
    LaneOk k { lane with
      subscriptionRequested := false
      channelId := none
      pendingUnsubscribeChannelId := some channelId } queued false
        (mine ++ [.unsubscribed channelId]) where
  owes := by
    obtain ⟨given, rfl⟩ := h.owes
    have some' : lane.channelId ≠ none := by simp [bound]
    obtain ⟨requested, idle⟩ := h.alone some'
    have free := h.free_of_requested requested
    refine ⟨none, ?_⟩
    rw [Lane.answers_of_free free, Lane.answers_of_free (by intro other; exact free other)]
    simp [Lane.asked, idle, bound]
  deferred other task := by
    have some' : lane.channelId ≠ none := by simp [bound]
    exact absurd task (h.free_of_requested (h.alone some').1 other)
  waits := h.waits
  alone never := absurd rfl never
  unsent waits := by
    have unbound := (h.unsent waits).2
    rw [bound] at unbound
    cases unbound
  wants never := Bool.noConfusion never

/-- What an answer that comes first says of the lane that asked for it. -/
theorem LaneOk.of_subscribed (h : LaneOk k lane queued wanted (.subscribed k given :: rest)) :
    lane.subscriptionRequested = true ∧ lane.channelId = none ∧
      lane.pendingUnsubscribeChannelId = none ∧ ¬queued ∧
      rest = [] := by
  obtain ⟨other, same⟩ := h.owes
  have asks : lane.subscriptionRequested = true ∧ lane.channelId = none ∧ ¬queued := by
    by_contra never
    have first : Owed.subscribed k given ∈ lane.answers ++ lane.asked k queued other :=
      same ▸ List.mem_cons_self
    rw [Lane.asked, if_neg never, List.append_nil] at first
    unfold Lane.answers at first
    split at first <;> simp at first
  have idle : lane.pendingUnsubscribeChannelId = none := by
    rw [Lane.answers_of_free (h.free_of_requested asks.1)] at same
    cases pending : lane.pendingUnsubscribeChannelId with
    | none => rfl
    | some channelId => simp [pending] at same
  refine ⟨asks.1, asks.2.1, idle, asks.2.2, ?_⟩
  rw [Lane.answers_of_free (h.free_of_requested asks.1), idle, Lane.asked, if_pos asks] at same
  simp only [Option.map_none, Option.toList_none, List.nil_append, List.cons.injEq] at same
  exact same.2

/-- The channel is bound. -/
theorem LaneOk.bind (h : LaneOk k lane queued wanted (.subscribed k given :: rest)) :
    LaneOk k { lane with channelId := some channelId } queued wanted rest where
  owes := by
    obtain ⟨requested, -, idle, -, rfl⟩ := h.of_subscribed
    exact ⟨none, by simp [Lane.answers, Lane.asked, idle]⟩
  deferred := h.deferred
  waits := h.waits
  alone _ := ⟨h.of_subscribed.1, h.of_subscribed.2.2.1⟩
  unsent waits := absurd waits h.of_subscribed.2.2.2.1
  wants := h.wants

/-- The channel is given up as soon as it is there. -/
theorem LaneOk.bindEnd (h : LaneOk k lane queued wanted (.subscribed k given :: rest))
    (postponed : lane.unsubscribeOnAck = true) (asleep : lane.woken = 0) :
    LaneOk k { lane with
      unsubscribeOnAck := false
      subscriptionRequested := false
      channelId := none
      pendingUnsubscribeChannelId := some channelId
      unsubscribeTask := some (channelId, false) } queued wanted rest where
  owes := by
    obtain ⟨-, -, -, -, rfl⟩ := h.of_subscribed
    exact ⟨none, by simp [Lane.answers, Lane.asked]⟩
  deferred other task := by
    cases task
    exact ⟨rfl, rfl, asleep⟩
  waits _ := ⟨channelId, rfl⟩
  alone never := absurd rfl never
  unsent waits := absurd waits h.of_subscribed.2.2.2.1
  wants kept := by
    obtain ⟨-, now⟩ | waiting | woken := h.wants kept
    · rw [postponed] at now
      cases now
    · obtain ⟨other, task⟩ := h.waits waiting
      exact absurd task (h.free_of_requested h.of_subscribed.1 other)
    · exact absurd asleep woken

theorem LaneOk.of_unsubscribed (h : LaneOk k lane queued wanted (.unsubscribed channelId :: rest)) :
    lane.pendingUnsubscribeChannelId = some channelId ∧ ∀ other, ¬lane.Deferred other := by
  obtain ⟨other, same⟩ := h.owes
  have free : ∀ other, ¬lane.Deferred other := by
    intro deferred task
    obtain ⟨pending, without, -⟩ := h.deferred deferred task
    simp [Lane.answers, Lane.asked, pending, without, show lane.unsubscribeTask =
      some (deferred, false) from task]
      at same
  refine ⟨?_, free⟩
  rw [Lane.answers_of_free free] at same
  cases pending : lane.pendingUnsubscribeChannelId with
  | none =>
    rw [pending] at same
    simp only [Option.map_none, Option.toList_none, List.nil_append, Lane.asked] at same
    split at same <;> cases same
  | some held =>
    rw [pending] at same
    simp only [Option.map_some, Option.toList_some, List.singleton_append, List.cons.injEq,
      Owed.unsubscribed.injEq] at same
    rw [same.1]

/-- The venue has closed the channel that was given up. -/
theorem LaneOk.end (h : LaneOk k lane queued wanted (.unsubscribed channelId :: rest)) :
    LaneOk k { lane with pendingUnsubscribeChannelId := none } queued wanted rest where
  owes := by
    obtain ⟨pending, free⟩ := h.of_unsubscribed
    obtain ⟨other, same⟩ := h.owes
    refine ⟨other, ?_⟩
    rw [Lane.answers_of_free free, pending] at same
    simp only [Option.map_some, Option.toList_some, List.singleton_append, List.cons.injEq,
      true_and] at same
    rw [same]
    rfl
  deferred other task := absurd task (h.of_unsubscribed.2 other)
  waits := h.waits
  alone bound := ⟨(h.alone bound).1, rfl⟩
  unsent := h.unsent
  wants := h.wants

end Lanes

end ArbNautilus.Bitfinex.DataClient
