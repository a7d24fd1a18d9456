import ArbNautilus.Bitfinex.SubscriptionRuns

/-! What the venue's steps keep: a channel given, an answer, a heartbeat, data. -/

namespace ArbNautilus.Bitfinex.DataClient

open Base Book

section Owing

variable {k : Kind} {lane : Lane} {queued : Prop} [Decidable queued] {wanted : Bool}
  {before after : List Owed}
  {channelId : ℤ} {given : Option ℤ}

theorem not_subscribed_of_answers (other : Kind) : .subscribed other given ∉ lane.answers := by
  unfold Lane.answers
  split <;> simp

/-- The one answer to a subscription comes after everything else that the lane is owed. -/
theorem LaneOk.of_asked (h : LaneOk k lane queued wanted (before ++ .subscribed k given :: after)) :
    lane.subscriptionRequested = true ∧ lane.channelId = none ∧ ¬queued ∧ before = lane.answers ∧
      after = [] := by
  obtain ⟨other, same⟩ := h.owes
  by_cases asks : lane.subscriptionRequested = true ∧ lane.channelId = none ∧ ¬queued
  · refine ⟨asks.1, asks.2.1, asks.2.2, ?_⟩
    rw [Lane.asked, if_pos asks] at same
    obtain rfl | ⟨rest, last, rfl⟩ := List.eq_nil_or_concat after
    · exact ⟨(List.append_inj' same rfl).1, rfl⟩
    · have shorter : before ++ .subscribed k given :: rest = lane.answers := by
        have ends : (before ++ .subscribed k given :: rest) ++ [last] =
            lane.answers ++ [.subscribed k other] := by
          simpa using same
        exact (List.append_inj' ends rfl).1
      have listed : Owed.subscribed k given ∈ lane.answers := by simp [← shorter]
      exact absurd listed (not_subscribed_of_answers k)
  · rw [Lane.asked, if_neg asks, List.append_nil] at same
    have listed : Owed.subscribed k given ∈ lane.answers := by simp [← same]
    exact absurd listed (not_subscribed_of_answers k)

/-- The one answer to giving a channel up comes first. -/
theorem LaneOk.of_returned
    (h : LaneOk k lane queued wanted (before ++ .unsubscribed channelId :: after)) :
    before = [] ∧ lane.pendingUnsubscribeChannelId = some channelId := by
  suffices first : before = [] by
    subst first
    exact ⟨rfl, h.of_unsubscribed.1⟩
  obtain ⟨other, same⟩ := h.owes
  cases before with
  | nil => rfl
  | cons head tail =>
    have short : lane.answers.length ≤ 1 := by
      unfold Lane.answers
      split <;> simp
    have listed : Owed.unsubscribed channelId ∈ lane.asked k queued other := by
      cases answers : lane.answers with
      | nil =>
        rw [answers, List.nil_append] at same
        simp [← same]
      | cons first more =>
        rw [answers, List.length_cons] at short
        obtain rfl : more = [] := List.length_eq_zero_iff.1 (by omega)
        rw [answers, List.singleton_append, List.cons_append, List.cons.injEq] at same
        simp [← same.2]
    unfold Lane.asked at listed
    split at listed <;> simp at listed

/-- The venue gives the channel that was asked for. -/
theorem LaneOk.give (h : LaneOk k lane queued wanted (before ++ .subscribed k given :: after)) :
    LaneOk k lane queued wanted (before ++ .subscribed k (some channelId) :: after) where
  owes := by
    obtain ⟨requested, unbound, sent, rfl, rfl⟩ := h.of_asked
    exact ⟨some channelId, by rw [Lane.asked, if_pos ⟨requested, unbound, sent⟩]⟩
  deferred := h.deferred
  waits := h.waits
  alone := h.alone
  unsent := h.unsent
  wants := h.wants

end Owing

section Appended

variable {cfg : Config} {kinds : ℤ → Option Kind} {queue : List Owed} {live : Set ℤ}
  {messages : List Message}
  {message : Message} {channelId : ℤ} {book last after : P0Book} {payload : Value}
  {rest : List Value}

theorem orderly_append : Orderly kinds queue live (messages ++ [message]) ↔
    Orderly kinds (message.owed.toList ++ queue) live messages ∧
    Fits kinds (messages.foldl turn live) queue message := by
  induction messages generalizing live with
  | nil => simp [Orderly]
  | cons first messages ih =>
    have later : (messages ++ [message]).filterMap Message.owed ++ queue =
        messages.filterMap Message.owed ++ (message.owed.toList ++ queue) := by
      cases owed : message.owed <;> simp [owed]
    rw [List.cons_append, Orderly, Orderly, ih, later, List.foldl_cons, and_assoc]

/-- A channel that is new to the venue changes nothing for what it has sent. -/
theorem orderly_update (h : Orderly kinds queue live messages) (fresh : kinds channelId = none)
    (k : Kind) :
    Orderly (Function.update kinds channelId (some k)) queue live messages := by
  induction messages generalizing live with
  | nil => trivial
  | cons message messages ih =>
    refine ⟨?_, ih h.2⟩
    cases message with
    | data other payload rest =>
      obtain ⟨open', known, short, funding⟩ := h.1
      have apart : other ≠ channelId := fun same => known (same ▸ fresh)
      show other ∈ live ∧ Function.update kinds channelId (some k) other ≠ none ∧ _ ∧
        (Function.update kinds channelId (some k) other = some .funding → _)
      rw [Function.update_of_ne apart]
      exact ⟨open', known, short, funding⟩
    | _ => exact h.1

/-- A message that is not data of the channel. -/
def Message.Elsewhere (channelId : ℤ) : Message → Prop
  | .data other _ _ => other ≠ channelId
  | _ => True

theorem replays_append (h : Replays cfg channelId book messages last)
    (other : message.Elsewhere channelId) :
    Replays cfg channelId book (messages ++ [message]) last := by
  induction messages generalizing book with
  | nil =>
    cases message with
    | data number payload rest =>
      rw [List.nil_append, Replays, if_neg other]
      exact h
    | _ => exact h
  | cons first messages ih =>
    cases first with
    | data number payload rest =>
      rw [List.cons_append, Replays]
      rw [Replays] at h
      split at h
      · obtain ⟨next, taken, more⟩ := h
        rw [if_pos ‹_›]
        exact ⟨next, taken, ih more⟩
      · rw [if_neg ‹_›]
        exact ih h
    | _ => exact ih h

theorem replays_data (h : Replays cfg channelId book messages last)
    (taken : Taken cfg last (.int channelId :: payload :: rest) after) :
    Replays cfg channelId book (messages ++ [.data channelId payload rest]) after := by
  induction messages generalizing book with
  | nil =>
    rw [List.nil_append, Replays, if_pos rfl]
    exact ⟨after, (show book = last from h) ▸ taken, rfl⟩
  | cons first messages ih =>
    cases first with
    | data number payload rest =>
      rw [List.cons_append, Replays]
      rw [Replays] at h
      split at h
      · obtain ⟨next, took, more⟩ := h
        rw [if_pos ‹_›]
        exact ⟨next, took, ih more⟩
      · rw [if_neg ‹_›]
        exact ih h
    | _ => exact ih h

/-- What extends every replay of the channel extends the one after its answer. -/
theorem opens_append (h : Opens cfg channelId messages last)
    (extends' : ∀ book messages, Replays cfg channelId book messages last →
      Replays cfg channelId book (messages ++ [message]) after) :
        Opens cfg channelId (messages ++ [message]) after := by
  induction messages with
  | nil => exact h.elim
  | cons first messages ih =>
    cases first with
    | subscribed k other =>
      cases k with
      | book =>
        rw [List.cons_append, Opens]
        rw [Opens] at h
        split at h
        · rw [if_pos ‹_›]
          exact extends' _ _ h
        · rw [if_neg ‹_›]
          exact ih h
      | funding => exact ih h
    | _ => exact ih h

theorem opens_fresh (h : .subscribed .book channelId ∉ messages) :
    Opens cfg channelId (messages ++ [.subscribed .book channelId]) .empty := by
  induction messages with
  | nil =>
    rw [List.nil_append, Opens, if_pos rfl]
    rfl
  | cons first messages ih =>
    rw [List.mem_cons, not_or] at h
    cases first with
    | subscribed k other =>
      cases k with
      | book =>
        have apart : other ≠ channelId := fun same => h.1 (by rw [same])
        rw [List.cons_append, Opens, if_neg apart]
        exact ih h.2
      | funding => exact ih h.2
    | _ => exact ih h.2

theorem mem_foldl_turn (h : channelId ∈ live) (kept : .unsubscribed channelId ∉ messages) :
    channelId ∈ messages.foldl turn live := by
  induction messages generalizing live with
  | nil => exact h
  | cons first messages ih =>
    rw [List.mem_cons, not_or] at kept
    apply ih _ kept.2
    cases first with
    | subscribed k other => exact .inr h
    | unsubscribed other => exact ⟨h, fun same => kept.1 (by rw [Set.mem_singleton_iff.1 same])⟩
    | _ => exact h

end Appended

section Venue

variable {cfg : Config} {s : System} {message : Message} {queue : List Asked} {opened : Finset ℤ}
  {books : ℤ → P0Book}

theorem send_owed
    (moves : s.queue.filterMap Asked.owed = message.owed.toList ++ queue.filterMap Asked.owed) :
    ({ s with queue := queue, opened := opened, books := books }.send message).owed = s.owed := by
  cases owed : message.owed <;> simp [System.owed, System.send, owed, moves]

theorem mem_owed_of_inbound {k : Kind} {channelId : ℤ} (h : .subscribed k channelId ∈ s.inbound) :
    .subscribed k (some channelId) ∈ s.owed :=
  List.mem_append_left _ (List.mem_filterMap.2 ⟨_, h, rfl⟩)

/-- One message more, that answers what stood first in the queue or answers nothing. -/
theorem Sound.send (h : Sound cfg s) (settled : s.Settled)
    (moves : s.queue.filterMap Asked.owed = message.owed.toList ++ queue.filterMap Asked.owed)
    (turns : (opened : Set ℤ) = turn s.opened message)
    (fits : Fits s.kinds s.opened (queue.filterMap Asked.owed) message)
    (bound : ∀ channelId, (s.client.lanes .book).channelId = some channelId →
      Replays cfg channelId s.client.book (s.inbound ++ [message]) (books channelId))
    (opens : ∀ channelId, .subscribed .book channelId ∈ s.inbound ++ [message] →
      Opens cfg channelId (s.inbound ++ [message]) (books channelId)) :
    Sound cfg ({ s with queue := queue, opened := opened, books := books }.send message) where
  alive := h.alive
  lane k := by
    unfold System.owedTo
    rw [send_owed moves]
    exact h.lane k
  nodup := h.nodup
  kinds := h.kinds
  given k channelId owed := by
    rw [send_owed moves] at owed
    exact h.given k channelId owed
  returned channelId owed := by
    rw [send_owed moves] at owed
    exact h.returned channelId owed
  opened := by
    show (opened : Set ℤ) = (s.inbound ++ [message]).foldl turn s.client.held
    rw [turns, h.opened, List.foldl_append, List.foldl_cons, List.foldl_nil]
  orderly := by
    show Orderly s.kinds (queue.filterMap Asked.owed) s.client.held (s.inbound ++ [message])
    rw [orderly_append, ← moves, ← h.opened]
    exact ⟨h.orderly, fits⟩
  early k awake := absurd (settled k) awake
  counted channelId listed := by
    rw [send_owed moves]
    exact h.counted channelId listed
  quotable := h.quotable
  bound := bound
  opens := opens
  spent channelId sent := by
    rw [send_owed moves]
    exact h.spent channelId sent

/-- A message that is neither data nor the answer to a subscription leaves the books as they are. -/
theorem Sound.send_plain (h : Sound cfg s) (settled : s.Settled)
    (moves : s.queue.filterMap Asked.owed = message.owed.toList ++ queue.filterMap Asked.owed)
    (turns : (opened : Set ℤ) = turn s.opened message)
    (fits : Fits s.kinds s.opened (queue.filterMap Asked.owed) message)
    (plain : ∀ channelId, message.Elsewhere channelId)
    (unbinds : ∀ k channelId, message ≠ .subscribed k channelId) :
    Sound cfg ({ s with queue := queue, opened := opened }.send message) := by
  refine h.send settled moves turns fits (fun channelId own => ?_) fun channelId listed => ?_
  · exact replays_append (h.bound channelId own) (plain channelId)
  · rw [List.mem_append, List.mem_singleton, or_iff_left (unbinds .book channelId).symm] at listed
    exact opens_append (h.opens channelId listed) fun book messages replays => replays_append
      replays (plain channelId)

theorem Sound.give (h : Sound cfg s) {k : Kind} {earlier later : List Asked} {channelId : ℤ}
    (waits : s.queue = earlier ++ .subscribe k none :: later) (positive : 0 < channelId)
    (fresh : s.kinds channelId = none) : Sound cfg { s with
      queue := earlier ++ .subscribe k (some channelId) :: later
      kinds := Function.update s.kinds channelId (some k) } := by
  have known {other : ℤ} (some' : s.kinds other ≠ none) :
      Function.update s.kinds channelId (some k) other = s.kinds other := by
    have apart : other ≠ channelId := fun same => some' (by rw [same, fresh])
    exact Function.update_of_ne apart _ _
  obtain ⟨first, last, old, new⟩ : ∃ first last, s.owed = first ++ .subscribed k none :: last ∧
      System.owed { s with
        queue := earlier ++ .subscribe k (some channelId) :: later
        kinds := Function.update s.kinds channelId (some k) } =
          first ++ .subscribed k (some channelId) :: last := by
    refine ⟨s.inbound.filterMap Message.owed ++ earlier.filterMap Asked.owed,
      later.filterMap Asked.owed, ?_, ?_⟩
    · simp [System.owed, waits, Asked.owed]
    · simp [System.owed, Asked.owed]
  have kept {owed : Owed} (other : owed ≠ .subscribed k (some channelId)) (listed : owed ∈
      first ++ .subscribed k (some channelId) :: last) : owed ∈ s.owed := by
    rw [old]
    rw [List.mem_append, List.mem_cons] at listed ⊢
    exact listed.imp_right fun either => .inr (either.resolve_left other)
  have still {owed : Owed} (other : owed ≠ .subscribed k none) (listed : owed ∈ s.owed) :
      owed ∈ first ++ .subscribed k (some channelId) :: last := by
    rw [old, List.mem_append, List.mem_cons] at listed
    rw [List.mem_append, List.mem_cons]
    exact listed.imp_right fun either => .inr (either.resolve_left other)
  have isOf (j : Kind) (owed : Owed) (listed : owed ∈ s.owed) :
      owed.isOf (Function.update s.kinds channelId (some k)) j = owed.isOf s.kinds j := by
    cases owed with
    | subscribed other number => rfl
    | unsubscribed number => simp [Owed.isOf, known (h.known listed)]
  have filters (j : Kind) (part : List Owed) (sub : ∀ owed ∈ part, owed ∈ s.owed) :
      part.filter (Owed.isOf (Function.update s.kinds channelId (some k)) j) =
        part.filter (Owed.isOf s.kinds j) :=
    List.filter_congr fun owed listed => isOf j owed (sub owed listed)
  constructor
  case alive => exact h.alive
  case lane =>
    intro j
    have ok := h.lane j
    unfold System.owedTo at ok ⊢
    rw [old, List.filter_append] at ok
    rw [new, List.filter_append, filters j first (fun owed listed => by simp [old, listed])]
    by_cases same : k = j
    · rw [List.filter_cons_of_pos (by simp [Owed.isOf, same]), same] at ok
      rw [List.filter_cons_of_pos (by simp [Owed.isOf, same]),
        filters j last (fun owed listed => by simp [old, listed]), same]
      exact ok.give
    · rw [List.filter_cons_of_neg (by simp [Owed.isOf, same])] at ok
      rw [List.filter_cons_of_neg (by simp [Owed.isOf, same]),
        filters j last (fun owed listed => by simp [old, listed])]
      exact ok
  case nodup => exact h.nodup
  case kinds =>
    intro j number own
    have kind := h.kinds j number own
    exact (known (by simp [kind])).trans kind
  case given =>
    intro j number listed
    rw [new] at listed
    by_cases given : Owed.subscribed j (some number) = .subscribed k (some channelId)
    · cases given
      refine ⟨Function.update_self _ _ _, positive, fun pending => ?_⟩
      have kind := h.kinds k channelId (.inr pending)
      rw [fresh] at kind
      cases kind
    · obtain ⟨kind, rest⟩ := h.given j number (kept given listed)
      exact ⟨(known (by simp [kind])).trans kind, rest⟩
  case returned =>
    intro number listed
    rw [new] at listed
    exact h.returned number (kept (by simp) listed)
  case opened => exact h.opened
  case orderly =>
    refine orderly_mono (orderly_update h.orderly fresh k) fun j number listed => ?_
    rw [waits] at listed
    simp only [List.filterMap_append, List.mem_append, List.filterMap_cons, Asked.owed,
      List.mem_cons] at listed ⊢
    obtain listed | never | listed := listed
    · exact .inl listed
    · cases never
    · exact .inr (.inr listed)
  case early => exact h.early
  case counted =>
    intro number listed
    obtain ⟨j, given⟩ := h.counted number listed
    exact ⟨j, new ▸ still (by simp) given⟩
  case quotable => exact h.quotable
  case bound => exact h.bound
  case opens => exact h.opens
  case spent =>
    intro number sent
    obtain ⟨some', unbound, unowed⟩ := h.spent number sent
    refine ⟨fun none' => some' ((known some').symm.trans none'), unbound, fun j listed => ?_⟩
    rw [new] at listed
    by_cases given : Owed.subscribed j (some number) = .subscribed k (some channelId)
    · cases given
      exact some' fresh
    · exact unowed j (kept given listed)

theorem Sound.answerSubscribe (h : Sound cfg s) (settled : s.Settled) {k : Kind} {channelId : ℤ}
    {later : List Asked} (first : s.queue = .subscribe k (some channelId) :: later) :
    Sound cfg ({ s with
      queue := later
      opened := insert channelId s.opened
      books := Function.update s.books channelId .empty }.send (.subscribed k channelId)) := by
  have owed : .subscribed k (some channelId) ∈ s.owed := by simp [System.owed, first, Asked.owed]
  refine h.send settled (by simp [first, Message.owed, Asked.owed]) (by simp [turn]) trivial
    (fun number own => ?_) fun number listed => ?_
  · have apart : number ≠ channelId := fun same => h.unheld owed ⟨.book, .inl (same ▸ own)⟩
    rw [Function.update_of_ne apart]
    exact replays_append (h.bound number own) trivial
  · by_cases same : number = channelId
    · subst same
      rw [Function.update_self]
      have kind : k = .book := by
        obtain old | new := List.mem_append.1 listed
        · have own := (h.given .book number (mem_owed_of_inbound old)).1
          rw [(h.given k number owed).1] at own
          exact Option.some.inj own
        · exact ((Message.subscribed.injEq ..).mp (List.mem_singleton.1 new)).1.symm
      subst kind
      refine opens_fresh fun old => ?_
      have ok := h.lane .book
      unfold System.owedTo System.owed at ok
      rw [List.filter_append, first, List.filterMap_cons] at ok
      simp only [Asked.owed, Owed.isOf, decide_true, List.filter_cons_of_pos] at ok
      have twice : Owed.subscribed .book (some number) ∈ (s.client.lanes .book).answers := by
        rw [← ok.of_asked.2.2.2.1]
        exact List.mem_filter.2 ⟨List.mem_filterMap.2 ⟨_, old, rfl⟩, by simp [Owed.isOf]⟩
      exact not_subscribed_of_answers _ twice
    · have old : .subscribed .book number ∈ s.inbound := by
        rw [List.mem_append, List.mem_singleton] at listed
        refine listed.resolve_right fun eq => same ?_
        cases eq
        rfl
      rw [Function.update_of_ne same]
      exact opens_append (h.opens number old) fun book messages replays => replays_append replays
        trivial

/-- A channel that is given up is open until the venue has answered. -/
theorem Sound.live_of_returned (h : Sound cfg s) {channelId : ℤ} {later : List Asked}
    (first : s.queue = .unsubscribe channelId :: later) : channelId ∈ s.opened := by
  have owed : .unsubscribed channelId ∈ s.owed := by simp [System.owed, first, Asked.owed]
  obtain ⟨k, kind⟩ := Option.ne_none_iff_exists'.1 (h.known owed)
  have ok := h.lane k
  unfold System.owedTo System.owed at ok
  rw [List.filter_append, first, List.filterMap_cons] at ok
  simp only [Asked.owed] at ok
  rw [List.filter_cons_of_pos (by simp [Owed.isOf, kind])] at ok
  obtain ⟨none', pending⟩ := ok.of_returned
  rw [← Finset.mem_coe, h.opened]
  refine mem_foldl_turn ⟨k, .inr pending⟩ fun closed => ?_
  have listed : Owed.unsubscribed channelId ∈ (s.inbound.filterMap Message.owed).filter
      (Owed.isOf s.kinds k) :=
    List.mem_filter.2 ⟨List.mem_filterMap.2 ⟨_, closed, rfl⟩, by simp [Owed.isOf, kind]⟩
  rw [none'] at listed
  cases listed

theorem Sound.data (h : Sound cfg s) (settled : s.Settled) {channelId : ℤ} {payload : Value}
    {rest : List Value}
    {book : P0Book} (live : channelId ∈ s.opened)
    (conforms : Conforms cfg s channelId payload rest book) :
    Sound cfg
      ({ s with books := Function.update s.books channelId book }.send
      (.data channelId payload rest)) := by
  unfold Conforms at conforms
  split at conforms
  · rename_i kind
    obtain ⟨nowNs, published, consumed⟩ := conforms
    have taken := taken_of_consumed consumed
    have short : rest.length ≤ 1 := by
      obtain ⟨number, payload', rest', same, short, -⟩ := taken.shaped
      cases same
      exact short
    have replays (number : ℤ) (from' : P0Book) (messages : List Message)
        (old : Replays cfg number from' messages (s.books number)) :
        Replays cfg number from' (messages ++ [.data channelId payload rest])
          (Function.update s.books channelId book number) := by
      by_cases same : number = channelId
      · subst same
        rw [Function.update_self]
        exact replays_data old taken
      · rw [Function.update_of_ne same]
        exact replays_append old (Ne.symm same)
    refine h.send settled rfl rfl ⟨live, by simp [kind], short, by simp [kind]⟩
      (fun number own => replays number _ _ (h.bound number own)) fun number listed => ?_
    simp only [List.mem_append, List.mem_singleton, reduceCtorEq, or_false] at listed
    exact opens_append (h.opens number listed) (replays number)
  · rename_i kind
    obtain ⟨rfl, nowNs, published, consumed⟩ := conforms
    have taken := fundingTaken_of_consumed consumed
    have short : rest.length ≤ 1 := by
      obtain ⟨number, payload', same, -⟩ := taken.shaped
      cases same
      simp
    rw [Function.update_eq_self]
    refine h.send settled rfl rfl ⟨live, by simp [kind], short, fun _ => taken⟩
      (fun number own => ?_)
      fun number listed => ?_
    · refine replays_append (h.bound number own) ?_
      rintro rfl
      rw [h.kinds .book channelId (.inl own)] at kind
      cases kind
    · simp only [List.mem_append, List.mem_singleton, reduceCtorEq, or_false] at listed
      refine opens_append (h.opens number listed) fun from' messages old => replays_append old ?_
      rintro rfl
      rw [(h.given .book channelId (mem_owed_of_inbound listed)).1] at kind
      cases kind
  · exact conforms.elim

end Venue

end ArbNautilus.Bitfinex.DataClient
